import SearchRequest.Argument.IndexName
import SearchRequest.Decode
import SearchRequest.Document.Same
import SearchRequest.Json.Reader
import SearchRequest.Trace
import SearchRequest.Proofs.Objects
import SearchRequest.Proofs.Sections
import SearchRequest.Proofs.Atomicity
import SearchRequest.Proofs.Mapping
import SearchRequest.Proofs.KeysApart
import SearchRequest.Proofs.Written
import SearchRequest.Proofs.Readoption
import SearchRequest.Proofs.Cleanup
import SearchRequest.Proofs.Deep
import SearchRequest.Proofs.ClauseRules
import SearchRequest.Proofs.Reading
import SearchRequest.Proofs.Installing
import SearchRequest.Proofs.WrittenInFull
import SearchRequest.Proofs.Lookup
import SearchRequest.Proofs.Waiting
import SearchRequest.Proofs.Comparing
import SearchRequest.Proofs.Parameters
import SearchRequest.Proofs.Sound
import SearchRequest.Proofs.Asking
import SearchRequest.Proofs.Callbacks
import SearchRequest.Proofs.Wrapping
import SearchRequest.Proofs.Numbers
import SearchRequest.Proofs.RoundTrip
import SearchRequest.Proofs.Appending
import SearchRequest.Proofs.Parts
import SearchRequest.Proofs.Interleaving
import SearchRequest.Proofs.Arguments
import SearchRequest.Proofs.Attaching
import SearchRequest.Proofs.Spelling
import SearchRequest.Proofs.WellFormed
import SearchRequest.Proofs.Complexity
import SearchRequest.Proofs.Naming
import SearchRequest.Proofs.Rejecting
import SearchRequest.Proofs.FloatingArguments
import SearchRequest.Proofs.Reports
import SearchRequest.Proofs.WiderWindows
import SearchRequest.Proofs.Adopting
import SearchRequest.Proofs.Extending
import SearchRequest.Proofs.Calendar
import SearchRequest.Proofs.FixedWidth
import SearchRequest.Proofs.TimeOrder
import SearchRequest.Proofs.TimeReading
import SearchRequest.Proofs.Spans
import SearchRequest.Proofs.Metrics
import SearchRequest.Proofs.DistanceGrammar
import SearchRequest.Proofs.IndexNames
import SearchRequest.Proofs.RangeRules
import SearchRequest.Proofs.Highlighting
import SearchRequest.Proofs.Blaming
