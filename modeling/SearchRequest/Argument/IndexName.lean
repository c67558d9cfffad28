import SearchRequest.Argument.Basic

/-!
# Index names

An index name has at most 255 bytes. It is made of the lower-case ASCII letters, the ASCII digits,
the point, the underscore and the hyphen, starts with neither of the last two, and is neither `.`
nor `..`. The length is checked first, whatever else is wrong.
-/

namespace SearchRequest.Argument

/-- The character may stand in an index name. -/
def isIndexNameChar (c : Char) : Bool :=
  ('a' ≤ c && c ≤ 'z') || ('0' ≤ c && c ≤ '9') || c == '.' || c == '_' || c == '-'

/-- The character may not stand first in an index name. -/
def isLeadingMark (c : Char) : Bool := c == '-' || c == '_' || c == '+'

/-- The first rule that a name of acceptable length breaks. -/
def indexNameFault? (name : String) : Option IndexNameFault :=
  match name.toList with
  | [] => some .empty
  | ['.'] | ['.', '.'] => some .dots
  | first :: rest =>
    if isLeadingMark first then some .leadingMark
    else if (first :: rest).all isIndexNameChar then none
    else some .forbiddenCharacter

/-- An index name is short enough and follows the rules. -/
def indexName (name : String) : Checked Unit := do
  require (name.utf8ByteSize ≤ maxIndexNameBytes) .indexNameTooLong "index" "index"
  match indexNameFault? name with
  | some fault => .error (Fault.reject (.indexNameInvalid name fault) "index" "index")
  | none => .ok ()

end SearchRequest.Argument
