import EarleyChart.Json.Record
import EarleyChart.Token.Basic

/-!
Positions and tokens as JSON.
-/

namespace EarleyChart

namespace Location

def toJson (l : Location) : Json :=
  .ofMembers [("line", .nat l.line), ("column", .nat l.column), ("offset", .nat l.offset)]

def ofJson? (json : Json) : Option Location := do
  match ← json.fields? ["line", "column", "offset"] with
  | [line, column, offset] =>
      return ⟨← Json.needed? (·.word? 64) line, ← Json.needed? (·.word? 64) column,
        ← Json.needed? (·.word? 64) offset⟩
  | _ => none

instance : HasJson Location where
  toJson := toJson
  ofJson? := ofJson?

end Location

namespace Token

def ofJson? (json : Json) : Option Token := do
  match ← json.fields? ["kind", "text", "location"] with
  | [kind, text, location] =>
      return ⟨← Json.needed? (·.word? 32) kind, ← Json.needed? (·.text?) text,
        ← Json.needed? Location.ofJson? location⟩
  | _ => none

instance : HasJson Token where
  toJson t := .ofMembers [
    ("kind", .nat t.kind), ("text", .string t.text), ("location", t.location.toJson)]
  ofJson? := ofJson?

end Token
end EarleyChart
