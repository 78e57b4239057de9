import EarleyChart.Json.Record
import EarleyChart.Lexer.Standard

/-!
Token definitions as JSON. Priority and the ignore mark may be left out.
-/

namespace EarleyChart
namespace TokenDef

def ofJson? (json : Json) : Option TokenDef := do
  match ← json.fields? ["name", "pattern", "priority", "ignore"] with
  | [name, pattern, priority, ignore] =>
      return {
        name := ← Json.needed? (·.text?) name
        pattern := ← Json.needed? (·.text?) pattern
        priority := ← Json.givenOr? 0 (·.intIn? Int32.minValue.toInt Int32.maxValue.toInt) priority
        ignore := ← Json.givenOr? false (·.bool?) ignore }
  | _ => none

instance : HasJson TokenDef where
  toJson d := .ofMembers [
    ("name", .string d.name), ("pattern", .string d.pattern), ("priority", .int d.priority),
    ("ignore", .bool d.ignore)]
  ofJson? := ofJson?

end TokenDef
end EarleyChart
