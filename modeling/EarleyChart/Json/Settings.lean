import EarleyChart.Json.Record
import EarleyChart.Parser.Config

/-!
Settings and costs as JSON. A recovery mode is its name, or an object with its
name and null; settings that are not given have their standard values.
-/

namespace EarleyChart

namespace RecoveryMode

def name : RecoveryMode → String
  | .disabled => "disabled"
  | .onFailure => "on_failure"
  | .continuous => "continuous"

def ofName? : String → Option RecoveryMode
  | "disabled" => some .disabled
  | "on_failure" => some .onFailure
  | "continuous" => some .continuous
  | _ => none

def ofJson? : Json → Option RecoveryMode
  | .string text => ofName? text
  | .object [(some text, .null)] => ofName? text
  | _ => none

instance : HasJson RecoveryMode where
  toJson mode := .string mode.name
  ofJson? := ofJson?

end RecoveryMode

namespace Config

def toJson (c : Config) : Json :=
  .ofMembers [
    ("recovery", .string c.recovery.name), ("max_error_value", .nat c.maxErrorValue),
    ("max_columns", .nat c.maxColumns), ("max_items", .nat c.maxItems),
    ("timeout_ms", .nat c.timeoutMs), ("expected_tokens", .nat c.expectedTokens)]

def ofJson? (json : Json) : Option Config := do
  let names := ["recovery", "max_error_value", "max_columns", "max_items", "timeout_ms",
    "expected_tokens"]
  match ← json.fields? names with
  | [recovery, maxErrorValue, maxColumns, maxItems, timeoutMs, expectedTokens] =>
      return {
        recovery := ← Json.givenOr? standard.recovery RecoveryMode.ofJson? recovery
        maxErrorValue := ← Json.givenOr? standard.maxErrorValue (·.word? 32) maxErrorValue
        maxColumns := ← Json.givenOr? standard.maxColumns (·.word? 64) maxColumns
        maxItems := ← Json.givenOr? standard.maxItems (·.word? 64) maxItems
        timeoutMs := ← Json.givenOr? standard.timeoutMs (·.word? 64) timeoutMs
        expectedTokens := ← Json.givenOr? standard.expectedTokens (·.word? 64) expectedTokens }
  | _ => none

instance : HasJson Config where
  toJson := toJson
  ofJson? := ofJson?

end Config

namespace CorrectionCost

def ofJson? (json : Json) : Option CorrectionCost := do
  match ← json.fields? ["substitution", "deletion"] with
  | [substitution, deletion] =>
      return ⟨← Json.needed? (·.word? 32) substitution, ← Json.needed? (·.word? 32) deletion⟩
  | _ => none

instance : HasJson CorrectionCost where
  toJson c := .ofMembers [("substitution", .nat c.substitution), ("deletion", .nat c.deletion)]
  ofJson? := ofJson?

end CorrectionCost
end EarleyChart
