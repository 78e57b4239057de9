import EarleyChart.Parser.Basic

/-!
A run as one line: its settings, where it stands, and the size of its chart.
-/

namespace EarleyChart

def RecoveryMode.label : RecoveryMode → String
  | .disabled => "Disabled"
  | .onFailure => "OnFailure"
  | .continuous => "Continuous"

def EngineState.label : EngineState → String
  | .start => "Start"
  | .seeding => "Seeding"
  | .closing => "Closing"
  | .scanning => "Scanning"
  | .accepted => "Accepted"
  | .rejected => "Rejected"

def recordLine (name : String) (fields : List String) : String :=
  let inside := ", ".intercalate fields
  s!"{name} \x7b {inside} \x7d"

def Config.summary (c : Config) : String :=
  recordLine "EarleyConfig" [
    s!"recovery: {c.recovery.label}", s!"max_error_value: {c.maxErrorValue}",
    s!"max_columns: {c.maxColumns}", s!"max_items: {c.maxItems}",
    s!"timeout_ms: {c.timeoutMs}", s!"expected_tokens: {c.expectedTokens}"]

def Parser.summary (p : Parser) : String :=
  recordLine "EarleyParser" [
    s!"config: {p.config.summary}", s!"state: {p.state.label}",
    s!"columns: {p.columnCount}", s!"live_items: {p.liveItems}", ".."]

end EarleyChart
