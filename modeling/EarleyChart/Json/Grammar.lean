import EarleyChart.Grammar.Basic
import EarleyChart.Json.Record

/-!
Grammar descriptions as JSON. A terminal is its name, or an object with name
and kind. Nonterminals and the start symbol are written only where there are
any.
-/

namespace EarleyChart

namespace TerminalDef

def toJson : TerminalDef → Json
  | .named name => .string name
  | .withKind name kind => .ofMembers [("name", .string name), ("kind", .nat kind)]

/-- A declared terminal. Which of its two forms a value has is seen only when
all of it is held, and it stands `depth` levels above the deepest allowed. -/
def ofJson? (depth : Nat) (json : Json) : Option TerminalDef :=
  if json.isHoldable depth then
    match json with
    | .string name => some (.named name)
    | .object _ => do
        match ← json.fields? ["name", "kind"] with
        | [name, kind] =>
            let name ← Json.needed? (·.text?) name
            let kind ← Json.needed? (·.word? 32) kind
            return .withKind name kind
        | _ => none
    | _ => none
  else none

instance : HasJson TerminalDef where
  toJson := toJson
  ofJson? := ofJson? Json.maxDepth

end TerminalDef

namespace RuleDef

def toJson (r : RuleDef) : Json :=
  .ofMembers [("lhs", .string r.lhs), ("rhs", .array (r.rhs.map .string))]

/-- A rule; without a right-hand side it is an empty one. -/
def ofJson? (json : Json) : Option RuleDef := do
  match ← json.fields? ["lhs", "rhs"] with
  | [lhs, rhs] =>
      return ⟨← Json.needed? (·.text?) lhs, ← Json.givenOr? [] (·.list? (·.text?)) rhs⟩
  | _ => none

instance : HasJson RuleDef where
  toJson := toJson
  ofJson? := ofJson?

end RuleDef

namespace GrammarDef

def toJson (d : GrammarDef) : Json :=
  .ofMembers <|
    [("terminals", .array (d.terminals.map TerminalDef.toJson))] ++
    (if d.nonterminals.isEmpty then []
      else [("nonterminals", .array (d.nonterminals.map .string))]) ++
    [("rules", .array (d.rules.map RuleDef.toJson))] ++
    d.start.toList.map fun start => ("start", .string start)

def startOfJson? : Json → Option (Option String)
  | .null => some none
  | .string start => some (some start)
  | _ => none

/-- A description. Its terminals stand two levels below it. -/
def ofJson? (json : Json) : Option GrammarDef := do
  match ← json.fields? ["terminals", "nonterminals", "rules", "start"] with
  | [terminals, nonterminals, rules, start] =>
      return {
        terminals := ← Json.needed? (·.list? (TerminalDef.ofJson? (Json.maxDepth - 2))) terminals
        nonterminals := ← Json.givenOr? [] (·.list? (·.text?)) nonterminals
        rules := ← Json.givenOr? [] (·.list? RuleDef.ofJson?) rules
        start := ← Json.givenOr? none startOfJson? start }
  | _ => none

instance : HasJson GrammarDef where
  toJson := toJson
  ofJson? := ofJson?

end GrammarDef

namespace Grammar

def toJsonText (g : Grammar) : String := Json.write g.toDef

def ofJsonText (text : String) : Except GrammarError Grammar :=
  match Json.read? GrammarDef text with
  | some d => d.toGrammar
  | none => .error (.unreadable "the text is no grammar description")

end Grammar
end EarleyChart
