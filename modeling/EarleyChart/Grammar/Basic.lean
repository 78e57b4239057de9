import EarleyChart.Grammar.Definition

/-!
Grammars with numbered symbols. Terminals are numbered from one in the order of
their declaration, nonterminals follow in the order of their first mention, and
zero is never a symbol. `GrammarDef.toGrammar` numbers a description or says
why it is none; `Grammar.toDef` writes a grammar as a description again.
-/

namespace EarleyChart

abbrev SymbolId := Nat

abbrev RuleId := Nat

/-- A terminal: its name and the token kind that stands for it. -/
structure Terminal where
  name : String
  kind : TokenKind
  deriving DecidableEq, Repr

structure Rule where
  lhs : SymbolId
  rhs : List SymbolId
  deriving DecidableEq, Repr, Inhabited

def nameTable (terminals : List Terminal) (nonterminals : List String) :
    List (String × SymbolId) :=
  (terminals.map (·.name) ++ nonterminals).zipIdx 1

/-- Token kinds with the numbers of their terminals. -/
def kindTable (terminals : List Terminal) : List (TokenKind × SymbolId) :=
  (terminals.map (·.kind)).zipIdx 1

/-- The symbols of a grammar, in the order of their numbers, and the tables that lead
from names and token kinds to numbers. Where no tables are given they are those of
the lists. -/
structure Symbols where
  terminals : List Terminal
  nonterminals : List String
  byName : List (String × SymbolId) := nameTable terminals nonterminals
  byKind : List (TokenKind × SymbolId) := kindTable terminals
  deriving DecidableEq, Repr

namespace Symbols

def terminalCount (s : Symbols) : Nat := s.terminals.length

def nonterminalCount (s : Symbols) : Nat := s.nonterminals.length

/-- Number of symbols; also the greatest number of a symbol. -/
def symbolCount (s : Symbols) : Nat := s.terminalCount + s.nonterminalCount

def isTerminal (s : Symbols) (symbol : SymbolId) : Bool :=
  symbol != 0 && symbol ≤ s.terminalCount

def isNonterminal (s : Symbols) (symbol : SymbolId) : Bool :=
  s.terminalCount < symbol && symbol ≤ s.symbolCount

def nonterminalIndex (s : Symbols) (symbol : SymbolId) : Nat :=
  symbol - s.terminalCount - 1

def terminalIds (s : Symbols) : List SymbolId :=
  List.range' 1 s.terminalCount

def nonterminalIds (s : Symbols) : List SymbolId :=
  List.range' (s.terminalCount + 1) s.nonterminalCount

def symbol? (s : Symbols) (name : String) : Option SymbolId :=
  s.byName.lookup name

/-- The name of a symbol, and a question mark for any other number. -/
def symbolName (s : Symbols) (symbol : SymbolId) : String :=
  if symbol = 0 then "?"
  else if symbol ≤ s.terminalCount then
    (s.terminals[symbol - 1]?).elim "?" (·.name)
  else
    (s.nonterminals[s.nonterminalIndex symbol]?).getD "?"

def kindOf? (s : Symbols) (symbol : SymbolId) : Option TokenKind :=
  if symbol = 0 then none else (s.terminals[symbol - 1]?).map (·.kind)

def terminalForKind? (s : Symbols) (kind : TokenKind) : Option SymbolId :=
  s.byKind.lookup kind

/-- Numbers a terminal, unless its name or its kind is taken. -/
def addTerminal (s : Symbols) (t : Terminal) : Except GrammarError Symbols :=
  let symbol := s.symbolCount + 1
  if (s.symbol? t.name).isSome then .error (.duplicateSymbol t.name)
  else if (s.terminalForKind? t.kind).isSome then .error (.duplicateKind t.kind)
  else .ok { s with
    terminals := s.terminals ++ [t]
    byName := s.byName ++ [(t.name, symbol)]
    byKind := s.byKind ++ [(t.kind, symbol)] }

/-- Numbers a nonterminal at its first mention. -/
def addNonterminal (s : Symbols) (name : String) : Except GrammarError Symbols :=
  match s.symbol? name with
  | some symbol =>
      if symbol ≤ s.terminalCount then .error (.terminalOnLeftSide name) else .ok s
  | none => .ok { s with
      nonterminals := s.nonterminals ++ [name]
      byName := s.byName ++ [(name, s.symbolCount + 1)] }

end Symbols

def productionsOf (s : Symbols) (rules : Array Rule) : Array (List RuleId) :=
  (s.nonterminalIds.map fun symbol =>
    (List.range rules.size).filter fun rule => (rules[rule]?).any (·.lhs == symbol)).toArray

structure Grammar extends Symbols where
  rules : Array Rule
  start : SymbolId
  productions : Array (List RuleId) := productionsOf toSymbols rules
  deriving DecidableEq, Repr

namespace Grammar

def rule? (g : Grammar) (rule : RuleId) : Option Rule := g.rules[rule]?

/-- The left-hand side of a rule; zero, which is no symbol, where there is no
such rule. -/
def lhs (g : Grammar) (rule : RuleId) : SymbolId :=
  (g.rule? rule).elim 0 (·.lhs)

def next? (g : Grammar) (rule : RuleId) (dot : Nat) : Option SymbolId :=
  (g.rule? rule).bind (·.rhs[dot]?)

/-- The rules with a left-hand side; none for a terminal. -/
def rulesFor (g : Grammar) (symbol : SymbolId) : List RuleId :=
  if g.isNonterminal symbol then (g.productions[g.nonterminalIndex symbol]?).getD [] else []

def dottedRule (g : Grammar) (rule : Rule) (dot : Option Nat) : String :=
  let parts := rule.rhs.zipIdx.map fun (symbol, position) =>
    (if dot = some position then " *" else "") ++ " " ++ g.symbolName symbol
  s!"{g.symbolName rule.lhs} -->" ++ String.join parts ++
    (if dot = some rule.rhs.length then " *" else "")

def dotted (g : Grammar) (rule : RuleId) (dot : Option Nat) : String :=
  (g.rule? rule).elim "" (g.dottedRule · dot)

end Grammar

namespace GrammarDef

def terminalsOf (d : GrammarDef) : List Terminal :=
  d.terminals.zipIdx.map fun (t, index) => ⟨t.nameOf, t.kindAt index⟩

def numberSymbols (symbols : Symbols) (lhs : String) :
    List String → Except GrammarError (List SymbolId)
  | [] => .ok []
  | name :: rest =>
      match symbols.symbol? name with
      | none => .error (.undefinedSymbol name lhs)
      | some symbol => (numberSymbols symbols lhs rest).map (symbol :: ·)

def addRule (symbols : Symbols) (table : Array Rule × Array (List RuleId)) (r : RuleDef) :
    Except GrammarError (Array Rule × Array (List RuleId)) :=
  let lhs := (symbols.symbol? r.lhs).getD 0
  (numberSymbols symbols r.lhs r.rhs).map fun rhs =>
    (table.1.push ⟨lhs, rhs⟩,
      table.2.modify (symbols.nonterminalIndex lhs) (· ++ [table.1.size]))

def numberStart (symbols : Symbols) (d : GrammarDef) : Except GrammarError SymbolId :=
  match d.startName? with
  | none => .error .missingStart
  | some name =>
      match symbols.symbol? name with
      | none => .error (.unknownStart name)
      | some symbol =>
          if symbols.isTerminal symbol then .error (.startIsTerminal name) else .ok symbol

/-- Numbers the symbols of a description. The first fault decides the error:
terminals are looked at first, then the nonterminals, the rules and the start
symbol. -/
def toGrammar (d : GrammarDef) : Except GrammarError Grammar := do
  let declared ← d.terminalsOf.foldlM Symbols.addTerminal { terminals := [], nonterminals := [] }
  let symbols ← d.nonterminalMentions.foldlM Symbols.addNonterminal declared
  let (rules, productions) ←
    d.rules.foldlM (addRule symbols) (#[], Array.replicate symbols.nonterminalCount [])
  let start ← numberStart symbols d
  return { symbols with rules, start, productions }

end GrammarDef

namespace Grammar

/-- A terminal as it is declared at a position: with its kind where that is not
the position. -/
def terminalDef (t : Terminal) (index : Nat) : TerminalDef :=
  if t.kind = index then .named t.name else .withKind t.name t.kind

/-- The description of a grammar: nonterminals are declared where they have no
rule, and the start symbol is named. -/
def toDef (g : Grammar) : GrammarDef where
  terminals := g.terminals.zipIdx.map fun (t, index) => terminalDef t index
  nonterminals := (g.nonterminalIds.filter fun a => (g.rulesFor a).isEmpty).map g.symbolName
  rules := g.rules.toList.map fun r => ⟨g.symbolName r.lhs, r.rhs.map g.symbolName⟩
  start := some (g.symbolName g.start)

end Grammar
end EarleyChart
