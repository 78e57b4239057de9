import EarleyChart.Token.Basic

/-!
Descriptions of grammars by names. A description lists terminals, extra
nonterminals, rules and a start symbol; it may be assembled step by step, read
from a text or written to one. Whether it describes a grammar is decided when
its symbols are numbered.
-/

namespace EarleyChart

/-- A declared terminal. Without a kind of its own, its token kind is its
position among the declarations. -/
inductive TerminalDef where
  | named (name : String)
  | withKind (name : String) (kind : TokenKind)
  deriving DecidableEq, Repr

namespace TerminalDef

def nameOf : TerminalDef → String
  | .named name => name
  | .withKind name _ => name

def kindAt : TerminalDef → Nat → TokenKind
  | .named _, index => index
  | .withKind _ kind, _ => kind

end TerminalDef

structure RuleDef where
  lhs : String
  rhs : List String
  deriving DecidableEq, Repr

structure GrammarDef where
  terminals : List TerminalDef
  nonterminals : List String
  rules : List RuleDef
  start : Option String
  deriving DecidableEq, Repr

namespace GrammarDef

def empty : GrammarDef := ⟨[], [], [], none⟩

instance : Inhabited GrammarDef := ⟨empty⟩

/-- Declares a terminal whose kind is its position. -/
def terminal (d : GrammarDef) (name : String) : GrammarDef :=
  { d with terminals := d.terminals ++ [.named name] }

def addTerminals (d : GrammarDef) (names : List String) : GrammarDef :=
  { d with terminals := d.terminals ++ names.map .named }

/-- Declares a terminal with a kind of its own. -/
def terminalWithKind (d : GrammarDef) (name : String) (kind : TokenKind) : GrammarDef :=
  { d with terminals := d.terminals ++ [.withKind name kind] }

/-- Declares a nonterminal without adding rules. -/
def nonterminal (d : GrammarDef) (name : String) : GrammarDef :=
  { d with nonterminals := d.nonterminals ++ [name] }

def rule (d : GrammarDef) (lhs : String) (rhs : List String) : GrammarDef :=
  { d with rules := d.rules ++ [⟨lhs, rhs⟩] }

def epsilon (d : GrammarDef) (lhs : String) : GrammarDef :=
  d.rule lhs []

def startAt (d : GrammarDef) (name : String) : GrammarDef :=
  { d with start := some name }

/-- The start symbol asked for, or else the left-hand side of the first rule,
or else the first declared nonterminal. -/
def startName? (d : GrammarDef) : Option String :=
  d.start <|> (d.rules.head?.map (·.lhs)) <|> d.nonterminals.head?

/-- Every mention of a name as a nonterminal: the declarations, then the
left-hand sides. -/
def nonterminalMentions (d : GrammarDef) : List String :=
  d.nonterminals ++ d.rules.map (·.lhs)

end GrammarDef

inductive GrammarError where
  | duplicateSymbol (name : String)
  | duplicateKind (kind : TokenKind)
  | undefinedSymbol (name lhs : String)
  | terminalOnLeftSide (name : String)
  | missingStart
  | unknownStart (name : String)
  | startIsTerminal (name : String)
  | unreadable (reason : String)
  deriving DecidableEq, Repr

namespace GrammarError

def message : GrammarError → String
  | .duplicateSymbol name => s!"Symbol '{name}' declared more than once"
  | .duplicateKind kind => s!"Token kind {kind} assigned to more than one terminal"
  | .undefinedSymbol name lhs => s!"Undefined symbol '{name}' in a rule for '{lhs}'"
  | .terminalOnLeftSide name => s!"Terminal '{name}' cannot have productions"
  | .missingStart => "Grammar has no start symbol"
  | .unknownStart name => s!"Start symbol '{name}' is not declared"
  | .startIsTerminal name => s!"Start symbol '{name}' is a terminal"
  | .unreadable reason => s!"Invalid grammar JSON: {reason}"

end GrammarError
end EarleyChart
