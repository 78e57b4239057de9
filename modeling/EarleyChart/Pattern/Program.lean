import EarleyChart.Pattern.Basic

/-!
Programs that search for patterns. A program has the preferences of its pattern:
a split tries its first target before its second. Programs are made from their
end: the code of a pattern is made for the address where it goes on.
-/

namespace EarleyChart

inductive Instr where
  | char (c : Char) (next : Nat)
  | chars (set : CharSet) (next : Nat)
  | look (condition : Look) (next : Nat)
  | split (first second : Nat)
  | accept
  deriving DecidableEq, Repr

structure Program where
  entry : Nat
  code : Array Instr
  deriving Repr

namespace Program

def accepting : Program := ⟨0, #[.accept]⟩

def cons (instr : Nat → Instr) (program : Program) : Program :=
  ⟨program.code.size, program.code.push (instr program.entry)⟩

/-- A split that prefers to enter the body, or to leave it. -/
def splitTo (greedy : Bool) (enter leave : Nat) : Instr :=
  if greedy then .split enter leave else .split leave enter

/-- A number of copies of some code in front. -/
def copies (body : Program → Program) : Nat → Program → Program
  | 0, program => program
  | count + 1, program => copies body count (body program)

/-- A number of optional copies of some code in front. Each can be left for the
address `leave`. -/
def optionals (body : Program → Program) (greedy : Bool) (leave : Nat) :
    Nat → Program → Program
  | 0, program => program
  | count + 1, program =>
      optionals body greedy leave count
        ((body program).cons fun enter => splitTo greedy enter leave)

/-- Code in front that is run again and again: the program that enters it, and the
address of the split that decides after each turn. -/
def loop (body : Program → Program) (greedy : Bool) (program : Program) : Program × Nat :=
  let leave := program.entry
  let decide := program.code.size
  let ⟨entry, code⟩ := body ⟨decide, program.code.push .accept⟩
  (⟨entry, code.setIfInBounds decide (splitTo greedy entry leave)⟩, decide)

end Program

namespace Pattern

/-- Puts the code of a pattern in front. A repetition without a least number of
turns whose body may match nothing is an optional loop of at least one turn, since
else a turn without characters would change the order of preference. -/
def codeBefore : Pattern → Program → Program
  | .empty, program => program
  | .literal text, program => text.foldr (fun c program => program.cons (.char c)) program
  | .chars set _, program => program.cons (.chars set)
  | .look l, program => program.cons (.look l)
  | .group _ body, program => codeBefore body program
  | .seq first second, program => codeBefore first (codeBefore second program)
  | .alt first second, program =>
      let leave := program.entry
      let ⟨other, code⟩ := codeBefore second program
      (codeBefore first ⟨leave, code⟩).cons fun entry => .split entry other
  | .rep least (some most) greedy body, program =>
      let leave := program.entry
      Program.copies (codeBefore body) least
        (Program.optionals (codeBefore body) greedy leave (most - least) program)
  | .rep 0 none greedy body, program =>
      let leave := program.entry
      let (entered, decide) := Program.loop (codeBefore body) greedy program
      if (minLength? body).any (0 < ·) then ⟨decide, entered.code⟩
      else entered.cons fun enter => Program.splitTo greedy enter leave
  | .rep (least + 1) none greedy body, program =>
      Program.copies (codeBefore body) least (Program.loop (codeBefore body) greedy program).1

def program (p : Pattern) : Program := codeBefore p .accepting

end Pattern
end EarleyChart
