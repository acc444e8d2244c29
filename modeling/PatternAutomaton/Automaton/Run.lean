import PatternAutomaton.Automaton.Closure

/-!
# Running an automaton on a line

A run keeps the frontier, the closure of the states that the characters read so far lead to, and
moves it forward by one character at a time. It never goes back, and it stops early when the
frontier is empty. A run records each character it consumed with the size of the frontier after
it, how it ended, and the stack entries that all its closures took.
-/
namespace PatternAutomaton

/-- The frontier after one consumed character. -/
structure Advance where
  position : Nat
  char : Char
  frontierSize : Nat
  deriving Repr, DecidableEq

/-- How a run ended: stuck after the character at a position, or at the end of the line. -/
inductive Verdict where
  | stuck (position : Nat)
  | finished (accepted : Bool)
  deriving Repr, DecidableEq

def Verdict.accepted : Verdict → Bool
  | stuck _ => false
  | finished accepted => accepted

structure Run where
  advances : List Advance
  verdict : Verdict
  pops : Nat
  deriving Repr, DecidableEq

namespace Automaton

/-- Runs on from a frontier over characters whose first stands at `position`. `advances` holds
the characters consumed before, latest first. -/
def runFrom (a : Automaton) (marks : Marks) (frontier : List StateId) (position : Nat)
    (advances : List Advance) (pops : Nat) : List Char → Run
  | [] => ⟨advances.reverse, .finished (frontier.any a.isAccept), pops⟩
  | c :: rest =>
    let next := a.closure marks (frontier.filterMap (a.afterChar? c))
    let advances := ⟨position, c, next.states.length⟩ :: advances
    if next.states.isEmpty then
      ⟨advances.reverse, .stuck position, pops + next.pops⟩
    else
      runFrom a next.marks next.states (position + 1) advances (pops + next.pops) rest

def run (a : Automaton) (line : List Char) : Run :=
  let first := a.closure (.fresh a.size) [a.start]
  a.runFrom first.marks first.states 0 [] first.pops line

/-- Whether the automaton accepts the whole line. -/
def accepts (a : Automaton) (line : List Char) : Bool :=
  (a.run line).verdict.accepted

end Automaton
end PatternAutomaton
