import PatternAutomaton.Automaton.Basic
import PatternAutomaton.Automaton.Marking

/-!
# Closure under free edges

The closure of some seed states holds the consuming and accepting states that split edges lead
to from a seed, each once, in the order in which they are first met when the seeds are taken in
turn and the first way of a split is followed before the second.

The search keeps its own stack. The table of visited states is not cleared between searches:
each search has a number, and a state is visited when it carries the number of this search. A
state that is reserved or outside the table is a dead end. The number of entries taken from the
stack is returned with the result.
-/
namespace PatternAutomaton

/-- For every state the number of the last search that visited it, and the number of the last
search. -/
structure Marks where
  visited : Array Nat
  round : Nat
  deriving Repr, DecidableEq

/-- No search has been made in a table of `n` states. -/
def Marks.fresh (n : Nat) : Marks where
  visited := Array.replicate n 0
  round := 0

/-- What a search found, the marks it leaves behind, and how often it took a state from its
stack. -/
structure Closure where
  states : List StateId
  marks : Marks
  pops : Nat
  deriving Repr, DecidableEq

namespace Automaton

/-- Empties the stack. `found` holds the states found so far, latest first. -/
def search (a : Automaton) (round : Nat) (visited : Array Nat) (stack found : List StateId)
    (pops : Nat) : Closure :=
  match stack with
  | [] => ⟨found.reverse, ⟨visited, round⟩, pops⟩
  | id :: rest =>
    if h : id < visited.size then
      if marked : visited[id] = round then
        search a round visited rest found (pops + 1)
      else
        have := countP_set_add_one (· != round) visited id round h
          (bne_iff_ne.mpr marked) (bne_self_eq_false round)
        match a.state? id with
        | some (.split first second) =>
          search a round (visited.set id round) (first :: second :: rest) found (pops + 1)
        | some (.consume _ _) | some .accept =>
          search a round (visited.set id round) rest (id :: found) (pops + 1)
        | some .reserved | none =>
          search a round (visited.set id round) rest found (pops + 1)
    else
      search a round visited rest found (pops + 1)
termination_by 2 * visited.countP (· != round) + stack.length
decreasing_by all_goals simp only [List.length_cons]; omega

/-- The closure of the seeds, by a search with a new number. -/
def closure (a : Automaton) (marks : Marks) (seeds : List StateId) : Closure :=
  a.search (marks.round + 1) marks.visited seeds [] 0

end Automaton
end PatternAutomaton
