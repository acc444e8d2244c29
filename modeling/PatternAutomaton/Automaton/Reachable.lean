import PatternAutomaton.Automaton.Basic
import PatternAutomaton.Automaton.Marking

/-!
# Reachable states

The states that edges lead to from the start, each once, in breadth-first order. The list of
states found is its own queue: its states are visited in turn, and the targets of a state that
have not been found before are put at the end.
-/
namespace PatternAutomaton.Automaton

/-- The states found so far in order, and for each state of the table whether it is among
them. -/
structure Discovery where
  found : Array StateId
  isFound : Array Bool
  deriving Repr, DecidableEq

namespace Discovery

/-- Nothing found in a table of `n` states. -/
def empty (n : Nat) : Discovery where
  found := #[]
  isFound := Array.replicate n false

/-- Puts a state of the table at the end, unless it was found before. -/
def add (d : Discovery) (id : StateId) : Discovery :=
  if h : id < d.isFound.size then
    if d.isFound[id] then d
    else { found := d.found.push id, isFound := d.isFound.set id true }
  else d

/-- The states found and those not found yet. -/
def total (d : Discovery) : Nat := d.found.size + d.isFound.countP (!·)

theorem total_add (d : Discovery) (id : StateId) : (d.add id).total = d.total := by
  unfold add
  split
  · next h =>
    split
    · rfl
    · next fresh =>
      have := countP_set_add_one (!·) d.isFound id true h
        (by rw [Bool.eq_false_iff.mpr fresh]; rfl) rfl
      simp only [total, Array.size_push]
      omega
  · rfl

theorem total_foldl_add (ids : List StateId) (d : Discovery) :
    (ids.foldl add d).total = d.total := by
  induction ids generalizing d with
  | nil => rfl
  | cons id ids ih => rw [List.foldl_cons, ih, total_add]

end Discovery

/-- Visits the states found, from the one at place `i` on. -/
def discover (a : Automaton) (d : Discovery) (i : Nat) : Array StateId :=
  if h : i < d.found.size then
    discover a ((a.targets d.found[i]).foldl .add d) (i + 1)
  else
    d.found
termination_by d.total - i
decreasing_by
  rw [Discovery.total_foldl_add]
  simp only [Discovery.total]
  omega

/-- The states that edges lead to from the start, nearest first. -/
def reachable (a : Automaton) : List StateId :=
  (a.discover ((Discovery.empty a.size).add a.start) 0).toList

end PatternAutomaton.Automaton
