import Mathlib.Order.Lattice.Nat
import PatternAutomaton.Automaton.Path

/-!
# Breadth-first order

Two orders of the states that edges lead to from the start, said without a search: how many edges
a shortest way has, and, against a list of states, which edge out of the list comes first among
those that lead to the state.
-/
namespace PatternAutomaton.Automaton

/-- A way of `n` edges leads from the start to the state. -/
inductive ReachedIn (a : Automaton) : Nat → StateId → Prop
  | start : ReachedIn a 0 a.start
  | step {n : Nat} {s t : StateId} : ReachedIn a n s → a.HasEdge s t → ReachedIn a (n + 1) t

/-- The number of edges of a shortest way from the start to a state that some way leads to. -/
noncomputable def distance (a : Automaton) (t : StateId) : Nat := sInf {n | a.ReachedIn n t}

/-- The place in the list of the earliest state with an edge to `t`, and which of the edges of
that state is the first to lead there. -/
def origin (a : Automaton) (listed : List StateId) (t : StateId) : Nat × Nat :=
  let place := listed.findIdx fun s => t ∈ a.targets s
  (place, ((listed[place]?.map a.targets).getD []).idxOf t)

variable {a : Automaton} {s t : StateId} {listed : List StateId}

theorem origin_cons_of_mem (h : t ∈ a.targets s) :
    a.origin (s :: listed) t = (0, (a.targets s).idxOf t) := by
  simp [origin, List.findIdx_cons, h]

theorem origin_cons_of_not_mem (h : t ∉ a.targets s) :
    a.origin (s :: listed) t = ((a.origin listed t).1 + 1, (a.origin listed t).2) := by
  simp [origin, List.findIdx_cons, h]

end PatternAutomaton.Automaton
