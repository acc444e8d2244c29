import PatternAutomaton.Automaton.Closure

/-!
# Depth-first search by recursion

The states that a plain recursive search meets along split edges. It visits the states of a list
in turn, and at a split it visits both ways, the first before the second, before it comes back
to the list. It starts with nothing visited and keeps no stack of its own.
-/
namespace PatternAutomaton.Automaton

/-- Which states were visited, and the consuming and accepting states among them in the order of
their visits. -/
structure Tour where
  isVisited : Array Bool
  found : List StateId
  deriving Repr, DecidableEq

namespace Tour

def start (n : Nat) : Tour where
  isVisited := Array.replicate n false
  found := []

def unvisited (t : Tour) : Nat := t.isVisited.countP (!·)

/-- Notes a visit. -/
def visit (t : Tour) (id : StateId) (h : id < t.isVisited.size) : Tour :=
  { t with isVisited := t.isVisited.set id true }

/-- Notes a state that the search is after. -/
def find (t : Tour) (id : StateId) : Tour := { t with found := t.found ++ [id] }

@[simp] theorem unvisited_find (t : Tour) (id : StateId) :
    (t.find id).unvisited = t.unvisited := rfl

@[simp] theorem found_visit (t : Tour) (id : StateId) (h : id < t.isVisited.size) :
    (t.visit id h).found = t.found := rfl

@[simp] theorem found_find (t : Tour) (id : StateId) : (t.find id).found = t.found ++ [id] := rfl

theorem unvisited_visit_lt (t : Tour) (id : StateId) (h : id < t.isVisited.size)
    (fresh : t.isVisited[id] = false) : (t.visit id h).unvisited < t.unvisited := by
  have := countP_set_add_one (!·) t.isVisited id true h (by rw [fresh]; rfl) rfl
  simp only [unvisited, visit]
  omega

end Tour

/-- Visits the states of a list in turn. No state becomes unvisited again. -/
def tour (a : Automaton) (ids : List StateId) (t : Tour) :
    { u : Tour // u.unvisited ≤ t.unvisited } :=
  match ids with
  | [] => ⟨t, Nat.le_refl _⟩
  | id :: rest =>
    if h : id < t.isVisited.size then
      if fresh : t.isVisited[id] = false then
        have lt := t.unvisited_visit_lt id h fresh
        match a.state? id with
        | some (.split first second) =>
          match tour a [first, second] (t.visit id h) with
          | ⟨ways, le⟩ =>
            match tour a rest ways with
            | ⟨after, le'⟩ => ⟨after, by omega⟩
        | some (.consume _ _) | some .accept =>
          match tour a rest ((t.visit id h).find id) with
          | ⟨after, le⟩ => ⟨after, by rw [Tour.unvisited_find] at le; omega⟩
        | some .reserved | none =>
          match tour a rest (t.visit id h) with
          | ⟨after, le⟩ => ⟨after, by omega⟩
      else tour a rest t
    else tour a rest t
termination_by (t.unvisited, ids.length)
decreasing_by
  all_goals simp only [Prod.lex_def, List.length_cons, List.length_nil, Tour.unvisited_find,
    true_and]
  all_goals omega

/-- The consuming and accepting states that a recursive search from the seeds meets. -/
def depthFirst (a : Automaton) (seeds : List StateId) : List StateId :=
  (a.tour seeds (.start a.size)).val.found

end PatternAutomaton.Automaton
