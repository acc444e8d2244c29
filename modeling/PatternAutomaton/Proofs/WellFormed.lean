import PatternAutomaton.Proofs.Checked
import PatternAutomaton.Proofs.Matching

/-!
# Well-formed automata

In the automaton of a pattern state 0 is the only one that accepts, no slot is left reserved, no
edge leaves the table, and every state lies on a way from the start to acceptance. All this is
read off the one fragment that the pattern is laid out as.
-/
namespace PatternAutomaton.Automaton

/-- An automaton without loose ends. -/
structure WellFormed (a : Automaton) : Prop where
  accept_iff : ∀ s : Nat, a.state? s = some .accept ↔ s = acceptId
  unreserved : ∀ s : Nat, a.state? s ≠ some .reserved
  inRange : a.InRange
  reached : ∀ s < a.size, a.IsReached s
  reachable_perm : a.reachable.Perm (List.range a.size)
  accepting : ∀ s < a.size, Relation.ReflTransGen a.HasEdge s acceptId

variable {a : Automaton} {block : Set StateId} {p : Pattern} {w : List Char} {s t : Nat}

/-- The states of a path are joined by edges. -/
theorem PathIn.reflTransGen (path : a.PathIn block s w t) :
    Relation.ReflTransGen a.HasEdge s t := by
  induction path with
  | nil s => exact .refl
  | step _ step _ ih => exact .head (hasEdge_iff_step.mpr ⟨_, step⟩) ih

/-- The states that discovery finds are all there are if all are reached. -/
theorem reachable_perm_range (h : ∀ s < a.size, a.IsReached s) :
    a.reachable.Perm (List.range a.size) := by
  refine (List.perm_ext_iff_of_nodup (nodup_reachable a) List.nodup_range).mpr fun s => ?_
  rw [mem_reachable_iff, List.mem_range]
  exact ⟨And.right, fun lt => ⟨h s lt, lt⟩⟩

theorem inRange_ofPattern (p : Pattern) : (ofPattern p).InRange := by
  have f := ofPattern_fragment p
  refine ⟨f.entry_mem.2, fun state mem t ht => ?_⟩
  obtain ⟨s, present⟩ := Array.mem_iff_getElem?.mp mem
  have here : (ofPattern p).state? s = some state := present
  have edge : (ofPattern p).HasEdge s t := by rwa [HasEdge, targets, here]
  obtain ⟨w, step⟩ := hasEdge_iff_step.mp edge
  rcases ofPattern_state?_cases here with ⟨-, rfl⟩ | ⟨mem, -⟩
  · exact absurd ht List.not_mem_nil
  · rcases f.exits s mem w t step with inside | rfl
    · exact inside.2
    · exact lt_size_of_state? (ofPattern_state?_acceptId p)

theorem unreserved_ofPattern (p : Pattern) (s : Nat) :
    (ofPattern p).state? s ≠ some .reserved := by
  intro reserved
  rcases ofPattern_state?_cases reserved with ⟨-, eq⟩ | ⟨-, -, ne⟩
  · cases eq
  · exact ne rfl

/-- Every state is on a way from the start to the accepting state. -/
theorem reached_and_accepting_ofPattern (h : s < (ofPattern p).size) :
    (ofPattern p).IsReached s ∧ Relation.ReflTransGen (ofPattern p).HasEdge s acceptId := by
  have f := ofPattern_fragment p
  obtain ⟨state, present⟩ := exists_state? h
  rcases ofPattern_state?_cases present with ⟨rfl, -⟩ | ⟨mem, -⟩
  · obtain ⟨w, path⟩ := f.leaves _ f.entry_mem
    exact ⟨path.reflTransGen, .refl⟩
  · obtain ⟨u, before⟩ := f.reached s mem
    obtain ⟨v, after⟩ := f.leaves s mem
    exact ⟨before.reflTransGen, after.reflTransGen⟩

theorem wellFormed_ofPattern (p : Pattern) : (ofPattern p).WellFormed where
  accept_iff s := by
    constructor
    · exact eq_acceptId_of_accept
    · rintro rfl
      exact ofPattern_state?_acceptId p
  unreserved := unreserved_ofPattern p
  inRange := inRange_ofPattern p
  reached s lt := (reached_and_accepting_ofPattern lt).1
  reachable_perm := reachable_perm_range fun s lt => (reached_and_accepting_ofPattern lt).1
  accepting s lt := (reached_and_accepting_ofPattern lt).2

/-- The automaton of a pattern is well formed, and nothing that makes or uses it fails a check:
not its layout with the search for reserved states at the end, not its discovery, not a closure
of states of the table, and not a run. -/
theorem ofPattern_wellFormed_checked (p : Pattern) :
    (ofPattern p).WellFormed ∧
      ofPattern? p = some (ofPattern p) ∧
      (ofPattern p).reachable? = some (ofPattern p).reachable ∧
      (∀ (marks : Marks) (seeds : List StateId), marks.visited.size = (ofPattern p).size →
        (∀ s ∈ seeds, s < (ofPattern p).size) →
          (ofPattern p).closure? marks seeds = some ((ofPattern p).closure marks seeds)) ∧
      ∀ line, (ofPattern p).run? line = some ((ofPattern p).run line) := by
  have inRange := inRange_ofPattern p
  refine ⟨wellFormed_ofPattern p, ?_, inRange.reachable?_eq, ?_, inRange.run?_eq⟩
  · rw [ofPattern?_eq, inRange.filled?_eq (unreserved_ofPattern p)]
  · exact fun marks seeds => inRange.closure?_eq

end PatternAutomaton.Automaton
