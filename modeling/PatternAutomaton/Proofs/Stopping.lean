import PatternAutomaton.Automaton.Frontier
import PatternAutomaton.Proofs.Checked

/-!
# Where a run stops

All that a run can do, said of frontiers. A run stops at the first character behind which the
frontier is empty, and without such a character it reads the whole line. Either way it recorded
the size of every frontier up to there. No path leads on from an empty frontier, so a run that
stops early gives the answer of one that reads on.
-/
namespace PatternAutomaton.Automaton

variable {a : Automaton} {w rest line : List Char} {t : StateId} {k pops : Nat}
  {advances : List Advance} {verdict : Verdict}

theorem fits_closureAfter (a : Automaton) (w : List Char) : (a.closureAfter w).marks.Fits a := by
  induction w using List.reverseRecOn with
  | nil => exact fits_closure (fits_fresh a) _
  | append_singleton w c ih =>
    rw [closureAfter_append_singleton]
    exact fits_closure ih _

theorem isFrontier_frontier (a : Automaton) (w : List Char) : a.IsFrontier w (a.frontier w) := by
  induction w using List.reverseRecOn with
  | nil => exact isFrontier_start (fits_fresh a)
  | append_singleton w c ih =>
    rw [frontier_append_singleton]
    exact ih.advance (fits_closureAfter a w) c

theorem mem_frontier_iff : t ∈ a.frontier w ↔ a.Path a.start w t ∧ a.IsGoal t :=
  isFrontier_frontier a w t

theorem acceptsPatiently_iff (a : Automaton) (line : List Char) :
    a.acceptsPatiently line = true ↔ a.HasAcceptingPath line :=
  (isFrontier_frontier a line).any_isAccept_iff

/-- Nothing that starts with these characters is accepted if their frontier is empty. -/
theorem not_hasAcceptingPath_of_frontier (h : a.frontier w = []) (rest : List Char) :
    ¬ a.HasAcceptingPath (w ++ rest) := by
  have front := isFrontier_frontier a w
  rw [h] at front
  exact front.not_acceptsFrom

/-- How a run on a line ends, with what it recorded. -/
inductive RunsTo (a : Automaton) (line : List Char) : List Advance → Verdict → Prop
  | stuck {k : Nat} : k < line.length → a.frontier (line.take (k + 1)) = [] →
      (∀ i < k, a.frontier (line.take (i + 1)) ≠ []) →
      RunsTo a line (a.advancesUpTo line (k + 1)) (.stuck k)
  | finished : (∀ i < line.length, a.frontier (line.take (i + 1)) ≠ []) →
      RunsTo a line (a.advancesUpTo line line.length) (.finished (a.acceptsPatiently line))

/-- A run that has read `w` goes on to the end of `w ++ rest`. The induction is on what is left
to read; behind `w` no frontier was empty. -/
theorem runsTo_runFrom (hadvances : advances.reverse = a.advancesUpTo (w ++ rest) w.length)
    (before : ∀ i < w.length, a.frontier ((w ++ rest).take (i + 1)) ≠ []) :
    a.RunsTo (w ++ rest)
      (a.runFrom (a.closureAfter w).marks (a.frontier w) w.length advances pops rest).advances
      (a.runFrom (a.closureAfter w).marks (a.frontier w) w.length advances pops rest).verdict := by
  induction rest generalizing w advances pops with
  | nil =>
    rw [List.append_nil] at hadvances before ⊢
    rw [runFrom, hadvances]
    exact .finished before
  | cons c rest ih =>
    have lt : w.length < (w ++ c :: rest).length := by simp
    have here : (w ++ c :: rest).take (w.length + 1) = w ++ [c] := List.take_length_add_append 1
    have next : a.closure (a.closureAfter w).marks ((a.frontier w).filterMap (a.afterChar? c)) =
        a.closureAfter (w ++ [c]) := (closureAfter_append_singleton a w c).symm
    have recorded : (⟨w.length, c, (a.frontier (w ++ [c])).length⟩ :: advances).reverse =
        a.advancesUpTo (w ++ c :: rest) (w.length + 1) := by
      rw [advancesUpTo_succ lt, List.reverse_cons, hadvances, here]
      simp
    simp only [runFrom, next]
    split
    · next empty =>
      have stopped : a.frontier ((w ++ c :: rest).take (w.length + 1)) = [] := by
        rw [here]
        exact List.isEmpty_iff.mp empty
      have verdict := RunsTo.stuck lt stopped before
      rwa [← recorded] at verdict
    · next nonempty =>
      have cut : w ++ c :: rest = (w ++ [c]) ++ rest := by simp
      have length : (w ++ [c]).length = w.length + 1 := by simp
      rw [cut, ← length] at recorded ⊢
      refine ih recorded fun i hi => ?_
      rcases Nat.lt_succ_iff_lt_or_eq.mp (length ▸ hi) with hi | rfl
      · exact cut ▸ before i hi
      · rw [← cut, here]
        exact fun eq => nonempty (List.isEmpty_iff.mpr eq)

/-- Every run ends in one of the two ways. -/
theorem runsTo_run (a : Automaton) (line : List Char) :
    a.RunsTo line (a.run line).advances (a.run line).verdict :=
  runsTo_runFrom (w := []) rfl fun i hi => absurd hi (Nat.not_lt_zero i)

/-- A run stops at the first character behind which the frontier is empty. -/
theorem verdict_run_eq_stuck_iff :
    (a.run line).verdict = .stuck k ↔
      IsLeast {i | i < line.length ∧ a.frontier (line.take (i + 1)) = []} k := by
  have ends := runsTo_run a line
  generalize (a.run line).advances = advances, (a.run line).verdict = verdict at ends
  cases ends with
  | @stuck j lt empty before =>
    have least : IsLeast {i | i < line.length ∧ a.frontier (line.take (i + 1)) = []} j :=
      ⟨⟨lt, empty⟩, fun i hi => Nat.not_lt.mp fun lt => before i lt hi.2⟩
    rw [Verdict.stuck.injEq]
    exact ⟨fun eq => eq ▸ least, fun h => least.unique h⟩
  | finished all => exact iff_of_false Verdict.noConfusion fun h => all k h.1.1 h.1.2

theorem frontierSize_of_mem_advancesUpTo {s : Advance} {n : Nat}
    (h : s ∈ a.advancesUpTo line n) :
    s.frontierSize = (a.frontier (line.take (s.position + 1))).length := by
  obtain ⟨i, hi, rfl⟩ := List.mem_mapIdx.mp h
  rfl

/-- What a run records of a character is the size of the frontier behind it. -/
theorem frontierSize_of_mem_advances {s : Advance} (h : s ∈ (a.run line).advances) :
    s.frontierSize = (a.frontier (line.take (s.position + 1))).length := by
  have ends := runsTo_run a line
  generalize (a.run line).advances = advances, (a.run line).verdict = verdict at h ends
  cases ends with
  | stuck => exact frontierSize_of_mem_advancesUpTo h
  | finished => exact frontierSize_of_mem_advancesUpTo h

/-- In an automaton whose start and edges are in its table, a run looks up no state outside the
table, and it accepts a line if and only if some path consumes the line and ends in an accepting
state. A run that never stops early gives the same answer. -/
theorem accepts_iff_of_inRange (inRange : a.InRange) (line : List Char) :
    a.run? line = some (a.run line) ∧
      (a.accepts line = true ↔ a.HasAcceptingPath line) ∧
      a.accepts line = a.acceptsPatiently line := by
  have decides := accepts_iff_hasAcceptingPath a line
  refine ⟨inRange.run?_eq line, decides, ?_⟩
  rw [Bool.eq_iff_iff, decides, acceptsPatiently_iff]

/-- A split that leads to itself, two accepting states at the end, a reserved slot on the way and
a state that nothing leads to. -/
theorem accepts_iff_of_inRange_tangled :
    let a : Automaton :=
      { states := #[.accept, .split 1 2, .split 3 4, .consume (.char 'x') 6, .reserved,
          .consume .any 5, .split 7 1, .split 0 8, .accept]
        start := 1 }
    a.InRange ∧ a.HasAcceptingPath "xx".toList ∧ ¬ a.HasAcceptingPath "xyx".toList ∧
      a.acceptsPatiently "xyx".toList = false := by
  intro a
  have inRange : a.InRange := ⟨by decide, by decide⟩
  obtain ⟨-, double, -⟩ := accepts_iff_of_inRange inRange "xx".toList
  obtain ⟨-, broken, patient⟩ := accepts_iff_of_inRange inRange "xyx".toList
  have stopped : a.accepts "xyx".toList = false := by decide +kernel
  refine ⟨inRange, double.mp (by decide +kernel), fun path => ?_, patient ▸ stopped⟩
  rw [broken.mpr path] at stopped
  exact Bool.noConfusion stopped

end PatternAutomaton.Automaton
