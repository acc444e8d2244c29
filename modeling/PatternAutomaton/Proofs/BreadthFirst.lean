import PatternAutomaton.Automaton.BreadthFirst
import PatternAutomaton.Proofs.Checked

/-!
# The order of discovery

Discovery comes to the start and then to the targets of the states found, state by state and edge
by edge, and lists each state where it comes to it first. So the states found are the first
arrivals along the edges of these very states, and that fixes their order: a state comes before
another if the first edge to it does.

That they come nearest first follows from this order alone. If a state is listed no later than
the end of some way, then the state that it was found from is listed no later than the last but
one of that way, and so on back to the start. So a way as short leads to it.
-/
namespace PatternAutomaton.Automaton

variable {a : Automaton} {ids listed : List StateId} {i j n : Nat} {s t u : StateId}

/-- The states that discovery comes to: the start, and then the targets of the states listed. -/
def arrivals (a : Automaton) (listed : List StateId) : List StateId :=
  a.start :: listed.flatMap a.targets

/-- What is found when states are put in one after the other. -/
def foundAmong (a : Automaton) (ids : List StateId) : Discovery :=
  ids.foldl .add (.empty a.size)

theorem foundAmong_append_singleton (ids : List StateId) (s : StateId) :
    a.foundAmong (ids ++ [s]) = (a.foundAmong ids).add s := by
  rw [foundAmong, List.foldl_append]
  rfl

theorem fits_foundAmong (reached : ∀ t ∈ ids, a.IsReached t) : (a.foundAmong ids).Fits a :=
  (Discovery.fits_empty a).addAll reached

theorem mem_foundAmong_iff (reached : ∀ t ∈ ids, a.IsReached t) :
    t ∈ (a.foundAmong ids).found.toList ↔ t ∈ ids ∧ t < a.size := by
  rw [Array.mem_toList_iff, foundAmong,
    Discovery.mem_addAll_iff (Discovery.fits_empty a) reached]
  simp [Discovery.empty]

/-- The states found are in the order in which they first occur among those put in. -/
theorem pairwise_foundAmong (reached : ∀ t ∈ ids, a.IsReached t) :
    (a.foundAmong ids).found.toList.Pairwise fun t u => ids.idxOf t < ids.idxOf u := by
  induction ids using List.reverseRecOn with
  | nil => exact List.Pairwise.nil
  | append_singleton ids s ih =>
    have before : ∀ t ∈ ids, a.IsReached t := fun t ht => reached t (List.mem_append_left _ ht)
    have mem {t : StateId} (ht : t ∈ (a.foundAmong ids).found.toList) : t ∈ ids :=
      ((mem_foundAmong_iff before).mp ht).1
    have kept : (a.foundAmong ids).found.toList.Pairwise
        fun t u => (ids ++ [s]).idxOf t < (ids ++ [s]).idxOf u := by
      refine (ih before).imp_of_mem fun ht hu lt => ?_
      rwa [List.idxOf_append_of_mem (mem ht), List.idxOf_append_of_mem (mem hu)]
    rw [foundAmong_append_singleton]
    rcases (a.foundAmong ids).add_cases s with ⟨same, -⟩ | ⟨lt, new, pushed⟩
    · rwa [same]
    · have fits := fits_foundAmong before
      have first : s ∉ ids := by
        intro hs
        have listed := (mem_foundAmong_iff before).mpr ⟨hs, fits.size_eq ▸ lt⟩
        have marked := (fits.mem_iff s).mp (Array.mem_toList_iff.mp listed)
        rw [Array.getElem?_eq_getElem lt, new] at marked
        cases marked
      rw [pushed, Array.toList_push, List.pairwise_append]
      refine ⟨kept, List.pairwise_singleton _ _, fun t ht u hu => ?_⟩
      obtain rfl := List.mem_singleton.mp hu
      have lt := List.idxOf_lt_length_iff.mpr (mem ht)
      rw [List.idxOf_append_of_mem (mem ht), List.idxOf_append_of_notMem first]
      omega

theorem foundAmong_arrivals_append_singleton (listed : List StateId) (s : StateId) :
    a.foundAmong (a.arrivals (listed ++ [s])) =
      (a.targets s).foldl .add (a.foundAmong (a.arrivals listed)) := by
  rw [foundAmong, arrivals, List.flatMap_append, List.flatMap_singleton, ← List.cons_append,
    List.foldl_append]
  rfl

/-- Before each visit the states found are the first arrivals of the states visited, and so at
the end they are their own first arrivals. -/
theorem exists_foundAmong_discover {d : Discovery}
    (found : d = a.foundAmong (a.arrivals (d.found.toList.take i))) :
    ∃ d' : Discovery,
      a.discover d i = d'.found ∧ d' = a.foundAmong (a.arrivals d'.found.toList) := by
  fun_induction discover a d i with
  | case1 d i h ih =>
    have lt : i < d.found.toList.length := by rwa [Array.length_toList]
    have kept : ((a.targets d.found[i]).foldl .add d).found.toList.take (i + 1) =
        d.found.toList.take i ++ [d.found[i]] := by
      rw [Discovery.take_found_addAll h, List.take_succ_eq_append_getElem lt,
        Array.getElem_toList]
    refine ih ?_
    rw [kept, foundAmong_arrivals_append_singleton, ← found]
  | case2 d i h =>
    have all : d.found.toList.take i = d.found.toList :=
      List.take_of_length_le (by rw [Array.length_toList]; omega)
    exact ⟨d, rfl, all ▸ found⟩

/-- The states discovered are their own first arrivals. -/
theorem reachable_eq_foundAmong (a : Automaton) :
    a.reachable = (a.foundAmong (a.arrivals a.reachable)).found.toList := by
  obtain ⟨d, same, found⟩ : ∃ d : Discovery,
      a.discover ((Discovery.empty a.size).add a.start) 0 = d.found ∧
        d = a.foundAmong (a.arrivals d.found.toList) := exists_foundAmong_discover rfl
  rw [reachable, same, ← found]

theorem isReached_of_mem_arrivals (h : t ∈ a.arrivals a.reachable) : a.IsReached t := by
  rcases List.mem_cons.mp h with rfl | h
  · exact .refl
  · obtain ⟨s, hs, edge⟩ := List.mem_flatMap.mp h
    exact (mem_reachable_iff.mp hs).1.tail edge

/-- Discovery lists states in the order of their first arrivals. -/
theorem pairwise_reachable (a : Automaton) :
    a.reachable.Pairwise fun t u =>
      (a.arrivals a.reachable).idxOf t < (a.arrivals a.reachable).idxOf u := by
  have reached : ∀ t ∈ a.arrivals a.reachable, a.IsReached t :=
    fun t => isReached_of_mem_arrivals
  have ordered := pairwise_foundAmong reached
  rwa [← reachable_eq_foundAmong] at ordered

/-- Nothing arrives before the start. -/
theorem reachable_eq_cons (h : a.start < a.size) : a.reachable = a.start :: a.reachable.tail := by
  have mem : a.start ∈ a.reachable := mem_reachable_iff.mpr ⟨.refl, h⟩
  cases listed : a.reachable with
  | nil =>
    rw [listed] at mem
    cases mem
  | cons s rest =>
    rw [listed] at mem
    rcases List.mem_cons.mp mem with rfl | mem
    · rfl
    · have ordered := pairwise_reachable a
      rw [listed] at ordered
      have lt := (List.pairwise_cons.mp ordered).1 a.start mem
      simp [arrivals] at lt

/-- The first edge to a state comes before the first edge to another if the state does, whatever
list of states the edges go out from. -/
theorem lex_origin_of_idxOf_lt
    (h : (listed.flatMap a.targets).idxOf t < (listed.flatMap a.targets).idxOf u) :
    Prod.Lex (· < ·) (· < ·) (a.origin listed t) (a.origin listed u) := by
  induction listed with
  | nil => exact absurd h (Nat.lt_irrefl _)
  | cons s listed ih =>
    rw [List.flatMap_cons, List.idxOf_append, List.idxOf_append] at h
    by_cases ht : t ∈ a.targets s
    · by_cases hu : u ∈ a.targets s
      · rw [if_pos ht, if_pos hu] at h
        rw [origin_cons_of_mem ht, origin_cons_of_mem hu]
        exact .right _ h
      · rw [origin_cons_of_mem ht, origin_cons_of_not_mem hu]
        exact .left _ _ (Nat.succ_pos _)
    · by_cases hu : u ∈ a.targets s
      · rw [if_neg ht, if_pos hu] at h
        have := List.idxOf_lt_length_iff.mpr hu
        omega
      · rw [if_neg ht, if_neg hu] at h
        rw [origin_cons_of_not_mem ht, origin_cons_of_not_mem hu]
        rcases Prod.lex_def.mp (ih (Nat.lt_of_add_lt_add_right h)) with lt | ⟨same, lt⟩
        · exact .left _ _ (Nat.succ_lt_succ lt)
        · exact Prod.lex_def.mpr (.inr ⟨congrArg Nat.succ same, lt⟩)

/-- Behind the start, states are listed in the order of the first edges to them. -/
theorem pairwise_origin (h : a.start < a.size) :
    a.reachable.tail.Pairwise fun t u =>
      Prod.Lex (· < ·) (· < ·) (a.origin a.reachable t) (a.origin a.reachable u) := by
  have once := nodup_reachable a
  rw [reachable_eq_cons h, List.nodup_cons] at once
  have shift {t : StateId} (ht : t ∈ a.reachable.tail) :
      (a.arrivals a.reachable).idxOf t = (a.reachable.flatMap a.targets).idxOf t + 1 :=
    List.idxOf_cons_ne _ fun eq => once.1 (eq ▸ ht)
  refine (pairwise_reachable a).tail.imp_of_mem fun ht hu lt => ?_
  rw [shift ht, shift hu] at lt
  exact lex_origin_of_idxOf_lt (Nat.lt_of_add_lt_add_right lt)

/-- No state of a list with an edge to `t` stands before the origin of `t`. -/
theorem origin_fst_le (h : listed[j]? = some s) (edge : a.HasEdge s t) :
    (a.origin listed t).1 ≤ j := by
  obtain ⟨lt, rfl⟩ := List.getElem?_eq_some_iff.mp h
  by_contra before
  have missed : decide (t ∈ a.targets listed[j]) = false :=
    List.not_of_lt_findIdx (Nat.lt_of_not_le before)
  exact of_decide_eq_false missed edge

/-- The origin of a state is the place of a state with an edge to it, if there is one. -/
theorem exists_getElem?_origin (h : s ∈ listed) (edge : a.HasEdge s t) :
    ∃ v, listed[(a.origin listed t).1]? = some v ∧ a.HasEdge v t := by
  have lt : listed.findIdx (fun s => decide (t ∈ a.targets s)) < listed.length :=
    List.findIdx_lt_length.mpr ⟨s, h, decide_eq_true edge⟩
  have leads := List.findIdx_getElem (w := lt)
  rw [decide_eq_true_eq] at leads
  exact ⟨_, List.getElem?_eq_getElem lt, leads⟩

/-- Every state found but the start was found from a state listed. -/
theorem exists_mem_hasEdge (h : t ∈ a.reachable) (ne : t ≠ a.start) :
    ∃ s ∈ a.reachable, a.HasEdge s t := by
  rcases Relation.ReflTransGen.cases_tail (mem_reachable_iff.mp h).1 with eq | ⟨s, reached, edge⟩
  · exact absurd eq ne
  · exact ⟨s, mem_reachable_iff.mpr ⟨reached, edge.lt_size⟩, edge⟩

theorem origin_fst_mono (h : a.start < a.size) (pos : 0 < i) (le : i ≤ j)
    (hi : a.reachable[i]? = some t) (hj : a.reachable[j]? = some u) :
    (a.origin a.reachable t).1 ≤ (a.origin a.reachable u).1 := by
  rcases Nat.eq_or_lt_of_le le with rfl | lt
  · obtain rfl := Option.some.inj (hi.symm.trans hj)
    exact Nat.le_refl _
  · obtain ⟨i, rfl⟩ := Nat.exists_eq_succ_of_ne_zero pos.ne'
    obtain ⟨j, rfl⟩ := Nat.exists_eq_succ_of_ne_zero (pos.trans lt).ne'
    obtain ⟨hi, rfl⟩ := List.getElem?_eq_some_iff.mp hi
    obtain ⟨hj, rfl⟩ := List.getElem?_eq_some_iff.mp hj
    have ordered := List.pairwise_iff_getElem.mp (pairwise_origin h) i j
      (by rw [List.length_tail]; omega) (by rw [List.length_tail]; omega) (by omega)
    rw [List.getElem_tail, List.getElem_tail] at ordered
    rcases Prod.lex_def.mp ordered with lt | ⟨eq, -⟩
    · exact Nat.le_of_lt lt
    · exact Nat.le_of_eq eq

theorem IsReached.exists_reachedIn (h : a.IsReached t) : ∃ n, a.ReachedIn n t := by
  induction h with
  | refl => exact ⟨0, .start⟩
  | tail _ edge ih =>
    obtain ⟨n, way⟩ := ih
    exact ⟨n + 1, way.step edge⟩

theorem ReachedIn.isReached (way : a.ReachedIn n t) : a.IsReached t := by
  induction way with
  | start => exact .refl
  | step _ edge ih => exact ih.tail edge

/-- To a state listed no later than the end of a way, a way leads that is no longer. The induction
is on the way: the state that the one was found from is listed no later than the last but one of
the way. -/
theorem ReachedIn.exists_le_of_le (way : a.ReachedIn n u) (h : a.start < a.size) (le : i ≤ j)
    (hi : a.reachable[i]? = some t) (hj : a.reachable[j]? = some u) :
    ∃ m ≤ n, a.ReachedIn m t := by
  have front : a.reachable[0]? = some a.start := by rw [reachable_eq_cons h]; rfl
  have once {k : Nat} {s : StateId} (hk : a.reachable[k]? = some s) (ne : k ≠ 0) : s ≠ a.start := by
    rintro rfl
    have lt := (List.getElem?_eq_some_iff.mp hk).1
    exact ne ((List.getElem?_inj lt (nodup_reachable a)).mp (hk.trans front.symm))
  induction way generalizing i j t with
  | start =>
    obtain rfl : j = 0 := by
      by_contra ne
      exact once hj ne rfl
    obtain rfl := Nat.le_zero.mp le
    obtain rfl := Option.some.inj (front.symm.trans hi)
    exact ⟨0, Nat.le_refl _, .start⟩
  | @step n w u way edge ih =>
    rcases Nat.eq_zero_or_pos i with rfl | pos
    · obtain rfl := Option.some.inj (front.symm.trans hi)
      exact ⟨0, Nat.zero_le _, .start⟩
    · have listed : w ∈ a.reachable := mem_reachable_iff.mpr ⟨way.isReached, edge.lt_size⟩
      obtain ⟨k, hk⟩ := List.mem_iff_getElem?.mp listed
      obtain ⟨s, hs, edge'⟩ := exists_mem_hasEdge (List.mem_of_getElem? hi) (once hi pos.ne')
      obtain ⟨v, hv, from_v⟩ := exists_getElem?_origin hs edge'
      have before : (a.origin a.reachable t).1 ≤ k :=
        (origin_fst_mono h pos le hi hj).trans (origin_fst_le hk edge)
      obtain ⟨m, le, way'⟩ := ih before hv hk
      exact ⟨m + 1, Nat.succ_le_succ le, way'.step from_v⟩

/-- Discovery lists the nearest states first. -/
theorem pairwise_distance (h : a.start < a.size) :
    a.reachable.Pairwise fun t u => a.distance t ≤ a.distance u := by
  refine List.pairwise_iff_getElem.mpr fun i j hi hj lt => ?_
  have reached := (mem_reachable_iff.mp (List.getElem_mem hj)).1
  have shortest : a.ReachedIn (a.distance a.reachable[j]) a.reachable[j] :=
    Nat.sInf_mem reached.exists_reachedIn
  obtain ⟨m, le, way⟩ := shortest.exists_le_of_le h (Nat.le_of_lt lt)
    (List.getElem?_eq_getElem hi) (List.getElem?_eq_getElem hj)
  have le' : a.distance a.reachable[i] ≤ m := Nat.sInf_le way
  exact le'.trans le

theorem InRange.lt_size_of_isReached (inRange : a.InRange) (h : a.IsReached t) : t < a.size := by
  rcases Relation.ReflTransGen.cases_tail h with rfl | ⟨s, -, edge⟩
  · exact inRange.start_lt
  · obtain ⟨state, present⟩ := exists_state? edge.lt_size
    rw [HasEdge, targets, present] at edge
    exact inRange.edges.lt_of_mem_targets present edge

/-- In an automaton whose start and edges are in its table, discovery looks up no state outside
the table. It lists the states that edges lead to from the start, each once, with the start in
front and the nearest first. Each of the others has an edge from a state listed, and they are
listed by the place of the earliest of these, and then by which of its edges is the first to lead
there. -/
theorem reachable_breadthFirst (inRange : a.InRange) :
    a.reachable? = some a.reachable ∧ a.reachable.Nodup ∧
      (∀ t, t ∈ a.reachable ↔ a.IsReached t) ∧
      a.reachable.head? = some a.start ∧
      a.reachable.Pairwise (fun t u => a.distance t ≤ a.distance u) ∧
      (∀ t ∈ a.reachable, t ≠ a.start → ∃ s ∈ a.reachable, a.HasEdge s t) ∧
      a.reachable.tail.Pairwise fun t u =>
        Prod.Lex (· < ·) (· < ·) (a.origin a.reachable t) (a.origin a.reachable u) := by
  have lt := inRange.start_lt
  refine ⟨inRange.reachable?_eq, nodup_reachable a, fun t => ?_, ?_, pairwise_distance lt,
    fun t => exists_mem_hasEdge, pairwise_origin lt⟩
  · rw [mem_reachable_iff]
    exact and_iff_left_of_imp inRange.lt_size_of_isReached
  · rw [reachable_eq_cons lt]
    rfl

/-- A split that leads to itself, one that leads back to the start, a reserved slot and a state
that nothing leads to. -/
theorem reachable_breadthFirst_tangled :
    let a : Automaton :=
      { states := #[.accept, .split 2 3, .split 4 1, .split 3 5, .consume .any 0, .reserved,
          .split 0 6]
        start := 1 }
    a.InRange ∧ a.reachable = [1, 2, 3, 4, 5, 0] ∧ ¬ a.IsReached 6 ∧
      a.distance 5 ≤ a.distance 0 ∧
      Prod.Lex (· < ·) (· < ·) (a.origin a.reachable 4) (a.origin a.reachable 5) := by
  intro a
  have inRange : a.InRange := ⟨by decide, by decide⟩
  obtain ⟨-, -, mem_iff, -, nearest, -, order⟩ := reachable_breadthFirst inRange
  have listed : a.reachable = [1, 2, 3, 4, 5, 0] := by decide +kernel
  refine ⟨inRange, listed, fun reached => ?_, ?_, ?_⟩
  · have mem := (mem_iff 6).mpr reached
    rw [listed] at mem
    exact absurd mem (by decide)
  · rw [listed] at nearest
    exact List.pairwise_iff_getElem.mp nearest 4 5 (by decide) (by decide) (by decide)
  · rw [listed] at order ⊢
    exact List.pairwise_iff_getElem.mp order 2 3 (by decide) (by decide) (by decide)

end PatternAutomaton.Automaton
