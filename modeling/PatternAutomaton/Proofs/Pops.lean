import Mathlib.Data.Set.Card
import Mathlib.Order.Interval.Finset.Nat
import PatternAutomaton.Proofs.Stopping
import PatternAutomaton.Proofs.WellFormed

/-!
# How often a search takes a state from its stack

Every state taken from the stack was put there, either as a seed or by the one visit of a split,
which puts two there. So a search that has emptied its stack has taken as many states from it as
there are seeds, and two more for each split that it visited. The stack may grow on the way and
hold a state many times, and neither makes a difference.

A frontier lists no state twice, so no more seeds come from it than the automaton has consuming
states. With that the whole run is bounded by the length of the line times the size of the
automaton, however deep its loops are nested.
-/
namespace PatternAutomaton

/-- Every layout has a consuming state in its block. -/
theorem Layout.exists_consume_lay (p : Pattern) (next : StateId) (states : Array State) :
    ∃ (i : Nat) (symbol : Symbol) (t : StateId),
      states.size ≤ i ∧ (lay p next states).states[i]? = some (.consume symbol t) := by
  induction p generalizing next states with
  | char c => exact ⟨states.size, .ofChar c, next, Nat.le_refl _, by simp [lay_char]⟩
  | concat p q ihp _ =>
    obtain ⟨i, symbol, t, le, here⟩ := ihp (lay q next states).entry (lay q next states).states
    exact ⟨i, symbol, t, (size_lt_size_lay q next states).le.trans le, by rwa [lay_concat]⟩
  | alt p q ihp _ =>
    obtain ⟨i, symbol, t, le, here⟩ := ihp next (lay q next states).states
    have lt := (Array.getElem?_eq_some_iff.mp here).1
    refine ⟨i, symbol, t, (size_lt_size_lay q next states).le.trans le, ?_⟩
    rw [lay_alt, place_states, Array.getElem?_push, if_neg lt.ne, here]
  | star p ih =>
    obtain ⟨i, symbol, t, le, here⟩ := ih states.size (states.push .reserved)
    rw [Array.size_push] at le
    refine ⟨i, symbol, t, Nat.le_of_succ_le le, ?_⟩
    rw [lay_star, fill_states, Array.getElem?_setIfInBounds_ne (by omega), here]
  | plus p ih =>
    have out := size_lt_size_lay p next (states.push .reserved)
    obtain ⟨i, symbol, t, le, here⟩ :=
      ih states.size (lay p next (states.push .reserved)).states
    rw [Array.size_push] at out
    refine ⟨i, symbol, t, by omega, ?_⟩
    rw [lay_plus, fill_states, Array.getElem?_setIfInBounds_ne (by omega), here]

namespace Automaton

variable {a : Automaton} {marks : Marks} {seeds stack found frontier : List StateId}
  {calls : List (List StateId)} {visited : Array Nat} {round pops id : Nat} {kind : State → Bool}

theorem isOf_eq {state : State} (h : a.state? id = some state) : a.isOf kind id = kind state := by
  rw [isOf, h, Option.any_some]

theorem isOf_of_none (h : a.state? id = none) : a.isOf kind id = false := by
  rw [isOf, h, Option.any_none]

theorem lt_size_of_isOf (h : a.isOf kind id = true) : id < a.size := by
  cases present : a.state? id with
  | none => rw [isOf_of_none present] at h; cases h
  | some state => exact lt_size_of_state? present

theorem finite_isOf (a : Automaton) (kind : State → Bool) : {s | a.isOf kind s = true}.Finite :=
  (Set.finite_Iio a.size).subset fun _ => lt_size_of_isOf

/-- The states of a kind are counted in the table. -/
theorem ncard_isOf (a : Automaton) (kind : State → Bool) :
    {s | a.isOf kind s = true}.ncard = a.count kind := by
  have listed : {s | a.isOf kind s = true} =
      ((List.range a.size).filter (a.isOf kind)).toFinset := by
    ext s
    simp only [Set.mem_ofPred_eq, List.coe_toFinset, List.mem_filter, List.mem_range]
    exact ⟨fun h => ⟨lt_size_of_isOf h, h⟩, And.right⟩
  have cells : (List.range a.size).map a.state? = a.states.toList.map some := by
    refine List.ext_getElem (by simp [size]) fun i h _ => ?_
    have lt : i < a.states.size := by simpa [size] using h
    simp [state?, lt]
  have nodup : ((List.range a.size).filter (a.isOf kind)).Nodup := List.nodup_range.filter _
  calc {s | a.isOf kind s = true}.ncard
      = ((List.range a.size).filter (a.isOf kind)).length := by
        rw [listed, Set.ncard_coe_finset, List.toFinset_card_of_nodup nodup]
    _ = ((List.range a.size).map a.state?).countP (Option.any kind) := by
        rw [← List.countP_eq_length_filter, List.countP_map]
        rfl
    _ = a.count kind := by
        rw [cells, List.countP_map, count, ← Array.countP_toList]
        rfl

/-- A list without doubles has no more states of a kind than the table. -/
theorem countP_isOf_le (h : frontier.Nodup) : frontier.countP (a.isOf kind) ≤ a.count kind := by
  have inside : ((frontier.filter (a.isOf kind)).toFinset : Set StateId) ⊆
      {s | a.isOf kind s = true} := by
    intro s hs
    rw [List.coe_toFinset] at hs
    exact (List.mem_filter.mp hs).2
  calc frontier.countP (a.isOf kind)
      = ((frontier.filter (a.isOf kind)).toFinset : Set StateId).ncard := by
        rw [Set.ncard_coe_finset, List.toFinset_card_of_nodup (h.filter _),
          List.countP_eq_length_filter]
    _ ≤ {s | a.isOf kind s = true}.ncard := Set.ncard_le_ncard inside (finite_isOf a kind)
    _ = a.count kind := ncard_isOf a kind

/-- The splits that a search has visited. -/
def visitedSplits (a : Automaton) (round : Nat) (visited : Array Nat) : Set StateId :=
  {s | visited[s]? = some round ∧ a.isOf State.isSplit s = true}

/-- The splits that split edges lead to from a seed. -/
def splitsFrom (a : Automaton) (seeds : List StateId) : Set StateId :=
  {s | (∃ seed ∈ seeds, a.Leads seed s) ∧ a.isOf State.isSplit s = true}

/-- A split visited for the first time is one more. -/
theorem ncard_visitedSplits_set_of_split (h : id < visited.size) (fresh : visited[id] ≠ round)
    (split : a.isOf State.isSplit id = true) :
    (a.visitedSplits round (visited.set id round)).ncard =
      (a.visitedSplits round visited).ncard + 1 := by
  have more : a.visitedSplits round (visited.set id round) =
      insert id (a.visitedSplits round visited) := by
    ext s
    rw [Set.mem_insert_iff, visitedSplits, Set.mem_ofPred_eq, getElem?_set_eq_some_iff h]
    constructor
    · rintro ⟨marked | rfl, kind⟩
      · exact .inr ⟨marked, kind⟩
      · exact .inl rfl
    · rintro (rfl | ⟨marked, kind⟩)
      · exact ⟨.inr rfl, split⟩
      · exact ⟨.inl marked, kind⟩
  have unmarked : id ∉ a.visitedSplits round visited := by
    rintro ⟨marked, -⟩
    rw [Array.getElem?_eq_getElem h] at marked
    exact fresh (Option.some.inj marked)
  rw [more, Set.ncard_insert_of_notMem unmarked
    ((finite_isOf a State.isSplit).subset fun _ => And.right)]

theorem visitedSplits_set_of_not_split (h : id < visited.size)
    (other : a.isOf State.isSplit id = false) :
    a.visitedSplits round (visited.set id round) = a.visitedSplits round visited := by
  ext s
  simp only [visitedSplits, Set.mem_ofPred_eq, getElem?_set_eq_some_iff h]
  refine and_congr_left fun kind => or_iff_left ?_
  rintro rfl
  rw [other] at kind
  cases kind

/-- The states taken from the stack are those that were on it and two for each split visited. -/
theorem pops_search :
    (a.search round visited stack found pops).pops +
        2 * (a.visitedSplits round visited).ncard =
      pops + stack.length +
        2 * (a.visitedSplits round
          (a.search round visited stack found pops).marks.visited).ncard := by
  fun_induction search a round visited stack found pops with
  | case1 visited found pops => rfl
  | case2 visited found pops id rest h marked ih =>
    rw [List.length_cons]
    omega
  | case3 visited found pops id rest h fresh _ first second kind ih =>
    -- The two ways put on the stack are paid for by the split that is visited.
    rw [ncard_visitedSplits_set_of_split h fresh (isOf_eq kind)] at ih
    simp only [List.length_cons] at ih ⊢
    omega
  | case4 visited found pops id rest h fresh _ symbol next kind ih =>
    rw [visitedSplits_set_of_not_split h (isOf_eq kind)] at ih
    rw [List.length_cons]
    omega
  | case5 visited found pops id rest h fresh _ kind ih =>
    rw [visitedSplits_set_of_not_split h (isOf_eq kind)] at ih
    rw [List.length_cons]
    omega
  | case6 visited found pops id rest h fresh _ kind ih =>
    rw [visitedSplits_set_of_not_split h (isOf_eq kind)] at ih
    rw [List.length_cons]
    omega
  | case7 visited found pops id rest h fresh _ kind ih =>
    rw [visitedSplits_set_of_not_split h (isOf_of_none kind)] at ih
    rw [List.length_cons]
    omega
  | case8 visited found pops id rest h ih =>
    rw [List.length_cons]
    omega

/-- A closure takes its seeds from the stack, and two states more for each split it leads to. -/
theorem pops_closure (fits : marks.Fits a) (seeds : List StateId) :
    (a.closure marks seeds).pops = seeds.length + 2 * (a.splitsFrom seeds).ncard := by
  have before : a.visitedSplits (marks.round + 1) marks.visited = ∅ :=
    Set.eq_empty_of_forall_notMem fun s hs => fits.unmarked s hs.1
  have after : a.visitedSplits (marks.round + 1) (a.closure marks seeds).marks.visited =
      a.splitsFrom seeds := by
    ext s
    exact and_congr_left fun split =>
      (searching_closure fits seeds).visited_iff (lt_size_of_isOf split)
  have balance : (a.closure marks seeds).pops +
      2 * (a.visitedSplits (marks.round + 1) marks.visited).ncard =
        0 + seeds.length +
          2 * (a.visitedSplits (marks.round + 1) (a.closure marks seeds).marks.visited).ncard :=
    pops_search
  rw [before, after, Set.ncard_empty] at balance
  omega

theorem pops_closure_le (fits : marks.Fits a) (seeds : List StateId) :
    (a.closure marks seeds).pops ≤ seeds.length + 2 * a.count State.isSplit := by
  have some : (a.splitsFrom seeds).ncard ≤ a.count State.isSplit := by
    rw [← ncard_isOf]
    exact Set.ncard_le_ncard (fun _ => And.right) (finite_isOf a State.isSplit)
  rw [pops_closure fits]
  omega

/-- Only consuming states lead to a seed, each to one. -/
theorem length_seeds_le (frontier : List StateId) (c : Char) :
    (frontier.filterMap (a.afterChar? c)).length ≤ frontier.countP (a.isOf State.isConsume) := by
  rw [List.length_filterMap_eq_countP]
  refine List.countP_mono_left fun s _ after => ?_
  obtain ⟨t, after⟩ := Option.isSome_iff_exists.mp after
  obtain ⟨symbol, kind, -⟩ := afterChar?_eq_some_iff.mp after
  exact isOf_eq kind

/-- Each character costs at most one closure of as many seeds as there are consuming states. -/
theorem pops_runFrom_le (fits : marks.Fits a) (nodup : frontier.Nodup) {position : Nat}
    {advances : List Advance} (line : List Char) :
    (a.runFrom marks frontier position advances pops line).pops ≤
      pops + line.length * (a.count State.isConsume + 2 * a.count State.isSplit) := by
  induction line generalizing marks frontier position advances pops with
  | nil => exact Nat.le_add_right pops _
  | cons c line ih =>
    have seeds := (length_seeds_le (a := a) frontier c).trans (countP_isOf_le nodup)
    have here := pops_closure_le fits (frontier.filterMap (a.afterChar? c))
    rw [runFrom, List.length_cons, Nat.succ_mul]
    -- A run that stops here has made the closure of this character and no more.
    split
    · dsimp only
      omega
    · refine (ih (fits_closure fits _) (searching_closure fits _).nodup).trans ?_
      omega

theorem pops_run_le (h : 0 < a.count State.isConsume) (line : List Char) :
    (a.run line).pops ≤
      (line.length + 1) * (a.count State.isConsume + 2 * a.count State.isSplit) := by
  have fits := fits_fresh a
  have first := pops_closure_le fits [a.start]
  rw [run, Nat.succ_mul]
  refine (pops_runFrom_le (fits_closure fits _) (searching_closure fits _).nodup line).trans ?_
  rw [List.length_singleton] at first
  omega

theorem count_consume_pos (p : Pattern) : 0 < (ofPattern p).count State.isConsume := by
  obtain ⟨i, symbol, t, -, here⟩ := Layout.exists_consume_lay p acceptId #[.accept]
  exact Array.countP_pos_iff.mpr ⟨.consume symbol t, Array.mem_of_getElem? here, rfl⟩

/-- Whatever closures were made before, a closure of states of the table takes exactly its seeds
and two states for each split that split edges lead to from a seed. -/
theorem exists_closure?_pops (edges : a.EdgesInRange)
    (hcalls : ∀ earlier ∈ calls, ∀ s ∈ earlier, s < a.size) (hseeds : ∀ s ∈ seeds, s < a.size) :
    ∃ (marks : Marks) (k : Closure), a.marksAfter? (.fresh a.size) calls = some marks ∧
      a.closure? marks seeds = some k ∧
        k.pops = seeds.length + 2 * (a.splitsFrom seeds).ncard := by
  obtain ⟨marks, made, fits⟩ := edges.exists_marksAfter? (fits_fresh a) hcalls
  exact ⟨marks, a.closure marks seeds, made, edges.closure?_eq fits.size_eq hseeds,
    pops_closure fits seeds⟩

/-- The closures of a run of a pattern's automaton together take at most the consuming states and
two for each split, once at the start and once for each character. -/
theorem exists_run?_pops_le (p : Pattern) (line : List Char) :
    ∃ r : Run, (ofPattern p).run? line = some r ∧
      r.pops ≤ (line.length + 1) *
        ((ofPattern p).count State.isConsume + 2 * (ofPattern p).count State.isSplit) :=
  ⟨(ofPattern p).run line, (inRange_ofPattern p).run?_eq line,
    pops_run_le (count_consume_pos p) line⟩

/-- What closures and runs cost. In an automaton whose edges stay in the table, and whatever
closures were made before, a closure of states of the table takes exactly its seeds and two states
for each split that split edges lead to from a seed. In a run of a pattern's automaton no more seeds
come from a frontier than it has consuming states, and all closures together take at most the
consuming states and two for each split, once at the start and once for each character. -/
theorem pops_of_closure_and_run :
    (∀ (a : Automaton) (calls : List (List StateId)) (seeds : List StateId), a.EdgesInRange →
      (∀ earlier ∈ calls, ∀ s ∈ earlier, s < a.size) → (∀ s ∈ seeds, s < a.size) →
        ∃ (marks : Marks) (k : Closure), a.marksAfter? (.fresh a.size) calls = some marks ∧
          a.closure? marks seeds = some k ∧
            k.pops = seeds.length + 2 * (a.splitsFrom seeds).ncard) ∧
    ∀ (p : Pattern) (line : List Char),
      let b := ofPattern p
      (∀ w c, ((b.frontier w).filterMap (b.afterChar? c)).length ≤
        (b.frontier w).countP (b.isOf State.isConsume)) ∧
      ∃ r : Run, b.run? line = some r ∧
        r.pops ≤ (line.length + 1) * (b.count State.isConsume + 2 * b.count State.isSplit) :=
  ⟨fun _ _ _ edges => exists_closure?_pops edges, fun p line =>
    ⟨fun w => length_seeds_le ((ofPattern p).frontier w), exists_run?_pops_le p line⟩⟩

/-- Two splits that lead to each other, with a seed given twice, and a loop around a loop around
a loop. -/
theorem pops_of_closure_and_run_loops :
    let a : Automaton :=
      { states := #[.accept, .split 2 3, .split 1 0, .consume .any 1]
        start := 1 }
    let b := ofPattern (.star (.star (.star (.char 'a'))))
    a.EdgesInRange ∧ (a.closure (.fresh 4) [2, 1, 2]).pops = 7 ∧
      (a.splitsFrom [2, 1, 2]).ncard = 2 ∧ (b.run ['a', 'b']).pops ≤ 21 := by
  intro a b
  have edges : a.EdgesInRange := by unfold EdgesInRange; decide
  have earlier : ∀ seeds ∈ ([] : List (List StateId)), ∀ s ∈ seeds, s < a.size := by decide
  have below : ∀ s ∈ [2, 1, 2], s < a.size := by decide
  obtain ⟨closures, runs⟩ := pops_of_closure_and_run
  obtain ⟨marks, k, made, closed, pops⟩ := closures a [] [2, 1, 2] edges earlier below
  obtain ⟨-, r, run, bound⟩ := runs (.star (.star (.star (.char 'a')))) ['a', 'b']
  obtain rfl := Option.some.inj made
  obtain rfl := Option.some.inj ((edges.closure?_eq rfl below).symm.trans closed)
  obtain rfl := Option.some.inj (((inRange_ofPattern _).run?_eq _).symm.trans run)
  have seven : (a.closure (.fresh 4) [2, 1, 2]).pops = 7 := by decide +kernel
  have consuming : b.count State.isConsume = 1 := by decide +kernel
  have splits : b.count State.isSplit = 3 := by decide +kernel
  have total : 3 + 2 * (a.splitsFrom [2, 1, 2]).ncard = 7 := pops.symm.trans seven
  refine ⟨edges, seven, by omega, ?_⟩
  rw [consuming, splits] at bound
  exact bound

end Automaton
end PatternAutomaton
