import PatternAutomaton.Automaton.Checked
import PatternAutomaton.Proofs.Discovery
import PatternAutomaton.Proofs.Frontier
import PatternAutomaton.Proofs.LayoutFragment

/-!
# No check fails

A layout fills every slot while it is still reserved, since the parts laid out after the slot
leave the table before them as it is. In an automaton whose edges stay in the table, discovery,
closures and runs stay in it as well. So the checked definitions give the results of the others.
-/
namespace PatternAutomaton

namespace Layout

variable {states : Array State} {i : Nat}

/-- A slot stays reserved while patterns are laid out behind it. -/
theorem reserved_lay (p : Pattern) (next : StateId) (h : states[i]? = some .reserved) :
    (lay p next states).states[i]? = some .reserved := by
  have lt : i < states.size := (Array.getElem?_eq_some_iff.mp h).1
  rw [getElem?_lay p next states lt, h]

theorem reserved_reserve (states : Array State) :
    (reserve states).states[(reserve states).entry]? = some .reserved :=
  Array.getElem?_push_size

theorem fill?_eq (s : State) (h : states[i]? = some .reserved) :
    fill? i s states = some (fill i s states) := if_pos h

-- A slot that has its content is not filled again.
example : fill? 0 (.split 0 0) #[.accept] = none := by decide

mutual

/-- Every slot is filled while it is reserved. -/
theorem lay?_eq (p : Pattern) (next : StateId) (states : Array State) :
    lay? p next states = some (lay p next states) := by
  match p with
  | .char c => rw [lay?, lay]
  | .concat p q =>
    rw [lay?, lay, lay?_eq (Pattern.concatSpine q [p]).1]
    exact laySequence?_eq _ _ _
  | .alt p q =>
    rw [lay?, lay, lay?_eq (Pattern.altSpine q [p]).1]
    exact layChoices?_eq _ _ _ _
  | .star p =>
    rw [lay?, lay, lay?_eq p]
    exact fill?_eq _ (reserved_lay p _ (reserved_reserve states))
  | .plus p =>
    have out := reserved_lay p next (reserved_reserve states)
    rw [lay?, lay, lay?_eq p, Option.bind_eq_bind, Option.bind_some, lay?_eq p]
    exact fill?_eq _ (reserved_lay p _ out)
termination_by 2 * p.size
decreasing_by
  · have := Pattern.concatSpine_size_lt p q; omega
  · have := Pattern.concatSpine_size_lt p q; omega
  · have := Pattern.altSpine_size_lt p q; omega
  · have := Pattern.altSpine_size_lt p q; omega
  all_goals simp only [Pattern.size]; omega

theorem laySequence?_eq (ps : List Pattern) (next : StateId) (states : Array State) :
    laySequence? ps next states = some (laySequence ps next states) := by
  match ps with
  | [] => rw [laySequence?, laySequence]
  | p :: earlier =>
    rw [laySequence?, laySequence, lay?_eq p]
    exact laySequence?_eq earlier _ _
termination_by 2 * Pattern.totalSize ps + 1
decreasing_by
  all_goals have := p.size_pos; simp only [Pattern.totalSize]; omega

theorem layChoices?_eq (ps : List Pattern) (next others : StateId) (states : Array State) :
    layChoices? ps next others states = some (layChoices ps next others states) := by
  match ps with
  | [] => rw [layChoices?, layChoices]
  | p :: earlier =>
    rw [layChoices?, layChoices, lay?_eq p]
    exact layChoices?_eq earlier _ _ _
termination_by 2 * Pattern.totalSize ps + 1
decreasing_by
  all_goals have := p.size_pos; simp only [Pattern.totalSize]; omega

end

/-- Whatever table a pattern is laid out behind and wherever it goes on, walking its spines as
lists gives the table and the entry that recursion on the tree gives, however concatenations and
alternations lean to the left or to the right. No slot is filled that is not reserved. -/
theorem lay_and_lay?_eq_layNested (p : Pattern) (next : StateId) (states : Array State) :
    lay p next states = layNested p next states ∧
      lay? p next states = some (layNested p next states) := by
  have same := lay_eq_layNested p next states
  exact ⟨same, by rw [lay?_eq, same]⟩

-- A concatenation that leans to the left, with a split before it and one behind it.
example : layNested (.concat (.concat (.star (.char 'a')) (.char '.')) (.plus (.char 'b'))) 0
      #[.accept] =
    ⟨5, #[.accept, .split 2 3, .consume (.char 'b') 0, .consume (.char 'b') 1, .consume .any 1,
      .split 6 4, .consume (.char 'a') 5]⟩ := by decide

end Layout

namespace Automaton

variable {a : Automaton} {marks : Marks} {seeds stack found frontier : List StateId}
  {visited : Array Nat} {round pops : Nat} {s t : Nat}

theorem exists_state? (lt : s < a.size) : ∃ state, a.state? s = some state :=
  ⟨_, Array.getElem?_eq_getElem lt⟩

namespace EdgesInRange

theorem lt_of_mem_targets (edges : a.EdgesInRange) {state : State} (h : a.state? s = some state)
    (mem : t ∈ state.targets) : t < a.size :=
  edges state (Array.mem_of_getElem? h) t mem

theorem search?_eq (edges : a.EdgesInRange) (hsize : visited.size = a.size)
    (hstack : ∀ s ∈ stack, s < a.size) :
    a.search? round visited stack found pops =
      some (a.search round visited stack found pops) := by
  fun_induction search a round visited stack found pops with
  | case1 visited found pops => rw [search?]
  | case2 visited found pops id rest h marked ih =>
    rw [search?, dif_pos h, dif_pos marked]
    exact ih hsize (List.forall_mem_cons.mp hstack).2
  | case3 visited found pops id rest h fresh _ first second kind ih =>
    have ways : ∀ t ∈ [first, second], t < a.size :=
      fun t => edges.lt_of_mem_targets kind
    have below := List.forall_mem_append.mpr ⟨ways, (List.forall_mem_cons.mp hstack).2⟩
    rw [search?, dif_pos h, dif_neg fresh, kind]
    exact ih (by rwa [Array.size_set]) below
  | case4 visited found pops id rest h fresh _ symbol next kind ih =>
    rw [search?, dif_pos h, dif_neg fresh, kind]
    exact ih (by rwa [Array.size_set]) (List.forall_mem_cons.mp hstack).2
  | case5 visited found pops id rest h fresh _ kind ih =>
    rw [search?, dif_pos h, dif_neg fresh, kind]
    exact ih (by rwa [Array.size_set]) (List.forall_mem_cons.mp hstack).2
  | case6 visited found pops id rest h fresh _ kind ih =>
    rw [search?, dif_pos h, dif_neg fresh, kind]
    exact ih (by rwa [Array.size_set]) (List.forall_mem_cons.mp hstack).2
  | case7 visited found pops id rest h fresh _ kind ih =>
    -- The marks are as many as the states, so no marked index misses the table.
    obtain ⟨state, present⟩ := exists_state? (a := a) (hsize ▸ h)
    rw [kind] at present
    cases present
  | case8 visited found pops id rest h ih =>
    exact absurd (hsize ▸ hstack id List.mem_cons_self) h

theorem closure?_eq (edges : a.EdgesInRange) (hsize : marks.visited.size = a.size)
    (hseeds : ∀ s ∈ seeds, s < a.size) :
    a.closure? marks seeds = some (a.closure marks seeds) :=
  edges.search?_eq hsize hseeds

-- An edge that leaves the table is a fault.
example : closure? ⟨#[.split 0 1], 0⟩ (.fresh 1) [0] = none := by cbv

/-- Closures made one after the other leave marks behind that serve for the next one. -/
theorem exists_marksAfter? (edges : a.EdgesInRange) (fits : marks.Fits a)
    {calls : List (List StateId)} (hcalls : ∀ seeds ∈ calls, ∀ s ∈ seeds, s < a.size) :
    ∃ after : Marks, a.marksAfter? marks calls = some after ∧ after.Fits a := by
  induction calls generalizing marks with
  | nil => exact ⟨marks, rfl, fits⟩
  | cons seeds calls ih =>
    obtain ⟨here, rest⟩ := List.forall_mem_cons.mp hcalls
    obtain ⟨after, made, fits'⟩ := ih (fits_closure fits seeds) rest
    refine ⟨after, ?_, fits'⟩
    rw [marksAfter?, List.foldlM_cons, edges.closure?_eq fits.size_eq here]
    exact made

end EdgesInRange

theorem InRange.edges (inRange : a.InRange) : a.EdgesInRange := inRange.target_lt

theorem InRange.closure?_eq (inRange : a.InRange) (hsize : marks.visited.size = a.size)
    (hseeds : ∀ s ∈ seeds, s < a.size) :
    a.closure? marks seeds = some (a.closure marks seeds) :=
  inRange.edges.closure?_eq hsize hseeds

/-- The states of a list of indices can all be looked up. -/
theorem mapM_state? {ids : List StateId} (h : ∀ s ∈ ids, s < a.size) :
    ids.mapM a.state? = some (ids.filterMap a.state?) := by
  induction ids with
  | nil => rfl
  | cons s ids ih =>
    obtain ⟨below, rest⟩ := List.forall_mem_cons.mp h
    obtain ⟨state, present⟩ := exists_state? below
    rw [List.mapM_cons, ih rest, List.filterMap_cons, present]
    rfl

theorem filterMap_state?_afterChar? (ids : List StateId) (c : Char) :
    (ids.filterMap a.state?).filterMap (State.afterChar? c) = ids.filterMap (a.afterChar? c) := by
  rw [List.filterMap_filterMap]
  refine List.filterMap_congr fun s _ => ?_
  rw [afterChar?]
  cases a.state? s <;> rfl

theorem any_state?_isAccept (ids : List StateId) :
    (ids.filterMap a.state?).any State.isAccept = ids.any a.isAccept := by
  rw [List.any_filterMap]
  congr 1
  funext s
  rw [isAccept]
  cases a.state? s <;> rfl

namespace InRange

theorem afterChar?_lt (inRange : a.InRange) {c : Char} (h : a.afterChar? c s = some t) :
    t < a.size := by
  obtain ⟨symbol, state, -⟩ := afterChar?_eq_some_iff.mp h
  exact inRange.edges.lt_of_mem_targets state (List.mem_singleton_self t)

theorem runFrom?_eq (inRange : a.InRange) (fits : marks.Fits a)
    (hfrontier : ∀ s ∈ frontier, s < a.size) {position : Nat} {advances : List Advance}
    {line : List Char} :
    a.runFrom? marks frontier position advances pops line =
      some (a.runFrom marks frontier position advances pops line) := by
  induction line generalizing marks frontier position advances pops with
  | nil =>
    rw [runFrom?, mapM_state? hfrontier, runFrom, ← any_state?_isAccept]
    rfl
  | cons c line ih =>
    have seeds : ∀ t ∈ frontier.filterMap (a.afterChar? c), t < a.size := by
      intro t ht
      obtain ⟨s, -, after⟩ := List.mem_filterMap.mp ht
      exact inRange.afterChar?_lt after
    have next : ∀ t ∈ (a.closure marks (frontier.filterMap (a.afterChar? c))).states,
        t < a.size := fun t ht => ((mem_closure_iff fits).mp ht).2.lt_size
    rw [runFrom?, mapM_state? hfrontier, Option.bind_eq_bind, Option.bind_some,
      filterMap_state?_afterChar?, inRange.closure?_eq fits.size_eq seeds, Option.bind_eq_bind,
      Option.bind_some, runFrom]
    split
    · rfl
    · exact ih (fits_closure fits _) next

/-- A run looks up no state outside the table. -/
theorem run?_eq (inRange : a.InRange) (line : List Char) : a.run? line = some (a.run line) := by
  have fits := fits_fresh a
  have start : ∀ s ∈ [a.start], s < a.size := by
    intro s hs
    rw [List.mem_singleton.mp hs]
    exact inRange.start_lt
  have first : ∀ t ∈ (a.closure (.fresh a.size) [a.start]).states, t < a.size :=
    fun t ht => ((mem_closure_iff fits).mp ht).2.lt_size
  rw [run?, inRange.closure?_eq fits.size_eq start]
  exact inRange.runFrom?_eq (fits_closure fits _) first

end InRange

namespace Discovery

variable {d : Discovery}

@[simp] theorem size_isFound_add (d : Discovery) (t : Nat) :
    (d.add t).isFound.size = d.isFound.size := by
  rcases d.add_cases t with ⟨same, -⟩ | ⟨lt, -, pushed⟩
  · rw [same]
  · rw [pushed, Array.size_set]

theorem addAll?_eq {ids : List StateId} (h : ∀ t ∈ ids, t < d.isFound.size) :
    addAll? ids d = some (ids.foldl add d) := by
  induction ids generalizing d with
  | nil => rfl
  | cons t ids ih =>
    obtain ⟨below, rest⟩ := List.forall_mem_cons.mp h
    rw [addAll?, add?, if_pos below]
    exact ih (by simpa only [size_isFound_add] using rest)

theorem Fits.lt_size (fits : d.Fits a) (mem : t ∈ d.found) : t < a.size := by
  rw [← fits.size_eq]
  exact (Array.getElem?_eq_some_iff.mp ((fits.mem_iff t).mp mem)).1

end Discovery

namespace InRange

theorem discover?_eq (inRange : a.InRange) {d : Discovery} {i : Nat} (visited : d.Visited a i) :
    a.discover? d i = some (a.discover d i) := by
  fun_induction discover a d i with
  | case1 d i h ih =>
    obtain ⟨state, present⟩ := exists_state? (visited.lt_size (Array.getElem_mem h))
    have targets_eq : a.targets d.found[i] = state.targets := by rw [targets, present]
    have below : ∀ t ∈ state.targets, t < d.isFound.size := by
      rw [visited.size_eq]
      exact fun t => inRange.edges.lt_of_mem_targets present
    have added := Discovery.addAll?_eq below
    rw [discover?, dif_pos h]
    simp only [present]
    split
    · next failed => rw [added] at failed; cases failed
    · next d' same =>
      obtain rfl := Option.some.inj (added.symm.trans same)
      rw [← targets_eq]
      exact ih (visited.visit h)
  | case2 d i h => rw [discover?, dif_neg h]

/-- Discovery looks up no state outside the table. -/
theorem reachable?_eq (inRange : a.InRange) : a.reachable? = some a.reachable := by
  have below : a.start < (Discovery.empty a.size).isFound.size := by
    rw [(Discovery.fits_empty a).size_eq]
    exact inRange.start_lt
  rw [reachable?, Discovery.add?, if_pos below, Option.bind_eq_bind, Option.bind_some,
    inRange.discover?_eq (Discovery.visited_start a)]
  rfl

/-- The check that ends a layout finds no reserved state. -/
theorem filled?_eq (inRange : a.InRange) (unreserved : ∀ s : Nat, a.state? s ≠ some .reserved) :
    a.filled? = some a := by
  have below : ∀ s ∈ a.reachable, s < a.size := fun s hs => (mem_reachable_iff.mp hs).2
  have each : (a.reachable.filterMap a.state?).all (· != .reserved) = true := by
    rw [List.all_eq_true]
    intro state hstate
    obtain ⟨s, -, present⟩ := List.mem_filterMap.mp hstate
    exact bne_iff_ne.mpr fun eq => unreserved s (eq ▸ present)
  rw [filled?, inRange.reachable?_eq, Option.bind_eq_bind, Option.bind_some,
    mapM_state? below, Option.bind_eq_bind, Option.bind_some, if_pos each]

end InRange

/-- The layout of a pattern passes all checks, if its result does. -/
theorem ofPattern?_eq (p : Pattern) : ofPattern? p = (ofPattern p).filled? := by
  rw [ofPattern?, Layout.lay?_eq]
  rfl

end Automaton
end PatternAutomaton
