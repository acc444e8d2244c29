import PatternAutomaton.Automaton.DepthFirst
import PatternAutomaton.Proofs.Checked

/-!
# The order of a closure

A closure finds its states in the order of a recursive search. Whatever lies below some states on
the stack, the search is done with these states and with all that it puts above them before it
comes to what lies below, and up to there it makes the visits that the recursion makes for these
states. A state may be on the stack many times. It is marked when it is taken from the stack, so
the copy that is taken first is visited at the time at which the recursion comes to it.

Marks of earlier searches do not count as visits. So the order depends on the seeds alone.
-/
namespace PatternAutomaton.Automaton

variable {a : Automaton} {marks : Marks} {seeds ids rest found : List StateId}
  {calls : List (List StateId)} {visited : Array Nat} {round pops id : Nat} {t : Tour}

/-! What a search does with the state on top of its stack. -/

theorem search_cons_of_marked (h : id < visited.size) (marked : visited[id] = round) :
    a.search round visited (id :: rest) found pops =
      a.search round visited rest found (pops + 1) := by
  rw [search, dif_pos h, dif_pos marked]

theorem search_cons_of_not_lt (h : ¬ id < visited.size) :
    a.search round visited (id :: rest) found pops =
      a.search round visited rest found (pops + 1) := by
  rw [search, dif_neg h]

theorem search_cons_of_split {first second : StateId} (h : id < visited.size)
    (fresh : visited[id] ≠ round) (kind : a.state? id = some (.split first second)) :
    a.search round visited (id :: rest) found pops =
      a.search round (visited.set id round) (first :: second :: rest) found (pops + 1) := by
  rw [search, dif_pos h, dif_neg fresh, kind]

theorem search_cons_of_isGoal (h : id < visited.size) (fresh : visited[id] ≠ round)
    (goal : a.IsGoal id) :
    a.search round visited (id :: rest) found pops =
      a.search round (visited.set id round) rest (id :: found) (pops + 1) := by
  rcases goal with ⟨symbol, next, kind⟩ | kind
  · rw [search, dif_pos h, dif_neg fresh, kind]
  · rw [search, dif_pos h, dif_neg fresh, kind]

theorem search_cons_of_dead_end (h : id < visited.size) (fresh : visited[id] ≠ round)
    (kind : a.state? id = some .reserved ∨ a.state? id = none) :
    a.search round visited (id :: rest) found pops =
      a.search round (visited.set id round) rest found (pops + 1) := by
  rcases kind with kind | kind
  · rw [search, dif_pos h, dif_neg fresh, kind]
  · rw [search, dif_pos h, dif_neg fresh, kind]

/-- A tour has visited the states that carry the number of a search. -/
structure Agrees (round : Nat) (visited : Array Nat) (t : Tour) : Prop where
  size_eq : visited.size = t.isVisited.size
  marked_iff : ∀ s : Nat, visited[s]? = some round ↔ t.isVisited[s]? = some true

namespace Agrees

theorem lt_size (agrees : Agrees round visited t) (h : id < t.isVisited.size) :
    id < visited.size := agrees.size_eq ▸ h

theorem eq_round_iff (agrees : Agrees round visited t) (h : id < t.isVisited.size)
    (lt : id < visited.size) : visited[id] = round ↔ t.isVisited[id] = true := by
  have both := agrees.marked_iff id
  rwa [Array.getElem?_eq_getElem lt, Array.getElem?_eq_getElem h, Option.some.injEq,
    Option.some.injEq] at both

theorem ne_round (agrees : Agrees round visited t) (h : id < t.isVisited.size)
    (lt : id < visited.size) (new : t.isVisited[id] = false) : visited[id] ≠ round := by
  rw [ne_eq, agrees.eq_round_iff h lt, new]
  exact Bool.false_ne_true

/-- Both visit a state. -/
theorem visit (agrees : Agrees round visited t) (h : id < t.isVisited.size) :
    Agrees round (visited.set id round (agrees.lt_size h)) (t.visit id h) where
  size_eq := by rw [Array.size_set, Tour.visit, Array.size_set, agrees.size_eq]
  marked_iff s := by
    rw [getElem?_set_eq_some_iff (agrees.lt_size h), agrees.marked_iff, Tour.visit,
      Array.getElem?_set]
    by_cases hs : id = s
    · simp [hs]
    · simp [hs, Ne.symm hs]

theorem find (agrees : Agrees round visited t) : Agrees round visited (t.find id) :=
  ⟨agrees.size_eq, agrees.marked_iff⟩

end Agrees

/-- With some states on top of its stack, a search comes to what lies below them with the visits
and the states found of a tour of these states. -/
theorem search_append (agrees : Agrees round visited t) (below : List StateId) (pops : Nat) :
    ∃ visited' pops', Agrees round visited' (a.tour ids t).val ∧
      a.search round visited (ids ++ below) t.found.reverse pops =
        a.search round visited' below (a.tour ids t).val.found.reverse pops' := by
  fun_induction tour a ids t generalizing visited below pops with
  | case1 t => exact ⟨visited, pops, agrees, rfl⟩
  | case2 t id rest h new _ first second kind ways _ toured after _ toured' ihWays ihRest =>
    have lt := agrees.lt_size h
    -- The ways of the split are on top, and the rest of the list lies right below them.
    obtain ⟨visited₁, pops₁, agrees₁, same₁⟩ := ihWays (agrees.visit h) (rest ++ below) (pops + 1)
    rw [toured] at agrees₁ same₁
    obtain ⟨visited₂, pops₂, agrees₂, same₂⟩ := ihRest agrees₁ below pops₁
    rw [toured'] at agrees₂ same₂
    refine ⟨visited₂, pops₂, agrees₂, ?_⟩
    rw [List.cons_append, search_cons_of_split lt (agrees.ne_round h lt new) kind]
    exact same₁.trans same₂
  | case3 t id rest h new _ symbol next kind after _ toured ih =>
    have lt := agrees.lt_size h
    have goal : a.IsGoal id := .inl ⟨symbol, next, kind⟩
    rw [List.cons_append, search_cons_of_isGoal lt (agrees.ne_round h lt new) goal]
    simpa [toured] using ih (agrees.visit h).find below (pops + 1)
  | case4 t id rest h new _ kind after _ toured ih =>
    have lt := agrees.lt_size h
    have goal : a.IsGoal id := .inr kind
    rw [List.cons_append, search_cons_of_isGoal lt (agrees.ne_round h lt new) goal]
    simpa [toured] using ih (agrees.visit h).find below (pops + 1)
  | case5 t id rest h new _ kind after _ toured ih =>
    have lt := agrees.lt_size h
    rw [List.cons_append, search_cons_of_dead_end lt (agrees.ne_round h lt new) (.inl kind)]
    simpa [toured] using ih (agrees.visit h) below (pops + 1)
  | case6 t id rest h new _ kind after _ toured ih =>
    have lt := agrees.lt_size h
    rw [List.cons_append, search_cons_of_dead_end lt (agrees.ne_round h lt new) (.inr kind)]
    simpa [toured] using ih (agrees.visit h) below (pops + 1)
  | case7 t id rest h old ih =>
    have lt := agrees.lt_size h
    have marked := (agrees.eq_round_iff h lt).mpr (Bool.eq_true_of_not_eq_false old)
    rw [List.cons_append, search_cons_of_marked lt marked]
    exact ih agrees below (pops + 1)
  | case8 t id rest h ih =>
    rw [List.cons_append, search_cons_of_not_lt (agrees.size_eq ▸ h)]
    exact ih agrees below (pops + 1)

/-- Before a search with a new number both have visited nothing. -/
theorem agrees_start (fits : marks.Fits a) :
    Agrees (marks.round + 1) marks.visited (Tour.start a.size) where
  size_eq := by rw [fits.size_eq, Tour.start, Array.size_replicate]
  marked_iff s := iff_of_false (fits.unmarked s) (by simp [Tour.start, Array.getElem?_replicate])

/-- A closure finds its states in the order of a recursive search. -/
theorem states_closure (fits : marks.Fits a) (seeds : List StateId) :
    (a.closure marks seeds).states = a.depthFirst seeds := by
  obtain ⟨visited, pops, -, same⟩ : ∃ visited pops,
      Agrees (marks.round + 1) visited (a.tour seeds (.start a.size)).val ∧
        a.search (marks.round + 1) marks.visited (seeds ++ []) [] 0 =
          a.search (marks.round + 1) visited [] (a.depthFirst seeds).reverse pops :=
    search_append (agrees_start fits) [] 0
  rw [List.append_nil] at same
  rw [closure, same, search, List.reverse_reverse]

/-- In an automaton whose edges stay in the table, a closure of states of the table finds the
consuming and accepting states that split edges lead to from a seed, each once, in the order in
which a recursive search meets them. What closures were made before makes no difference, and no
mark exceeds the number of the last search. -/
theorem closure?_eq_depthFirst (edges : a.EdgesInRange)
    (hcalls : ∀ earlier ∈ calls, ∀ s ∈ earlier, s < a.size) (hseeds : ∀ s ∈ seeds, s < a.size) :
    ∃ (marks : Marks) (k : Closure),
      a.marksAfter? (.fresh a.size) calls = some marks ∧ a.closure? marks seeds = some k ∧
        k.states = a.depthFirst seeds ∧ k.states.Nodup ∧
        (∀ t, t ∈ k.states ↔ (∃ seed ∈ seeds, a.Leads seed t) ∧ a.IsGoal t) ∧
        ∀ n ∈ k.marks.visited, n ≤ k.marks.round := by
  obtain ⟨marks, made, fits⟩ := edges.exists_marksAfter? (fits_fresh a) hcalls
  exact ⟨marks, a.closure marks seeds, made, edges.closure?_eq fits.size_eq hseeds,
    states_closure fits seeds, (searching_closure fits seeds).nodup,
    fun _ => mem_closure_iff fits, (fits_closure fits seeds).le_round⟩

/-- Two splits that lead to each other, after closures that have marked all states. -/
theorem closure?_eq_depthFirst_cycle :
    let a : Automaton :=
      { states := #[.accept, .split 2 3, .split 1 0, .consume .any 1]
        start := 1 }
    a.EdgesInRange ∧ ∃ (marks : Marks) (k : Closure),
      a.marksAfter? (.fresh 4) [[1], [3, 3]] = some marks ∧
        a.closure? marks [2, 1, 2] = some k ∧ k.states = [3, 0] := by
  intro a
  have edges : a.EdgesInRange := by unfold EdgesInRange; decide
  have earlier : ∀ seeds ∈ [[1], [3, 3]], ∀ s ∈ seeds, s < a.size := by decide
  have below : ∀ s ∈ [2, 1, 2], s < a.size := by decide
  obtain ⟨marks, k, made, closed, order, -⟩ := closure?_eq_depthFirst edges earlier below
  have met : a.depthFirst [2, 1, 2] = [3, 0] := by cbv
  exact ⟨edges, marks, k, made, closed, order.trans met⟩

end PatternAutomaton.Automaton
