import Mathlib.Data.List.Nodup
import Mathlib.Logic.Relation
import PatternAutomaton.Automaton.Closure
import PatternAutomaton.Automaton.Path

/-!
# What a closure holds

The closure of some seeds holds exactly the consuming and accepting states that split edges lead
to from a seed. The invariant of the search is that a visited state has all its ways on visited
or on the stack. Epsilon cycles need no care of their own: at the end the visited states are
closed under split edges, whatever cycles there are.

The marks left by earlier searches do no harm as long as none carries a number still to come,
which is what every search leaves behind.
-/
namespace PatternAutomaton

/-- Marks for the states of an automaton, none with the number of a search still to come. -/
structure Marks.Fits (m : Marks) (a : Automaton) : Prop where
  size_eq : m.visited.size = a.size
  le_round : ∀ n ∈ m.visited, n ≤ m.round

/-- Nothing is visited before a search with a new number. -/
theorem Marks.Fits.unmarked {m : Marks} {a : Automaton} (fits : m.Fits a) (s : Nat) :
    m.visited[s]? ≠ some (m.round + 1) := by
  intro h
  have := fits.le_round _ (Array.mem_of_getElem? h)
  omega

namespace Automaton

/-- Consuming and accepting states, which a search is after. -/
def IsGoal (a : Automaton) (s : StateId) : Prop :=
  (∃ symbol next, a.state? s = some (.consume symbol next)) ∨ a.state? s = some .accept

/-- Split edges lead from one state to the other. -/
def Leads (a : Automaton) : StateId → StateId → Prop := Relation.ReflTransGen a.SplitEdge

/-- What holds of a search from the seeds whenever it takes the next state from its stack. -/
structure Searching (a : Automaton) (seeds : List StateId) (round : Nat) (visited : Array Nat)
    (stack found : List StateId) : Prop where
  fits : Marks.Fits ⟨visited, round⟩ a
  visited_led : ∀ s : Nat, visited[s]? = some round → ∃ seed ∈ seeds, a.Leads seed s
  stack_led : ∀ s ∈ stack, ∃ seed ∈ seeds, a.Leads seed s
  pending : ∀ seed ∈ seeds, seed < a.size → visited[seed]? = some round ∨ seed ∈ stack
  onward : ∀ s : Nat, visited[s]? = some round → ∀ t, a.SplitEdge s t → t < a.size →
    visited[t]? = some round ∨ t ∈ stack
  mem_found : ∀ s : Nat, s ∈ found ↔ visited[s]? = some round ∧ a.IsGoal s
  nodup : found.Nodup

variable {a : Automaton} {seeds stack found rest : List StateId} {round pops : Nat}
  {visited : Array Nat} {s t : Nat}

theorem lt_size_of_state? {state : State} (h : a.state? s = some state) : s < a.size :=
  (Array.getElem?_eq_some_iff.mp h).1

theorem SplitEdge.lt_size (edge : a.SplitEdge s t) : s < a.size := by
  obtain ⟨_, _, h, _⟩ := edge
  exact lt_size_of_state? h

theorem IsGoal.lt_size (goal : a.IsGoal s) : s < a.size := by
  rcases goal with ⟨_, _, h⟩ | h <;> exact lt_size_of_state? h

/-- Marking one state marks no other. -/
theorem getElem?_set_eq_some_iff {id : Nat} (h : id < visited.size) :
    (visited.set id round)[s]? = some round ↔ visited[s]? = some round ∨ s = id := by
  rw [Array.getElem?_set]
  by_cases hs : id = s
  · simp [hs]
  · simp [hs, Ne.symm hs]

namespace Searching

/-- A search with a new number starts with the seeds on its stack. -/
theorem start {marks : Marks} (fits : marks.Fits a) (seeds : List StateId) :
    a.Searching seeds (marks.round + 1) marks.visited seeds [] := by
  refine ⟨⟨fits.size_eq, fun n hn => Nat.le_succ_of_le (fits.le_round n hn)⟩,
    fun s h => absurd h (fits.unmarked s), fun s hs => ⟨s, hs, .refl⟩, fun s hs _ => .inr hs,
    fun s h => absurd h (fits.unmarked s), fun s => ?_, List.nodup_nil⟩
  simp [fits.unmarked s]

/-- A state that is visited already, or outside the table, is dropped from the stack. -/
theorem drop {id : Nat} (inv : a.Searching seeds round visited (id :: rest) found)
    (h : id < a.size → visited[id]? = some round) :
    a.Searching seeds round visited rest found := by
  have left (t : Nat) (lt : t < a.size) (ht : visited[t]? = some round ∨ t ∈ id :: rest) :
      visited[t]? = some round ∨ t ∈ rest := by
    rcases ht with marked | mem
    · exact .inl marked
    · rcases List.mem_cons.mp mem with rfl | mem
      · exact .inl (h lt)
      · exact .inr mem
  exact ⟨inv.fits, inv.visited_led, fun s hs => inv.stack_led s (List.mem_cons_of_mem _ hs),
    fun seed hseed lt => left seed lt (inv.pending seed hseed lt),
    fun s marked t edge lt => left t lt (inv.onward s marked t edge lt),
    inv.mem_found, inv.nodup⟩

/-- A state not visited before is marked, its ways on are put on the stack, and it is noted if
it is a goal. -/
theorem visit {id : Nat} (inv : a.Searching seeds round visited (id :: rest) found)
    (h : id < visited.size) (fresh : visited[id] ≠ round) (ways found' : List StateId)
    (hways : ∀ t, a.SplitEdge id t ↔ t ∈ ways)
    (hfound : found' = found ∧ ¬ a.IsGoal id ∨ found' = id :: found ∧ a.IsGoal id) :
    a.Searching seeds round (visited.set id round) (ways ++ rest) found' := by
  have unmarked : visited[id]? ≠ some round := by
    rw [Array.getElem?_eq_getElem h]
    exact fun eq => fresh (Option.some.inj eq)
  obtain ⟨seed, hseed, led⟩ := inv.stack_led id List.mem_cons_self
  have kept (t : Nat) (ht : visited[t]? = some round ∨ t ∈ id :: rest) :
      (visited.set id round)[t]? = some round ∨ t ∈ ways ++ rest := by
    rw [getElem?_set_eq_some_iff h]
    rcases ht with marked | mem
    · exact .inl (.inl marked)
    · rcases List.mem_cons.mp mem with eq | mem
      · exact .inl (.inr eq)
      · exact .inr (List.mem_append_right _ mem)
  constructor
  · refine ⟨(Array.size_set h).trans inv.fits.size_eq, fun n hn => ?_⟩
    have mem : n ∈ visited.set id round := hn
    rcases Array.mem_or_eq_of_mem_set mem with mem | rfl
    · exact inv.fits.le_round n mem
    · exact Nat.le_refl n
  · intro s hs
    rcases (getElem?_set_eq_some_iff h).mp hs with marked | rfl
    · exact inv.visited_led s marked
    · exact ⟨seed, hseed, led⟩
  · intro s hs
    rcases List.mem_append.mp hs with hs | hs
    · exact ⟨seed, hseed, led.tail ((hways s).mpr hs)⟩
    · exact inv.stack_led s (List.mem_cons_of_mem _ hs)
  · exact fun seed hseed lt => kept seed (inv.pending seed hseed lt)
  · intro s hs t edge lt
    rcases (getElem?_set_eq_some_iff h).mp hs with marked | rfl
    · exact kept t (inv.onward s marked t edge lt)
    · exact .inr (List.mem_append_left _ ((hways t).mp edge))
  · intro s
    rw [getElem?_set_eq_some_iff h]
    rcases hfound with ⟨rfl, notGoal⟩ | ⟨rfl, goal⟩
    · rw [inv.mem_found]
      grind
    · rw [List.mem_cons, inv.mem_found]
      grind
  · rcases hfound with ⟨rfl, -⟩ | ⟨rfl, -⟩
    · exact inv.nodup
    · exact List.nodup_cons.mpr ⟨fun mem => unmarked ((inv.mem_found id).mp mem).1, inv.nodup⟩

/-- At the end the visited states are those that split edges lead to. -/
theorem visited_iff (inv : a.Searching seeds round visited [] found) (lt : t < a.size) :
    visited[t]? = some round ↔ ∃ seed ∈ seeds, a.Leads seed t := by
  constructor
  · exact inv.visited_led t
  · rintro ⟨seed, hseed, led⟩
    induction led with
    | refl => exact (inv.pending seed hseed lt).resolve_right List.not_mem_nil
    | tail _ edge ih =>
      have marked := ih edge.lt_size
      exact (inv.onward _ marked _ edge lt).resolve_right List.not_mem_nil

theorem mem_found_iff (inv : a.Searching seeds round visited [] found) :
    t ∈ found ↔ (∃ seed ∈ seeds, a.Leads seed t) ∧ a.IsGoal t := by
  rw [inv.mem_found]
  exact and_congr_left fun goal => inv.visited_iff goal.lt_size

end Searching

/-- From any point on, the search comes to an end with an empty stack. -/
theorem searching_search (inv : a.Searching seeds round visited stack found) :
    a.Searching seeds round (a.search round visited stack found pops).marks.visited []
      (a.search round visited stack found pops).states := by
  fun_induction search a round visited stack found pops with
  | case1 visited found pops =>
    exact { inv with
      mem_found := fun s => List.mem_reverse.trans (inv.mem_found s)
      nodup := List.nodup_reverse.mpr inv.nodup }
  | case2 visited found pops id rest h marked ih =>
    exact ih (inv.drop fun _ => by rw [Array.getElem?_eq_getElem h, marked])
  | case3 visited found pops id rest h fresh _ first second kind ih =>
    refine ih (inv.visit h fresh [first, second] _ (fun t => ?_) (.inl ⟨rfl, ?_⟩))
    · simp [SplitEdge, kind]
    · simp [IsGoal, kind]
  | case4 visited found pops id rest h fresh _ symbol next kind ih =>
    refine ih (inv.visit h fresh [] _ (fun t => ?_) (.inr ⟨rfl, ?_⟩))
    · simp [SplitEdge, kind]
    · simp [IsGoal, kind]
  | case5 visited found pops id rest h fresh _ kind ih =>
    refine ih (inv.visit h fresh [] _ (fun t => ?_) (.inr ⟨rfl, ?_⟩))
    · simp [SplitEdge, kind]
    · simp [IsGoal, kind]
  | case6 visited found pops id rest h fresh _ kind ih =>
    refine ih (inv.visit h fresh [] _ (fun t => ?_) (.inl ⟨rfl, ?_⟩))
    · simp [SplitEdge, kind]
    · simp [IsGoal, kind]
  | case7 visited found pops id rest h fresh _ kind ih =>
    refine ih (inv.visit h fresh [] _ (fun t => ?_) (.inl ⟨rfl, ?_⟩))
    · simp [SplitEdge, kind]
    · simp [IsGoal, kind]
  | case8 visited found pops id rest h ih =>
    exact ih (inv.drop fun lt => absurd (inv.fits.size_eq ▸ lt) h)

theorem search_round :
    (a.search round visited stack found pops).marks.round = round := by
  fun_induction search a round visited stack found pops <;> trivial

variable {marks : Marks}

theorem searching_closure (fits : marks.Fits a) (seeds : List StateId) :
    a.Searching seeds (marks.round + 1) (a.closure marks seeds).marks.visited []
      (a.closure marks seeds).states :=
  searching_search (.start fits seeds)

/-- The closure of the seeds holds what split edges lead to from a seed. -/
theorem mem_closure_iff (fits : marks.Fits a) :
    t ∈ (a.closure marks seeds).states ↔ (∃ seed ∈ seeds, a.Leads seed t) ∧ a.IsGoal t :=
  (searching_closure fits seeds).mem_found_iff

theorem fits_fresh (a : Automaton) : (Marks.fresh a.size).Fits a where
  size_eq := Array.size_replicate
  le_round n hn := by rw [(Array.mem_replicate.mp hn).2]; exact Nat.zero_le _

/-- The marks that a closure leaves behind serve for the next one. -/
theorem fits_closure (fits : marks.Fits a) (seeds : List StateId) :
    (a.closure marks seeds).marks.Fits a := by
  have round_eq : (a.closure marks seeds).marks.round = marks.round + 1 := search_round
  obtain ⟨size_eq, le_round⟩ := (searching_closure fits seeds).fits
  exact ⟨size_eq, fun n hn => round_eq ▸ le_round n hn⟩

end Automaton
end PatternAutomaton
