import Mathlib.Data.List.Nodup
import Mathlib.Logic.Relation
import PatternAutomaton.Automaton.Path
import PatternAutomaton.Automaton.Reachable

/-!
# What is reachable

Breadth-first discovery finds every state of the table that edges lead to from the start, each
once. The invariant is that the targets of all states visited so far have been found, while a
state found keeps its place. When the last state found has been visited, the states found are
closed under edges.
-/
namespace PatternAutomaton.Automaton

/-- Edges lead from the start to the state. -/
def IsReached (a : Automaton) (t : StateId) : Prop := Relation.ReflTransGen a.HasEdge a.start t

theorem HasEdge.lt_size {a : Automaton} {s t : StateId} (edge : a.HasEdge s t) : s < a.size := by
  rw [HasEdge, targets] at edge
  split at edge
  · next h => exact (Array.getElem?_eq_some_iff.mp h).1
  · exact absurd edge List.not_mem_nil

namespace Discovery

/-- The states found are marked, reached, and in the list once. -/
structure Fits (d : Discovery) (a : Automaton) : Prop where
  size_eq : d.isFound.size = a.size
  mem_iff : ∀ t : Nat, t ∈ d.found ↔ d.isFound[t]? = some true
  nodup : d.found.toList.Nodup
  reached : ∀ t ∈ d.found, a.IsReached t

variable {a : Automaton} {d : Discovery} {s t : Nat}

theorem fits_empty (a : Automaton) : (Discovery.empty a.size).Fits a where
  size_eq := Array.size_replicate
  mem_iff t := by simp [empty, Array.getElem?_replicate]
  nodup := List.nodup_nil
  reached t ht := by simp [empty] at ht

/-- A state is put at the end unless it was found before or is not in the table. -/
theorem add_cases (d : Discovery) (t : Nat) :
    (d.add t = d ∧ (t < d.isFound.size → d.isFound[t]? = some true)) ∨
      ∃ h : t < d.isFound.size, d.isFound[t] = false ∧
        d.add t = ⟨d.found.push t, d.isFound.set t true h⟩ := by
  by_cases h : t < d.isFound.size
  · cases hf : d.isFound[t] with
    | true => exact .inl ⟨by simp [add, h, hf], fun _ => by simp [h, hf]⟩
    | false => exact .inr ⟨h, hf, by simp [add, h, hf]⟩
  · exact .inl ⟨by simp [add, h], fun lt => absurd lt h⟩

theorem mem_add_iff (fits : d.Fits a) :
    s ∈ (d.add t).found ↔ s ∈ d.found ∨ s = t ∧ t < a.size := by
  rw [← fits.size_eq]
  rcases d.add_cases t with ⟨same, marked⟩ | ⟨lt, -, pushed⟩
  · rw [same]
    refine ⟨.inl, ?_⟩
    rintro (mem | ⟨rfl, lt⟩)
    · exact mem
    · exact (fits.mem_iff s).mpr (marked lt)
  · simp [pushed, lt]

theorem Fits.add (fits : d.Fits a) (reached : a.IsReached t) : (d.add t).Fits a := by
  rcases d.add_cases t with ⟨same, -⟩ | ⟨lt, new, pushed⟩
  · rwa [same]
  · have unfound : t ∉ d.found := by
      rw [fits.mem_iff, Array.getElem?_eq_getElem lt, new]
      exact fun h => by cases h
    rw [pushed]
    refine ⟨(Array.size_set lt).trans fits.size_eq, fun s => ?_, ?_, fun s hs => ?_⟩
    · rw [Array.mem_push, fits.mem_iff, Array.getElem?_set]
      by_cases hs : t = s
      · simp [hs]
      · simp [hs, Ne.symm hs]
    · rw [Array.toList_push]
      exact fits.nodup.append (List.nodup_singleton t) (by simpa using unfound)
    · rcases Array.mem_push.mp hs with hs | rfl
      · exact fits.reached s hs
      · exact reached

/-- What was found keeps its place. -/
theorem getElem?_add {j : Nat} (h : j < d.found.size) :
    (d.add t).found[j]? = d.found[j]? := by
  rcases d.add_cases t with ⟨same, -⟩ | ⟨lt, -, pushed⟩
  · rw [same]
  · rw [pushed, Array.getElem?_push, if_neg (Nat.ne_of_lt h)]

theorem size_found_le_add : d.found.size ≤ (d.add t).found.size := by
  rcases d.add_cases t with ⟨same, -⟩ | ⟨lt, -, pushed⟩
  · exact Nat.le_of_eq (by rw [same])
  · rw [pushed, Array.size_push]
    exact Nat.le_succ _

theorem Fits.addAll {ids : List StateId} (fits : d.Fits a)
    (reached : ∀ t ∈ ids, a.IsReached t) : (ids.foldl Discovery.add d).Fits a := by
  induction ids generalizing d with
  | nil => exact fits
  | cons t ids ih =>
    exact ih (fits.add (reached t List.mem_cons_self)) fun s hs =>
      reached s (List.mem_cons_of_mem t hs)

theorem mem_addAll_iff {ids : List StateId} (fits : d.Fits a)
    (reached : ∀ t ∈ ids, a.IsReached t) :
    s ∈ (ids.foldl add d).found ↔ s ∈ d.found ∨ s ∈ ids ∧ s < a.size := by
  induction ids generalizing d with
  | nil => simp
  | cons t ids ih =>
    rw [List.foldl_cons, ih (fits.add (reached t List.mem_cons_self)) fun s hs =>
      reached s (List.mem_cons_of_mem t hs), mem_add_iff fits, List.mem_cons]
    grind

theorem getElem?_addAll {ids : List StateId} {j : Nat} (h : j < d.found.size) :
    (ids.foldl add d).found[j]? = d.found[j]? := by
  induction ids generalizing d with
  | nil => rfl
  | cons t ids ih =>
    rw [List.foldl_cons, ih (Nat.lt_of_lt_of_le h size_found_le_add), getElem?_add h]

theorem take_found_addAll {ids : List StateId} {n : Nat} (h : n ≤ d.found.size) :
    (ids.foldl add d).found.toList.take n = d.found.toList.take n := by
  refine List.ext_getElem? fun j => ?_
  rw [List.getElem?_take, List.getElem?_take]
  split
  · next lt =>
    rw [Array.getElem?_toList, Array.getElem?_toList]
    exact getElem?_addAll (Nat.lt_of_lt_of_le lt h)
  · rfl

/-- The states before place `i` have been visited: their targets have all been found. -/
structure Visited (d : Discovery) (a : Automaton) (i : Nat) : Prop extends d.Fits a where
  start_mem : a.start < a.size → a.start ∈ d.found
  closed : ∀ j < i, ∀ s, d.found[j]? = some s → ∀ t, a.HasEdge s t → t < a.size → t ∈ d.found

theorem visited_start (a : Automaton) : ((Discovery.empty a.size).add a.start).Visited a 0 where
  toFits := (fits_empty a).add .refl
  start_mem lt := (mem_add_iff (fits_empty a)).mpr (.inr ⟨rfl, lt⟩)
  closed j lt := absurd lt (Nat.not_lt_zero j)

theorem Visited.visit {i : Nat} (visited : d.Visited a i) (h : i < d.found.size) :
    ((a.targets d.found[i]).foldl add d).Visited a (i + 1) := by
  have mem : d.found[i] ∈ d.found := Array.getElem_mem h
  have reached (t : StateId) (ht : t ∈ a.targets d.found[i]) : a.IsReached t :=
    (visited.reached _ mem).tail ht
  have mem_iff (t : Nat) := mem_addAll_iff (s := t) visited.toFits reached
  refine ⟨visited.toFits.addAll reached, fun lt => (mem_iff _).mpr (.inl (visited.start_mem lt)),
    fun j hj s hs t edge lt => (mem_iff t).mpr ?_⟩
  rw [getElem?_addAll (Nat.lt_of_lt_of_le hj h)] at hs
  -- The only place that is new before `i + 1` is that of the state just visited.
  rcases Nat.lt_succ_iff_lt_or_eq.mp hj with hj | rfl
  · exact .inl (visited.closed j hj s hs t edge lt)
  · obtain rfl := Option.some.inj ((Array.getElem?_eq_getElem h).symm.trans hs)
    exact .inr ⟨edge, lt⟩

end Discovery

/-- Discovery ends when all states found have been visited. -/
theorem exists_visited_discover {a : Automaton} {d : Discovery} {i : Nat}
    (visited : d.Visited a i) :
    ∃ d' : Discovery, a.discover d i = d'.found ∧ d'.Visited a d'.found.size := by
  fun_induction discover a d i with
  | case1 d i h ih => exact ih (visited.visit h)
  | case2 d i h =>
    refine ⟨d, rfl, visited.toFits, visited.start_mem, fun j hj => ?_⟩
    exact visited.closed j (Nat.lt_of_lt_of_le hj (Nat.le_of_not_lt h))

/-- The reachable states are the states of the table that edges lead to from the start. -/
theorem mem_reachable_iff {a : Automaton} {t : Nat} :
    t ∈ a.reachable ↔ a.IsReached t ∧ t < a.size := by
  obtain ⟨d, hd, visited⟩ := exists_visited_discover (Discovery.visited_start a)
  rw [reachable, hd, Array.mem_toList_iff]
  constructor
  · intro mem
    have marked := (visited.mem_iff t).mp mem
    exact ⟨visited.reached t mem, visited.size_eq ▸ (Array.getElem?_eq_some_iff.mp marked).1⟩
  · rintro ⟨reached, lt⟩
    induction reached with
    | refl => exact visited.start_mem lt
    | @tail s t _ edge ih =>
      obtain ⟨j, hj, rfl⟩ := Array.mem_iff_getElem.mp (ih edge.lt_size)
      exact visited.closed j hj _ (Array.getElem?_eq_getElem hj) t edge lt

theorem nodup_reachable (a : Automaton) : a.reachable.Nodup := by
  obtain ⟨d, hd, visited⟩ := exists_visited_discover (Discovery.visited_start a)
  rw [reachable, hd]
  exact visited.nodup

end PatternAutomaton.Automaton
