import Mathlib.Order.Interval.Set.LinearOrder
import PatternAutomaton.Proofs.Fragment
import PatternAutomaton.Proofs.Spine

/-!
# Layouts are fragments

A layout leaves the table it starts from as it is and puts a block behind it. In every automaton
that has the block, whatever it has before and after it, the block is a fragment of the
pattern's language. So the automaton of a pattern is one fragment behind its accepting state.
-/
namespace PatternAutomaton
open scoped Computability

namespace Layout

@[simp] theorem place_states (s : State) (states : Array State) :
    (place s states).states = states.push s := rfl

@[simp] theorem fill_states (i : StateId) (s : State) (states : Array State) :
    (fill i s states).states = states.setIfInBounds i s := rfl

theorem size_lt_size_lay (p : Pattern) (next : StateId) (states : Array State) :
    states.size < (lay p next states).states.size := by
  induction p generalizing next states with
  | char c => simp [lay_char]
  | concat p q ihp ihq =>
    rw [lay_concat]
    exact (ihq next states).trans (ihp _ _)
  | alt p q ihp ihq =>
    have hq := ihq next states
    have hp := ihp next (lay q next states).states
    simp only [lay_alt, place_states, Array.size_push]
    omega
  | star p ih =>
    have h := ih states.size (states.push .reserved)
    simp only [lay_star, fill_states, Array.size_setIfInBounds, Array.size_push] at h ⊢
    omega
  | plus p ih =>
    have out := ih next (states.push .reserved)
    have back := ih states.size (lay p next (states.push .reserved)).states
    simp only [lay_plus, fill_states, Array.size_setIfInBounds, Array.size_push] at out ⊢
    omega

/-- A layout changes no state of the table it starts from. -/
theorem getElem?_lay (p : Pattern) (next : StateId) (states : Array State) {i : Nat}
    (h : i < states.size) : (lay p next states).states[i]? = states[i]? := by
  induction p generalizing next states with
  | char c => simp only [lay_char, place_states, Array.getElem?_push_lt h, h,
      Array.getElem?_eq_getElem]
  | concat p q ihp ihq =>
    rw [lay_concat, ihp _ _ (h.trans (size_lt_size_lay q next states)), ihq _ _ h]
  | alt p q ihp ihq =>
    have hq := h.trans (size_lt_size_lay q next states)
    have hp := hq.trans (size_lt_size_lay p next (lay q next states).states)
    rw [lay_alt, place_states, Array.getElem?_push, if_neg hp.ne, ihp _ _ hq, ihq _ _ h]
  | star p ih =>
    have h' : i < (states.push .reserved).size := by rw [Array.size_push]; omega
    rw [lay_star, fill_states, Array.getElem?_setIfInBounds_ne h.ne', ih _ _ h',
      Array.getElem?_push, if_neg h.ne]
  | plus p ih =>
    have h' : i < (states.push .reserved).size := by rw [Array.size_push]; omega
    have h'' := h'.trans (size_lt_size_lay p next (states.push .reserved))
    rw [lay_plus, fill_states, Array.getElem?_setIfInBounds_ne h.ne', ih _ _ h'', ih _ _ h',
      Array.getElem?_push, if_neg h.ne]

end Layout

namespace Automaton

/-- The automaton has the states of a table from the index `lo` on. -/
def Holds (a : Automaton) (lo : Nat) (table : Array State) : Prop :=
  ∀ i, lo ≤ i → i < table.size → a.state? i = table[i]?

namespace Holds

variable {a : Automaton} {lo : Nat} {table table' : Array State}

/-- A block is there as soon as a table is that has the block's states unchanged. -/
theorem of_kept (h : a.Holds lo table) (le : table'.size ≤ table.size)
    (kept : ∀ i, lo ≤ i → i < table'.size → table[i]? = table'[i]?) : a.Holds lo table' :=
  fun i hlo hi => (h i hlo (hi.trans_le le)).trans (kept i hlo hi)

theorem mono {lo' : Nat} (h : a.Holds lo table) (le : lo ≤ lo') : a.Holds lo' table :=
  fun i hlo hi => h i (le.trans hlo) hi

/-- A layout behind a table has the states that the table has. -/
theorem of_lay {p : Pattern} {next : StateId} (h : a.Holds lo (Layout.lay p next table).states) :
    a.Holds lo table :=
  h.of_kept (Layout.size_lt_size_lay p next table).le fun _ _ hi =>
    Layout.getElem?_lay p next table hi

theorem of_place {s : State} (h : a.Holds lo (Layout.place s table).states) :
    a.Holds lo table :=
  h.of_kept (by simp) fun i _ hi => by
    rw [Layout.place_states, Array.getElem?_push, if_neg hi.ne]

/-- Behind a slot that was filled nothing has changed. -/
theorem of_fill {s : State} (h : a.Holds lo (Layout.fill lo s table).states) :
    a.Holds (lo + 1) table :=
  (h.mono (Nat.le_succ lo)).of_kept (by simp) fun i hlo _ => by
    rw [Layout.fill_states, Array.getElem?_setIfInBounds_ne (by omega)]

theorem state?_of_fill {s : State} (h : a.Holds lo (Layout.fill lo s table).states)
    (lt : lo < table.size) : a.state? lo = some s := by
  rw [h lo le_rfl (by simpa using lt), Layout.fill_states,
    Array.getElem?_setIfInBounds_self_of_lt lt]

theorem state?_of_place {s : State} (h : a.Holds lo (Layout.place s table).states)
    (le : lo ≤ table.size) : a.state? table.size = some s := by
  rw [h table.size le (by simp), Layout.place_states, Array.getElem?_push_size]

end Holds

/-- A block that starts with a slot and goes on behind it. -/
theorem insert_Ico_succ {lo hi : Nat} (h : lo < hi) :
    insert lo (Set.Ico (lo + 1) hi) = Set.Ico lo hi := by
  ext i
  simp only [Set.mem_insert_iff, Set.mem_Ico]
  omega

/-- A block with one more state behind it. -/
theorem insert_Ico_end {lo hi : Nat} (h : lo ≤ hi) :
    insert hi (Set.Ico lo hi) = Set.Ico lo (hi + 1) := by
  ext i
  simp only [Set.mem_insert_iff, Set.mem_Ico]
  omega

/-- A layout is a fragment of the pattern's language in every automaton that has its block. -/
theorem lay_fragment (p : Pattern) (next : Nat) (states : Array State) {a : Automaton}
    (hnext : next < states.size) (h : a.Holds states.size (Layout.lay p next states).states) :
    a.Fragment (Set.Ico states.size (Layout.lay p next states).states.size)
      (Layout.lay p next states).entry next p.language := by
  induction p generalizing next states with
  | char c =>
    rw [Layout.lay_char] at h ⊢
    have block : {states.size} = Set.Ico states.size (states.size + 1) := by
      rw [← insert_Ico_end le_rfl, Set.Ico_self, insert_empty_eq]
    rw [Layout.place_states, Array.size_push, ← block]
    exact .char (h.state?_of_place le_rfl) hnext.ne
  | concat p q ihp ihq =>
    rw [Layout.lay_concat] at h ⊢
    have ltq := Layout.size_lt_size_lay q next states
    have hq := ihq next states hnext h.of_lay
    have ltp := Layout.size_lt_size_lay p (Layout.lay q next states).entry
      (Layout.lay q next states).states
    have hp := ihp _ _ hq.entry_mem.2 (h.mono ltq.le)
    rw [← Set.Ico_union_Ico_eq_Ico ltq.le ltp.le, Set.union_comm]
    exact hp.concat hq fun hmem => hmem.1.not_gt (hnext.trans ltq)
  | alt p q ihp ihq =>
    rw [Layout.lay_alt] at h ⊢
    have ltq := Layout.size_lt_size_lay q next states
    have hq := ihq next states hnext h.of_place.of_lay
    have ltp := Layout.size_lt_size_lay p next (Layout.lay q next states).states
    have hp := ihp next _ (hnext.trans ltq) (h.of_place.mono ltq.le)
    have fork := h.state?_of_place (ltq.trans ltp).le
    rw [Layout.place_states, Array.size_push, ← insert_Ico_end (ltq.trans ltp).le,
      ← Set.Ico_union_Ico_eq_Ico ltq.le ltp.le, Set.union_comm]
    exact .alt fork hp hq (hnext.trans (ltq.trans ltp)).ne
  | star p ih =>
    rw [Layout.lay_star] at h ⊢
    have lt := Layout.size_lt_size_lay p states.size (states.push .reserved)
    have body := ih states.size (states.push .reserved) (by simp) (by simpa using h.of_fill)
    rw [Array.size_push] at lt body
    have fork := h.state?_of_fill (Nat.lt_of_succ_lt lt)
    rw [Layout.fill_states, Array.size_setIfInBounds,
      ← insert_Ico_succ (Nat.lt_of_succ_lt lt)]
    exact .star fork body hnext.ne fun hmem => hmem.1.not_gt (Nat.lt_succ_of_lt hnext)
  | plus p ih =>
    rw [Layout.lay_plus] at h ⊢
    have ltOut := Layout.size_lt_size_lay p next (states.push .reserved)
    have ltBack := Layout.size_lt_size_lay p states.size
      (Layout.lay p next (states.push .reserved)).states
    rw [Array.size_push] at ltOut
    have out := ih next (states.push .reserved) (by rw [Array.size_push]; omega)
      (by simpa using h.of_fill.of_lay)
    have back := ih states.size (Layout.lay p next (states.push .reserved)).states
      (Nat.lt_of_succ_lt ltOut) (h.of_fill.mono ltOut.le)
    rw [Array.size_push] at out
    have fork := h.state?_of_fill (Nat.lt_of_succ_lt (ltOut.trans ltBack))
    rw [Layout.fill_states, Array.size_setIfInBounds,
      ← insert_Ico_succ (Nat.lt_of_succ_lt (ltOut.trans ltBack)),
      ← Set.Ico_union_Ico_eq_Ico ltOut.le ltBack.le]
    exact .plus fork out back hnext.ne fun hmem =>
      hmem.1.not_gt (hnext.trans (Nat.lt_of_succ_lt ltOut))

/-- Behind its accepting state, the automaton of a pattern is a fragment of the pattern's
language that goes on to the accepting state. -/
theorem ofPattern_fragment (p : Pattern) :
    (ofPattern p).Fragment (Set.Ico 1 (ofPattern p).size) (ofPattern p).start acceptId
      p.language :=
  lay_fragment p acceptId #[.accept] (by simp [acceptId]) fun _ _ _ => rfl

theorem ofPattern_state?_acceptId (p : Pattern) :
    (ofPattern p).state? acceptId = some .accept :=
  Layout.getElem?_lay p acceptId #[.accept] (by simp [acceptId])

/-- A state of a pattern's automaton is the accepting state in front, or a state of the fragment
behind it, which consumes or splits. -/
theorem ofPattern_state?_cases {p : Pattern} {s : Nat} {state : State}
    (h : (ofPattern p).state? s = some state) :
    s = acceptId ∧ state = .accept ∨
      s ∈ Set.Ico 1 (ofPattern p).size ∧ state ≠ .accept ∧ state ≠ .reserved := by
  have lt : s < (ofPattern p).size := (Array.getElem?_eq_some_iff.mp h).1
  rcases Nat.eq_zero_or_pos s with rfl | pos
  · exact .inl ⟨rfl, Option.some.inj (h.symm.trans (ofPattern_state?_acceptId p))⟩
  · rcases (ofPattern_fragment p).kind ⟨pos, lt⟩ with ⟨_, _, kind⟩ | ⟨_, _, kind⟩
    · obtain rfl := Option.some.inj (h.symm.trans kind)
      exact .inr ⟨⟨pos, lt⟩, State.noConfusion, State.noConfusion⟩
    · obtain rfl := Option.some.inj (h.symm.trans kind)
      exact .inr ⟨⟨pos, lt⟩, State.noConfusion, State.noConfusion⟩

end Automaton
end PatternAutomaton
