import PatternAutomaton.Proofs.Mirror
import PatternAutomaton.Proofs.Nesting

/-!
# Replacing a part of a text

What is read without a fault does not depend on where it stands or on room that is not used. So
a part of a text can be replaced by another one that every reader with enough room reads to the
same, and if the parentheses of the new text keep to the limit, the pattern stays the same.
-/
namespace PatternAutomaton
open Pattern

namespace Reader

variable {repetition : Quantifier → Pattern → Pattern} {i n : Nat} {text u v : List Char}
  {r r' : Reader} {p : Pattern}

/-- Further on in a text, the same is read and the same faults are found. -/
theorem run_shift (n : Nat) :
    r.run repetition (i + n) text = carry id n (r.run repetition i text) := by
  let behind := Mirror.within repetition n 0 []
  have same : behind.reader = id := by
    rw [Mirror.reader_within]
    funext r
    simp
  have mirrored := behind.run_eq_carry (i := i) (r := r) text
    fun e _ => behind.not_excuses rfl rfl e
  rwa [same] at mirrored

theorem run_eq_ok_iff_zero :
    r.run repetition i text = .ok r' ↔ r.run repetition 0 text = .ok r' := by
  have shifted : r.run repetition (0 + i) text = carry id i (r.run repetition 0 text) :=
    run_shift i
  rw [Nat.zero_add] at shifted
  rw [shifted]
  cases r.run repetition 0 text <;> simp [carry]

theorem run_append_eq_ok_iff :
    r.run repetition 0 (u ++ v) = .ok r' ↔
      ∃ r₁, r.run repetition 0 u = .ok r₁ ∧ r₁.run repetition 0 v = .ok r' := by
  rw [run_append]
  cases h : r.run repetition 0 u with
  | error e => simp
  | ok r₁ => simp [run_eq_ok_iff_zero]

theorem finish_eq_ok_iff_zero : r.finish n = .ok p ↔ r.finish 0 = .ok p := by
  obtain ⟨room, k, enclosing⟩ := r
  cases enclosing with
  | cons outer enclosing => exact Iff.rfl
  | nil => rcases k.close_cases with ⟨item, close⟩ | close <;> simp [finish, close]

/-- A sequence is read to its items, if its groups find room. -/
theorem run_isSequence {items : List Pattern} (h : IsSequence n text items)
    (le : n ≤ r.room) :
    r.run Quantifier.merge 0 text =
      .ok { r with current := ⟨r.current.alternatives, items.reverse ++ r.current.items⟩ } :=
  run_of_isSequence (h.of_parenDepth_le (Nat.le_trans (balanced_of_isSequence h).2 le)) 0
    r.current.alternatives r.current.items r.enclosing

/-- With more room, what was read without a fault is read again. -/
theorem run_spare (spare : Nat) (h : r.run repetition 0 text = .ok r') :
    run repetition 0 text { r with room := r.room + spare } =
      .ok { r' with room := r'.room + spare } := by
  have mirrored := (Mirror.within repetition 0 spare []).run_of_ok h
  simp only [Mirror.reader_within, List.append_nil] at mirrored
  exact mirrored

end Reader

namespace Pattern

variable {d e n : Nat} {text part part' u v : List Char} {p : Pattern}

theorem parse_eq_ok_iff :
    parse d text = .ok p ↔
      ∃ r, (Reader.start d).run Quantifier.merge 0 text = .ok r ∧ r.finish 0 = .ok p := by
  rw [parse]
  cases h : (Reader.start d).run Quantifier.merge 0 text with
  | error e => simp [parseWith_of_error h]
  | ok r => simp [parseWith_of_ok h, Reader.finish_eq_ok_iff_zero]

/-- The limit matters only for the depth of the text. -/
theorem parse_of_parenDepth_le (h : parse e text = .ok p) (le : parenDepth text ≤ d) :
    parse d text = .ok p := by
  have derived := (parse_eq_answer_iff (some p)).mp h
  exact (parse_eq_answer_iff (some p)).mpr (derived.of_parenDepth_le le)

theorem parenDepth_le_of_parse (h : parse d text = .ok p) : parenDepth text ≤ d :=
  (balanced_of_isAlternation ((parse_eq_answer_iff (some p)).mp h)).2

/-- A part of a text may be replaced by one that is read to the same with enough room. -/
theorem parse_of_replace
    (same : ∀ r r' : Reader, n ≤ r.room → r.run Quantifier.merge 0 part = .ok r' →
      r.run Quantifier.merge 0 part' = .ok r')
    (h : parse d (u ++ part ++ v) = .ok p) : parse (d + n) (u ++ part' ++ v) = .ok p := by
  obtain ⟨last, read, finished⟩ := parse_eq_ok_iff.mp h
  obtain ⟨middle, read, readRest⟩ := Reader.run_append_eq_ok_iff.mp read
  obtain ⟨first, readFirst, readPart⟩ := Reader.run_append_eq_ok_iff.mp read
  refine parse_eq_ok_iff.mpr ⟨{ last with room := last.room + n }, ?_, ?_⟩
  · rw [Reader.run_append_eq_ok_iff]
    refine ⟨{ middle with room := middle.room + n }, ?_, Reader.run_spare n readRest⟩
    rw [Reader.run_append_eq_ok_iff]
    refine ⟨{ first with room := first.room + n }, Reader.run_spare n readFirst, ?_⟩
    exact same _ _ (Nat.le_add_left n _) (Reader.run_spare n readPart)
  · rw [← finished]
    rfl

/-- A sequence may be replaced by one with the same items, as far as the limit goes. -/
theorem parse_of_replace_isSequence {n' : Nat} {items : List Pattern}
    (hpart : IsSequence n part items) (hpart' : IsSequence n' part' items)
    (h : parse d (u ++ part ++ v) = .ok p) (le : parenDepth (u ++ part' ++ v) ≤ d) :
    parse d (u ++ part' ++ v) = .ok p := by
  have deep : parse (d + (n + n')) (u ++ part' ++ v) = .ok p := by
    refine parse_of_replace (fun r r' room read => ?_) h
    rw [Reader.run_isSequence hpart (by omega)] at read
    rw [Reader.run_isSequence hpart' (by omega), read]
  exact parse_of_parenDepth_le deep le

end Pattern
end PatternAutomaton
