import Mathlib.Tactic.MkIffOfInductiveProp
import PatternAutomaton.Proofs.Outline
import PatternAutomaton.Proofs.Replacing

/-!
# Where and why a text is no pattern

A text is live if it can be completed to a pattern. Whatever is read without a fault can be
completed: a character and as many closing parentheses as groups are open will do. So a fault is
found at the first character behind which nothing can be mended, and which fault it is shows in
that character and in what is open before it. A live text that is no pattern itself has its fault
at the end.
-/
namespace PatternAutomaton
open Pattern

namespace Pattern

/-- The text can be completed to a pattern. -/
def Live (maxDepth : Nat) (text : List Char) : Prop :=
  ∃ more p, parse maxDepth (text ++ more) = .ok p

/-- The fault of a character behind a text that is live. -/
@[mk_iff]
inductive FaultAt (maxDepth : Nat) (before : List Char) : Char → PatternError → Prop
  | unopenedGroup : openGroups before = 0 →
      FaultAt maxDepth before ')' (.unopenedGroup before.length)
  | tooDeep : openGroups before = maxDepth →
      FaultAt maxDepth before '(' (.tooDeep before.length)
  | nothingBefore {c : Char} : c = '+' ∨ c = '*' ∨ c = '|' → Vacant before →
      FaultAt maxDepth before c (.nothingBefore before.length)
  | nothingAfter : 0 < openGroups before → BarSeen before → Vacant before →
      FaultAt maxDepth before ')' (.nothingAfter before.length)

/-- The fault at the end of a text that is live. -/
@[mk_iff]
inductive FaultAtEnd (text : List Char) : PatternError → Prop
  | unclosedGroup : 0 < openGroups text → FaultAtEnd text .unclosedGroup
  | nothingAfter : openGroups text = 0 → BarSeen text → Vacant text →
      FaultAtEnd text (.nothingAfter text.length)
  | empty : openGroups text = 0 → (∀ c ∈ text, c = '(' ∨ c = ')') → FaultAtEnd text .empty

theorem FaultAt.position?_eq {d : Nat} {before : List Char} {c : Char} {e : PatternError}
    (h : FaultAt d before c e) : e.position? = some before.length := by
  cases h <;> rfl

theorem concatAll?_eq_none_iff (items : List Pattern) :
    concatAll? items = none ↔ items = [] := by
  cases items <;> simp [concatAll?]

end Pattern

namespace Context

variable {k : Context} {i : Nat} {e : PatternError}

theorem quantify_eq_error_iff {repetition : Pattern → Pattern} :
    k.quantify repetition i = .error e ↔ k.items = [] ∧ e = .nothingBefore i := by
  rw [quantify]
  cases k.items <;> simp [eq_comm]

theorem endAlternative_eq_error_iff :
    k.endAlternative i = .error e ↔ k.items = [] ∧ e = .nothingBefore i := by
  rw [endAlternative, ← concatAll?_eq_none_iff]
  cases concatAll? k.items <;> simp [eq_comm]

theorem close_eq_error_iff :
    k.close i = .error e ↔ k.alternatives ≠ [] ∧ k.items = [] ∧ e = .nothingAfter i := by
  rw [close, ← concatAll?_eq_none_iff k.items]
  cases concatAll? k.items <;> cases k.alternatives <;> simp [eq_comm]

theorem close_eq_none_iff : k.close i = .ok none ↔ k.alternatives = [] ∧ k.items = [] := by
  rw [close, ← concatAll?_eq_none_iff k.items]
  cases concatAll? k.items <;> cases k.alternatives <;> simp [altAll?]

theorem close_of_items_ne_nil (h : k.items ≠ []) : ∃ p, ∀ i, k.close i = .ok (some p) := by
  rcases k.close_cases with ⟨none | p, close⟩ | close
  · exact absurd (close_eq_none_iff.mp (close 0)).2 h
  · exact ⟨p, close⟩
  · exact absurd (close_eq_error_iff.mp (close 0)).2.1 h

end Context

namespace Reader

variable {repetition : Quantifier → Pattern → Pattern} {i n d : Nat} {c : Char}
  {text before : List Char} {r : Reader} {e : PatternError}

theorem onCurrent_eq_error_iff {operation : Context → Except PatternError Context} :
    r.onCurrent operation = .error e ↔ operation r.current = .error e := by
  rw [onCurrent]
  cases operation r.current <;> simp

theorem openGroup_eq_error_iff :
    r.openGroup i = .error e ↔ r.room = 0 ∧ e = .tooDeep i := by
  rw [openGroup]
  cases r.room <;> simp [eq_comm]

theorem closeGroup_eq_error_iff :
    r.closeGroup i = .error e ↔
      r.enclosing = [] ∧ e = .unopenedGroup i ∨
        r.enclosing ≠ [] ∧ r.current.close i = .error e := by
  rw [closeGroup]
  cases r.enclosing with
  | nil => simp [eq_comm]
  | cons outer enclosing =>
    cases r.current.close i with
    | error e' => simp
    | ok item => cases item <;> simp

theorem finish_eq_error_iff :
    r.finish n = .error e ↔
      r.enclosing ≠ [] ∧ e = .unclosedGroup ∨
        r.enclosing = [] ∧
          (r.current.close n = .error e ∨ r.current.close n = .ok none ∧ e = .empty) := by
  rw [finish]
  cases r.enclosing with
  | cons outer enclosing => simp [eq_comm]
  | nil =>
    cases r.current.close n with
    | error e' => simp
    | ok item => cases item <;> simp [eq_comm]

/-- A run fails where a step fails. -/
theorem run_eq_error_iff :
    r.run repetition i text = .error e ↔
      ∃ before c more r', text = before ++ c :: more ∧
        r.run repetition i before = .ok r' ∧
          r'.step repetition (i + before.length) c = .error e := by
  constructor
  · intro h
    induction text generalizing i r with
    | nil => cases h
    | cons c text ih =>
      rw [run] at h
      split at h
      · next r₁ hstep =>
        obtain ⟨before, c', more, r', rfl, read, fault⟩ := ih h
        have shift : i + 1 + before.length = i + (c :: before).length := by
          rw [List.length_cons]
          omega
        rw [shift] at fault
        exact ⟨c :: before, c', more, r', rfl, by rw [run_cons_of_ok hstep, read], fault⟩
      · next e' hstep =>
        obtain rfl := Except.error.inj h
        exact ⟨[], c, text, r, rfl, rfl, hstep⟩
  · rintro ⟨before, c, more, r', rfl, read, fault⟩
    rw [run_append_of_ok read, run, fault]

/-- Once the innermost group holds something, all groups can be closed. -/
theorem exists_run_closing (repetition : Quantifier → Pattern → Pattern)
    (h : r.current.items ≠ []) (i : Nat) :
    ∃ r' p, r.run repetition i (List.replicate r.enclosing.length ')') = .ok r' ∧
      r'.finish 0 = .ok p := by
  obtain ⟨room, current, enclosing⟩ := r
  induction enclosing generalizing room current i with
  | nil =>
    obtain ⟨p, close⟩ := Context.close_of_items_ne_nil h
    exact ⟨_, p, rfl, by simp [finish, close]⟩
  | cons outer enclosing ih =>
    obtain ⟨p, close⟩ := Context.close_of_items_ne_nil h
    have step : step repetition i ')' ⟨room, current, outer :: enclosing⟩ =
        .ok ⟨room + 1, outer.addItem p, enclosing⟩ := by
      simp only [step_close, closeGroup, close]
    obtain ⟨r', p', read, finished⟩ :=
      ih (i + 1) (room + 1) (outer.addItem p) (List.cons_ne_nil _ _)
    exact ⟨r', p', by rw [List.length_cons, List.replicate_succ, run_cons_of_ok step, read],
      finished⟩

namespace Reads

theorem enclosing_eq_nil_iff (reads : r.Reads d text) :
    r.enclosing = [] ↔ openGroups text = 0 := by
  rw [reads.openGroups_eq, List.length_eq_zero_iff]

/-- Whether a character has a fault shows in the text before it. -/
theorem step_eq_error_iff (reads : r.Reads d before) :
    r.step Quantifier.merge before.length c = .error e ↔ FaultAt d before c e := by
  obtain ⟨bar, vacant⟩ := reads.outline_iff
  rw [faultAt_iff]
  rcases Quantifier.mark_or_reserved_or c with ⟨q, rfl⟩ | rfl | rfl | rfl | h
  · rw [step_mark, onCurrent_eq_error_iff, Context.quantify_eq_error_iff, ← vacant]
    cases q <;> simp [Quantifier.mark]
  · rw [step_bar, onCurrent_eq_error_iff, Context.endAlternative_eq_error_iff, ← vacant]
    simp
  · have full : r.room = 0 ↔ openGroups before = d := by
      have := reads.room_add_openGroups
      omega
    rw [step_open, openGroup_eq_error_iff, full]
    simp
  · rw [step_close, closeGroup_eq_error_iff, Context.close_eq_error_iff, ← vacant, ← bar, ne_eq,
      reads.enclosing_eq_nil_iff, Nat.pos_iff_ne_zero]
    simp
  · have none : r.step Quantifier.merge before.length c ≠ .error e := by
      simp [step_of_not_reserved h]
    refine iff_of_false none ?_
    rintro (⟨-, rfl, -⟩ | ⟨-, rfl, -⟩ | ⟨rfl | rfl | rfl, -⟩ | ⟨-, -, -, rfl, -⟩) <;> cases h

/-- Outside of all groups nothing is held exactly if the text has parentheses only. -/
theorem holds_nothing_iff (reads : r.Reads d text) (h : r.enclosing = []) :
    r.current.alternatives = [] ∧ r.current.items = [] ↔ ∀ c ∈ text, c = '(' ∨ c = ')' := by
  constructor
  · intro nothing
    cases reads with
    | outermost reads =>
      have derived := reads.close (Context.close_eq_none_iff (i := 0).mpr nothing)
      exact (outlined_of_isAlternation derived).parens rfl
    | opened => cases h
  · intro parens
    obtain ⟨bar, vacant⟩ := reads.outline_iff
    have bare : outline text = [] := outline_of_parens parens
    exact ⟨by simpa [BarSeen, bare] using bar, by simpa [Vacant, bare] using vacant⟩

/-- Whether the end of the text has a fault shows in the text. -/
theorem finish_eq_error_iff (reads : r.Reads d text) :
    r.finish text.length = .error e ↔ FaultAtEnd text e := by
  obtain ⟨bar, vacant⟩ := reads.outline_iff
  rw [Reader.finish_eq_error_iff, faultAtEnd_iff, Nat.pos_iff_ne_zero, ne_eq, ne_eq,
    ← reads.enclosing_eq_nil_iff, Context.close_eq_error_iff, Context.close_eq_none_iff, bar,
    vacant]
  by_cases h : r.enclosing = []
  · rw [reads.holds_nothing_iff h]
    simp [h]
  · simp [h]

end Reads
end Reader

namespace Pattern

variable {d : Nat} {c : Char} {text before more : List Char} {e : PatternError}

/-- Exactly what is read without a fault can be completed. -/
theorem live_iff_exists_run :
    Live d text ↔ ∃ r, (Reader.start d).run Quantifier.merge 0 text = .ok r := by
  constructor
  · rintro ⟨more, p, h⟩
    obtain ⟨r, read, -⟩ := parse_eq_ok_iff.mp h
    obtain ⟨r', read', -⟩ := Reader.run_append_eq_ok_iff.mp read
    exact ⟨r', read'⟩
  · rintro ⟨r, read⟩
    have step : r.step Quantifier.merge 0 'a' =
        .ok { r with current := r.current.addItem (.char 'a') } := rfl
    obtain ⟨r', p, closed, finished⟩ := Reader.exists_run_closing Quantifier.merge
      (r := { r with current := r.current.addItem (.char 'a') }) (List.cons_ne_nil _ _) 1
    refine ⟨'a' :: List.replicate r.enclosing.length ')', p, parse_eq_ok_iff.mpr
      ⟨r', Reader.run_append_eq_ok_iff.mpr ⟨r, read, ?_⟩, finished⟩⟩
    rw [Reader.run_cons_of_ok step, closed]

/-- A live text is read, and the character behind it is read with this reader. -/
theorem Live.exists_reads (live : Live d text) :
    ∃ r : Reader, (Reader.start d).run Quantifier.merge 0 text = .ok r ∧ r.Reads d text := by
  obtain ⟨r, read⟩ := live_iff_exists_run.mp live
  exact ⟨r, read, (Reader.Reads.start d).run read⟩

/-- Behind a live text, a character with a fault stops the reading, whatever follows. -/
theorem parse_of_faultAt (live : Live d before) (h : FaultAt d before c e)
    (more : List Char) : parse d (before ++ c :: more) = .error e := by
  obtain ⟨r, read, reads⟩ := live.exists_reads
  have fault := reads.step_eq_error_iff.mpr h
  refine parseWith_of_error ?_
  rw [Reader.run_append_of_ok read, Nat.zero_add, Reader.run, fault]

example : parse 2 "b(a|())c".toList = .error (.nothingAfter 6) := rfl

/-- A live text stays live behind a character exactly if that has no fault. -/
theorem live_append_singleton_iff (live : Live d before) :
    Live d (before ++ [c]) ↔ ∀ e, ¬ FaultAt d before c e := by
  constructor
  · rintro ⟨more, p, h⟩ e fault
    have stopped := parse_of_faultAt live fault more
    rw [List.append_assoc, List.singleton_append, stopped] at h
    cases h
  · intro none
    obtain ⟨r, read, reads⟩ := live.exists_reads
    cases step : r.step Quantifier.merge before.length c with
    | ok r' =>
      rw [← Nat.zero_add before.length] at step
      exact live_iff_exists_run.mpr ⟨r', Reader.run_append_singleton read step⟩
    | error e => exact absurd (reads.step_eq_error_iff.mp step) (none e)

theorem Live.of_isPrefix (live : Live d text) (h : before <+: text) : Live d before := by
  obtain ⟨rest, rfl⟩ := h
  obtain ⟨more, p, parsed⟩ := live
  exact ⟨rest ++ more, p, by rw [← List.append_assoc, parsed]⟩

/-- Only the end of a live text can have a fault. -/
theorem parse_eq_error_iff_of_live (live : Live d text) :
    parse d text = .error e ↔ FaultAtEnd text e := by
  obtain ⟨r, read, reads⟩ := live.exists_reads
  rw [parse, parseWith_of_ok read, reads.finish_eq_error_iff]

/-- In a text that is not live, a character behind a live text has a fault. -/
theorem exists_faultAt_of_not_live (h : ¬ Live d text) :
    ∃ before c more e, text = before ++ c :: more ∧ Live d before ∧ FaultAt d before c e := by
  cases read : (Reader.start d).run Quantifier.merge 0 text with
  | ok r => exact absurd (live_iff_exists_run.mpr ⟨r, read⟩) h
  | error e =>
    obtain ⟨before, c, more, r, rfl, read, fault⟩ := Reader.run_eq_error_iff.mp read
    have reads : r.Reads d before := (Reader.Reads.start d).run read
    rw [Nat.zero_add, reads.step_eq_error_iff] at fault
    exact ⟨before, c, more, e, rfl, live_iff_exists_run.mpr ⟨r, read⟩, fault⟩

/-- Exactly the fault of a character behind a live text is found at that character. -/
theorem parse_eq_error_at_iff :
    parse d (before ++ c :: more) = .error e ∧ e.position? = some before.length ↔
      Live d before ∧ FaultAt d before c e := by
  constructor
  · rintro ⟨h, position⟩
    by_cases live : Live d (before ++ c :: more)
    · have atEnd := (parse_eq_error_iff_of_live live).mp h
      cases atEnd with
      | unclosedGroup | empty => cases position
      | nothingAfter => simp [PatternError.position?] at position
    · obtain ⟨before', c', more', e', same, live', fault⟩ := exists_faultAt_of_not_live live
      have stopped := parse_of_faultAt live' fault more'
      rw [← same, h] at stopped
      obtain rfl := Except.error.inj stopped
      have length := Option.some.inj (position.symm.trans fault.position?_eq)
      obtain ⟨rfl, rest⟩ := List.append_inj same length
      obtain rfl := (List.cons.inj rest).1
      exact ⟨live', fault⟩
  · rintro ⟨live, fault⟩
    exact ⟨parse_of_faultAt live fault more, fault.position?_eq⟩

/-- The text can be completed up to the character at position `i`, and not behind it. -/
def DiesAt (maxDepth : Nat) (text : List Char) (i : Nat) : Prop :=
  Live maxDepth (text.take i) ∧ ¬ Live maxDepth (text.take (i + 1))

theorem DiesAt.le {i j : Nat} (hi : DiesAt d text i) (hj : DiesAt d text j) : i ≤ j := by
  refine Nat.le_of_not_lt fun h => ?_
  have shorter : text.take (j + 1) <+: text.take i := List.take_prefix_take_left h
  exact hj.2 (hi.1.of_isPrefix shorter)

/-- A text dies at a character exactly if that has a fault. -/
theorem diesAt_iff_exists_faultAt {i : Nat} (h : i < text.length) :
    DiesAt d text i ↔
      ∃ e, Live d (text.take i) ∧ FaultAt d (text.take i) text[i] e := by
  rw [DiesAt, List.take_succ_eq_append_getElem h, exists_and_left]
  refine and_congr_right fun live => ?_
  rw [live_append_singleton_iff live, Classical.not_forall_not]

/-- A fault is found at the first character behind which the text cannot be completed, and it is
found there in every text that starts alike. Which fault it is shows in what is open before that
character. A text that can be completed has no fault but at its end, and which one shows in what
is open there. -/
theorem parse_error_iff_diesAt (maxDepth : Nat) (text : List Char) :
    (∀ i, ∀ h : i < text.length,
      ((∃ e, parse maxDepth text = .error e ∧ e.position? = some i) ↔
          DiesAt maxDepth text i) ∧
        ∀ e, parse maxDepth text = .error e ∧ e.position? = some i ↔
          Live maxDepth (text.take i) ∧ FaultAt maxDepth (text.take i) text[i] e) ∧
    (∀ i j, DiesAt maxDepth text i → DiesAt maxDepth text j → i = j) ∧
    (∀ i e, i < text.length → parse maxDepth text = .error e → e.position? = some i →
      ∀ more, parse maxDepth (text.take (i + 1) ++ more) = .error e) ∧
    (Live maxDepth text → ∀ e, parse maxDepth text = .error e ↔ FaultAtEnd text e) := by
  have found (i : Nat) (h : i < text.length) (e : PatternError) :
      parse maxDepth text = .error e ∧ e.position? = some i ↔
        Live maxDepth (text.take i) ∧ FaultAt maxDepth (text.take i) text[i] e := by
    have cut : parse maxDepth (text.take i ++ text[i] :: text.drop (i + 1)) = .error e ∧
        e.position? = some (text.take i).length ↔ _ := parse_eq_error_at_iff
    rwa [List.length_take_of_le (Nat.le_of_lt h), ← List.drop_eq_getElem_cons h,
      List.take_append_drop] at cut
  refine ⟨fun i h => ⟨?_, found i h⟩, fun i j hi hj => Nat.le_antisymm (hi.le hj) (hj.le hi),
    fun i e h failed position more => ?_, fun live e => parse_eq_error_iff_of_live live⟩
  · simp only [found i h, diesAt_iff_exists_faultAt h]
  · obtain ⟨live, fault⟩ := (found i h e).mp ⟨failed, position⟩
    rw [List.take_succ_eq_append_getElem h, List.append_assoc, List.singleton_append]
    exact parse_of_faultAt live fault more

theorem parse_error_iff_diesAt_bar :
    DiesAt 1 "a(|b".toList 2 ∧ parse 1 "a(|c)d".toList = .error (.nothingBefore 2) ∧
      Live 1 "a(b".toList ∧ parse 1 "a(b".toList = .error .unclosedGroup := by
  obtain ⟨found, -, again, -⟩ := parse_error_iff_diesAt 1 "a(|b".toList
  have live : Live 1 "a(b".toList := ⟨[')'], _, rfl⟩
  exact ⟨(found 2 (by decide)).1.mp ⟨_, rfl, rfl⟩,
    again 2 _ (by decide) rfl rfl "c)d".toList, live,
    ((parse_error_iff_diesAt 1 "a(b".toList).2.2.2 live _).mpr (.unclosedGroup (by decide))⟩

end Pattern
end PatternAutomaton
