import PatternAutomaton.Proofs.Reading

/-!
# Reading agrees with the grammar

A sequence of the grammar is read to its items and an alternation to its pattern, whatever was
read before. With the invariant of reading this makes the two the same: a text is read to a
pattern exactly if the grammar derives it, and it is found empty exactly if the grammar derives
nothing from it.
-/
namespace PatternAutomaton
open Pattern

namespace Context

/-- Whether a group can be closed, and what it holds then, does not depend on where. -/
theorem close_cases (k : Context) :
    (∃ item, ∀ i, k.close i = .ok item) ∨ ∀ i, k.close i = .error (.nothingAfter i) := by
  simp only [close]
  cases concatAll? k.items with
  | some p => exact .inl ⟨_, fun i => rfl⟩
  | none =>
    cases k.alternatives with
    | nil => exact .inl ⟨none, fun i => rfl⟩
    | cons q alternatives => exact .inr fun i => rfl

theorem position?_of_close {k : Context} {i : Nat} {e : PatternError}
    (h : k.close i = .error e) : e.position? = some i := by
  simp only [close] at h
  split at h <;> cases h
  rfl

end Context

namespace Reader

variable {repetition : Quantifier → Pattern → Pattern} {i d : Nat} {c : Char}
  {text more : List Char} {r r' r'' : Reader} {e : PatternError}

theorem run_append :
    r.run repetition i (text ++ more) =
      match r.run repetition i text with
      | .ok r => r.run repetition (i + text.length) more
      | .error e => .error e := by
  induction text generalizing i r with
  | nil => rfl
  | cons c text ih =>
    rw [List.cons_append, run, run]
    cases r.step repetition i c with
    | error e => rfl
    | ok r =>
      have shift : i + (text.length + 1) = i + 1 + text.length := by omega
      rw [List.length_cons, shift]
      exact ih

theorem run_append_of_ok (h : r.run repetition i text = .ok r') :
    r.run repetition i (text ++ more) = r'.run repetition (i + text.length) more := by
  rw [run_append, h]

theorem run_cons_of_ok (h : r.step repetition i c = .ok r') :
    r.run repetition i (c :: text) = r'.run repetition (i + 1) text := by
  rw [run, h]

theorem run_append_singleton (h : r.run repetition i text = .ok r')
    (step : r'.step repetition (i + text.length) c = .ok r'') :
    r.run repetition i (text ++ [c]) = .ok r'' := by
  rw [run_append_of_ok h, run_cons_of_ok step]
  rfl

theorem step_of_not_reserved (h : isReserved c = false) :
    r.step repetition i c = .ok { r with current := r.current.addItem (.char c) } := by
  unfold step
  split <;> first | rfl | cases h

theorem step_bar : r.step repetition i '|' = r.onCurrent (·.endAlternative i) := rfl

theorem step_open : r.step repetition i '(' = r.openGroup i := rfl

theorem step_close : r.step repetition i ')' = r.closeGroup i := rfl

/-- A group in parentheses adds what it denotes to the group around it. -/
theorem run_grouped {room : Nat} {current k : Context} {enclosing : List Context}
    {item : Option Pattern} (close : ∀ j, k.close j = .ok item)
    (h : run repetition (i + 1) text ⟨room, {}, current :: enclosing⟩ =
      .ok ⟨room, k, current :: enclosing⟩) :
    run repetition i (grouped text) ⟨room + 1, current, enclosing⟩ =
      .ok ⟨room + 1, ⟨current.alternatives, item.toList ++ current.items⟩, enclosing⟩ := by
  have opened : step repetition i '(' ⟨room + 1, current, enclosing⟩ =
    .ok ⟨room, {}, current :: enclosing⟩ := rfl
  rw [grouped, List.cons_append, run_cons_of_ok opened]
  refine run_append_singleton h ?_
  rw [step_close, closeGroup]
  simp only [close]
  cases item <;> rfl

/-- The position of a fault in a step is the position of the step. -/
theorem position?_of_step (h : r.step repetition i c = .error e) : e.position? = some i := by
  have ofCurrent {operation : Context → Except PatternError Context}
      (h : r.onCurrent operation = .error e)
      (hop : ∀ k e, operation k = .error e → e.position? = some i) : e.position? = some i := by
    rw [onCurrent] at h
    split at h
    · cases h
    · next e' he =>
      obtain rfl := Except.error.inj h
      exact hop _ _ he
  have ofQuantify {q : Quantifier} (k : Context) (e : PatternError)
      (h : k.quantify (repetition q) i = .error e) : e.position? = some i := by
    rw [Context.quantify] at h
    split at h <;> cases h
    rfl
  unfold step at h
  split at h
  · exact ofCurrent h ofQuantify
  · exact ofCurrent h ofQuantify
  · refine ofCurrent h fun k e h => ?_
    rw [Context.endAlternative] at h
    split at h <;> cases h
    rfl
  · rw [openGroup] at h
    split at h <;> cases h
    rfl
  · rw [closeGroup] at h
    split at h
    · cases h
      rfl
    · split at h <;> cases h
      next hclose => exact Context.position?_of_close hclose
  · cases h

/-- No fault in a run is the fault of an empty text. -/
theorem run_ne_empty : r.run repetition i text ≠ .error .empty := by
  induction text generalizing i r with
  | nil => exact fun h => by cases h
  | cons c text ih =>
    intro h
    rw [run] at h
    split at h
    · exact ih h
    · next e he =>
      obtain rfl := Except.error.inj h
      cases position?_of_step he

end Reader

/-- What has been read of a group stands for this pattern, or for nothing, behind the
alternatives that were ended before. -/
def Context.Denotes (k : Context) (ended : List Pattern) : Option Pattern → Prop
  | none => k = ⟨ended, []⟩
  | some p => ∃ last earlier, concatAll? k.items = some last ∧
      k.alternatives = earlier ++ ended ∧ earlier.foldl (fun rest q => alt q rest) last = p

namespace Context

theorem close_of_denotes {k : Context} {item : Option Pattern} (h : k.Denotes [] item)
    (i : Nat) : k.close i = .ok item := by
  cases item with
  | none =>
    obtain rfl := h
    rfl
  | some p =>
    obtain ⟨last, earlier, hlast, hearlier, rfl⟩ := h
    rw [List.append_nil] at hearlier
    simp only [close, hlast, hearlier]
    rfl

theorem denotes_sequence (ended items : List Pattern) :
    Denotes ⟨ended, items.reverse⟩ ended (concatInOrder? items) := by
  cases h : concatInOrder? items with
  | none =>
    obtain rfl := concatInOrder?_eq_none_iff.mp h
    rfl
  | some p => exact ⟨p, [], by rw [concatAll?_reverse, h], rfl, rfl⟩

/-- A pattern read behind an ended alternative is a choice between the two. -/
theorem Denotes.choice {k : Context} {ended : List Pattern} {p q : Pattern}
    (h : k.Denotes (p :: ended) (some q)) : k.Denotes ended (some (.alt p q)) := by
  obtain ⟨last, earlier, hlast, hearlier, rfl⟩ := h
  exact ⟨last, earlier ++ [p], hlast, by simpa using hearlier, by simp⟩

end Context

mutual

/-- Reading a sequence adds its items to a group, behind the items that it holds. -/
theorem run_of_isSequence {d : Nat} {text : List Char} {items : List Pattern} :
    IsSequence d text items →
      ∀ (i : Nat) (ended older : List Pattern) (enclosing : List Context),
        Reader.run Quantifier.merge i text ⟨d, ⟨ended, older⟩, enclosing⟩ =
          .ok ⟨d, ⟨ended, items.reverse ++ older⟩, enclosing⟩
  | .nil, i, ended, older, enclosing => rfl
  | .char isSequence h, i, ended, older, enclosing => by
    rw [List.reverse_append]
    exact Reader.run_append_singleton (run_of_isSequence isSequence i ended older enclosing)
      (Reader.step_of_not_reserved h)
  | @IsSequence.group d text inner items item isSequence isAlternation, i, ended, older,
      enclosing => by
    have before := run_of_isSequence isSequence i ended older enclosing
    obtain ⟨k, denotes, read⟩ := run_of_isAlternation isAlternation (i + text.length + 1) []
      (⟨ended, items.reverse ++ older⟩ :: enclosing)
    have single : item.toList.reverse = item.toList := by cases item <;> rfl
    rw [Reader.run_append_of_ok before, List.reverse_append, single, List.append_assoc]
    exact Reader.run_grouped (Context.close_of_denotes denotes) read
  | @IsSequence.repeated d text items p p' q isSequence makes, i, ended, older, enclosing => by
    have before := run_of_isSequence isSequence i ended older enclosing
    obtain rfl := Quantifier.makes_iff.mp makes
    -- Groups that denote nothing left no item, so the item to repeat is the latest one held.
    rw [List.reverse_append] at before ⊢
    refine Reader.run_append_singleton before ?_
    cases q <;> rfl

/-- Reading an alternation makes a group denote its pattern. -/
theorem run_of_isAlternation {d : Nat} {text : List Char} {item : Option Pattern} :
    IsAlternation d text item → ∀ (i : Nat) (ended : List Pattern) (enclosing : List Context),
      ∃ k : Context, k.Denotes ended item ∧
        Reader.run Quantifier.merge i text ⟨d, ⟨ended, []⟩, enclosing⟩ =
          .ok ⟨d, k, enclosing⟩
  | @IsAlternation.single d text items isSequence, i, ended, enclosing => by
    have read := run_of_isSequence isSequence i ended [] enclosing
    rw [List.append_nil] at read
    exact ⟨_, Context.denotes_sequence ended _, read⟩
  | @IsAlternation.choice d text rest items p q isSequence some_p isAlternation, i, ended,
      enclosing => by
    have before := run_of_isSequence isSequence i ended [] enclosing
    rw [List.append_nil] at before
    obtain ⟨k, denotes, read⟩ := run_of_isAlternation isAlternation (i + text.length + 1)
      (p :: ended) enclosing
    have bar : Reader.step Quantifier.merge (i + text.length) '|'
        ⟨d, ⟨ended, items.reverse⟩, enclosing⟩ = .ok ⟨d, ⟨p :: ended, []⟩, enclosing⟩ := by
      simp only [Reader.step_bar, Reader.onCurrent, Context.endAlternative, concatAll?_reverse,
        some_p]
    refine ⟨k, denotes.choice, ?_⟩
    rw [Reader.run_append_of_ok before, Reader.run_cons_of_ok bar, read]

end

namespace Pattern

theorem parseWith_of_ok {repetition : Quantifier → Pattern → Pattern} {maxDepth : Nat}
    {text : List Char} {r : Reader}
    (h : (Reader.start maxDepth).run repetition 0 text = .ok r) :
    parseWith repetition maxDepth text = r.finish text.length := by
  rw [parseWith, h]

theorem parseWith_of_error {repetition : Quantifier → Pattern → Pattern} {maxDepth : Nat}
    {text : List Char} {e : PatternError}
    (h : (Reader.start maxDepth).run repetition 0 text = .error e) :
    parseWith repetition maxDepth text = .error e := by
  rw [parseWith, h]

/-- What parsing gives for a text that denotes this pattern, or nothing. -/
def answer : Option Pattern → Except PatternError Pattern
  | some p => .ok p
  | none => .error .empty

theorem isAlternation_of_finish {d n : Nat} {text : List Char} {r : Reader}
    {item : Option Pattern} (reads : r.Reads d text) (h : r.finish n = answer item) :
    IsAlternation d text item := by
  cases reads with
  | opened => cases item <;> cases h
  | outermost reads =>
    simp only [Reader.finish] at h
    split at h
    · next hclose =>
      cases item with
      | some p => exact Except.ok.inj h ▸ reads.close hclose
      | none => cases h
    · next hclose =>
      cases item with
      | some p => cases h
      | none => exact reads.close hclose
    · next e he =>
      cases item with
      | some p => cases h
      | none =>
        obtain rfl := Except.error.inj h
        cases Context.position?_of_close he

theorem parse_eq_answer_iff {maxDepth : Nat} {text : List Char} (item : Option Pattern) :
    parse maxDepth text = answer item ↔ IsAlternation maxDepth text item := by
  constructor
  · intro h
    rw [parse, parseWith] at h
    split at h
    · next r hrun => exact isAlternation_of_finish ((Reader.Reads.start maxDepth).run hrun) h
    · next e hrun =>
      cases item with
      | some p => cases h
      | none =>
        obtain rfl := Except.error.inj h
        exact absurd hrun Reader.run_ne_empty
  · intro h
    obtain ⟨k, denotes, hrun⟩ := run_of_isAlternation h 0 [] []
    have read : (Reader.start maxDepth).run Quantifier.merge 0 text = .ok ⟨maxDepth, k, []⟩ :=
      hrun
    rw [parse, parseWith, read]
    simp only [Reader.finish, Context.close_of_denotes denotes]
    cases item <;> rfl

/-- A text is read to a pattern exactly if the grammar derives the pattern from it, and it is
found empty exactly if the grammar derives nothing from it. -/
theorem parse_iff_isAlternation (maxDepth : Nat) (text : List Char) :
    (∀ p, parse maxDepth text = .ok p ↔ IsAlternation maxDepth text (some p)) ∧
      (parse maxDepth text = .error .empty ↔ IsAlternation maxDepth text none) :=
  ⟨fun p => parse_eq_answer_iff (some p), parse_eq_answer_iff none⟩

end Pattern
end PatternAutomaton
