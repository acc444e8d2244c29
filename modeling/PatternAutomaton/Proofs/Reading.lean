import PatternAutomaton.Pattern.Grammar
import PatternAutomaton.Pattern.Reading

/-!
# What a reader has read

The invariant of reading. The text so far is cut at the groups still open: each open group, and
the text outside all of them, has its ended alternatives and the sequence it is in, and these
are what its context holds. Each character keeps that, so a text that is read to its end is an
alternation of the grammar. No fault of a step is the fault of an empty text: it always belongs
to the character that was read.
-/
namespace PatternAutomaton
open Pattern

theorem Quantifier.makes_iff {q : Quantifier} {p r : Pattern} :
    q.Makes p r ↔ r = q.merge p := by
  constructor
  · intro makes
    cases makes with
    | star h =>
      cases p with
      | star | plus => cases h
      | char | concat | alt => rfl
    | plus h =>
      cases p with
      | star | plus => cases h
      | char | concat | alt => rfl
    | starStar | starPlus | plusStar | plusPlus => rfl
  · rintro rfl
    cases q with
    | star =>
      cases p with
      | star => exact .starStar
      | plus => exact .starPlus
      | char | concat | alt => exact .star rfl
    | plus =>
      cases p with
      | star => exact .plusStar
      | plus => exact .plusPlus
      | char | concat | alt => exact .plus rfl

namespace Pattern

/-- A quantifier behind a sequence of one item. -/
theorem IsSequence.quantified {d : Nat} {text : List Char} {p : Pattern}
    (h : IsSequence d text [p]) (q : Quantifier) :
    IsSequence d (text ++ [q.mark]) [q.merge p] :=
  @IsSequence.repeated _ _ [] _ _ _ h (Quantifier.makes_iff.mpr rfl)

theorem concatAll?_append_singleton (ps : List Pattern) (p : Pattern) :
    concatAll? (ps ++ [p]) =
      match concatAll? ps with
      | none => some p
      | some q => some (concat p q) := by
  cases ps with
  | nil => rfl
  | cons last earlier => simp [concatAll?]

/-- Items in order make the same concatenation as the same items latest first. -/
theorem concatAll?_reverse (items : List Pattern) :
    concatAll? items.reverse = concatInOrder? items := by
  induction items with
  | nil => rfl
  | cons p rest ih => rw [List.reverse_cons, concatAll?_append_singleton, ih]; rfl

theorem concatInOrder?_eq_none_iff {items : List Pattern} :
    concatInOrder? items = none ↔ items = [] := by
  cases items with
  | nil => simp [concatInOrder?]
  | cons p rest =>
    rw [concatInOrder?]
    split <;> simp

/-- The text consists of alternatives that are ended by a bar, for these patterns, latest
first. -/
inductive Ended (d : Nat) : List Char → List Pattern → Prop
  | nil : Ended d [] []
  | bar {before text : List Char} {alternatives items : List Pattern} {p : Pattern} :
      Ended d before alternatives → IsSequence d text items → concatInOrder? items = some p →
      Ended d (before ++ text ++ ['|']) (p :: alternatives)

/-- Ended alternatives and a further alternation make one alternation. -/
theorem Ended.isAlternation {d : Nat} {before text : List Char} {alternatives : List Pattern}
    {p : Pattern} (ended : Ended d before alternatives) (last : IsAlternation d text (some p)) :
    IsAlternation d (before ++ text)
      (some (alternatives.foldl (fun rest q => alt q rest) p)) := by
  induction ended generalizing text p with
  | nil => exact last
  | @bar before current alternatives items q _ isSequence some_q ih =>
    have more := ih (.choice isSequence some_q last)
    simpa using more

end Pattern

/-- The context holds what the text of its group has so far. -/
def Context.Reads (d : Nat) (text : List Char) (k : Context) : Prop :=
  ∃ before current, text = before ++ current ∧ Ended d before k.alternatives ∧
    IsSequence d current k.items.reverse

namespace Context.Reads

variable {d i : Nat} {text inner : List Char} {k k' : Context} {p : Pattern}
  {item : Option Pattern}

theorem empty : Context.Reads d [] {} := ⟨[], [], rfl, .nil, .nil⟩

/-- Whatever goes on with the current sequence goes on with the text of the group. -/
theorem onSequence {more : List Char} {items : List Pattern} (reads : k.Reads d text)
    (h : ∀ current, IsSequence d current k.items.reverse →
      IsSequence d (current ++ more) items.reverse) :
    Context.Reads d (text ++ more) ⟨k.alternatives, items⟩ := by
  obtain ⟨before, current, rfl, ended, isSequence⟩ := reads
  exact ⟨before, current ++ more, List.append_assoc .., ended, h current isSequence⟩

theorem addChar {c : Char} (reads : k.Reads d text) (h : isReserved c = false) :
    (k.addItem (.char c)).Reads d (text ++ [c]) :=
  reads.onSequence fun current isSequence => by
    rw [List.reverse_cons]
    exact .char isSequence h

theorem addGroup (reads : k.Reads (d + 1) text) (h : IsAlternation d inner item) :
    Context.Reads (d + 1) (text ++ grouped inner)
      ⟨k.alternatives, item.toList ++ k.items⟩ :=
  reads.onSequence fun current isSequence => by
    have single : item.toList.reverse = item.toList := by cases item <;> rfl
    rw [List.reverse_append, single]
    exact .group isSequence h

theorem quantify {q : Quantifier} (reads : k.Reads d text)
    (h : k.quantify q.merge i = .ok k') : k'.Reads d (text ++ [q.mark]) := by
  obtain ⟨alternatives, items⟩ := k
  cases items with
  | nil => cases h
  | cons latest earlier =>
    obtain rfl := Except.ok.inj h
    refine reads.onSequence fun current isSequence => ?_
    rw [List.reverse_cons] at isSequence ⊢
    exact .repeated isSequence (Quantifier.makes_iff.mpr rfl)

theorem endAlternative (reads : k.Reads d text) (h : k.endAlternative i = .ok k') :
    k'.Reads d (text ++ ['|']) := by
  obtain ⟨before, current, rfl, ended, isSequence⟩ := reads
  rw [Context.endAlternative] at h
  split at h
  · cases h
  · next p hp =>
    obtain rfl := Except.ok.inj h
    rw [← List.reverse_reverse k.items, concatAll?_reverse] at hp
    exact ⟨before ++ current ++ ['|'], [], by simp, .bar ended isSequence hp, .nil⟩

theorem close (reads : k.Reads d text) (h : k.close i = .ok item) :
    IsAlternation d text item := by
  obtain ⟨before, current, rfl, ended, isSequence⟩ := reads
  have last := IsAlternation.single isSequence
  rw [← concatAll?_reverse, List.reverse_reverse] at last
  simp only [Context.close] at h
  cases hp : concatAll? k.items with
  | some p =>
    rw [hp] at h last
    obtain rfl := Except.ok.inj h
    exact ended.isAlternation last
  | none =>
    rw [hp] at h last
    cases hk : k.alternatives with
    | nil =>
      rw [hk] at h ended
      obtain rfl := Except.ok.inj h
      cases ended
      exact last
    | cons q alternatives =>
      rw [hk] at h
      cases h

end Context.Reads

/-- The reader holds what the text has so far, if at most `d` groups may be open at once. -/
inductive Reader.Reads (d : Nat) : List Char → Reader → Prop
  | outermost {text : List Char} {k : Context} : k.Reads d text → Reads d text ⟨d, k, []⟩
  | opened {text more : List Char} {room : Nat} {outer inner : Context}
      {enclosing : List Context} :
      Reads d text ⟨room + 1, outer, enclosing⟩ → inner.Reads room more →
      Reads d (text ++ '(' :: more) ⟨room, inner, outer :: enclosing⟩

namespace Reader.Reads

variable {d i : Nat} {text : List Char} {r r' : Reader}

theorem start (d : Nat) : (Reader.start d).Reads d [] := .outermost .empty

/-- Whatever goes on with the innermost group goes on with the whole text. -/
theorem onCurrent {more : List Char} {k : Context} (reads : r.Reads d text)
    (h : ∀ text, r.current.Reads r.room text → k.Reads r.room (text ++ more)) :
    Reader.Reads d (text ++ more) { r with current := k } := by
  cases reads with
  | outermost reads => exact .outermost (h _ reads)
  | opened outer inner =>
    rw [List.append_assoc, List.cons_append]
    exact .opened outer (h _ inner)

theorem onCurrent_ok {more : List Char} {operation : Context → Except PatternError Context}
    (reads : r.Reads d text) (ok : r.onCurrent operation = .ok r')
    (h : ∀ text k, r.current.Reads r.room text → operation r.current = .ok k →
      k.Reads r.room (text ++ more)) : r'.Reads d (text ++ more) := by
  rw [Reader.onCurrent] at ok
  split at ok
  · next k hk =>
    obtain rfl := Except.ok.inj ok
    exact reads.onCurrent fun text inner => h text k inner hk
  · cases ok

theorem openGroup (reads : r.Reads d text) (h : r.openGroup i = .ok r') :
    r'.Reads d (text ++ ['(']) := by
  obtain ⟨room, current, enclosing⟩ := r
  cases room with
  | zero => cases h
  | succ room =>
    obtain rfl := Except.ok.inj h
    exact .opened reads .empty

theorem closeGroup (reads : r.Reads d text) (h : r.closeGroup i = .ok r') :
    r'.Reads d (text ++ [')']) := by
  cases reads with
  | outermost => cases h
  | @opened text more room outer inner enclosing reads innerReads =>
    have whole : text ++ '(' :: more ++ [')'] = text ++ grouped more := by simp [grouped]
    rw [whole]
    simp only [Reader.closeGroup] at h
    split at h
    · cases h
    · next hclose =>
      obtain rfl := Except.ok.inj h
      exact reads.onCurrent fun _ outerReads => outerReads.addGroup (innerReads.close hclose)
    · next p hclose =>
      obtain rfl := Except.ok.inj h
      exact reads.onCurrent fun _ outerReads => outerReads.addGroup (innerReads.close hclose)

theorem step {c : Char} (reads : r.Reads d text) (h : r.step Quantifier.merge i c = .ok r') :
    r'.Reads d (text ++ [c]) := by
  unfold Reader.step at h
  split at h
  · exact reads.onCurrent_ok h fun _ _ inner hk => inner.quantify hk
  · exact reads.onCurrent_ok h fun _ _ inner hk => inner.quantify hk
  · exact reads.onCurrent_ok h fun _ _ inner hk => inner.endAlternative hk
  · exact reads.openGroup h
  · exact reads.closeGroup h
  · obtain rfl := Except.ok.inj h
    exact reads.onCurrent fun _ inner => inner.addChar (by simp_all [isReserved])

theorem run {more : List Char} (reads : r.Reads d text)
    (h : r.run Quantifier.merge i more = .ok r') : r'.Reads d (text ++ more) := by
  induction more generalizing i r text with
  | nil =>
    obtain rfl := Except.ok.inj h
    rwa [List.append_nil]
  | cons c more ih =>
    rw [Reader.run] at h
    split at h
    · next r₁ hstep =>
      have after := ih (reads.step hstep) h
      rwa [List.append_assoc] at after
    · cases h

end Reader.Reads
end PatternAutomaton
