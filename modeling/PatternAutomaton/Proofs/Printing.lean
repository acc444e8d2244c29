import PatternAutomaton.Proofs.Replacing

/-!
# Printing and parsing

The printed text of a pattern is read back to the pattern, and a pattern that was read from some
text is printed no longer and no deeper than that text. The patterns that are read from texts are
those without a reserved character and without a repetition of a repetition.

A derivation of a text is followed item by item. Each item is printed with the parentheses it
needs among others, which is never more than the text has: where the grammar needs a group, the
text has one.
-/
namespace PatternAutomaton.Pattern

variable {d e n : Nat} {text inner u v u' v' : List Char} {items xs ys : List Pattern}
  {item : Option Pattern} {p p' : Pattern} {q : Quantifier} {c : Char}

theorem IsSequence.mono (h : IsSequence d text items) (le : d ≤ e) : IsSequence e text items :=
  h.of_parenDepth_le (Nat.le_trans (balanced_of_isSequence h).2 le)

theorem IsAlternation.mono (h : IsAlternation d text item) (le : d ≤ e) :
    IsAlternation e text item :=
  h.of_parenDepth_le (Nat.le_trans (balanced_of_isAlternation h).2 le)

/-- Sequences can stand behind each other. -/
theorem IsSequence.append :
    ∀ {d : Nat} {u v : List Char} {xs ys : List Pattern},
      IsSequence d u xs → IsSequence d v ys → IsSequence d (u ++ v) (xs ++ ys)
  | _, _, _, _, _, before, .nil => by simpa using before
  | _, _, _, _, _, before, .char after h => by
    simpa using IsSequence.char (before.append after) h
  | _, _, _, _, _, before, .group after inner => by
    simpa using IsSequence.group (before.append after) inner
  | _, _, _, _, _, before, @IsSequence.repeated _ _ items _ _ _ after makes => by
    have whole := before.append after
    rw [← List.append_assoc] at whole
    simpa using IsSequence.repeated whole makes

/-! ## The printed text is derived -/

/-- The text of a pattern among other items. -/
def printItem (p : Pattern) : List Char := groupedIf (p.isConcat || p.isAlt) p.print

/-- A pattern that is no repetition needs the same parentheses before a quantifier as it needs
among other items. -/
theorem groupedIf_not_isChar (h : p.isRepetition = false) :
    groupedIf (!p.isChar) p.print = p.printItem := by
  cases p with
  | star | plus => cases h
  | char | concat | alt => rfl

/-- A repetition is printed as its item and its mark. -/
theorem print_wrap (h : p.isRepetition = false) (q : Quantifier) :
    (q.wrap p).print = p.printItem ++ [q.mark] := by
  rw [← groupedIf_not_isChar h]
  cases q <;> rfl

theorem merge_eq_wrap (h : p.isRepetition = false) : q.merge p = q.wrap p := by
  cases q with
  | star => exact (Quantifier.makes_iff.mp (.star h)).symm
  | plus => exact (Quantifier.makes_iff.mp (.plus h)).symm

/-- The text of a pattern is an alternation for it, and with parentheses around a choice it is a
sequence for it, of one item unless the pattern is a concatenation. -/
structure Printed (p : Pattern) : Prop where
  isAlternation : ∃ d, IsAlternation d p.print (some p)
  isSequence : ∃ d items, IsSequence d (groupedIf p.isAlt p.print) items ∧
    concatInOrder? items = some p ∧ (p.isConcat = false → items = [p])

namespace Printed

/-- One item that is no choice is also an alternation. -/
theorem of_isSequence (halt : p.isAlt = false) (h : IsSequence d p.print items)
    (some_p : concatInOrder? items = some p) (single : p.isConcat = false → items = [p]) :
    p.Printed where
  isAlternation := ⟨d, some_p ▸ .single h⟩
  isSequence := ⟨d, items, by rwa [halt], some_p, single⟩

theorem isSequence_printItem (h : p.Printed) : ∃ d, IsSequence d p.printItem [p] := by
  by_cases hconcat : p.isConcat = true
  · obtain ⟨d, isAlternation⟩ := h.isAlternation
    refine ⟨d + 1, ?_⟩
    rw [printItem, hconcat]
    exact .group .nil isAlternation
  · obtain ⟨d, items, isSequence, -, single⟩ := h.isSequence
    rw [Bool.not_eq_true] at hconcat
    obtain rfl := single hconcat
    rw [printItem, hconcat]
    exact ⟨d, isSequence⟩

theorem wrap (h : p.Printed) (hrep : p.isRepetition = false) (q : Quantifier) :
    (q.wrap p).Printed := by
  obtain ⟨d, isSequence⟩ := h.isSequence_printItem
  have quantified := isSequence.quantified q
  rw [merge_eq_wrap hrep, ← print_wrap hrep] at quantified
  exact of_isSequence (by cases q <;> rfl) quantified rfl fun _ => rfl

end Printed

theorem Writable.printed (h : p.Writable) : p.Printed := by
  induction p with
  | char c =>
    have alone : IsSequence 0 (char c).print [char c] := .char .nil h
    exact .of_isSequence rfl alone rfl fun _ => rfl
  | concat p q ihp ihq =>
    obtain ⟨d, before⟩ := (ihp h.1).isSequence_printItem
    obtain ⟨e, items, after, some_q, -⟩ := (ihq h.2).isSequence
    have whole : IsSequence (max d e) (concat p q).print (p :: items) :=
      (before.mono (Nat.le_max_left d e)).append (after.mono (Nat.le_max_right d e))
    exact .of_isSequence rfl whole (by rw [concatInOrder?, some_q]) fun h => by cases h
  | alt p q ihp ihq =>
    obtain ⟨d, items, before, some_p, -⟩ := (ihp h.1).isSequence
    obtain ⟨e, after⟩ := (ihq h.2).isAlternation
    have whole : IsAlternation (max d e) (alt p q).print (some (alt p q)) :=
      .choice (before.mono (Nat.le_max_left d e)) some_p (after.mono (Nat.le_max_right d e))
    exact ⟨⟨_, whole⟩, ⟨_, [alt p q], .group .nil whole, rfl, fun _ => rfl⟩⟩
  | star p ih => exact (ih h.2).wrap h.1 .star
  | plus p ih => exact (ih h.2).wrap h.1 .plus

theorem Writable.balanced_print (h : p.Writable) : Balanced p.print := by
  obtain ⟨d, isAlternation⟩ := h.printed.isAlternation
  exact (balanced_of_isAlternation isAlternation).1

theorem Writable.balanced_printItem (h : p.Writable) : Balanced p.printItem := by
  obtain ⟨d, isSequence⟩ := h.printed.isSequence_printItem
  exact (balanced_of_isSequence isSequence).1

/-! ## The printed text is no larger than a text it is derived from -/

/-- One balanced text is no longer and no deeper than another one. -/
structure NoLarger (u v : List Char) : Prop where
  left : Balanced u
  right : Balanced v
  length_le : u.length ≤ v.length
  parenDepth_le : parenDepth u ≤ parenDepth v

namespace NoLarger

theorem refl (h : Balanced u) : NoLarger u u := ⟨h, h, Nat.le_refl _, Nat.le_refl _⟩

theorem trans {w : List Char} (h : NoLarger u v) (h' : NoLarger v w) : NoLarger u w :=
  ⟨h.left, h'.right, Nat.le_trans h.length_le h'.length_le,
    Nat.le_trans h.parenDepth_le h'.parenDepth_le⟩

theorem nil (h : Balanced v) : NoLarger [] v :=
  ⟨.nil, h, Nat.zero_le _, Nat.zero_le _⟩

theorem append (h : NoLarger u v) (h' : NoLarger u' v') : NoLarger (u ++ u') (v ++ v') where
  left := h.left.append h'.left
  right := h.right.append h'.right
  length_le := by
    have := h.length_le
    have := h'.length_le
    simp only [List.length_append]
    omega
  parenDepth_le := by
    have := h.parenDepth_le
    have := h'.parenDepth_le
    rw [h.left.parenDepth_append, h.right.parenDepth_append]
    omega

theorem extend (hu : Balanced u) (hv : Balanced v) : NoLarger u (u ++ v) := by
  have longer := (refl hu).append (nil hv)
  rwa [List.append_nil] at longer

theorem grouped (h : NoLarger u v) : NoLarger (Pattern.grouped u) (Pattern.grouped v) where
  left := h.left.grouped
  right := h.right.grouped
  length_le := by
    have := h.length_le
    simp only [Pattern.grouped, List.length_cons, List.length_append]
    omega
  parenDepth_le := by
    rw [h.left.parenDepth_grouped, h.right.parenDepth_grouped]
    exact Nat.succ_le_succ h.parenDepth_le

theorem in_grouped (h : Balanced u) : NoLarger u (Pattern.grouped u) where
  left := h
  right := h.grouped
  length_le := by simp only [Pattern.grouped, List.length_cons, List.length_append]; omega
  parenDepth_le := by rw [h.parenDepth_grouped]; exact Nat.le_succ _

theorem in_groupedIf (h : Balanced u) (b : Bool) : NoLarger u (Pattern.groupedIf b u) := by
  cases b with
  | false => exact .refl h
  | true => exact .in_grouped h

/-- Parentheses that may stand are no more than parentheses that do. -/
theorem groupedIf (h : NoLarger u v) (b : Bool) :
    NoLarger (Pattern.groupedIf b u) (Pattern.grouped v) := by
  cases b with
  | false => exact h.trans (in_grouped h.right)
  | true => exact h.grouped

end NoLarger

/-- What a quantifier makes of an item is printed in the place of both. -/
theorem Writable.makes (h : p.Writable) (makes : q.Makes p p') :
    p'.Writable ∧ NoLarger p'.printItem (p.printItem ++ [q.mark]) := by
  have item := h.balanced_printItem
  cases makes with
  | star hrep =>
    have printed : (star p).printItem = p.printItem ++ ['*'] := print_wrap hrep .star
    rw [printed]
    exact ⟨⟨hrep, h⟩, .refl (item.append (balanced_mark .star))⟩
  | plus hrep =>
    have printed : (plus p).printItem = p.printItem ++ ['+'] := print_wrap hrep .plus
    rw [printed]
    exact ⟨⟨hrep, h⟩, .refl (item.append (balanced_mark .plus))⟩
  | @starPlus r =>
    -- The `*` stands where the `+` stood.
    have base : Balanced (groupedIf (!r.isChar) r.print) := by
      rw [groupedIf_not_isChar h.1]
      exact Writable.balanced_printItem h.2
    exact ⟨h, (NoLarger.extend base (balanced_mark .plus)).append
      (.refl (balanced_mark .star))⟩
  | starStar => exact ⟨h, .extend item (balanced_mark .star)⟩
  | plusStar => exact ⟨h, .extend item (balanced_mark .plus)⟩
  | plusPlus => exact ⟨h, .extend item (balanced_mark .plus)⟩

/-- The concatenation of items needs no more parentheses than the items. -/
theorem noLarger_concatInOrder? (writable : ∀ x ∈ items, x.Writable)
    (h : concatInOrder? items = some p) :
    p.Writable ∧ NoLarger (groupedIf p.isAlt p.print) (items.flatMap printItem) := by
  induction items generalizing p with
  | nil => cases h
  | cons x rest ih =>
    obtain ⟨hx, hrest⟩ := List.forall_mem_cons.mp writable
    rw [List.flatMap_cons]
    rw [concatInOrder?] at h
    split at h
    · next hnone =>
      obtain rfl := Option.some.inj h
      obtain rfl := concatInOrder?_eq_none_iff.mp hnone
      rw [List.flatMap_nil, List.append_nil]
      refine ⟨hx, ?_⟩
      cases x with
      | concat x y => exact .in_grouped hx.balanced_print
      | alt x y => exact .refl hx.balanced_print.grouped
      | char | star | plus => exact .refl hx.balanced_print
    · next r hr =>
      obtain rfl := Option.some.inj h
      obtain ⟨hr, noLarger⟩ := ih hrest hr
      exact ⟨⟨hx, hr⟩, (NoLarger.refl hx.balanced_printItem).append noLarger⟩

theorem balanced_items (writable : ∀ x ∈ items, x.Writable) :
    Balanced (items.flatMap printItem) := by
  induction items with
  | nil => exact .nil
  | cons x rest ih =>
    obtain ⟨hx, hrest⟩ := List.forall_mem_cons.mp writable
    exact hx.balanced_printItem.append (ih hrest)

mutual

/-- The items of a sequence are printed no larger than its text. -/
theorem noLarger_of_isSequence :
    ∀ {d : Nat} {text : List Char} {items : List Pattern}, IsSequence d text items →
      (∀ x ∈ items, x.Writable) ∧ NoLarger (items.flatMap printItem) text
  | _, _, _, .nil => ⟨fun _ h => absurd h List.not_mem_nil, .refl .nil⟩
  | _, _, _, @IsSequence.char _ _ items c isSequence h => by
    obtain ⟨writable, noLarger⟩ := noLarger_of_isSequence isSequence
    obtain ⟨hopen, hclose⟩ := ne_of_isReserved h
    refine ⟨List.forall_mem_append.mpr ⟨writable, List.forall_mem_singleton.mpr h⟩, ?_⟩
    rw [List.flatMap_append, List.flatMap_singleton]
    exact noLarger.append (.refl (.single hopen hclose))
  | _, _, _, @IsSequence.group _ _ _ items item isSequence isAlternation => by
    obtain ⟨writable, noLarger⟩ := noLarger_of_isSequence isSequence
    have inner := (balanced_of_isAlternation isAlternation).1
    have denoted := noLarger_of_isAlternation isAlternation
    cases item with
    | none =>
      rw [Option.toList_none, List.append_nil]
      exact ⟨writable, noLarger.trans (.extend noLarger.right inner.grouped)⟩
    | some p =>
      obtain ⟨hp, smaller⟩ := denoted p rfl
      refine ⟨List.forall_mem_append.mpr ⟨writable, List.forall_mem_singleton.mpr hp⟩, ?_⟩
      rw [Option.toList_some, List.flatMap_append, List.flatMap_singleton]
      exact noLarger.append (smaller.groupedIf _)
  | _, _, _, @IsSequence.repeated _ _ items p p' q isSequence makes => by
    obtain ⟨writable, noLarger⟩ := noLarger_of_isSequence isSequence
    obtain ⟨before, hp⟩ := List.forall_mem_append.mp writable
    obtain ⟨hp', smaller⟩ := (List.forall_mem_singleton.mp hp).makes makes
    refine ⟨List.forall_mem_append.mpr ⟨before, List.forall_mem_singleton.mpr hp'⟩, ?_⟩
    have earlier : Balanced (items.flatMap printItem) := balanced_items before
    have inPlace := ((NoLarger.refl earlier).append smaller).trans
      (by
        have marked := noLarger.append (.refl (balanced_mark q))
        rwa [List.flatMap_append, List.flatMap_singleton, List.append_assoc] at marked)
    rwa [List.flatMap_append, List.flatMap_singleton]

/-- The pattern of an alternation is printed no larger than its text. -/
theorem noLarger_of_isAlternation :
    ∀ {d : Nat} {text : List Char} {item : Option Pattern}, IsAlternation d text item →
      ∀ p, item = some p → p.Writable ∧ NoLarger p.print text
  | _, _, _, .single isSequence, p, hp => by
    obtain ⟨writable, noLarger⟩ := noLarger_of_isSequence isSequence
    obtain ⟨hp, smaller⟩ := noLarger_concatInOrder? writable hp
    exact ⟨hp, (NoLarger.in_groupedIf hp.balanced_print _).trans (smaller.trans noLarger)⟩
  | _, _, _, .choice isSequence some_p isAlternation, _, rfl => by
    obtain ⟨writable, noLarger⟩ := noLarger_of_isSequence isSequence
    obtain ⟨hp, smaller⟩ := noLarger_concatInOrder? writable some_p
    obtain ⟨hq, rest⟩ := noLarger_of_isAlternation isAlternation _ rfl
    exact ⟨⟨hp, hq⟩, (smaller.trans noLarger).append
      ((NoLarger.refl (.single (by decide) (by decide))).append rest)⟩

end

/-- Printing and parsing undo each other. A pattern without reserved characters and without
repetitions of repetitions is read back from its printed text, if the parentheses of the text
keep to the limit. Every pattern that is read from a text is of this kind, and its printed text
is no longer and no deeper than that text. -/
theorem parse_print :
    (∀ p : Pattern, p.Writable → ∀ maxDepth, parenDepth p.print ≤ maxDepth →
      parse maxDepth p.print = .ok p) ∧
    ∀ (maxDepth : Nat) (text : List Char) (p : Pattern), parse maxDepth text = .ok p →
      p.Writable ∧ p.print.length ≤ text.length ∧ parenDepth p.print ≤ parenDepth text ∧
        parse maxDepth p.print = .ok p := by
  have read (p : Pattern) (h : p.Writable) (maxDepth : Nat)
      (le : parenDepth p.print ≤ maxDepth) : parse maxDepth p.print = .ok p := by
    obtain ⟨d, isAlternation⟩ := h.printed.isAlternation
    exact (parse_eq_answer_iff (some p)).mpr (isAlternation.of_parenDepth_le le)
  refine ⟨read, fun maxDepth text p h => ?_⟩
  have derived := (parse_eq_answer_iff (some p)).mp h
  obtain ⟨writable, noLarger⟩ := noLarger_of_isAlternation derived p rfl
  have le := Nat.le_trans noLarger.parenDepth_le (parenDepth_le_of_parse h)
  exact ⟨writable, noLarger.length_le, noLarger.parenDepth_le, read p writable maxDepth le⟩

theorem parse_print_repeated_choice :
    parse 1 (star (alt (char 'a') (char 'b'))).print = .ok (star (alt (char 'a') (char 'b'))) ∧
      parse 2 "(((a)|b+*)+*)".toList = .error (.tooDeep 2) ∧
        parse 3 "(((a)|b+*)+*)".toList = .ok (star (alt (char 'a') (star (char 'b')))) ∧
          (star (alt (char 'a') (star (char 'b')))).print.length ≤ 13 :=
  ⟨parse_print.1 (star (alt (char 'a') (char 'b'))) ⟨rfl, rfl, rfl⟩ 1 (by decide), rfl, rfl,
    (parse_print.2 3 "(((a)|b+*)+*)".toList _ rfl).2.1⟩

end PatternAutomaton.Pattern
