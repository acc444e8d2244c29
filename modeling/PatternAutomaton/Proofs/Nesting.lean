import PatternAutomaton.Pattern.Grammar

/-!
# Parentheses of a pattern text

In a text that the grammar derives, the parentheses close in order, so the depth of a text put
together from such texts is found from their depths. The bound of a derivation on the groups
open at once is a bound on the depth of the text, and nothing else: a text derived under some
bound is derived under every bound that its depth keeps to.
-/
namespace PatternAutomaton.Pattern

variable {d e depth : Nat} {text inner rest u v : List Char} {items : List Pattern}
  {item : Option Pattern} {c : Char}

/-- The text closes all the parentheses it opens, so what stands behind it is read on from the
same depth. -/
def Balanced (text : List Char) : Prop :=
  ∀ depth rest, parenDepthFrom depth (text ++ rest) =
    max (depth + parenDepth text) (parenDepthFrom depth rest)

theorem le_parenDepthFrom (depth : Nat) (text : List Char) :
    depth ≤ parenDepthFrom depth text := by
  fun_induction parenDepthFrom depth text with
  | case1 depth => exact Nat.le_refl depth
  | case2 depth rest ih => omega
  | case3 depth rest ih => exact Nat.le_max_left _ _
  | case4 depth c rest _ _ ih => exact ih

theorem parenDepthFrom_cons (hopen : c ≠ '(') (hclose : c ≠ ')') :
    parenDepthFrom depth (c :: rest) = parenDepthFrom depth rest := by
  rw [parenDepthFrom]
  · exact hopen
  · exact hclose

namespace Balanced

theorem nil : Balanced [] := by
  intro depth rest
  have := le_parenDepthFrom depth rest
  simp only [List.nil_append, parenDepth, parenDepthFrom]
  omega

theorem single (hopen : c ≠ '(') (hclose : c ≠ ')') : Balanced [c] := by
  intro depth rest
  have := le_parenDepthFrom depth rest
  simp only [List.cons_append, List.nil_append, parenDepth, parenDepthFrom_cons hopen hclose,
    parenDepthFrom]
  omega

/-- The depth of a text behind a balanced one is counted from zero again. -/
theorem parenDepth_append (h : Balanced u) :
    parenDepth (u ++ v) = max (parenDepth u) (parenDepth v) := by
  rw [parenDepth, h 0 v, Nat.zero_add]
  rfl

theorem append (hu : Balanced u) (hv : Balanced v) : Balanced (u ++ v) := by
  intro depth rest
  rw [List.append_assoc, hu, hv, hu.parenDepth_append]
  omega

/-- Around a balanced text a pair of parentheses is one more level. -/
theorem parenDepthFrom_grouped (h : Balanced text) :
    parenDepthFrom depth (grouped text ++ rest) =
      max (depth + parenDepth text + 1) (parenDepthFrom depth rest) := by
  have inside := h (depth + 1) (')' :: rest)
  simp only [parenDepthFrom, Nat.add_sub_cancel] at inside
  simp only [Pattern.grouped, List.cons_append, List.append_assoc, List.nil_append,
    parenDepthFrom, inside]
  omega

theorem parenDepth_grouped (h : Balanced text) :
    parenDepth (Pattern.grouped text) = parenDepth text + 1 := by
  have alone : parenDepthFrom 0 (Pattern.grouped text ++ []) = _ := h.parenDepthFrom_grouped
  rw [List.append_nil] at alone
  rw [parenDepth, alone, parenDepthFrom]
  omega

theorem grouped (h : Balanced text) : Balanced (Pattern.grouped text) := by
  intro depth rest
  rw [h.parenDepthFrom_grouped, h.parenDepth_grouped]
  omega

theorem parenDepth_append_single (h : Balanced u) (hopen : c ≠ '(') (hclose : c ≠ ')') :
    parenDepth (u ++ [c]) = parenDepth u := by
  rw [h.parenDepth_append, parenDepth, parenDepth, parenDepthFrom_cons hopen hclose,
    parenDepthFrom]
  omega

theorem bar (hu : Balanced u) (hv : Balanced v) : Balanced (u ++ '|' :: v) :=
  hu.append ((single (by decide) (by decide)).append hv)

theorem parenDepth_bar (h : Balanced u) :
    parenDepth (u ++ '|' :: v) = max (parenDepth u) (parenDepth v) := by
  rw [h.parenDepth_append]
  rfl

end Balanced

theorem ne_of_isReserved (h : isReserved c = false) : c ≠ '(' ∧ c ≠ ')' := by
  constructor <;> rintro rfl <;> cases h

theorem mark_ne (q : Quantifier) : q.mark ≠ '(' ∧ q.mark ≠ ')' := by
  cases q <;> decide

theorem balanced_mark (q : Quantifier) : Balanced [q.mark] :=
  .single (mark_ne q).1 (mark_ne q).2

theorem Balanced.parenDepth_append_mark (h : Balanced u) (q : Quantifier) :
    parenDepth (u ++ [q.mark]) = parenDepth u :=
  h.parenDepth_append_single (mark_ne q).1 (mark_ne q).2

/-- The depth of a text grows with the depth of a balanced part of it. -/
theorem parenDepthFrom_replace_le {part part' : List Char} (hpart : Balanced part)
    (hpart' : Balanced part') (le : parenDepth part ≤ parenDepth part') (depth : Nat) :
    parenDepthFrom depth (u ++ part ++ v) ≤ parenDepthFrom depth (u ++ part' ++ v) := by
  simp only [List.append_assoc]
  fun_induction parenDepthFrom depth u with
  | case1 depth =>
    rw [List.nil_append, List.nil_append, hpart, hpart']
    omega
  | case2 depth rest ih => exact ih
  | case3 depth rest ih => simp only [List.cons_append, parenDepthFrom]; omega
  | case4 depth c rest hopen hclose ih =>
    simpa only [List.cons_append, parenDepthFrom_cons hopen hclose] using ih

mutual

/-- A sequence is balanced, and its depth keeps to the bound of its derivation. -/
theorem balanced_of_isSequence :
    ∀ {d : Nat} {text : List Char} {items : List Pattern},
      IsSequence d text items → Balanced text ∧ parenDepth text ≤ d
  | d, _, _, .nil => ⟨.nil, Nat.zero_le d⟩
  | _, _, _, .char isSequence h => by
    obtain ⟨balanced, le⟩ := balanced_of_isSequence isSequence
    obtain ⟨hopen, hclose⟩ := ne_of_isReserved h
    refine ⟨balanced.append (.single hopen hclose), ?_⟩
    rw [balanced.parenDepth_append_single hopen hclose]
    exact le
  | _, _, _, .group isSequence isAlternation => by
    obtain ⟨balanced, le⟩ := balanced_of_isSequence isSequence
    obtain ⟨inner, innerLe⟩ := balanced_of_isAlternation isAlternation
    refine ⟨balanced.append inner.grouped, ?_⟩
    rw [balanced.parenDepth_append, inner.parenDepth_grouped]
    omega
  | _, _, _, @IsSequence.repeated _ _ _ _ _ q isSequence _ => by
    obtain ⟨balanced, le⟩ := balanced_of_isSequence isSequence
    refine ⟨balanced.append (balanced_mark q), ?_⟩
    rw [balanced.parenDepth_append_mark]
    exact le

/-- An alternation is balanced, and its depth keeps to the bound of its derivation. -/
theorem balanced_of_isAlternation :
    ∀ {d : Nat} {text : List Char} {item : Option Pattern},
      IsAlternation d text item → Balanced text ∧ parenDepth text ≤ d
  | _, _, _, .single isSequence => balanced_of_isSequence isSequence
  | _, _, _, .choice isSequence _ isAlternation => by
    obtain ⟨balanced, le⟩ := balanced_of_isSequence isSequence
    obtain ⟨restBalanced, restLe⟩ := balanced_of_isAlternation isAlternation
    refine ⟨balanced.bar restBalanced, ?_⟩
    rw [balanced.parenDepth_bar]
    exact Nat.max_le.mpr ⟨le, restLe⟩

end

mutual

/-- A sequence is derived under every bound that its depth keeps to. -/
theorem IsSequence.of_parenDepth_le :
    ∀ {d e : Nat} {text : List Char} {items : List Pattern},
      IsSequence d text items → parenDepth text ≤ e → IsSequence e text items
  | _, _, _, _, .nil, _ => .nil
  | _, _, _, _, .char isSequence h, le => by
    obtain ⟨hopen, hclose⟩ := ne_of_isReserved h
    rw [(balanced_of_isSequence isSequence).1.parenDepth_append_single hopen hclose] at le
    exact .char (isSequence.of_parenDepth_le le) h
  | _, 0, _, _, .group isSequence isAlternation, le => by
    rw [(balanced_of_isSequence isSequence).1.parenDepth_append,
      (balanced_of_isAlternation isAlternation).1.parenDepth_grouped] at le
    omega
  | _, e + 1, _, _, .group isSequence isAlternation, le => by
    rw [(balanced_of_isSequence isSequence).1.parenDepth_append,
      (balanced_of_isAlternation isAlternation).1.parenDepth_grouped] at le
    exact .group (isSequence.of_parenDepth_le (by omega))
      (isAlternation.of_parenDepth_le (by omega))
  | _, _, _, _, @IsSequence.repeated _ _ _ _ _ q isSequence makes, le => by
    rw [(balanced_of_isSequence isSequence).1.parenDepth_append_mark] at le
    exact .repeated (isSequence.of_parenDepth_le le) makes

/-- An alternation is derived under every bound that its depth keeps to. -/
theorem IsAlternation.of_parenDepth_le :
    ∀ {d e : Nat} {text : List Char} {item : Option Pattern},
      IsAlternation d text item → parenDepth text ≤ e → IsAlternation e text item
  | _, _, _, _, .single isSequence, le => .single (isSequence.of_parenDepth_le le)
  | _, _, _, _, .choice isSequence some_p isAlternation, le => by
    rw [(balanced_of_isSequence isSequence).1.parenDepth_bar] at le
    exact .choice (isSequence.of_parenDepth_le (by omega)) some_p
      (isAlternation.of_parenDepth_le (by omega))

end

end PatternAutomaton.Pattern
