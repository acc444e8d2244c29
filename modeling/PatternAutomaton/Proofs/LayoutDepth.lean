import PatternAutomaton.Matcher
import PatternAutomaton.Automaton.LayoutDepth
import PatternAutomaton.Pattern.Measure
import PatternAutomaton.Proofs.Parsing

/-!
# How deep a layout goes

The depth of a pattern is the depth that its layout needs. A text with at most `d` groups open at
once is read to a pattern whose depth is bounded by `d` alone: an alternation, a sequence and one
quantifier make three levels for each group and three around all of them. However long the text
is, a spine is one level, and quantifiers behind each other are one repetition.
-/
namespace PatternAutomaton

namespace Pattern

variable {d n : Nat} {text : List Char} {items : List Pattern} {item : Option Pattern}
  {p q : Pattern} {earlier : List Pattern}

/-! ## The operands of a spine -/

theorem concatDepth_le_layoutDepth (p : Pattern) : p.concatDepth ≤ p.layoutDepth := by
  cases p with
  | concat p q => simp only [concatDepth, layoutDepth]; omega
  | char | alt | star | plus => exact Nat.le_refl _

theorem layoutDepth_le_concatDepth (p : Pattern) : p.layoutDepth ≤ 1 + p.concatDepth := by
  cases p with
  | concat p q => exact Nat.le_refl _
  | char | alt | star | plus => exact Nat.le_add_left _ _

theorem altDepth_le_layoutDepth (p : Pattern) : p.altDepth ≤ p.layoutDepth := by
  cases p with
  | alt p q => simp only [altDepth, layoutDepth]; omega
  | char | concat | star | plus => exact Nat.le_refl _

theorem layoutDepth_le_altDepth (p : Pattern) : p.layoutDepth ≤ 1 + p.altDepth := by
  cases p with
  | alt p q => exact Nat.le_refl _
  | char | concat | star | plus => exact Nat.le_add_left _ _

/-- The operands of a concatenation spine are the patterns laid out below it. -/
theorem concatSpine_layoutDepth_le_iff :
    (concatSpine p earlier).1.layoutDepth ≤ n ∧
        (∀ x ∈ (concatSpine p earlier).2, x.layoutDepth ≤ n) ↔
      p.concatDepth ≤ n ∧ ∀ x ∈ earlier, x.layoutDepth ≤ n := by
  fun_induction concatSpine p earlier with
  | case1 p q earlier ih =>
    rw [ih, concatDepth, List.forall_mem_cons, Nat.max_le, and_assoc, and_left_comm]
  | case2 last earlier h =>
    have same : last.layoutDepth = last.concatDepth := by
      cases last with
      | concat p q => exact absurd rfl (h p q)
      | char | alt | star | plus => rfl
    rw [same]

/-- The operands of an alternation spine are the patterns laid out below it. -/
theorem altSpine_layoutDepth_le_iff :
    (altSpine p earlier).1.layoutDepth ≤ n ∧
        (∀ x ∈ (altSpine p earlier).2, x.layoutDepth ≤ n) ↔
      p.altDepth ≤ n ∧ ∀ x ∈ earlier, x.layoutDepth ≤ n := by
  fun_induction altSpine p earlier with
  | case1 p q earlier ih =>
    rw [ih, altDepth, List.forall_mem_cons, Nat.max_le, and_assoc, and_left_comm]
  | case2 last earlier h =>
    have same : last.layoutDepth = last.altDepth := by
      cases last with
      | alt p q => exact absurd rfl (h p q)
      | char | concat | star | plus => rfl
    rw [same]

theorem layoutDepth_concat_le_iff :
    (concat p q).layoutDepth ≤ n + 1 ↔
      (concatSpine q [p]).1.layoutDepth ≤ n ∧
        ∀ x ∈ (concatSpine q [p]).2, x.layoutDepth ≤ n := by
  rw [concatSpine_layoutDepth_le_iff, layoutDepth, List.forall_mem_singleton]
  omega

theorem layoutDepth_alt_le_iff :
    (alt p q).layoutDepth ≤ n + 1 ↔
      (altSpine q [p]).1.layoutDepth ≤ n ∧ ∀ x ∈ (altSpine q [p]).2, x.layoutDepth ≤ n := by
  rw [altSpine_layoutDepth_le_iff, layoutDepth, List.forall_mem_singleton]
  omega

theorem layoutDepth_pos (p : Pattern) : 0 < p.layoutDepth := by
  cases p <;> rw [layoutDepth] <;> omega

end Pattern

namespace Layout

variable {depth : Nat} {layOne : Pattern → StateId → Array State → Option Layout}

/-- One way of laying out goes as deep as the bound and gives nothing for what is deeper. -/
def KeepsTo (depth : Nat) (layOne : Pattern → StateId → Array State → Option Layout) : Prop :=
  ∀ p next states,
    layOne p next states = if p.layoutDepth ≤ depth then some (lay p next states) else none

theorem KeepsTo.laySequenceBy (h : KeepsTo depth layOne) (ps : List Pattern) (next : StateId)
    (states : Array State) :
    laySequenceBy layOne ps next states =
      if ∀ p ∈ ps, p.layoutDepth ≤ depth then some (laySequence ps next states) else none := by
  induction ps generalizing next states with
  | nil => rw [Layout.laySequenceBy, laySequence, if_pos (List.forall_mem_nil _)]
  | cons p earlier ih =>
    rw [Layout.laySequenceBy, laySequence, h p]
    by_cases hp : p.layoutDepth ≤ depth
    · simp [hp, ih]
    · simp [hp]

theorem KeepsTo.layChoicesBy (h : KeepsTo depth layOne) (ps : List Pattern)
    (next others : StateId) (states : Array State) :
    layChoicesBy layOne ps next others states =
      if ∀ p ∈ ps, p.layoutDepth ≤ depth then some (layChoices ps next others states)
      else none := by
  induction ps generalizing others states with
  | nil => rw [Layout.layChoicesBy, layChoices, if_pos (List.forall_mem_nil _)]
  | cons p earlier ih =>
    rw [Layout.layChoicesBy, layChoices, h p]
    by_cases hp : p.layoutDepth ≤ depth
    · simp [hp, ih]
    · simp [hp]

/-- The layout of a pattern goes exactly as deep as the pattern. -/
theorem keepsTo_layWithin (depth : Nat) : KeepsTo depth (layWithin depth) := by
  -- The induction is on the bound and not on the pattern: the operands of a spine are laid out
  -- with one level less, and how deep they are is read off the whole spine at once.
  induction depth with
  | zero =>
    intro p next states
    have := p.layoutDepth_pos
    rw [layWithin, if_neg (by omega)]
  | succ depth ih =>
    intro p next states
    cases p with
    | char c => simp [layWithin, lay, Pattern.layoutDepth]
    | concat p q =>
      simp only [layWithin, lay, Pattern.layoutDepth_concat_le_iff, ih _]
      by_cases last : (Pattern.concatSpine q [p]).1.layoutDepth ≤ depth
      · simp [last, ih.laySequenceBy]
      · simp [last]
    | alt p q =>
      simp only [layWithin, lay, Pattern.layoutDepth_alt_le_iff, ih _]
      by_cases last : (Pattern.altSpine q [p]).1.layoutDepth ≤ depth
      · simp [last, ih.layChoicesBy]
      · simp [last]
    | star p | plus p =>
      simp only [layWithin, lay, Pattern.layoutDepth, ih _]
      by_cases body : p.layoutDepth ≤ depth
      · have whole : 1 + p.layoutDepth ≤ depth + 1 := by omega
        simp [body, whole]
      · have whole : ¬ 1 + p.layoutDepth ≤ depth + 1 := by omega
        simp [body, whole]

end Layout

namespace Pattern

variable {d n maxDepth : Nat} {text : List Char} {items : List Pattern} {item : Option Pattern}
  {p p' q : Pattern}

/-! ## The pattern of a text -/

/-- An item among at most `d` groups inside of each other. Only a repetition may take the level
that a quantifier adds, and it takes that only once. -/
structure ItemWithin (d : Nat) (p : Pattern) : Prop where
  depth_le : p.layoutDepth ≤ 3 * d + 2
  unrepeated_le : p.isRepetition = false → p.layoutDepth ≤ 3 * d + 1

namespace ItemWithin

theorem of_le (h : p.layoutDepth ≤ 3 * d + 1) : p.ItemWithin d where
  depth_le := Nat.le_succ_of_le h
  unrepeated_le _ := h

theorem makes {q : Quantifier} (h : p.ItemWithin d) (makes : q.Makes p p') :
    p'.ItemWithin d := by
  cases makes with
  | star hrep | plus hrep =>
    have := h.unrepeated_le hrep
    refine ⟨?_, fun unrepeated => by cases unrepeated⟩
    rw [layoutDepth]
    omega
  | starStar | starPlus | plusStar | plusPlus =>
    exact ⟨h.depth_le, fun unrepeated => by cases unrepeated⟩

end ItemWithin

/-- The items of a sequence are on one spine. -/
theorem concatDepth_of_concatInOrder? (within : ∀ x ∈ items, x.layoutDepth ≤ n)
    (h : concatInOrder? items = some p) : p.concatDepth ≤ n := by
  induction items generalizing p with
  | nil => cases h
  | cons x rest ih =>
    obtain ⟨hx, hrest⟩ := List.forall_mem_cons.mp within
    rw [concatInOrder?] at h
    split at h
    · obtain rfl := Option.some.inj h
      exact Nat.le_trans (concatDepth_le_layoutDepth x) hx
    · next q some_q =>
      obtain rfl := Option.some.inj h
      rw [concatDepth]
      exact Nat.max_le.mpr ⟨hx, ih hrest some_q⟩

theorem layoutDepth_of_concatInOrder? (within : ∀ x ∈ items, x.ItemWithin d)
    (h : concatInOrder? items = some p) : p.layoutDepth ≤ 3 * d + 3 := by
  have spine := concatDepth_of_concatInOrder? (fun x hx => (within x hx).depth_le) h
  have := layoutDepth_le_concatDepth p
  omega

mutual

/-- Each group around an item of a sequence makes it three levels deeper. -/
theorem itemWithin_of_isSequence :
    ∀ {d : Nat} {text : List Char} {items : List Pattern}, IsSequence d text items →
      ∀ x ∈ items, x.ItemWithin d
  | _, _, _, .nil => fun _ h => absurd h List.not_mem_nil
  | d, _, _, @IsSequence.char _ _ _ c isSequence _ => by
    have char : (char c).ItemWithin d := .of_le (by rw [layoutDepth]; omega)
    exact List.forall_mem_append.mpr
      ⟨itemWithin_of_isSequence isSequence, List.forall_mem_singleton.mpr char⟩
  | d + 1, _, _, .group isSequence isAlternation => by
    refine List.forall_mem_append.mpr ⟨itemWithin_of_isSequence isSequence, fun p hp => ?_⟩
    have spine := altDepth_of_isAlternation isAlternation p (Option.mem_toList.mp hp)
    have := layoutDepth_le_altDepth p
    exact .of_le (by omega)
  | _, _, _, .repeated isSequence makes => by
    obtain ⟨before, latest⟩ := List.forall_mem_append.mp (itemWithin_of_isSequence isSequence)
    have repeated := (List.forall_mem_singleton.mp latest).makes makes
    exact List.forall_mem_append.mpr ⟨before, List.forall_mem_singleton.mpr repeated⟩

/-- The alternatives of an alternation are on one spine. -/
theorem altDepth_of_isAlternation :
    ∀ {d : Nat} {text : List Char} {item : Option Pattern}, IsAlternation d text item →
      ∀ p, item = some p → p.altDepth ≤ 3 * d + 3
  | _, _, _, .single isSequence, p, hp =>
    Nat.le_trans (altDepth_le_layoutDepth p)
      (layoutDepth_of_concatInOrder? (itemWithin_of_isSequence isSequence) hp)
  | _, _, _, .choice isSequence some_p isAlternation, _, rfl => by
    have first := layoutDepth_of_concatInOrder? (itemWithin_of_isSequence isSequence) some_p
    rw [altDepth]
    exact Nat.max_le.mpr ⟨first, altDepth_of_isAlternation isAlternation _ rfl⟩

end

theorem layoutDepth_le_of_parse (h : parse maxDepth text = .ok p) :
    p.layoutDepth ≤ 3 * (maxDepth + 1) + 1 := by
  have spine := altDepth_of_isAlternation ((parse_eq_answer_iff (some p)).mp h) p rfl
  have := layoutDepth_le_altDepth p
  omega

/-- Arbitrary text before and after a pattern makes a spine of three operands. -/
theorem layoutDepth_anywhere_le (p : Pattern) :
    p.anywhere.layoutDepth ≤ 1 + max 2 p.layoutDepth := by
  simp only [anywhere, anyText, layoutDepth, concatDepth]
  omega

theorem layoutDepth_le_of_compile_anywhere (h : compile .anywhere maxDepth text = .ok p) :
    p.layoutDepth ≤ 3 * (maxDepth + 1) + 2 := by
  rcases compile_anywhere_cases h with ⟨q, parsed, rfl⟩ | ⟨-, rfl⟩
  · have := layoutDepth_anywhere_le q
    have := layoutDepth_le_of_parse parsed
    omega
  · simp only [anyText, layoutDepth]
    omega

/-! ## A text for each limit that needs the whole depth -/

/-- A choice, in it a sequence, in that a repetition, and so on in each group. -/
def deepText : Nat → List Char
  | 0 => "a|ba*".toList
  | d + 1 => "a|b".toList ++ grouped (deepText d) ++ ['*']

def deepPattern : Nat → Pattern
  | 0 => alt (char 'a') (concat (char 'b') (star (char 'a')))
  | d + 1 => alt (char 'a') (concat (char 'b') (star (deepPattern d)))

theorem isAlternation_deepText (d : Nat) : IsAlternation d (deepText d) (some (deepPattern d)) := by
  have left {d : Nat} : IsSequence d ['a'] [char 'a'] := .char .nil rfl
  have choice {d : Nat} {rest : List Char} {p : Pattern}
      (h : IsSequence d rest [char 'b', p]) :
      IsAlternation d ('a' :: '|' :: rest) (some (alt (char 'a') (concat (char 'b') p))) :=
    .choice left rfl (.single h)
  have first {d : Nat} : IsSequence d ['b'] [char 'b'] := .char .nil rfl
  induction d with
  | zero => exact choice (.repeated (.char first rfl) (.star rfl))
  | succ d ih =>
    have unrepeated : (deepPattern d).isRepetition = false := by cases d <;> rfl
    exact choice (.repeated (.group first ih) (.star unrepeated))

theorem layoutDepth_deepPattern (d : Nat) : (deepPattern d).layoutDepth = 3 * (d + 1) + 1 := by
  induction d with
  | zero => rfl
  | succ d ih =>
    simp only [deepPattern, layoutDepth, altDepth, concatDepth, ih]
    omega

/-- The limit bounds how deep layouts go, whatever the length of the text. The depth of a pattern
is the least number of layouts inside of each other that its layout can be made with. For a text
that is read under a limit it is at most three for each group that may be open and four more, and
one more where the pattern is to be found anywhere. For each limit there is a text that needs all
of that. -/
theorem layoutDepth_bounded :
    (∀ depth p next states, Layout.layWithin depth p next states =
      if p.layoutDepth ≤ depth then some (Layout.lay p next states) else none) ∧
    (∀ maxDepth text p, parse maxDepth text = .ok p →
      p.layoutDepth ≤ 3 * (maxDepth + 1) + 1) ∧
    (∀ maxDepth text p, compile .anywhere maxDepth text = .ok p →
      p.layoutDepth ≤ 3 * (maxDepth + 1) + 2) ∧
    ∀ maxDepth, ∃ text p, parse maxDepth text = .ok p ∧
      p.layoutDepth = 3 * (maxDepth + 1) + 1 :=
  ⟨Layout.keepsTo_layWithin, fun _ _ _ => layoutDepth_le_of_parse,
    fun _ _ _ => layoutDepth_le_of_compile_anywhere, fun maxDepth =>
      ⟨deepText maxDepth, deepPattern maxDepth,
        (parse_eq_answer_iff (some _)).mpr (isAlternation_deepText maxDepth),
        layoutDepth_deepPattern maxDepth⟩⟩

/-- A choice in a repeated group is laid out in seven layouts inside of each other, and not in
six. -/
theorem layoutDepth_bounded_repeated_choice :
    let p := alt (char 'a') (concat (char 'b') (star (alt (char 'c') (concat (char 'd')
      (plus (char 'e'))))))
    parse 1 "a|b(c|de++)*+".toList = .ok p ∧ p.layoutDepth ≤ 7 ∧
      p.anywhere.layoutDepth ≤ 8 ∧
        Layout.layWithin 7 p 0 #[.accept] = some (Layout.lay p 0 #[.accept]) ∧
          Layout.layWithin 6 p 0 #[.accept] = none := by
  intro p
  obtain ⟨within, bounded, anywhereBounded, -⟩ := layoutDepth_bounded
  have parsed : parse 1 "a|b(c|de++)*+".toList = .ok p := rfl
  have le := bounded 1 _ p parsed
  refine ⟨parsed, le, anywhereBounded 1 "a|b(c|de++)*+".toList _ rfl, ?_, ?_⟩
  · rw [within, if_pos le]
  · rw [within, if_neg (by decide)]

end Pattern
end PatternAutomaton
