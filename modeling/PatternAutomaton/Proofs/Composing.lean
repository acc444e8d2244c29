import PatternAutomaton.Proofs.Collapsing
import PatternAutomaton.Proofs.Limit
import PatternAutomaton.Proofs.Printing

/-!
# Composing texts

Texts of patterns can be put together without regard to what is in them. A bar binds weaker than
everything in the texts on both sides, and a text in parentheses is one item for what stands
behind it. So the lines of a text put together are found from the lines of its parts alone, and a
text without reserved characters describes lines of its own length.
-/
namespace PatternAutomaton
open scoped Computability

namespace Pattern

variable {d : Nat} {u v text word chars : List Char} {items : List Pattern} {p q : Pattern}
  {c x : Char}

/-! ## Derivations of texts put together -/

/-- Two texts with a bar between them describe what one of them describes. The alternatives of
the first text come one by one in front of the second text. -/
theorem IsAlternation.bar :
    ∀ {d : Nat} {u v : List Char} {item : Option Pattern} {p q : Pattern},
      IsAlternation d u item → item = some p → IsAlternation d v (some q) →
      ∃ r, IsAlternation d (u ++ '|' :: v) (some r) ∧ r.language = p.language + q.language
  | _, _, _, _, p, q, .single isSequence, some_p, right =>
    ⟨.alt p q, .choice isSequence some_p right, rfl⟩
  | _, _, _, _, _, _, .choice isSequence some_first left, rfl, right => by
    obtain ⟨r, isAlternation, sum⟩ := left.bar rfl right
    have whole := IsAlternation.choice isSequence some_first isAlternation
    refine ⟨.alt _ r, by simpa using whole, ?_⟩
    rw [language, sum, language, add_assoc]

/-- A text in parentheses is one item. -/
theorem IsAlternation.isSequence_grouped (h : IsAlternation d text (some p)) :
    IsSequence (d + 1) (grouped text) [p] := .group .nil h

theorem IsAlternation.concat (hu : IsAlternation d u (some p)) (hv : IsAlternation d v (some q)) :
    IsAlternation (d + 1) (grouped u ++ grouped v) (some (.concat p q)) :=
  .single (hu.isSequence_grouped.append hv.isSequence_grouped)

/-- A repeated group describes the repetition, also if the group holds a repetition already. -/
theorem IsAlternation.repeated (h : IsAlternation d text (some p)) (q : Quantifier) :
    ∃ r, IsAlternation (d + 1) (grouped text ++ [q.mark]) (some r) ∧
      r.language = (q.wrap p).language :=
  ⟨q.merge p, .single (h.isSequence_grouped.quantified q), q.language_merge p⟩

/-! ## Words -/

theorem isSequence_word (h : ∀ c ∈ word, isReserved c = false) :
    IsSequence d word (word.map char) := by
  induction word with
  | nil => exact .nil
  | cons c word ih =>
    rw [List.forall_mem_cons] at h
    have first : IsSequence d [c] [char c] := .char .nil h.1
    exact first.append (ih h.2)

/-- Items in order describe the lines of the first one followed by lines of the next ones. -/
theorem language_of_concatInOrder? (h : concatInOrder? items = some p) :
    p.language = (items.map language).prod := by
  induction items generalizing p with
  | nil => cases h
  | cons first rest ih =>
    rw [List.map_cons, List.prod_cons]
    rw [concatInOrder?] at h
    split at h
    · next none_rest =>
      obtain rfl := concatInOrder?_eq_none_iff.mp none_rest
      obtain rfl := Option.some.inj h
      exact (mul_one _).symm
    · next q some_q =>
      obtain rfl := Option.some.inj h
      rw [language, ih some_q]

theorem accepts_ofChar_iff : (Symbol.ofChar c).accepts x = true ↔ c ≠ wildcard → x = c := by
  by_cases h : c = wildcard
  · simp [Symbol.ofChar, h, Symbol.accepts]
  · simp [Symbol.ofChar, h, Symbol.accepts, eq_comm (a := x)]

/-- The lines of a word have a character of their own only where the word has a wildcard. -/
theorem mem_word_iff :
    chars ∈ ((word.map char).map language).prod ↔
      List.Forall₂ (fun c x => c ≠ wildcard → x = c) word chars := by
  induction word generalizing chars with
  | nil => exact (Language.mem_one chars).trans List.forall₂_nil_left_iff.symm
  | cons c word ih =>
    simp only [List.map_cons, List.prod_cons, language, Language.mem_mul, mem_charLanguage_iff,
      accepts_ofChar_iff, ih, List.forall₂_cons_left_iff]
    constructor
    · rintro ⟨_, ⟨x, hx, rfl⟩, rest, hrest, rfl⟩
      exact ⟨x, rest, hx, hrest, rfl⟩
    · rintro ⟨x, rest, hx, hrest, rfl⟩
      exact ⟨[x], ⟨x, hx, rfl⟩, rest, hrest, rfl⟩

theorem mem_word_iff_getElem? :
    chars ∈ ((word.map char).map language).prod ↔
      chars.length = word.length ∧
        ∀ (i : Nat) c, word[i]? = some c → c ≠ wildcard → chars[i]? = some c := by
  rw [mem_word_iff, List.forall₂_iff_get]
  constructor
  · rintro ⟨length, agrees⟩
    refine ⟨length.symm, fun i c hc ne => ?_⟩
    obtain ⟨lt, rfl⟩ := List.getElem?_eq_some_iff.mp hc
    exact List.getElem?_eq_some_iff.mpr ⟨length ▸ lt, agrees i lt (length ▸ lt) ne⟩
  · rintro ⟨length, agrees⟩
    refine ⟨length.symm, fun i lt lt' ne => ?_⟩
    obtain ⟨_, same⟩ :=
      List.getElem?_eq_some_iff.mp (agrees i word[i] (List.getElem?_eq_getElem lt) ne)
    exact same

end Pattern

/-! ## Lines as strings -/

section

variable {K L : Language Char} {line : String}

theorem mem_mul_toList_iff :
    line.toList ∈ K * L ↔ ∃ x y : String, line = x ++ y ∧ x.toList ∈ K ∧ y.toList ∈ L := by
  rw [Language.mem_mul]
  constructor
  · rintro ⟨x, hx, y, hy, same⟩
    refine ⟨.ofList x, .ofList y, ?_, by simpa using hx, by simpa using hy⟩
    rw [← String.toList_inj, String.toList_append, String.toList_ofList, String.toList_ofList, same]
  · rintro ⟨x, y, rfl, hx, hy⟩
    exact ⟨x.toList, hx, y.toList, hy, String.toList_append.symm⟩

theorem mem_kstar_toList_iff :
    line.toList ∈ L∗ ↔
      ∃ pieces : List String, line = String.join pieces ∧ ∀ x ∈ pieces, x.toList ∈ L := by
  rw [Language.mem_kstar]
  constructor
  · rintro ⟨pieces, same, each⟩
    refine ⟨pieces.map .ofList, ?_, ?_⟩
    · rw [← String.toList_inj, String.toList_join, same, List.flatMap_map]
      simp [List.flatMap_def]
    · rintro _ hx
      obtain ⟨w, hw, rfl⟩ := List.mem_map.mp hx
      exact String.toList_ofList.symm ▸ each w hw
  · rintro ⟨pieces, rfl, each⟩
    refine ⟨pieces.map String.toList, String.toList_join, ?_⟩
    rintro _ hw
    obtain ⟨x, hx, rfl⟩ := List.mem_map.mp hw
    exact each x hx

theorem mem_mul_kstar_toList_iff :
    line.toList ∈ L * L∗ ↔
      ∃ pieces : List String, pieces ≠ [] ∧ line = String.join pieces ∧
        ∀ x ∈ pieces, x.toList ∈ L := by
  simp only [mem_mul_toList_iff, mem_kstar_toList_iff]
  constructor
  · rintro ⟨x, _, rfl, hx, pieces, rfl, each⟩
    exact ⟨x :: pieces, List.cons_ne_nil x pieces, String.join_cons.symm,
      List.forall_mem_cons.mpr ⟨hx, each⟩⟩
  · rintro ⟨pieces, nonempty, rfl, each⟩
    obtain ⟨x, pieces, rfl⟩ := List.exists_cons_of_ne_nil nonempty
    obtain ⟨hx, each⟩ := List.forall_mem_cons.mp each
    exact ⟨x, String.join pieces, String.join_cons, hx, pieces, rfl, each⟩

end

namespace Matcher

open Pattern

variable {d : Nat} {p q text : String} {mp mq : Matcher} {P : Pattern}

theorem isAlternation_of_compile (h : compile .wholeLine d p = .ok mp) :
    ∃ P, IsAlternation d p.toList (some P) ∧ mp = ⟨.ofPattern P⟩ := by
  obtain ⟨P, parsed, eq⟩ := exists_pattern_of_compile h
  exact ⟨P, (parse_eq_answer_iff (some P)).mp parsed, eq⟩

theorem compile_of_isAlternation (h : IsAlternation d text.toList (some P)) :
    compile .wholeLine d text = .ok ⟨.ofPattern P⟩ := by
  have parsed : Pattern.compile .wholeLine d text.toList = .ok P :=
    (parse_eq_answer_iff (some P)).mpr h
  rw [compile, parsed]

/-- A matcher can be made of a text that is derived, and the derived pattern says what it
matches. -/
theorem exists_compile {Matches : String → Prop} (h : IsAlternation d text.toList (some P))
    (lines : ∀ line : String, line.toList ∈ P.language ↔ Matches line) :
    ∃ m, compile .wholeLine d text = .ok m ∧ ∀ line, m.isMatch line = true ↔ Matches line :=
  ⟨_, compile_of_isAlternation h, fun line => (isMatch_ofPattern_iff P line).trans (lines line)⟩

theorem compile_bar (hp : compile .wholeLine d p = .ok mp) (hq : compile .wholeLine d q = .ok mq) :
    ∃ m, compile .wholeLine d (p ++ "|" ++ q) = .ok m ∧ ∀ line,
      m.isMatch line = true ↔ mp.isMatch line = true ∨ mq.isMatch line = true := by
  obtain ⟨P, isP, rfl⟩ := isAlternation_of_compile hp
  obtain ⟨Q, isQ, rfl⟩ := isAlternation_of_compile hq
  obtain ⟨R, isR, sum⟩ := isP.bar rfl isQ
  refine exists_compile (by simpa using isR) fun line => ?_
  rw [sum, Language.mem_add, isMatch_ofPattern_iff, isMatch_ofPattern_iff]

theorem compile_concat (hp : compile .wholeLine d p = .ok mp)
    (hq : compile .wholeLine d q = .ok mq) :
    ∃ m, compile .wholeLine (d + 1) ("(" ++ p ++ ")(" ++ q ++ ")") = .ok m ∧ ∀ line,
      m.isMatch line = true ↔
        ∃ x y, line = x ++ y ∧ mp.isMatch x = true ∧ mq.isMatch y = true := by
  obtain ⟨P, isP, rfl⟩ := isAlternation_of_compile hp
  obtain ⟨Q, isQ, rfl⟩ := isAlternation_of_compile hq
  refine exists_compile (by simpa [grouped] using isP.concat isQ) fun line => ?_
  simp only [isMatch_ofPattern_iff]
  exact mem_mul_toList_iff

theorem compile_star (hp : compile .wholeLine d p = .ok mp) :
    ∃ m, compile .wholeLine (d + 1) ("(" ++ p ++ ")*") = .ok m ∧ ∀ line,
      m.isMatch line = true ↔
        ∃ pieces, line = String.join pieces ∧ ∀ x ∈ pieces, mp.isMatch x = true := by
  obtain ⟨P, isP, rfl⟩ := isAlternation_of_compile hp
  obtain ⟨R, isR, same⟩ := isP.repeated .star
  refine exists_compile (by simpa [grouped, Quantifier.mark] using isR) fun line => ?_
  simp only [isMatch_ofPattern_iff, same]
  exact mem_kstar_toList_iff

theorem compile_plus (hp : compile .wholeLine d p = .ok mp) :
    ∃ m, compile .wholeLine (d + 1) ("(" ++ p ++ ")+") = .ok m ∧ ∀ line,
      m.isMatch line = true ↔
        ∃ pieces, pieces ≠ [] ∧ line = String.join pieces ∧
          ∀ x ∈ pieces, mp.isMatch x = true := by
  obtain ⟨P, isP, rfl⟩ := isAlternation_of_compile hp
  obtain ⟨R, isR, same⟩ := isP.repeated .plus
  refine exists_compile (by simpa [grouped, Quantifier.mark] using isR) fun line => ?_
  simp only [isMatch_ofPattern_iff, same]
  exact mem_mul_kstar_toList_iff

theorem compile_word {word : String} (nonempty : word ≠ "")
    (plain : ∀ c ∈ word.toList, isReserved c = false) :
    ∃ m, compile .wholeLine d word = .ok m ∧ ∀ line : String,
      m.isMatch line = true ↔ line.toList.length = word.toList.length ∧
        ∀ (i : Nat) c, word.toList[i]? = some c → c ≠ '.' → line.toList[i]? = some c := by
  have items : concatInOrder? (word.toList.map char) ≠ none := by
    rw [ne_eq, concatInOrder?_eq_none_iff, List.map_eq_nil_iff, String.toList_eq_nil_iff]
    exact nonempty
  obtain ⟨W, some_W⟩ := Option.ne_none_iff_exists'.mp items
  have isW : IsAlternation d word.toList (some W) := some_W ▸ .single (isSequence_word plain)
  refine exists_compile isW fun line => ?_
  rw [language_of_concatInOrder? some_W]
  exact mem_word_iff_getElem?

/-- Texts that a matcher can be made of can be put together without regard to what is in them.
A bar between them, parentheses behind each other and a repetition of parentheses give matchers
again, whose lines are found from those of the parts. A word without reserved characters matches
the lines of its length that have its characters wherever it has no wildcard. -/
theorem compile_composed :
    (∀ maxDepth p q mp mq, compile .wholeLine maxDepth p = .ok mp →
      compile .wholeLine maxDepth q = .ok mq →
      compile .wholeLine (maxDepth + 1) p = .ok mp ∧
      compile .wholeLine (maxDepth + 1) q = .ok mq ∧
      (∃ m, compile .wholeLine maxDepth (p ++ "|" ++ q) = .ok m ∧ ∀ line,
        m.isMatch line = true ↔ mp.isMatch line = true ∨ mq.isMatch line = true) ∧
      (∃ m, compile .wholeLine (maxDepth + 1) ("(" ++ p ++ ")(" ++ q ++ ")") = .ok m ∧ ∀ line,
        m.isMatch line = true ↔
          ∃ x y, line = x ++ y ∧ mp.isMatch x = true ∧ mq.isMatch y = true) ∧
      (∃ m, compile .wholeLine (maxDepth + 1) ("(" ++ p ++ ")*") = .ok m ∧ ∀ line,
        m.isMatch line = true ↔
          ∃ pieces, line = String.join pieces ∧ ∀ x ∈ pieces, mp.isMatch x = true) ∧
      (∃ m, compile .wholeLine (maxDepth + 1) ("(" ++ p ++ ")+") = .ok m ∧ ∀ line,
        m.isMatch line = true ↔
          ∃ pieces, pieces ≠ [] ∧ line = String.join pieces ∧
            ∀ x ∈ pieces, mp.isMatch x = true)) ∧
    ∀ maxDepth (word : String), word ≠ "" → (∀ c ∈ word.toList, isReserved c = false) →
      ∃ m, compile .wholeLine maxDepth word = .ok m ∧ ∀ line : String,
        m.isMatch line = true ↔ line.toList.length = word.toList.length ∧
          ∀ (i : Nat) c, word.toList[i]? = some c → c ≠ '.' → line.toList[i]? = some c :=
  ⟨fun _ _ _ _ _ hp hq =>
    ⟨compile_mono hp (Nat.le_succ _), compile_mono hq (Nat.le_succ _), compile_bar hp hq,
      compile_concat hp hq, compile_star hp, compile_plus hp⟩,
    fun _ _ => compile_word⟩

/-- A choice that ends in a repetition, put together with itself, and a word with a wildcard. -/
theorem compile_composed_choice :
    let p := "a|b+"
    (∃ m, compile .wholeLine 0 (p ++ "|" ++ p) = .ok m ∧ m.isMatch "bb" = true) ∧
      (∃ m, compile .wholeLine 1 ("(" ++ p ++ ")(" ++ p ++ ")") = .ok m ∧
        m.isMatch "abb" = true) ∧
      (∃ m, compile .wholeLine 1 ("(" ++ p ++ ")*") = .ok m ∧ m.isMatch "" = true) ∧
      (∃ m, compile .wholeLine 1 ("(" ++ p ++ ")+") = .ok m ∧ m.isMatch "abba" = true) ∧
      ∃ m, compile .wholeLine 0 "a.c" = .ok m ∧ m.isMatch "abc" = true ∧
        m.isMatch "ac" = false := by
  intro p
  have compiled : compile .wholeLine 0 p =
      .ok ⟨.ofPattern (.alt (.char 'a') (.plus (.char 'b')))⟩ := by decide +kernel
  obtain ⟨texts, words⟩ := compile_composed
  obtain ⟨-, -, ⟨bar, hbar, bar_iff⟩, ⟨concat, hconcat, concat_iff⟩, ⟨star, hstar, star_iff⟩,
    plus, hplus, plus_iff⟩ := texts 0 p p _ _ compiled compiled
  obtain ⟨word, hword, word_iff⟩ := words 0 "a.c" (by decide) (by simp [isReserved])
  refine ⟨⟨bar, hbar, (bar_iff _).mpr (.inl (by decide +kernel))⟩,
    ⟨concat, hconcat, (concat_iff _).mpr ⟨"a", "bb", rfl, ?_⟩⟩,
    ⟨star, hstar, (star_iff _).mpr ⟨[], rfl, by simp⟩⟩,
    ⟨plus, hplus, (plus_iff _).mpr ⟨["a", "bb", "a"], by simp, rfl, ?_⟩⟩,
    word, hword, (word_iff _).mpr ⟨rfl, ?_⟩, ?_⟩
  · exact ⟨by decide +kernel, by decide +kernel⟩
  · decide +kernel
  · intro i c hc ne
    match i with
    | 0 | 2 => exact hc
    | 1 => exact absurd (Option.some.inj hc).symm ne
    | i + 3 => cases hc
  · rw [Bool.eq_false_iff]
    exact fun matched => absurd ((word_iff _).mp matched).1 (by decide)

end Matcher
end PatternAutomaton
