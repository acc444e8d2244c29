import PatternAutomaton.Proofs.Matching
import PatternAutomaton.Proofs.Replacing

/-!
# Merging repetitions

Merging a repetition of a repetition while reading gives the tree that merging afterwards gives,
and the merged tree describes the same lines. A run of quantifiers does what one quantifier does:
the item in front of it counts for nothing but whether it is there, and whether the quantifiers
stand together or are spread over groups around the item makes no difference.
-/
namespace PatternAutomaton
open scoped Computability
open Pattern

namespace Quantifier

theorem collapse_wrap (q : Quantifier) (p : Pattern) :
    (q.wrap p).collapse = q.merge p.collapse := by
  cases q <;> rfl

/-- One node in place of two repetitions describes the lines that the two describe. -/
theorem language_merge (q : Quantifier) (p : Pattern) :
    (q.merge p).language = (q.wrap p).language := by
  have once (L : Language Char) : L ≤ L * L∗ := by
    calc L = L * 1 := (mul_one L).symm
      _ ≤ L * L∗ := mul_le_mul_right one_le_kstar L
  have again (L : Language Char) : (L * L∗)∗ = L∗ := by
    apply le_antisymm
    · calc (L * L∗)∗ ≤ L∗∗ := kstar_mono mul_kstar_le_kstar
        _ = L∗ := kstar_idem L
    · exact kstar_mono (once L)
  cases q with
  | star =>
    cases p with
    | star p => exact (kstar_idem p.language).symm
    | plus p => exact (again p.language).symm
    | char | concat | alt => rfl
  | plus =>
    cases p with
    | star p =>
      show p.language∗ = p.language∗ * p.language∗∗
      rw [kstar_idem, kstar_mul_kstar]
    | plus p =>
      show p.language * p.language∗ = p.language * p.language∗ * (p.language * p.language∗)∗
      rw [again, mul_assoc, kstar_mul_kstar]
    | char | concat | alt => rfl

/-- What a run of quantifiers does: any number of times if some `*` is among them. -/
def ofRun (qs : List Quantifier) : Quantifier := if star ∈ qs then star else plus

theorem merge_ofRun (qs : List Quantifier) (q : Quantifier) (p : Pattern) :
    q.merge ((ofRun qs).merge p) = (ofRun (qs ++ [q])).merge p := by
  cases q with
  | star =>
    have any : ofRun (qs ++ [star]) = star := if_pos (by simp)
    rw [any]
    cases ofRun qs <;> cases p <;> rfl
  | plus =>
    have same : ofRun (qs ++ [plus]) = ofRun qs := by simp [ofRun]
    rw [same]
    cases ofRun qs <;> cases p <;> rfl

theorem ofRun_singleton (q : Quantifier) : ofRun [q] = q := by
  cases q <;> rfl

end Quantifier

namespace Pattern

theorem language_collapse (p : Pattern) : p.collapse.language = p.language := by
  induction p with
  | char c => rfl
  | concat p q ihp ihq => simp only [collapse, language, ihp, ihq]
  | alt p q ihp ihq => simp only [collapse, language, ihp, ihq]
  | star p ih => rw [collapse, Quantifier.language_merge, Quantifier.wrap, language, ih, language]
  | plus p ih => rw [collapse, Quantifier.language_merge, Quantifier.wrap, language, ih, language]

end Pattern

/-- A reader that merges holds the merged trees of one that does not. -/
def Mirror.collapsing : Mirror Quantifier.wrap Quantifier.merge where
  tree := collapse
  ahead := 0
  spare := 0
  around := []
  tree_char _ := rfl
  tree_concat _ _ := rfl
  tree_alt _ _ := rfl
  tree_repetition := Quantifier.collapse_wrap

namespace Pattern

/-- Merging while reading is merging afterwards. -/
theorem parse_eq_carry_parsePlain (maxDepth : Nat) (text : List Char) :
    parse maxDepth text = carry collapse 0 (parsePlain maxDepth text) := by
  have mirrored := Mirror.collapsing.run_eq_carry (i := 0) (r := Reader.start maxDepth) text
    fun e _ => Mirror.collapsing.not_excuses rfl rfl e
  have whole : (Reader.start maxDepth).run Quantifier.merge 0 text = _ := mirrored
  rw [parsePlain]
  cases h : (Reader.start maxDepth).run Quantifier.wrap 0 text with
  | error e =>
    rw [h] at whole
    rw [parse, parseWith_of_error whole, parseWith_of_error h]
    rfl
  | ok r =>
    rw [h] at whole
    rw [parse, parseWith_of_ok whole, parseWith_of_ok h]
    exact Mirror.collapsing.finish_reader rfl

/-- A text and a run of quantifiers behind it, where parentheses may be put around what there is
of both at any point of the run. -/
inductive Repeats (base : List Char) : List Quantifier → List Char → Prop
  | first (q : Quantifier) : Repeats base [q] (base ++ [q.mark])
  | again {qs : List Quantifier} {text : List Char} (q : Quantifier) :
      Repeats base qs text → Repeats base (qs ++ [q]) (text ++ [q.mark])
  | group {qs : List Quantifier} {text : List Char} :
      Repeats base qs text → Repeats base qs (grouped text)

variable {d n : Nat} {base text u v : List Char} {qs : List Quantifier} {p x : Pattern}

/-- A run of quantifiers on one item makes one item. -/
theorem Repeats.isSequence (h : Repeats base qs text) (single : IsSequence n base [x]) :
    ∃ m, IsSequence m text [(Quantifier.ofRun qs).merge x] := by
  induction h with
  | first q =>
    rw [Quantifier.ofRun_singleton]
    exact ⟨n, single.quantified q⟩
  | again q _ ih =>
    obtain ⟨m, isSequence⟩ := ih
    rw [← Quantifier.merge_ofRun]
    exact ⟨m, isSequence.quantified q⟩
  | group _ ih =>
    obtain ⟨m, isSequence⟩ := ih
    exact ⟨m + 1, .group .nil (.single isSequence)⟩

theorem Repeats.parenDepth_le (h : Repeats base qs text) (single : IsSequence n base [x]) :
    parenDepth base ≤ parenDepth text := by
  have balanced := (balanced_of_isSequence single).1
  induction h with
  | first q => rw [balanced.parenDepth_append_mark]
  | again q run ih =>
    obtain ⟨m, isSequence⟩ := run.isSequence single
    rwa [(balanced_of_isSequence isSequence).1.parenDepth_append_mark]
  | group run ih =>
    obtain ⟨m, isSequence⟩ := run.isSequence single
    rw [(balanced_of_isSequence isSequence).1.parenDepth_grouped]
    omega

/-- A run of quantifiers spread over groups around an item does what one quantifier behind the
item does, as far as the limit goes. -/
theorem parse_repeats_iff (h : Repeats base qs text) (single : IsSequence n base [x]) :
    parse d (u ++ text ++ v) = .ok p ↔
      parse d (u ++ (base ++ [(Quantifier.ofRun qs).mark]) ++ v) = .ok p ∧
        parenDepth (u ++ text ++ v) ≤ d := by
  have once := single.quantified (Quantifier.ofRun qs)
  obtain ⟨m, run⟩ := h.isSequence single
  constructor
  · intro hp
    have limit := parenDepth_le_of_parse hp
    have le : parenDepth (base ++ [(Quantifier.ofRun qs).mark]) ≤ parenDepth text := by
      rw [(balanced_of_isSequence single).1.parenDepth_append_mark]
      exact h.parenDepth_le single
    have shallower := parenDepthFrom_replace_le (u := u) (v := v)
      (balanced_of_isSequence once).1 (balanced_of_isSequence run).1 le 0
    exact ⟨parse_of_replace_isSequence run once hp (Nat.le_trans shallower limit), limit⟩
  · rintro ⟨hp, limit⟩
    exact parse_of_replace_isSequence once run hp limit

theorem run_mark (q : Quantifier) (i : Nat) (r : Reader) :
    r.run Quantifier.merge i [q.mark] =
      match r.current.items with
      | [] => .error (.nothingBefore i)
      | latest :: earlier =>
        .ok { r with current := ⟨r.current.alternatives, q.merge latest :: earlier⟩ } := by
  rw [Reader.run, Reader.step_mark, Reader.onCurrent, Context.quantify]
  cases r.current.items <;> rfl

/-- A run of quantifiers is read to what one quantifier is read to. -/
theorem run_marks (hqs : qs ≠ []) (r : Reader) :
    r.run Quantifier.merge 0 (qs.map Quantifier.mark) =
      r.run Quantifier.merge 0 [(Quantifier.ofRun qs).mark] := by
  induction qs using List.reverseRecOn with
  | nil => exact absurd rfl hqs
  | append_singleton qs q ih =>
    by_cases h : qs = []
    · subst h
      rw [List.nil_append, Quantifier.ofRun_singleton]
      rfl
    · rw [List.map_append, Reader.run_append, ih h, run_mark, run_mark]
      cases r.current.items with
      | nil => rfl
      | cons latest earlier =>
        simp only [List.map_cons, List.map_nil, run_mark, Quantifier.merge_ofRun]

theorem parse_marks_iff (hqs : qs ≠ []) :
    parse d (u ++ qs.map Quantifier.mark ++ v) = .ok p ↔
      parse d (u ++ [(Quantifier.ofRun qs).mark] ++ v) = .ok p := by
  constructor
  · exact parse_of_replace (n := 0) fun r r' _ read => by rwa [← run_marks hqs]
  · exact parse_of_replace (n := 0) fun r r' _ read => by rwa [run_marks hqs]

/-- Merging repetitions while reading changes the tree and nothing else. It gives the merged tree
of the plain reader, or the same fault, and the automaton of a merged tree accepts the same
lines. So a run of quantifiers makes the tree that one quantifier makes, a `*` if there is one in
the run and else a `+`, also where the run is spread over groups around the item. -/
theorem parse_eq_collapse_parsePlain (maxDepth : Nat) (text : List Char) :
    (match parsePlain maxDepth text with
      | .ok p => parse maxDepth text = .ok p.collapse
      | .error e => parse maxDepth text = .error e) ∧
    (∀ p line, (Automaton.ofPattern p.collapse).accepts line =
      (Automaton.ofPattern p).accepts line) ∧
    (∀ u v qs p, qs ≠ [] →
      (parse maxDepth (u ++ qs.map Quantifier.mark ++ v) = .ok p ↔
        parse maxDepth (u ++ [(Quantifier.ofRun qs).mark] ++ v) = .ok p)) ∧
    ∀ n base x qs run u v p, IsSequence n base [x] → Repeats base qs run →
      (parse maxDepth (u ++ run ++ v) = .ok p ↔
        parse maxDepth (u ++ (base ++ [(Quantifier.ofRun qs).mark]) ++ v) = .ok p ∧
          parenDepth (u ++ run ++ v) ≤ maxDepth) := by
  refine ⟨?_, ?_, ?_, ?_⟩
  · have merged := parse_eq_carry_parsePlain maxDepth text
    cases h : parsePlain maxDepth text with
    | ok p => rw [merged, h]; rfl
    | error e => rw [merged, h, carry, PatternError.shift_zero]
  · intro p line
    rw [Bool.eq_iff_iff, Automaton.accepts_iff_hasAcceptingPath,
      Automaton.accepts_iff_hasAcceptingPath, Automaton.hasAcceptingPath_ofPattern_iff,
      Automaton.hasAcceptingPath_ofPattern_iff, language_collapse]
  · exact fun u v qs p hqs => parse_marks_iff hqs
  · exact fun n base x qs run u v p single repeats => parse_repeats_iff repeats single

/-- Three quantifiers around one item, spread over groups, and three behind another. -/
theorem parse_eq_collapse_parsePlain_spread :
    let text := "((a+)+)*b+*+".toList
    let plain := concat (star (plus (plus (char 'a')))) (plus (star (plus (char 'b'))))
    let merged := concat (star (char 'a')) (star (char 'b'))
    parsePlain 2 text = .ok plain ∧ parse 2 text = .ok merged ∧
      parse 2 "a*b+*+".toList = .ok merged ∧ parse 2 "a*b*".toList = .ok merged ∧
        (Automaton.ofPattern plain).accepts "abb".toList = true ∧
          (Automaton.ofPattern plain).accepts "aba".toList = false := by
  intro text plain merged
  have spread : Repeats ['a'] [.plus, .plus, .star] "((a+)+)*".toList :=
    .again .star (.group (.again .plus (.group (.first .plus))))
  have plainly : parsePlain 2 text = .ok plain := rfl
  obtain ⟨collapsed, alike, together, apart⟩ := parse_eq_collapse_parsePlain 2 text
  simp only [plainly] at collapsed
  obtain ⟨once, -⟩ :=
    (apart 0 ['a'] (char 'a') _ _ [] "b+*+".toList _ (.char .nil rfl) spread).mp collapsed
  have twice : parse 2 "a*b*".toList = .ok merged :=
    (together "a*b".toList [] [.plus, .star, .plus] _ (List.cons_ne_nil _ _)).mp once
  have yes := alike plain "abb".toList
  have no := alike plain "aba".toList
  exact ⟨plainly, collapsed, once, twice, yes.symm.trans (by decide +kernel),
    no.symm.trans (by decide +kernel)⟩

end Pattern
end PatternAutomaton
