import PatternAutomaton.Matcher
import PatternAutomaton.Proofs.Frontier
import PatternAutomaton.Proofs.LayoutFragment

/-!
# Matching

The automaton of a pattern accepts exactly the lines of the pattern's language. For a matcher
this means that matching anywhere in a line is matching some part of it as a whole.
-/
namespace PatternAutomaton
open scoped Computability

namespace Pattern

/-- Every line is arbitrary text: it is the sequence of its characters. -/
theorem mem_language_anyText (line : List Char) : line ∈ anyText.language := by
  have each : ∀ w ∈ line.map ([·]), w ∈ (char wildcard).language := by
    intro w hw
    obtain ⟨c, -, rfl⟩ := List.mem_map.mp hw
    exact mem_charLanguage_iff.mpr ⟨c, by simp [Symbol.ofChar, Symbol.accepts], rfl⟩
  have whole := Language.join_mem_kstar each
  rwa [← List.flatMap_def, List.flatMap_singleton'] at whole

theorem mem_language_anywhere_iff {p : Pattern} {line : List Char} :
    line ∈ p.anywhere.language ↔ ∃ u s v, line = u ++ s ++ v ∧ s ∈ p.language := by
  simp only [anywhere, language, Language.mem_mul]
  constructor
  · rintro ⟨u, -, _, ⟨s, hs, v, -, rfl⟩, rfl⟩
    exact ⟨u, s, v, (List.append_assoc ..).symm, hs⟩
  · rintro ⟨u, s, v, rfl, hs⟩
    exact ⟨u, mem_language_anyText u, s ++ v, ⟨s, hs, v, mem_language_anyText v, rfl⟩,
      (List.append_assoc ..).symm⟩

end Pattern

namespace Automaton

/-- A path that accepts in the automaton of a pattern ends in the state made for that. -/
theorem eq_acceptId_of_accept {p : Pattern} {t : StateId}
    (h : (ofPattern p).state? t = some .accept) : t = acceptId := by
  rcases ofPattern_state?_cases h with ⟨rfl, -⟩ | ⟨-, ne, -⟩
  · rfl
  · exact absurd rfl ne

/-- The accepting paths of a pattern's automaton take the lines of the pattern. -/
theorem hasAcceptingPath_ofPattern_iff {p : Pattern} {line : List Char} :
    (ofPattern p).HasAcceptingPath line ↔ line ∈ p.language := by
  have f := ofPattern_fragment p
  have accept := ofPattern_state?_acceptId p
  constructor
  · rintro ⟨t, path, h⟩
    obtain rfl := eq_acceptId_of_accept h
    obtain ⟨u, hu, v, rfl, after⟩ := f.exists_append (path_iff_pathIn.mp path) f.next_not_mem
    cases after with
    | nil => simpa using hu
    | step _ step => rcases step.kind with ⟨_, _, kind⟩ | ⟨_, _, kind⟩ <;> simp_all
  · intro hw
    exact ⟨acceptId, path_iff_pathIn.mpr (f.pathIn_of_mem (Set.subset_univ _) hw), accept⟩

/-- The automaton of a pattern accepts a line exactly if the pattern describes it. -/
theorem accepts_ofPattern_iff (p : Pattern) (line : List Char) :
    (ofPattern p).accepts line = true ↔ line ∈ p.language :=
  (accepts_iff_hasAcceptingPath (ofPattern p) line).trans hasAcceptingPath_ofPattern_iff

end Automaton

namespace Matcher

theorem isMatch_ofPattern_iff (p : Pattern) (line : String) :
    isMatch ⟨.ofPattern p⟩ line = true ↔ line.toList ∈ p.language :=
  (Automaton.accepts_iff_hasAcceptingPath _ line.toList).trans
    Automaton.hasAcceptingPath_ofPattern_iff

theorem exists_pattern_of_compile {scope : Scope} {maxDepth : Nat} {text : String} {m : Matcher}
    (h : compile scope maxDepth text = .ok m) :
    ∃ p, Pattern.compile scope maxDepth text.toList = .ok p ∧ m = ⟨.ofPattern p⟩ := by
  rw [compile] at h
  split at h
  · next p hp => exact ⟨p, hp, (Except.ok.inj h).symm⟩
  · cases h

/-- Matching anywhere is matching some part of the line as a whole. A text without any
character to match is found in every line, and every other fault is the same for both. -/
theorem compile_anywhere (maxDepth : Nat) (text : String) :
    (∀ whole, compile .wholeLine maxDepth text = .ok whole →
      ∃ m, compile .anywhere maxDepth text = .ok m ∧ ∀ line : String,
        m.isMatch line = true ↔
          ∃ u s v : String, line = u ++ s ++ v ∧ whole.isMatch s = true) ∧
    (compile .wholeLine maxDepth text = .error .empty →
      ∃ m, compile .anywhere maxDepth text = .ok m ∧ ∀ line, m.isMatch line = true) ∧
    ∀ e, e ≠ .empty → compile .wholeLine maxDepth text = .error e →
      compile .anywhere maxDepth text = .error e := by
  simp only [compile, Pattern.compile]
  cases h : Pattern.parse maxDepth text.toList with
  | ok p =>
    refine ⟨?_, by simp, by simp⟩
    intro whole hwhole
    obtain rfl := Except.ok.inj hwhole
    refine ⟨_, rfl, fun line => ?_⟩
    simp only [isMatch_ofPattern_iff, Pattern.mem_language_anywhere_iff]
    constructor
    · rintro ⟨u, s, v, hline, hs⟩
      refine ⟨.ofList u, .ofList s, .ofList v, ?_, by simpa using hs⟩
      rw [← String.toList_inj]
      simpa using hline
    · rintro ⟨u, s, v, rfl, hs⟩
      exact ⟨u.toList, s.toList, v.toList, by simp, hs⟩
  | error e =>
    refine ⟨by simp, ?_, ?_⟩
    · intro he
      obtain rfl := Except.error.inj he
      exact ⟨_, rfl, fun line =>
        (isMatch_ofPattern_iff _ line).mpr (Pattern.mem_language_anyText _)⟩
    · intro e' ne he
      obtain rfl := Except.error.inj he
      cases e with
      | empty => exact absurd rfl ne
      | unopenedGroup | nothingBefore | nothingAfter | unclosedGroup | tooDeep => rfl

/-- A choice that is found in one line and not in another, an empty group and a fault. -/
theorem compile_anywhere_choice :
    let whole : Matcher := ⟨.ofPattern (.alt (.char 'b') (.concat (.char 'c') (.char 'd')))⟩
    compile .wholeLine 1 "b|cd" = .ok whole ∧
      (∃ m, compile .anywhere 1 "b|cd" = .ok m ∧ m.isMatch "xcdx" = true ∧
        m.isMatch "xc" = false) ∧
      (¬ ∃ u s v : String, "xc" = u ++ s ++ v ∧ whole.isMatch s = true) ∧
      (∃ m, compile .anywhere 1 "()" = .ok m ∧ m.isMatch "x" = true) ∧
        compile .anywhere 1 "a)" = .error (.unopenedGroup 1) := by
  intro whole
  have madeWhole : compile .wholeLine 1 "b|cd" = .ok whole := by decide +kernel
  obtain ⟨m, made, found⟩ := (compile_anywhere 1 "b|cd").1 whole madeWhole
  obtain ⟨any, madeAny, all⟩ := (compile_anywhere 1 "()").2.1 (by decide +kernel)
  have fault := (compile_anywhere 1 "a)").2.2 (.unopenedGroup 1) (by decide) (by decide +kernel)
  have inside : m.isMatch "xcdx" = true :=
    (found "xcdx").mpr ⟨"x", "cd", "x", by decide, by decide +kernel⟩
  have missing : m.isMatch "xc" = false := by
    have compiled : compile .anywhere 1 "b|cd" =
        .ok ⟨.ofPattern (.anywhere (.alt (.char 'b') (.concat (.char 'c') (.char 'd'))))⟩ := by
      decide +kernel
    obtain rfl := Except.ok.inj (made.symm.trans compiled)
    decide +kernel
  refine ⟨madeWhole, ⟨m, made, inside, missing⟩, fun part => ?_, ⟨any, madeAny, all "x"⟩, fault⟩
  rw [(found "xc").mpr part] at missing
  cases missing

end Matcher
end PatternAutomaton
