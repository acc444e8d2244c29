import PatternAutomaton.Proofs.Logging
import PatternAutomaton.Proofs.Matching

/-!
# Where no line goes on to match

Characters are viable for a pattern if some line that starts with them is described by it. The
automaton of a pattern has no dead state: from each of its states some characters lead on to
acceptance. So the frontier behind the characters read is empty exactly where they are not
viable, and a run reads on as long as there is hope and no longer. Arbitrary text in front of a
pattern and behind it makes everything viable.
-/
namespace PatternAutomaton

namespace Pattern

/-- Some line of the pattern starts with these characters. -/
def Viable (p : Pattern) (u : List Char) : Prop := ∃ w, u ++ w ∈ p.language

/-- Every pattern describes some line. -/
theorem exists_mem_language (p : Pattern) : ∃ w, w ∈ p.language := by
  have f := Automaton.ofPattern_fragment p
  obtain ⟨w, path⟩ := f.through
  exact ⟨w, f.pathIn_iff.mp path⟩

theorem viable_anyText (u : List Char) : anyText.Viable u := ⟨[], mem_language_anyText _⟩

theorem viable_anywhere (p : Pattern) (u : List Char) : p.anywhere.Viable u := by
  obtain ⟨s, hs⟩ := p.exists_mem_language
  exact ⟨s, mem_language_anywhere_iff.mpr ⟨u, s, [], (List.append_nil _).symm, hs⟩⟩

/-- Whatever was read, a pattern that is looked for anywhere may still follow. -/
theorem viable_of_compile_anywhere {maxDepth : Nat} {text : List Char} {p : Pattern}
    (h : compile .anywhere maxDepth text = .ok p) (u : List Char) : p.Viable u := by
  rcases compile_anywhere_cases h with ⟨q, -, rfl⟩ | ⟨-, rfl⟩
  · exact viable_anywhere q u
  · exact viable_anyText u

end Pattern

namespace Automaton

variable {p : Pattern} {s : StateId} {u line : List Char} {k : Nat}

/-- From every state of a pattern's automaton some characters lead to acceptance. -/
theorem exists_path_acceptId (h : s < (ofPattern p).size) :
    ∃ w, (ofPattern p).Path s w acceptId := by
  rcases Nat.eq_zero_or_pos s with rfl | pos
  · exact ⟨[], .nil _⟩
  · obtain ⟨w, path⟩ := (ofPattern_fragment p).leaves s ⟨pos, h⟩
    exact ⟨w, path_iff_pathIn.mpr (path.mono (Set.subset_univ _))⟩

theorem frontier_ofPattern_ne_nil_iff : (ofPattern p).frontier u ≠ [] ↔ p.Viable u := by
  constructor
  · intro nonempty
    obtain ⟨t, ht⟩ := List.exists_mem_of_ne_nil _ nonempty
    obtain ⟨before, goal⟩ := mem_frontier_iff.mp ht
    obtain ⟨w, after⟩ := exists_path_acceptId goal.lt_size
    have whole := path_append_iff.mpr ⟨t, before, after⟩
    exact ⟨w, hasAcceptingPath_ofPattern_iff.mp ⟨acceptId, whole, ofPattern_state?_acceptId p⟩⟩
  · rintro ⟨w, hw⟩ empty
    exact not_hasAcceptingPath_of_frontier empty w (hasAcceptingPath_ofPattern_iff.mpr hw)

theorem frontier_ofPattern_eq_nil_iff :
    (ofPattern p).frontier u = [] ↔ ∀ w, (ofPattern p).accepts (u ++ w) = false := by
  rw [← not_iff_not, ← ne_eq, frontier_ofPattern_ne_nil_iff]
  simp [Pattern.Viable, ← hasAcceptingPath_ofPattern_iff, ← accepts_iff_hasAcceptingPath]

/-- The run of a pattern's automaton stops exactly at the first hopeless character. Behind each
character the frontier is empty only if no line of the pattern starts with what was read, and
the run stops at the first place where that is so. A pattern that is looked for anywhere in a
line leaves no such place. -/
theorem run_ofPattern_stops_iff (p : Pattern) (line : List Char) :
    (∀ u, (ofPattern p).frontier u ≠ [] ↔ ∃ w, u ++ w ∈ p.language) ∧
      (∀ s ∈ ((ofPattern p).run line).advances,
        s.frontierSize ≠ 0 ↔ ∃ w, line.take (s.position + 1) ++ w ∈ p.language) ∧
      (∀ k, (Verdict.stuck k).record ∈ ((ofPattern p).run line).records ↔
        ((ofPattern p).run line).verdict = .stuck k) ∧
      (∀ k, ((ofPattern p).run line).verdict = .stuck k ↔
        IsLeast {i | i < line.length ∧
          ∀ w, (ofPattern p).accepts (line.take (i + 1) ++ w) = false} k) ∧
      ∀ maxDepth text m, Matcher.compile .anywhere maxDepth text = .ok m →
        ∀ line k, (m.run line).verdict ≠ .stuck k := by
  refine ⟨fun u => frontier_ofPattern_ne_nil_iff, fun s hs => ?_, fun k => ?_, fun k => ?_, ?_⟩
  · rw [frontierSize_of_mem_advances hs, ne_eq, List.length_eq_zero_iff]
    exact frontier_ofPattern_ne_nil_iff
  · exact Run.record_mem_records_iff
  · simp only [verdict_run_eq_stuck_iff, frontier_ofPattern_eq_nil_iff]
  · intro maxDepth text m hm line k stuck
    obtain ⟨q, hq, rfl⟩ := Matcher.exists_pattern_of_compile hm
    have empty := (verdict_run_eq_stuck_iff.mp stuck).1.2
    exact frontier_ofPattern_ne_nil_iff.mpr (Pattern.viable_of_compile_anywhere hq _) empty

/-- The second character of this line is hopeless for the pattern, and only if the pattern has to
describe the line from its start. -/
theorem run_ofPattern_stops_iff_second :
    let p : Pattern := .concat (.char 'a') (.char 'b')
    let m : Matcher := ⟨.ofPattern p.anywhere⟩
    (∃ w, 'a' :: w ∈ p.language) ∧ (¬ ∃ w, 'a' :: 'x' :: w ∈ p.language) ∧
      IsLeast {i | i < 3 ∧ ∀ w, (ofPattern p).accepts (['a', 'x', 'b'].take (i + 1) ++ w) = false}
        1 ∧
      Matcher.compile .anywhere 0 "ab" = .ok m ∧ ∀ line k, (m.run line).verdict ≠ .stuck k := by
  intro p m
  have compiled : Matcher.compile .anywhere 0 "ab" = .ok m := by decide +kernel
  obtain ⟨-, sizes, -, least, ofAnywhere⟩ := run_ofPattern_stops_iff p ['a', 'x', 'b']
  have first := sizes ⟨0, 'a', 1⟩ (by decide +kernel)
  have second := sizes ⟨1, 'x', 0⟩ (by decide +kernel)
  exact ⟨first.mp (by decide), fun more => second.mpr more rfl, (least 1).mp (by decide +kernel),
    compiled, ofAnywhere 0 "ab" m compiled⟩

end Automaton
end PatternAutomaton
