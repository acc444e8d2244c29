import PatternAutomaton.Proofs.Matching
import PatternAutomaton.Proofs.Mirror

/-!
# Arbitrary text around a pattern, in the tree and in the text

A text between `.*(` and `).*` is read as it would be read alone, inside of one group that is
open. So the tree wrapped in arbitrary text is the tree of the text wrapped in that way, if one
more group may be open, and the faults are the same ones three characters further on. Faults
of closing are left out: a `)` too many in the text closes the group around it.
-/
namespace PatternAutomaton
open scoped Computability

namespace Pattern

/-- The text with arbitrary text allowed before and after it. -/
def wrapped (text : List Char) : List Char := ".*(".toList ++ text ++ ").*".toList

/-- What the wrapped text is read to, for what the text alone is read to. -/
def wrappedAnswer : Except PatternError Pattern → Except PatternError Pattern
  | .ok p => .ok p.anywhere
  | .error .empty => .ok (concat anyText anyText)
  | .error e => .error (e.shift 3)

/-- The text outside of the group that a wrapped text opens. -/
def beforeGroup : Context := { items := [anyText] }

theorem wrappedAnswer_error {e : PatternError} (h : e ≠ .empty) :
    wrappedAnswer (.error e) = .error (e.shift 3) := by
  cases e with
  | empty => exact absurd rfl h
  | unopenedGroup | nothingBefore | nothingAfter | unclosedGroup | tooDeep => rfl

/-- A text is read inside of the group as it is read alone. -/
theorem run_inside {maxDepth : Nat} {text : List Char}
    (h : ∀ i, (Reader.start maxDepth).run Quantifier.merge 0 text ≠
      .error (.unopenedGroup i)) :
    Reader.run Quantifier.merge 3 text ⟨maxDepth, {}, [beforeGroup]⟩ =
      carry (fun r => ⟨r.room, r.current, r.enclosing ++ [beforeGroup]⟩) 3
        ((Reader.start maxDepth).run Quantifier.merge 0 text) := by
  let inside := Mirror.within Quantifier.merge 3 0 [beforeGroup]
  have shared : ∀ e, (Reader.start maxDepth).run Quantifier.merge 0 text = .error e →
      ¬ inside.Excuses e := by
    rintro e he (⟨⟨i, rfl⟩, -⟩ | ⟨-, spare⟩)
    · exact h i he
    · exact Nat.lt_irrefl 0 spare
  have mirrored := inside.run_eq_carry text shared
  rw [Mirror.reader_within] at mirrored
  exact mirrored

theorem run_wrapped (maxDepth : Nat) (text : List Char) :
    (Reader.start (maxDepth + 1)).run Quantifier.merge 0 (wrapped text) =
      match Reader.run Quantifier.merge 3 text ⟨maxDepth, {}, [beforeGroup]⟩ with
      | .ok r => r.run Quantifier.merge (3 + text.length) ").*".toList
      | .error e => .error e := by
  have opened : (Reader.start (maxDepth + 1)).run Quantifier.merge 0 (wrapped text) =
      Reader.run Quantifier.merge 3 (text ++ ").*".toList)
        ⟨maxDepth, {}, [beforeGroup]⟩ := by
    rw [wrapped, List.append_assoc]
    rfl
  exact opened.trans Reader.run_append

/-- The character that closes the group is where the text alone would end. -/
theorem run_closing {i room : Nat} {k : Context} :
    Reader.run Quantifier.merge i ").*".toList ⟨room, k, [beforeGroup]⟩ =
      match k.close i with
      | .ok item => .ok ⟨room + 1, ⟨[], anyText :: (item.toList ++ [anyText])⟩, []⟩
      | .error e => .error e := by
  have closing : Reader.step Quantifier.merge i ')' ⟨room, k, [beforeGroup]⟩ =
      match k.close i with
      | .ok item => .ok ⟨room + 1, ⟨[], item.toList ++ [anyText]⟩, []⟩
      | .error e => .error e := by
    rw [Reader.step_close, Reader.closeGroup]
    cases k.close i with
    | error e => rfl
    | ok item => cases item <;> rfl
  show Reader.run Quantifier.merge i (')' :: ".*".toList) _ = _
  rw [Reader.run, closing]
  cases k.close i <;> rfl

/-- The wrapped text is read to the wrapped pattern, or to the fault of the text further on. -/
theorem parse_wrapped {maxDepth : Nat} {text : List Char}
    (opened : ∀ i, parse maxDepth text ≠ .error (.unopenedGroup i))
    (closed : parse maxDepth text ≠ .error .unclosedGroup) :
    parse (maxDepth + 1) (wrapped text) = wrappedAnswer (parse maxDepth text) := by
  have whole := run_wrapped maxDepth text
  rw [run_inside fun i h => opened i (parseWith_of_error h)] at whole
  cases h : (Reader.start maxDepth).run Quantifier.merge 0 text with
  | error e =>
    have nonempty : e ≠ .empty := by
      rintro rfl
      exact Reader.run_ne_empty h
    have alone : parse maxDepth text = .error e := parseWith_of_error h
    rw [h] at whole
    rw [alone, wrappedAnswer_error nonempty]
    exact parseWith_of_error whole
  | ok r =>
    have alone : parse maxDepth text = r.finish text.length := parseWith_of_ok h
    rw [h] at whole
    obtain ⟨room, k, enclosing⟩ := r
    cases enclosing with
    | cons outer enclosing => exact absurd alone closed
    | nil =>
      simp only [carry, List.nil_append, run_closing] at whole
      rw [alone]
      rcases k.close_cases with ⟨item, close⟩ | close
      · rw [close] at whole
        rw [parse, parseWith_of_ok whole]
        simp only [Reader.finish, close]
        cases item <;> rfl
      · rw [close] at whole
        rw [parse, parseWith_of_error whole, Nat.add_comm]
        simp only [Reader.finish, close]
        rfl

theorem parse_wrapped_eq {maxDepth : Nat} {text : String} {result : Except PatternError Pattern}
    (h : parse maxDepth text.toList = result) (opened : ∀ i, result ≠ .error (.unopenedGroup i))
    (closed : result ≠ .error .unclosedGroup) :
    parse (maxDepth + 1) (".*(" ++ text ++ ").*").toList = wrappedAnswer result := by
  have toList : (".*(" ++ text ++ ").*").toList = wrapped text.toList := by simp [wrapped]
  subst h
  rw [toList]
  exact parse_wrapped opened closed

/-- Two pieces of arbitrary text are arbitrary text. -/
theorem mem_language_anyText_anyText (line : List Char) :
    line ∈ (concat anyText anyText).language :=
  Language.mem_mul.mpr ⟨[], mem_language_anyText [], line, mem_language_anyText line, rfl⟩

end Pattern

namespace Matcher

variable {maxDepth : Nat} {text : String}

/-- A pattern is made into one automaton in both ways. -/
theorem compile_wrapped_of_ok {p : Pattern} (h : Pattern.parse maxDepth text.toList = .ok p) :
    compile .anywhere maxDepth text = .ok ⟨.ofPattern p.anywhere⟩ ∧
      compile .wholeLine (maxDepth + 1) (".*(" ++ text ++ ").*") =
        .ok ⟨.ofPattern p.anywhere⟩ := by
  have whole := Pattern.parse_wrapped_eq h (by simp) (by simp)
  constructor
  · simp only [compile, Pattern.compile, h]
  · simp only [compile, Pattern.compile, whole, Pattern.wrappedAnswer]

/-- A text without a character to match is made into automata that accept every line. -/
theorem compile_wrapped_of_empty (h : Pattern.parse maxDepth text.toList = .error .empty) :
    ∃ m whole, compile .anywhere maxDepth text = .ok m ∧
      compile .wholeLine (maxDepth + 1) (".*(" ++ text ++ ").*") = .ok whole ∧
        ∀ line, m.isMatch line = true ∧ whole.isMatch line = true := by
  have whole := Pattern.parse_wrapped_eq h (by simp) (by simp)
  refine ⟨⟨.ofPattern Pattern.anyText⟩, ⟨.ofPattern (.concat Pattern.anyText Pattern.anyText)⟩,
    ?_, ?_, fun line => ⟨?_, ?_⟩⟩
  · simp only [compile, Pattern.compile, h]
  · simp only [compile, Pattern.compile, whole, Pattern.wrappedAnswer]
  · exact (isMatch_ofPattern_iff _ line).mpr (Pattern.mem_language_anyText _)
  · exact (isMatch_ofPattern_iff _ line).mpr (Pattern.mem_language_anyText_anyText _)

/-- Matching anywhere is matching the whole line with arbitrary text around the pattern's text,
if one more group may be open: it makes the same automaton, and the faults that a parenthesis
around the text does not mend are the same, three characters further on. -/
theorem compile_wrapped (maxDepth : Nat) (text : String) :
    let wrapped := ".*(" ++ text ++ ").*"
    (∀ p, Pattern.parse maxDepth text.toList = .ok p →
      Pattern.parse (maxDepth + 1) wrapped.toList = .ok p.anywhere ∧
        ∃ m, compile .anywhere maxDepth text = .ok m ∧
          compile .wholeLine (maxDepth + 1) wrapped = .ok m) ∧
    (Pattern.parse maxDepth text.toList = .error .empty →
      ∃ m whole, compile .anywhere maxDepth text = .ok m ∧
        compile .wholeLine (maxDepth + 1) wrapped = .ok whole ∧
          ∀ line, m.isMatch line = true ∧ whole.isMatch line = true) ∧
    ∀ i,
      (Pattern.parse maxDepth text.toList = .error (.nothingBefore i) →
        Pattern.parse (maxDepth + 1) wrapped.toList = .error (.nothingBefore (i + 3))) ∧
      (Pattern.parse maxDepth text.toList = .error (.nothingAfter i) →
        Pattern.parse (maxDepth + 1) wrapped.toList = .error (.nothingAfter (i + 3))) ∧
      (Pattern.parse maxDepth text.toList = .error (.tooDeep i) →
        Pattern.parse (maxDepth + 1) wrapped.toList = .error (.tooDeep (i + 3))) := by
  intro wrapped
  refine ⟨fun p hp => ?_, compile_wrapped_of_empty, fun i => ⟨fun h => ?_, fun h => ?_,
    fun h => ?_⟩⟩
  · obtain ⟨alone, between⟩ := compile_wrapped_of_ok hp
    exact ⟨Pattern.parse_wrapped_eq hp (by simp) (by simp), _, alone, between⟩
  · exact Pattern.parse_wrapped_eq h (by simp) (by simp)
  · exact Pattern.parse_wrapped_eq h (by simp) (by simp)
  · exact Pattern.parse_wrapped_eq h (by simp) (by simp)

/-- A pattern, an empty text and two faults, each between `.*(` and `).*`. -/
theorem compile_wrapped_within_limit :
    Pattern.parse 2 ".*((a|b)).*".toList =
        .ok (.anywhere (.alt (.char 'a') (.char 'b'))) ∧
      (∃ m, compile .wholeLine 2 ".*(()).*" = .ok m ∧ m.isMatch "x" = true) ∧
        Pattern.parse 2 ".*((a|)).*".toList = .error (.nothingAfter 6) ∧
          Pattern.parse 1 ".*(a(b)).*".toList = .error (.tooDeep 4) := by
  refine ⟨((compile_wrapped 1 "(a|b)").1 _ rfl).1, ?_,
    ((compile_wrapped 1 "(a|)").2.2 3).2.1 rfl, ((compile_wrapped 0 "a(b)").2.2 1).2.2 rfl⟩
  obtain ⟨_, m, _, whole, all⟩ := (compile_wrapped 1 "()").2.1 rfl
  exact ⟨m, whole, (all _).2⟩

end Matcher
end PatternAutomaton
