import PatternAutomaton.Pattern.Reading
import PatternAutomaton.Automaton.Layout
import PatternAutomaton.Automaton.Records

/-!
# Matching lines with a pattern

A matcher is made once from the text of a pattern and then used for any number of lines. It
matches a line either as a whole or anywhere in it.
-/
namespace PatternAutomaton

/-- How many groups may be open at once where nothing else is said. -/
def defaultMaxDepth : Nat := 256

/-- Which part of a line a pattern has to describe. -/
inductive Scope where
  | wholeLine
  | anywhere
  deriving Repr, DecidableEq

/-- The pattern that describes the lines to match. A text without any character to match is a
fault for whole lines, and is found anywhere in every line. -/
def Pattern.compile (scope : Scope) (maxDepth : Nat) (text : List Char) :
    Except PatternError Pattern :=
  match scope, Pattern.parse maxDepth text with
  | .wholeLine, result => result
  | .anywhere, .ok p => .ok p.anywhere
  | .anywhere, .error .empty => .ok Pattern.anyText
  | .anywhere, .error e => .error e

/-- What is found anywhere is a pattern in arbitrary text, or arbitrary text alone. -/
theorem Pattern.compile_anywhere_cases {maxDepth : Nat} {text : List Char} {p : Pattern}
    (h : compile .anywhere maxDepth text = .ok p) :
    (∃ q, parse maxDepth text = .ok q ∧ p = q.anywhere) ∨
      (parse maxDepth text = .error .empty ∧ p = anyText) := by
  cases parsed : parse maxDepth text with
  | ok q =>
    simp only [compile, parsed] at h
    exact .inl ⟨q, rfl, (Except.ok.inj h).symm⟩
  | error e =>
    cases e with
    | empty =>
      simp only [compile, parsed] at h
      exact .inr ⟨rfl, (Except.ok.inj h).symm⟩
    | unopenedGroup | nothingBefore | nothingAfter | unclosedGroup | tooDeep =>
      simp only [compile, parsed] at h
      cases h

structure Matcher where
  automaton : Automaton
  deriving Repr, DecidableEq

namespace Matcher

def compile (scope : Scope) (maxDepth : Nat) (text : String) : Except PatternError Matcher :=
  match Pattern.compile scope maxDepth text.toList with
  | .ok p => .ok ⟨.ofPattern p⟩
  | .error e => .error e

def run (m : Matcher) (line : String) : Run := m.automaton.run line.toList

def isMatch (m : Matcher) (line : String) : Bool := (m.run line).verdict.accepted

/-- What is logged when the matcher is made and then used for one line. -/
def records (m : Matcher) (line : String) : List Log.Record :=
  m.automaton.record :: (m.run line).records

end Matcher

/-- Whether the pattern describes the whole line. -/
def matchesWhole (text line : String) : Except PatternError Bool :=
  (Matcher.compile .wholeLine defaultMaxDepth text).map (·.isMatch line)

/-- Whether the pattern describes some part of the line. -/
def matchesAnywhere (text line : String) : Except PatternError Bool :=
  (Matcher.compile .anywhere defaultMaxDepth text).map (·.isMatch line)

end PatternAutomaton
