import Mathlib.Computability.Language
import PatternAutomaton.Pattern.Basic

/-!
# The language of a pattern

The lines that a pattern describes, as a language over characters. This is what patterns mean;
it says nothing about how a line is matched.
-/
namespace PatternAutomaton.Pattern

/-- The lines of one character that a character of a pattern stands for. -/
def charLanguage (c : Char) : Language Char :=
  if c = wildcard then {w | ∃ d, w = [d]} else {[c]}

def language : Pattern → Language Char
  | char c => charLanguage c
  | concat p q => p.language * q.language
  | alt p q => p.language + q.language
  | star p => KStar.kstar p.language
  | plus p => p.language * KStar.kstar p.language

end PatternAutomaton.Pattern
