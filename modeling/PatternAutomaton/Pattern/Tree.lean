import PatternAutomaton.Pattern.Basic
import PatternAutomaton.Text.Quoted

/-!
# The tree of a pattern as text

Each node by its name with its parts in parentheses, and a character in quotes.
-/
namespace PatternAutomaton.Pattern

/-- Writes the tree behind `out`. -/
def writeTree (out : String) : Pattern → String
  | char c => out ++ "Char(" ++ Text.quoted c ++ ")"
  | concat p q => writeTree (writeTree (out ++ "Concat(") p ++ ", ") q ++ ")"
  | alt p q => writeTree (writeTree (out ++ "Or(") p ++ ", ") q ++ ")"
  | star p => writeTree (out ++ "Star(") p ++ ")"
  | plus p => writeTree (out ++ "Plus(") p ++ ")"

def treeText (p : Pattern) : String := p.writeTree ""

end PatternAutomaton.Pattern
