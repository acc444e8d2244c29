import PatternAutomaton.Pattern.Basic

/-!
# Measures of a pattern

How deep the layout of a pattern goes and how many states it makes, said of the tree alone. A
whole spine counts as one level of the layout, whatever its length. Everything below a `+` is
laid out twice, so each `+` doubles the weight of what is below it.
-/
namespace PatternAutomaton.Pattern

mutual

/-- The number of nested layouts. -/
def layoutDepth : Pattern → Nat
  | char _ => 1
  | concat p q => 1 + max p.layoutDepth (concatDepth q)
  | alt p q => 1 + max p.layoutDepth (altDepth q)
  | star p => 1 + p.layoutDepth
  | plus p => 1 + p.layoutDepth

/-- The deepest layout among the operands of a concatenation spine. -/
def concatDepth : Pattern → Nat
  | concat p q => max p.layoutDepth (concatDepth q)
  | char _ => 1
  | alt p q => 1 + max p.layoutDepth (altDepth q)
  | star p => 1 + p.layoutDepth
  | plus p => 1 + p.layoutDepth

/-- The deepest layout among the operands of an alternation spine. -/
def altDepth : Pattern → Nat
  | alt p q => max p.layoutDepth (altDepth q)
  | char _ => 1
  | concat p q => 1 + max p.layoutDepth (concatDepth q)
  | star p => 1 + p.layoutDepth
  | plus p => 1 + p.layoutDepth

end

/-- The number of states laid out for a pattern that is laid out `copies` times. -/
def weight (copies : Nat) : Pattern → Nat
  | char _ => copies
  | concat p q => p.weight copies + q.weight copies
  | alt p q => copies + p.weight copies + q.weight copies
  | star p => copies + p.weight copies
  | plus p => copies + p.weight (2 * copies)

/-- The most `+` on the way from the root to a leaf. -/
def plusDepth : Pattern → Nat
  | char _ => 0
  | concat p q => max p.plusDepth q.plusDepth
  | alt p q => max p.plusDepth q.plusDepth
  | star p => p.plusDepth
  | plus p => p.plusDepth + 1

end PatternAutomaton.Pattern
