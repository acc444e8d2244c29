import PatternAutomaton.Pattern.Basic

/-!
# Quantifiers

The two marks that repeat what stands before them. A repetition of a repetition describes no
other lines than one of the two marks alone, so `merge` keeps one node where `wrap` would nest
two. `Pattern.collapse` does the same to a whole tree at once.
-/
namespace PatternAutomaton

/-- `*` for any number of times, `+` for at least once. -/
inductive Quantifier where
  | star
  | plus
  deriving Repr, DecidableEq

namespace Quantifier

def mark : Quantifier → Char
  | star => '*'
  | plus => '+'

/-- One repetition node around the item. -/
def wrap : Quantifier → Pattern → Pattern
  | star, p => .star p
  | plus, p => .plus p

/-- One repetition node, in place of the repetition that the item may be already. Only two
marks `+` make a `+` again. -/
def merge : Quantifier → Pattern → Pattern
  | star, .star p => .star p
  | star, .plus p => .star p
  | plus, .star p => .star p
  | plus, .plus p => .plus p
  | star, p => .star p
  | plus, p => .plus p

end Quantifier

namespace Pattern

/-- Merges nested repetitions, from the leaves up. -/
def collapse : Pattern → Pattern
  | char c => char c
  | concat p q => concat p.collapse q.collapse
  | alt p q => alt p.collapse q.collapse
  | star p => Quantifier.star.merge p.collapse
  | plus p => Quantifier.plus.merge p.collapse

end Pattern
end PatternAutomaton
