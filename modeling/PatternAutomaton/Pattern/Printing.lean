import PatternAutomaton.Pattern.Basic

/-!
# Writing a pattern as text

The text of a pattern with the fewest parentheses. A repetition applies to a single character or
a group, a concatenation binds tighter than an alternation, and both associate to the right, so
a group is written exactly where the tree asks for another reading.
-/
namespace PatternAutomaton.Pattern

def isChar : Pattern → Bool
  | char _ => true
  | _ => false

def isConcat : Pattern → Bool
  | concat _ _ => true
  | _ => false

def isAlt : Pattern → Bool
  | alt _ _ => true
  | _ => false

def isRepetition : Pattern → Bool
  | star _ | plus _ => true
  | _ => false

/-- A text in parentheses. -/
def grouped (text : List Char) : List Char := '(' :: text ++ [')']

def groupedIf (b : Bool) (text : List Char) : List Char := if b then grouped text else text

def print : Pattern → List Char
  | char c => [c]
  | concat p q => groupedIf (p.isConcat || p.isAlt) p.print ++ groupedIf q.isAlt q.print
  | alt p q => groupedIf p.isAlt p.print ++ '|' :: q.print
  | star p => groupedIf (!p.isChar) p.print ++ ['*']
  | plus p => groupedIf (!p.isChar) p.print ++ ['+']

/-- The characters that have a meaning of their own in a text and so cannot stand for
themselves. -/
def isReserved (c : Char) : Bool :=
  c = '+' || c = '*' || c = '(' || c = ')' || c = '|'

/-- No character of the pattern is reserved, and no repetition is directly repeated. -/
def Writable : Pattern → Prop
  | char c => isReserved c = false
  | concat p q => p.Writable ∧ q.Writable
  | alt p q => p.Writable ∧ q.Writable
  | star p => p.isRepetition = false ∧ p.Writable
  | plus p => p.isRepetition = false ∧ p.Writable

/-- The most parentheses open at once in a text read on from `depth` open ones. -/
def parenDepthFrom (depth : Nat) : List Char → Nat
  | [] => depth
  | '(' :: rest => parenDepthFrom (depth + 1) rest
  | ')' :: rest => max depth (parenDepthFrom (depth - 1) rest)
  | _ :: rest => parenDepthFrom depth rest

/-- The most parentheses open at once in a text. -/
def parenDepth (text : List Char) : Nat := parenDepthFrom 0 text

end PatternAutomaton.Pattern
