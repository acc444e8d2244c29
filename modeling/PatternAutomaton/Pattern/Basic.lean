/-!
# Patterns

A pattern is a tree of single characters, concatenations, alternatives and the two
repetitions. The character `.` stands for every character, line breaks included.

A long concatenation or alternation is one right-nested spine. `concatSpine` and `altSpine`
give its operands latest first, which is the order in which an automaton is laid out from its
end, and `concatAll?` and `altAll?` rebuild a spine from such a list. Nothing here assigns a
pattern its set of lines; that is `Pattern.language`.
-/
namespace PatternAutomaton

inductive Pattern where
  | char (c : Char)
  | concat (p q : Pattern)
  | alt (p q : Pattern)
  | star (p : Pattern)
  | plus (p : Pattern)
  deriving Repr, DecidableEq, Inhabited

namespace Pattern

/-- The character that stands for every character. -/
def wildcard : Char := '.'

/-- The pattern `.*`, which describes every line. -/
def anyText : Pattern := star (char wildcard)

/-- The pattern `p` with arbitrary text allowed before and after it. -/
def anywhere (p : Pattern) : Pattern := concat anyText (concat p anyText)

/-- The number of nodes. -/
def size : Pattern → Nat
  | char _ => 1
  | concat p q => p.size + q.size + 1
  | alt p q => p.size + q.size + 1
  | star p => p.size + 1
  | plus p => p.size + 1

/-- The last operand of a concatenation spine, and the operands before it with the latest
first, put in front of `earlier`. -/
def concatSpine : Pattern → List Pattern → Pattern × List Pattern
  | concat p q, earlier => concatSpine q (p :: earlier)
  | last, earlier => (last, earlier)

/-- The last operand of an alternation spine, and the operands before it with the latest
first, put in front of `earlier`. -/
def altSpine : Pattern → List Pattern → Pattern × List Pattern
  | alt p q, earlier => altSpine q (p :: earlier)
  | last, earlier => (last, earlier)

/-- The right-nested concatenation of patterns listed latest first; there is none of no
patterns. -/
def concatAll? : List Pattern → Option Pattern
  | [] => none
  | last :: earlier => some (earlier.foldl (fun rest p => concat p rest) last)

/-- The right-nested alternation of patterns listed latest first; there is none of no
patterns. -/
def altAll? : List Pattern → Option Pattern
  | [] => none
  | last :: earlier => some (earlier.foldl (fun rest p => alt p rest) last)

/-- The number of nodes in a list of patterns. -/
def totalSize : List Pattern → Nat
  | [] => 0
  | p :: ps => p.size + totalSize ps

theorem size_pos (p : Pattern) : 0 < p.size := by cases p <;> simp [size]

/-- Walking a concatenation spine neither adds nor repeats an operand. -/
theorem concatSpine_size_le (p : Pattern) (earlier : List Pattern) :
    (concatSpine p earlier).1.size + totalSize (concatSpine p earlier).2 ≤
      p.size + totalSize earlier := by
  fun_induction concatSpine p earlier with
  | case1 earlier p q ih => simp only [totalSize, size] at ih ⊢; omega
  | case2 => exact Nat.le_refl _

/-- Walking an alternation spine neither adds nor repeats an operand. -/
theorem altSpine_size_le (p : Pattern) (earlier : List Pattern) :
    (altSpine p earlier).1.size + totalSize (altSpine p earlier).2 ≤
      p.size + totalSize earlier := by
  fun_induction altSpine p earlier with
  | case1 earlier p q ih => simp only [totalSize, size] at ih ⊢; omega
  | case2 => exact Nat.le_refl _

theorem concatSpine_size_lt (p q : Pattern) :
    (concatSpine q [p]).1.size + totalSize (concatSpine q [p]).2 < (concat p q).size := by
  have := concatSpine_size_le q [p]
  simp only [totalSize, size] at this ⊢
  omega

theorem altSpine_size_lt (p q : Pattern) :
    (altSpine q [p]).1.size + totalSize (altSpine q [p]).2 < (alt p q).size := by
  have := altSpine_size_le q [p]
  simp only [totalSize, size] at this ⊢
  omega

end Pattern
end PatternAutomaton
