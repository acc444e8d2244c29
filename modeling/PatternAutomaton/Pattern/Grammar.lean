import PatternAutomaton.Pattern.Quantifier
import PatternAutomaton.Pattern.Printing

/-!
# The grammar of pattern texts

Which texts denote which pattern, as a recursive grammar. An alternation is one or more
sequences between bars. A sequence is a string of characters and groups, each followed by any
number of quantifiers, and a group is an alternation in parentheses. A group that denotes
nothing leaves no item in its sequence, and a quantifier applies to the latest item there is.

Both relations bound the number of groups open at once. They are stated without reference to
any way of reading a text.
-/
namespace PatternAutomaton

/-- What a quantifier makes of the item before it. A repetition is not repeated once more. -/
inductive Quantifier.Makes : Quantifier → Pattern → Pattern → Prop
  | star {p : Pattern} : p.isRepetition = false → Makes .star p (.star p)
  | plus {p : Pattern} : p.isRepetition = false → Makes .plus p (.plus p)
  | starStar {p : Pattern} : Makes .star (.star p) (.star p)
  | starPlus {p : Pattern} : Makes .star (.plus p) (.star p)
  | plusStar {p : Pattern} : Makes .plus (.star p) (.star p)
  | plusPlus {p : Pattern} : Makes .plus (.plus p) (.plus p)

namespace Pattern

/-- The right-nested concatenation of items in order. -/
def concatInOrder? : List Pattern → Option Pattern
  | [] => none
  | p :: rest =>
    match concatInOrder? rest with
    | none => some p
    | some q => some (concat p q)

mutual

/-- The text is a sequence with these items in order, and has at most `d` groups open at
once. -/
inductive IsSequence : Nat → List Char → List Pattern → Prop
  | nil {d : Nat} : IsSequence d [] []
  | char {d : Nat} {text : List Char} {items : List Pattern} {c : Char} :
      IsSequence d text items → isReserved c = false →
      IsSequence d (text ++ [c]) (items ++ [.char c])
  | group {d : Nat} {text inner : List Char} {items : List Pattern} {item : Option Pattern} :
      IsSequence (d + 1) text items → IsAlternation d inner item →
      IsSequence (d + 1) (text ++ grouped inner) (items ++ item.toList)
  | repeated {d : Nat} {text : List Char} {items : List Pattern} {p p' : Pattern}
      {q : Quantifier} :
      IsSequence d text (items ++ [p]) → q.Makes p p' →
      IsSequence d (text ++ [q.mark]) (items ++ [p'])

/-- The text is an alternation that denotes this pattern, or nothing, and has at most `d`
groups open at once. -/
inductive IsAlternation : Nat → List Char → Option Pattern → Prop
  | single {d : Nat} {text : List Char} {items : List Pattern} :
      IsSequence d text items → IsAlternation d text (concatInOrder? items)
  | choice {d : Nat} {text rest : List Char} {items : List Pattern} {p q : Pattern} :
      IsSequence d text items → concatInOrder? items = some p →
      IsAlternation d rest (some q) →
      IsAlternation d (text ++ '|' :: rest) (some (.alt p q))

end

end Pattern
end PatternAutomaton
