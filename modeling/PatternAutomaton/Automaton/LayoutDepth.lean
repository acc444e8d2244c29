import PatternAutomaton.Automaton.Layout

/-!
# Layout within a depth

The layout of a pattern once more, with a bound on how many layouts may be going on inside of
each other. The layout of a whole spine lays out its operands one after the other, so however
long it is, it goes one level deeper and not more.

Without the bound this is `Layout.lay`. A result means that the bound was kept to.
-/
namespace PatternAutomaton.Layout

section

variable (layOne : Pattern → StateId → Array State → Option Layout)

/-- Lays out patterns listed latest first, each going on to the one after it, where `layOne`
lays out one of them. -/
def laySequenceBy : List Pattern → StateId → Array State → Option Layout
  | [], next, states => some ⟨next, states⟩
  | p :: earlier, next, states => do
    let here ← layOne p next states
    laySequenceBy earlier here.entry here.states

/-- Lays out patterns listed latest first, each with a choice between it and `others`, where
`layOne` lays out one of them. -/
def layChoicesBy : List Pattern → StateId → StateId → Array State → Option Layout
  | [], _, others, states => some ⟨others, states⟩
  | p :: earlier, next, others, states => do
    let here ← layOne p next states
    let choice := place (.split here.entry others) here.states
    layChoicesBy earlier next choice.entry choice.states

end

/-- Lays out a pattern that goes on to `next`, if that takes at most `depth` layouts inside of
each other. -/
def layWithin : Nat → Pattern → StateId → Array State → Option Layout
  | 0, _, _, _ => none
  | _ + 1, .char c, next, states => some (place (.consume (.ofChar c) next) states)
  | depth + 1, .concat p q, next, states => do
    let spine := Pattern.concatSpine q [p]
    let last ← layWithin depth spine.1 next states
    laySequenceBy (layWithin depth) spine.2 last.entry last.states
  | depth + 1, .alt p q, next, states => do
    let spine := Pattern.altSpine q [p]
    let last ← layWithin depth spine.1 next states
    layChoicesBy (layWithin depth) spine.2 next last.entry last.states
  | depth + 1, .star p, next, states => do
    let loop := reserve states
    let body ← layWithin depth p loop.entry loop.states
    return fill loop.entry (.split body.entry next) body.states
  | depth + 1, .plus p, next, states => do
    let loop := reserve states
    let out ← layWithin depth p next loop.states
    let back ← layWithin depth p loop.entry out.states
    return fill loop.entry (.split out.entry back.entry) back.states

end PatternAutomaton.Layout
