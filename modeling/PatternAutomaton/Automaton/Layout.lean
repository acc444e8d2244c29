import PatternAutomaton.Pattern.Basic
import PatternAutomaton.Automaton.Basic

/-!
# Laying out a pattern as states

Each pattern becomes a block of states at the end of a table, with one entry, from which every
way out leads to one given state, the continuation. A block is laid out from its end, since an
earlier part needs the entry of the later one. A repetition needs an edge back to its own entry,
so its slot is reserved first and filled once the body is laid out.

`lay` walks the spine of a concatenation or alternation as a list, so its depth is the nesting
of the pattern and not its length. `layNested` is the same layout by recursion on the tree
alone. A body under `+` is laid out twice, once leading on and once leading back.
-/
namespace PatternAutomaton

/-- A table of states and the entry of the block laid out last. -/
structure Layout where
  entry : StateId
  states : Array State
  deriving Repr, DecidableEq

/-- What a consuming state takes for a character of a pattern. -/
def Symbol.ofChar (c : Char) : Symbol := if c = Pattern.wildcard then any else char c

namespace Layout

/-- A block of one state, at the end of the table. -/
def place (s : State) (states : Array State) : Layout where
  entry := states.size
  states := states.push s

/-- A slot to be filled later. -/
def reserve (states : Array State) : Layout := place .reserved states

/-- Gives a slot its content; the entry stays. -/
def fill (id : StateId) (s : State) (states : Array State) : Layout where
  entry := id
  states := states.setIfInBounds id s

mutual

/-- Lays out a pattern that goes on to `next`. -/
def lay : Pattern → StateId → Array State → Layout
  | .char c, next, states => place (.consume (.ofChar c) next) states
  | .concat p q, next, states =>
    let spine := Pattern.concatSpine q [p]
    let last := lay spine.1 next states
    laySequence spine.2 last.entry last.states
  | .alt p q, next, states =>
    let spine := Pattern.altSpine q [p]
    let last := lay spine.1 next states
    layChoices spine.2 next last.entry last.states
  | .star p, next, states =>
    let loop := reserve states
    let body := lay p loop.entry loop.states
    fill loop.entry (.split body.entry next) body.states
  | .plus p, next, states =>
    let loop := reserve states
    let out := lay p next loop.states
    let back := lay p loop.entry out.states
    fill loop.entry (.split out.entry back.entry) back.states
termination_by p => 2 * p.size
decreasing_by
  · have := Pattern.concatSpine_size_lt p q; omega
  · have := Pattern.concatSpine_size_lt p q; omega
  · have := Pattern.altSpine_size_lt p q; omega
  · have := Pattern.altSpine_size_lt p q; omega
  all_goals simp only [Pattern.size]; omega

/-- Lays out patterns listed latest first, each going on to the one after it and the last of
them to `next`. -/
def laySequence : List Pattern → StateId → Array State → Layout
  | [], next, states => ⟨next, states⟩
  | p :: earlier, next, states =>
    let here := lay p next states
    laySequence earlier here.entry here.states
termination_by ps => 2 * Pattern.totalSize ps + 1
decreasing_by
  all_goals have := p.size_pos; simp only [Pattern.totalSize]; omega

/-- Lays out patterns listed latest first, each going on to `next` and each with a choice
between it and `others`, the entry of what comes after it. -/
def layChoices : List Pattern → StateId → StateId → Array State → Layout
  | [], _, others, states => ⟨others, states⟩
  | p :: earlier, next, others, states =>
    let here := lay p next states
    let choice := place (.split here.entry others) here.states
    layChoices earlier next choice.entry choice.states
termination_by ps => 2 * Pattern.totalSize ps + 1
decreasing_by
  all_goals have := p.size_pos; simp only [Pattern.totalSize]; omega

end

/-- Lays out a pattern that goes on to `next`, by recursion on the tree alone. -/
def layNested : Pattern → StateId → Array State → Layout
  | .char c, next, states => place (.consume (.ofChar c) next) states
  | .concat p q, next, states =>
    let later := layNested q next states
    layNested p later.entry later.states
  | .alt p q, next, states =>
    let other := layNested q next states
    let here := layNested p next other.states
    place (.split here.entry other.entry) here.states
  | .star p, next, states =>
    let loop := reserve states
    let body := layNested p loop.entry loop.states
    fill loop.entry (.split body.entry next) body.states
  | .plus p, next, states =>
    let loop := reserve states
    let out := layNested p next loop.states
    let back := layNested p loop.entry out.states
    fill loop.entry (.split out.entry back.entry) back.states

end Layout

/-- The automaton of a pattern. State 0 accepts, and the pattern goes on to it. -/
def Automaton.ofPattern (p : Pattern) : Automaton :=
  let layout := Layout.lay p acceptId #[.accept]
  { states := layout.states, start := layout.entry }

end PatternAutomaton
