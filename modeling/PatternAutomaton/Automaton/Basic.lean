/-!
# Automata

An automaton is a table of states that point to each other by their index, together with the
index of the state where it starts. A state consumes one character, offers two ways on without
consuming anything, or accepts. A reserved state is a slot whose content is not known yet; no
edge leaves it.

No index is assumed to be in range here. A state outside the table has no edges, and `InRange`
is the statement that there is none.
-/
namespace PatternAutomaton

abbrev StateId := Nat

/-- What a consuming state takes: one given character, or any. -/
inductive Symbol where
  | char (c : Char)
  | any
  deriving Repr, DecidableEq, Inhabited

def Symbol.accepts : Symbol → Char → Bool
  | char s, c => s == c
  | any, _ => true

inductive State where
  /-- Takes one character and goes on to `next`. -/
  | consume (symbol : Symbol) (next : StateId)
  /-- Goes on to both states, the first of them preferred. -/
  | split (first second : StateId)
  | accept
  | reserved
  deriving Repr, DecidableEq, Inhabited

namespace State

def isAccept : State → Bool
  | accept => true
  | _ => false

def isConsume : State → Bool
  | consume _ _ => true
  | _ => false

def isSplit : State → Bool
  | split _ _ => true
  | _ => false

/-- The targets of all edges, in order. -/
def targets : State → List StateId
  | consume _ next => [next]
  | split first second => [first, second]
  | accept | reserved => []

/-- The target of the edge that takes `c`. -/
def afterChar? (c : Char) : State → Option StateId
  | consume symbol next => if symbol.accepts c then some next else none
  | split _ _ | accept | reserved => none

end State

structure Automaton where
  states : Array State
  start : StateId
  deriving Repr, DecidableEq, Inhabited

namespace Automaton

/-- The index of the accepting state in every automaton made from a pattern. -/
def acceptId : StateId := 0

/-- The number of states in the table. -/
def size (a : Automaton) : Nat := a.states.size

/-- The state of an index, if the index is in the table. -/
def state? (a : Automaton) (id : StateId) : Option State := a.states[id]?

def isAccept (a : Automaton) (id : StateId) : Bool :=
  match a.state? id with
  | some s => s.isAccept
  | none => false

/-- Whether a state of the table is of a kind. -/
def isOf (a : Automaton) (kind : State → Bool) (id : StateId) : Bool := (a.state? id).any kind

/-- How many states of the table are of a kind. -/
def count (a : Automaton) (kind : State → Bool) : Nat := a.states.countP kind

/-- The targets of all edges that leave a state, in order. -/
def targets (a : Automaton) (id : StateId) : List StateId :=
  match a.state? id with
  | some s => s.targets
  | none => []

/-- The target of the edge of `id` that takes `c`. -/
def afterChar? (a : Automaton) (c : Char) (id : StateId) : Option StateId :=
  match a.state? id with
  | some s => s.afterChar? c
  | none => none

/-- The target of every edge is in the table. -/
def EdgesInRange (a : Automaton) : Prop := ∀ s ∈ a.states, ∀ t ∈ s.targets, t < a.size

/-- The start and the target of every edge are in the table. -/
structure InRange (a : Automaton) : Prop where
  start_lt : a.start < a.size
  target_lt : ∀ s ∈ a.states, ∀ t ∈ s.targets, t < a.size

end Automaton
end PatternAutomaton
