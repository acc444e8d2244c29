import PatternAutomaton.Automaton.Basic

/-!
# Paths

Paths through an automaton, labelled with the characters that their states consume. A split
consumes nothing, and no path goes on from an accepting or reserved state.
-/
namespace PatternAutomaton.Automaton

/-- A path that consumes the given characters. -/
inductive Path (a : Automaton) : StateId → List Char → StateId → Prop
  | nil (s : StateId) : Path a s [] s
  | consume {s next t : StateId} {symbol : Symbol} {c : Char} {w : List Char} :
      a.state? s = some (.consume symbol next) → symbol.accepts c = true →
      Path a next w t → Path a s (c :: w) t
  | first {s first second t : StateId} {w : List Char} :
      a.state? s = some (.split first second) → Path a first w t → Path a s w t
  | second {s first second t : StateId} {w : List Char} :
      a.state? s = some (.split first second) → Path a second w t → Path a s w t

/-- Some path from the start consumes the line and ends in an accepting state. -/
def HasAcceptingPath (a : Automaton) (line : List Char) : Prop :=
  ∃ t, a.Path a.start line t ∧ a.state? t = some .accept

/-- One split edge. -/
def SplitEdge (a : Automaton) (s t : StateId) : Prop :=
  ∃ first second, a.state? s = some (.split first second) ∧ (t = first ∨ t = second)

/-- One edge of any kind. -/
def HasEdge (a : Automaton) (s t : StateId) : Prop := t ∈ a.targets s

end PatternAutomaton.Automaton
