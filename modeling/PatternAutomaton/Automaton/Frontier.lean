import PatternAutomaton.Automaton.Run

/-!
# Frontiers

The frontier after any characters, said without a run. Each character moves the last closure
forward, also where it is empty already, and the marks go along from one closure to the next. A
run makes the same closures up to where it stops, so `advancesUpTo` is what it records on its way
there. `acceptsPatiently` is the answer of a run that reads every character of the line.
-/
namespace PatternAutomaton.Automaton

/-- The closure of the states that `c` leads to from the states of a closure. -/
def advance (a : Automaton) (k : Closure) (c : Char) : Closure :=
  a.closure k.marks (k.states.filterMap (a.afterChar? c))

/-- The last of the closures that are made while the characters are read. -/
def closureAfter (a : Automaton) (w : List Char) : Closure :=
  w.foldl a.advance (a.closure (.fresh a.size) [a.start])

/-- The consuming and accepting states found after the characters are read. -/
def frontier (a : Automaton) (w : List Char) : List StateId := (a.closureAfter w).states

/-- What is recorded of the first `n` characters of a line. -/
def advancesUpTo (a : Automaton) (line : List Char) (n : Nat) : List Advance :=
  (line.take n).mapIdx fun i c => ⟨i, c, (a.frontier (line.take (i + 1))).length⟩

/-- Whether the automaton accepts the whole line, found without stopping early. -/
def acceptsPatiently (a : Automaton) (line : List Char) : Bool :=
  (a.frontier line).any a.isAccept

variable {a : Automaton} {chars : List Char} {n : Nat}

theorem closureAfter_append_singleton (a : Automaton) (w : List Char) (c : Char) :
    a.closureAfter (w ++ [c]) = a.advance (a.closureAfter w) c := by
  rw [closureAfter, List.foldl_append]
  rfl

theorem frontier_append_singleton (a : Automaton) (w : List Char) (c : Char) :
    a.frontier (w ++ [c]) =
      (a.closure (a.closureAfter w).marks ((a.frontier w).filterMap (a.afterChar? c))).states := by
  rw [frontier, closureAfter_append_singleton]
  rfl

/-- One more character adds one record. -/
theorem advancesUpTo_succ (h : n < chars.length) :
    a.advancesUpTo chars (n + 1) =
      a.advancesUpTo chars n ++ [⟨n, chars[n], (a.frontier (chars.take (n + 1))).length⟩] := by
  rw [advancesUpTo, advancesUpTo, List.take_succ_eq_append_getElem h, List.mapIdx_concat,
    List.length_take_of_le (Nat.le_of_lt h), ← List.take_succ_eq_append_getElem h]

end PatternAutomaton.Automaton
