import PatternAutomaton.Automaton.Layout
import PatternAutomaton.Automaton.Reachable
import PatternAutomaton.Automaton.Run

/-!
# Checked execution

Layout, discovery, closure and run once more, with every assumption checked where it is made: a
slot is still reserved when it is filled, and an index is in the table when the table is read at
it. The first check that fails ends everything without a result.

Elsewhere a state outside the table is a dead end and a slot is filled whatever it holds. Here
both are faults, so a result means that the other definitions never relied on either.
-/
namespace PatternAutomaton

namespace Layout

/-- Fills a slot that is still reserved. -/
def fill? (id : StateId) (s : State) (states : Array State) : Option Layout :=
  if states[id]? = some .reserved then some (fill id s states) else none

mutual

/-- Lays out a pattern that goes on to `next`. -/
def lay? : Pattern → StateId → Array State → Option Layout
  | .char c, next, states => some (place (.consume (.ofChar c) next) states)
  | .concat p q, next, states => do
    let spine := Pattern.concatSpine q [p]
    let last ← lay? spine.1 next states
    laySequence? spine.2 last.entry last.states
  | .alt p q, next, states => do
    let spine := Pattern.altSpine q [p]
    let last ← lay? spine.1 next states
    layChoices? spine.2 next last.entry last.states
  | .star p, next, states => do
    let loop := reserve states
    let body ← lay? p loop.entry loop.states
    fill? loop.entry (.split body.entry next) body.states
  | .plus p, next, states => do
    let loop := reserve states
    let out ← lay? p next loop.states
    let back ← lay? p loop.entry out.states
    fill? loop.entry (.split out.entry back.entry) back.states
termination_by p => 2 * p.size
decreasing_by
  · have := Pattern.concatSpine_size_lt p q; omega
  · have := Pattern.concatSpine_size_lt p q; omega
  · have := Pattern.altSpine_size_lt p q; omega
  · have := Pattern.altSpine_size_lt p q; omega
  all_goals simp only [Pattern.size]; omega

/-- Lays out patterns listed latest first, each going on to the one after it. -/
def laySequence? : List Pattern → StateId → Array State → Option Layout
  | [], next, states => some ⟨next, states⟩
  | p :: earlier, next, states => do
    let here ← lay? p next states
    laySequence? earlier here.entry here.states
termination_by ps => 2 * Pattern.totalSize ps + 1
decreasing_by
  all_goals have := p.size_pos; simp only [Pattern.totalSize]; omega

/-- Lays out patterns listed latest first, each with a choice between it and `others`. -/
def layChoices? : List Pattern → StateId → StateId → Array State → Option Layout
  | [], _, others, states => some ⟨others, states⟩
  | p :: earlier, next, others, states => do
    let here ← lay? p next states
    let choice := place (.split here.entry others) here.states
    layChoices? earlier next choice.entry choice.states
termination_by ps => 2 * Pattern.totalSize ps + 1
decreasing_by
  all_goals have := p.size_pos; simp only [Pattern.totalSize]; omega

end

end Layout

namespace Automaton

/-- Empties the stack. -/
def search? (a : Automaton) (round : Nat) (visited : Array Nat) (stack found : List StateId)
    (pops : Nat) : Option Closure :=
  match stack with
  | [] => some ⟨found.reverse, ⟨visited, round⟩, pops⟩
  | id :: rest =>
    if h : id < visited.size then
      if marked : visited[id] = round then
        search? a round visited rest found (pops + 1)
      else
        have := countP_set_add_one (· != round) visited id round h
          (bne_iff_ne.mpr marked) (bne_self_eq_false round)
        match a.state? id with
        | some (.split first second) =>
          search? a round (visited.set id round) (first :: second :: rest) found (pops + 1)
        | some (.consume _ _) | some .accept =>
          search? a round (visited.set id round) rest (id :: found) (pops + 1)
        | some .reserved => search? a round (visited.set id round) rest found (pops + 1)
        | none => none
    else none
termination_by 2 * visited.countP (· != round) + stack.length
decreasing_by all_goals simp only [List.length_cons]; omega

/-- The closure of the seeds. -/
def closure? (a : Automaton) (marks : Marks) (seeds : List StateId) : Option Closure :=
  a.search? (marks.round + 1) marks.visited seeds [] 0

/-- The marks that closures of the given seeds leave behind, made one after the other. -/
def marksAfter? (a : Automaton) (marks : Marks) (calls : List (List StateId)) : Option Marks :=
  calls.foldlM (fun marks seeds => (a.closure? marks seeds).map Closure.marks) marks

/-- Runs on from a frontier. All its states are looked up before every character and at the
end. -/
def runFrom? (a : Automaton) (marks : Marks) (frontier : List StateId) (position : Nat)
    (advances : List Advance) (pops : Nat) : List Char → Option Run
  | [] => do
    let states ← frontier.mapM a.state?
    return ⟨advances.reverse, .finished (states.any State.isAccept), pops⟩
  | c :: rest => do
    let states ← frontier.mapM a.state?
    let next ← a.closure? marks (states.filterMap (State.afterChar? c))
    let advances := ⟨position, c, next.states.length⟩ :: advances
    if next.states.isEmpty then
      return ⟨advances.reverse, .stuck position, pops + next.pops⟩
    else
      runFrom? a next.marks next.states (position + 1) advances (pops + next.pops) rest

def run? (a : Automaton) (line : List Char) : Option Run := do
  let first ← a.closure? (.fresh a.size) [a.start]
  a.runFrom? first.marks first.states 0 [] first.pops line

namespace Discovery

/-- Puts a state at the end, unless it was found before. -/
def add? (d : Discovery) (id : StateId) : Option Discovery :=
  if id < d.isFound.size then some (d.add id) else none

/-- Puts the states of a list at the end, each unless it was found before. -/
def addAll? : List StateId → Discovery → Option Discovery
  | [], d => some d
  | id :: ids, d => do addAll? ids (← d.add? id)

theorem eq_of_addAll? {ids : List StateId} {d d' : Discovery} (h : addAll? ids d = some d') :
    d' = ids.foldl add d := by
  induction ids generalizing d with
  | nil => exact (Option.some.inj h).symm
  | cons id ids ih =>
    obtain ⟨e, he, h⟩ := Option.bind_eq_some_iff.mp h
    rw [ih h, List.foldl_cons]
    by_cases lt : id < d.isFound.size
    · rw [add?, if_pos lt] at he
      rw [Option.some.inj he]
    · rw [add?, if_neg lt] at he
      cases he

end Discovery

/-- Visits the states found, from the one at place `i` on. -/
def discover? (a : Automaton) (d : Discovery) (i : Nat) : Option (Array StateId) :=
  if h : i < d.found.size then
    match a.state? d.found[i] with
    | none => none
    | some s =>
      match added : Discovery.addAll? s.targets d with
      | none => none
      | some d' => discover? a d' (i + 1)
  else
    some d.found
termination_by d.total - i
decreasing_by
  rw [Discovery.eq_of_addAll? added, Discovery.total_foldl_add]
  simp only [Discovery.total]
  omega

/-- The states that edges lead to from the start, nearest first. -/
def reachable? (a : Automaton) : Option (List StateId) := do
  let first ← (Discovery.empty a.size).add? a.start
  let found ← a.discover? first 0
  return found.toList

/-- The automaton itself, if no state that is reachable in it is reserved. -/
def filled? (a : Automaton) : Option Automaton := do
  let found ← a.reachable?
  let states ← found.mapM a.state?
  if states.all (· != .reserved) then some a else none

/-- The automaton of a pattern. -/
def ofPattern? (p : Pattern) : Option Automaton := do
  let layout ← Layout.lay? p acceptId #[.accept]
  filled? { states := layout.states, start := layout.entry }

end Automaton
end PatternAutomaton
