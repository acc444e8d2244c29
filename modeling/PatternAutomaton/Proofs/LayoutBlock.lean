import PatternAutomaton.Proofs.LayoutFragment

/-!
# The block that a layout appends

What a layout does to the table it starts from, and how its block depends on that table. The
states that were there stay, also the slots that an outer repetition has still to fill. Behind
them comes one block, whose edges stay in it or lead to the continuation, and in every table that
has the block its paths to the continuation take the lines of the pattern.

Laid out behind another table and with another continuation, a pattern gives the same block, moved.
This is shown of every renaming of the states that shifts what is behind the one table to behind the
other, since the same renaming then serves for the layouts inside, whose continuations may be in
the block itself. That the outer continuation stands before the block is needed only for such a
renaming to exist.
-/
namespace PatternAutomaton

/-- The same state with its edges led elsewhere. -/
def State.mapTargets (f : StateId → StateId) : State → State
  | consume symbol next => consume symbol (f next)
  | split first second => split (f first) (f second)
  | accept => accept
  | reserved => reserved

namespace Layout
open Automaton

variable {f : StateId → StateId} {s : State} {block later earlier states states' : Array State}
  {next : Nat} {here there here' there' : Layout}

/-! ## What is appended -/

/-- The table that a layout leaves has its block, with nothing behind it. -/
theorem lay_fragment_alone (p : Pattern) (h : next < states.size) :
    Fragment { states := (lay p next states).states, start := (lay p next states).entry }
      (Set.Ico states.size (lay p next states).states.size) (lay p next states).entry next
      p.language :=
  lay_fragment p next states h fun _ _ _ => rfl

/-- A state that a layout appends consumes or splits, and its edges stay in the block or lead to
the continuation. -/
theorem exists_getElem?_lay (p : Pattern) (h : next < states.size) {i : Nat}
    (hi : i ∈ Set.Ico states.size (lay p next states).states.size) :
    ∃ s, (lay p next states).states[i]? = some s ∧ s ≠ .accept ∧ s ≠ .reserved ∧
      ∀ t ∈ s.targets,
        t ∈ Set.Ico states.size (lay p next states).states.size ∨ t = next := by
  let a : Automaton := { states := (lay p next states).states, start := (lay p next states).entry }
  have whole := lay_fragment_alone p h
  have stays {s : State} (hs : a.state? i = some s) :
      ∀ t ∈ s.targets,
        t ∈ Set.Ico states.size (lay p next states).states.size ∨ t = next := by
    intro t ht
    have edge : a.HasEdge i t := by simpa [HasEdge, targets, hs] using ht
    obtain ⟨w, step⟩ := hasEdge_iff_step.mp edge
    exact whole.exits i hi w t step
  rcases whole.kind hi with ⟨symbol, t, hs⟩ | ⟨first, second, hs⟩
  · exact ⟨_, hs, State.noConfusion, State.noConfusion, stays hs⟩
  · exact ⟨_, hs, State.noConfusion, State.noConfusion, stays hs⟩

/-- Whatever a table holds, slots included, a layout leaves it as it is and appends a block that is
not empty, holds the entry, and has neither an accepting state nor an unfilled slot. No edge leaves
the block but to the continuation. In every automaton that has the block, whatever is filled in
before it or comes behind it, the paths from the entry inside the block to the continuation take
exactly the lines of the pattern. Such a path ends where it first gets to the continuation, which is
not in the block. -/
theorem lay_appends_fragment (p : Pattern) (h : next < states.size) :
    let laid := lay p next states
    let block := Set.Ico states.size laid.states.size
    (∀ i < states.size, laid.states[i]? = states[i]?) ∧
      laid.entry ∈ block ∧ next ∉ block ∧
      (∀ i ∈ block, ∃ s, laid.states[i]? = some s ∧ s ≠ .accept ∧ s ≠ .reserved ∧
        ∀ t ∈ s.targets, t ∈ block ∨ t = next) ∧
      ∀ a : Automaton, a.Holds states.size laid.states →
        ∀ line, a.PathIn block laid.entry line next ↔ line ∈ p.language := by
  intro laid block
  have whole := lay_fragment_alone p h
  exact ⟨fun i hi => getElem?_lay p next states hi, whole.entry_mem, whole.next_not_mem,
    fun i hi => exists_getElem?_lay p h hi,
    fun a holds line => (lay_fragment p next states h holds).pathIn_iff⟩

/-- Behind the slot of an outer loop, which is filled later on and which the pattern leads back
to. -/
theorem lay_appends_fragment_in_loop :
    let p : Pattern := .plus (.star (.char 'a'))
    let states : Array State := #[.accept, .reserved]
    let a : Automaton :=
      { states := #[.accept, .split 2 0, .split 3 5, .split 4 1, .consume (.char 'a') 3,
          .split 6 2, .consume (.char 'a') 5, .consume .any 1]
        start := 1 }
    1 < states.size ∧ a.Holds states.size (lay p 1 states).states ∧
      a.PathIn (Set.Ico 2 7) 2 ['a', 'a'] 1 := by
  intro p states a
  have inside : 1 < states.size := by decide
  have laid : lay p 1 states = ⟨2, a.states.pop.set! 1 .reserved⟩ := by
    rw [lay_eq_layNested]
    rfl
  have holds : a.Holds states.size (lay p 1 states).states := by
    have same : ∀ i < 7, 2 ≤ i → a.state? i = (a.states.pop.set! 1 .reserved)[i]? := by decide
    rw [laid]
    exact fun i lo hi => same i hi lo
  have twice : ['a', 'a'] ∈ (Pattern.star (.char 'a')).language := by
    have one : ['a'] ∈ (Pattern.char 'a').language := rfl
    exact Language.mem_kstar.mpr ⟨[['a'], ['a']], rfl, by simp [one]⟩
  have line : ['a', 'a'] ∈ p.language := ⟨['a', 'a'], twice, [], Language.nil_mem_kstar _, rfl⟩
  obtain ⟨-, -, -, -, paths⟩ := lay_appends_fragment p inside
  have path := (paths a holds ['a', 'a']).mpr line
  rw [laid] at path
  exact ⟨inside, holds, path⟩

/-! ## The same block elsewhere -/

/-- What is behind the one table is renamed to what is as far behind the other. -/
def Shifts (f : StateId → StateId) (states states' : Array State) : Prop :=
  ∀ i, f (states.size + i) = states'.size + i

/-- Behind two tables, two layouts append the same block up to a renaming, with the same entry. -/
structure Copies (f : StateId → StateId) (states states' block : Array State)
    (here there : Layout) : Prop where
  here_eq : here.states = states ++ block
  there_eq : there.states = states' ++ block.map (.mapTargets f)
  entry_eq : there.entry = f here.entry

theorem Shifts.size_eq (shifts : Shifts f states states') : f states.size = states'.size :=
  shifts 0

theorem Shifts.push (shifts : Shifts f states states') (s s' : State) :
    Shifts f (states.push s) (states'.push s') := by
  intro i
  have := shifts (1 + i)
  simpa only [Array.size_push, Nat.add_assoc] using this

/-- The slot between a table and a block is filled, and nothing else changes. -/
theorem setIfInBounds_push_append (states block : Array State) (slot s : State) :
    (states.push slot ++ block).setIfInBounds states.size s = states.push s ++ block := by
  apply Array.ext'
  simp

namespace Copies

theorem shifts (copies : Copies f states states' block here there)
    (shifts : Shifts f states states') : Shifts f here.states there.states := by
  intro i
  rw [copies.here_eq, copies.there_eq, Array.size_append, Array.size_append, Array.size_map,
    Nat.add_assoc, shifts, Nat.add_assoc]

/-- A layout that starts where another one ended appends to its block. -/
theorem trans (first : Copies f states states' later here there)
    (second : Copies f here.states there.states earlier here' there') :
    Copies f states states' (later ++ earlier) here' there' where
  here_eq := by rw [second.here_eq, first.here_eq, Array.append_assoc]
  there_eq := by rw [second.there_eq, first.there_eq, Array.map_append, Array.append_assoc]
  entry_eq := second.entry_eq

theorem place (shifts : Shifts f states states') (s : State) :
    Copies f states states' #[s] (place s states) (place (s.mapTargets f) states') where
  here_eq := Array.push_eq_append
  there_eq := by rw [place_states, Array.push_eq_append, Array.map_singleton]
  entry_eq := shifts.size_eq.symm

/-- A body behind a slot makes one block with it once the slot is filled. -/
theorem fill (shifts : Shifts f states states') (s : State)
    (body : Copies f (states.push .reserved) (states'.push .reserved) block here there) :
    Copies f states states' (#[s] ++ block) (fill states.size s here.states)
      (fill states'.size (s.mapTargets f) there.states) where
  here_eq := by
    rw [fill_states, body.here_eq, setIfInBounds_push_append, Array.push_eq_append,
      Array.append_assoc]
  there_eq := by
    rw [fill_states, body.there_eq, setIfInBounds_push_append, Array.push_eq_append,
      Array.append_assoc, Array.map_append, Array.map_singleton]
  entry_eq := shifts.size_eq.symm

end Copies

/-- A renaming that shifts the end of one table to the end of another one carries a whole layout
along: with the renamed continuation, the same block comes behind the other table. -/
theorem exists_copies_lay (p : Pattern) (next : StateId) (shifts : Shifts f states states') :
    ∃ block, Copies f states states' block (lay p next states) (lay p (f next) states') := by
  -- The renaming stays the same throughout. What an inner layout leads on to, be it an entry laid
  -- out before or the slot of a loop, is renamed by it as the continuation of the whole is.
  induction p generalizing next states states' with
  | char c =>
    rw [lay_char, lay_char]
    exact ⟨_, .place shifts (.consume (.ofChar c) next)⟩
  | concat p q ihp ihq =>
    rw [lay_concat, lay_concat]
    obtain ⟨later, copied⟩ := ihq next shifts
    rw [copied.entry_eq]
    obtain ⟨earlier, copied'⟩ := ihp (lay q next states).entry (copied.shifts shifts)
    exact ⟨_, copied.trans copied'⟩
  | alt p q ihp ihq =>
    rw [lay_alt, lay_alt]
    obtain ⟨other, copied⟩ := ihq next shifts
    obtain ⟨first, copied'⟩ := ihp next (copied.shifts shifts)
    rw [copied.entry_eq, copied'.entry_eq]
    exact ⟨_, (copied.trans copied').trans (.place (copied'.shifts (copied.shifts shifts))
      (.split _ _))⟩
  | star p ih =>
    rw [lay_star, lay_star]
    have opened := shifts.push .reserved .reserved
    have body := ih states.size opened
    rw [shifts.size_eq] at body
    obtain ⟨block, copied⟩ := body
    rw [copied.entry_eq]
    exact ⟨_, .fill shifts (.split _ next) copied⟩
  | plus p ih =>
    rw [lay_plus, lay_plus]
    have opened := shifts.push .reserved .reserved
    obtain ⟨out, copied⟩ := ih next opened
    have body := ih states.size (copied.shifts opened)
    rw [shifts.size_eq] at body
    obtain ⟨back, copied'⟩ := body
    rw [copied.entry_eq, copied'.entry_eq]
    exact ⟨_, .fill shifts (.split _ _) (copied.trans copied')⟩

/-- Where the edges of a block lead once it stands from `lo'` on and not from `lo` on, and goes on
to `next'` and not to `next`. -/
def relocate (lo lo' next next' t : Nat) : Nat :=
  if t = next then next' else lo' + (t - lo)

theorem relocate_next (lo lo' next next' : Nat) :
    relocate lo lo' next next' next = next' := if_pos rfl

theorem relocate_add {lo : Nat} (h : next < lo) (lo' next' i : Nat) :
    relocate lo lo' next next' (lo + i) = lo' + i := by
  rw [relocate, if_neg (by omega), Nat.add_sub_cancel_left]

/-- Every edge of the block leads to `next` and is moved to `next'`, or stays in the block and is
moved along with it. -/
def Relocates (block : Array State) (lo lo' next next' : Nat) : Prop :=
  ∀ s ∈ block, ∀ t ∈ s.targets,
    (t = next ∧ relocate lo lo' next next' t = next') ∨
      ∃ i < block.size, t = lo + i ∧ relocate lo lo' next next' t = lo' + i

theorem relocates_of_lay {p : Pattern} (h : next < states.size)
    (laid : (lay p next states).states = states ++ block) (lo' next' : Nat) :
    Relocates block states.size lo' next next' := by
  intro s hs t ht
  obtain ⟨j, hj, rfl⟩ := Array.mem_iff_getElem.mp hs
  have size : (lay p next states).states.size = states.size + block.size := by
    rw [laid, Array.size_append]
  have here : (lay p next states).states[states.size + j]? = some block[j] := by
    rw [laid, Array.getElem?_append_right (Nat.le_add_right _ _), Nat.add_sub_cancel_left,
      Array.getElem?_eq_getElem hj]
  obtain ⟨s', found, -, -, stays⟩ :=
    exists_getElem?_lay p h (i := states.size + j) ⟨Nat.le_add_right _ _, by omega⟩
  obtain rfl := Option.some.inj (here.symm.trans found)
  rcases stays t ht with ⟨lo, hi⟩ | rfl
  · obtain ⟨i, rfl⟩ := Nat.exists_eq_add_of_le lo
    rw [size] at hi
    exact .inr ⟨i, Nat.lt_of_add_lt_add_left hi, rfl, relocate_add h ..⟩
  · exact .inl ⟨rfl, relocate_next ..⟩

/-- The block of a pattern behind one table, and the same block behind another one. -/
theorem exists_block_lay (p : Pattern) (h : next < states.size) (next' : Nat)
    (states' : Array State) :
    ∃ k block, k < block.size ∧ Relocates block states.size states'.size next next' ∧
      lay p next states = ⟨states.size + k, states ++ block⟩ ∧
      lay p next' states' = ⟨states'.size + k, states' ++
        block.map (.mapTargets (relocate states.size states'.size next next'))⟩ := by
  have shifts : Shifts (relocate states.size states'.size next next') states states' :=
    fun i => relocate_add h _ next' i
  have copied := exists_copies_lay p next shifts
  rw [relocate_next] at copied
  obtain ⟨block, here, there, entry⟩ := copied
  obtain ⟨lo, hi⟩ := (lay_fragment_alone p h).entry_mem
  rw [here, Array.size_append] at hi
  obtain ⟨k, hk⟩ := Nat.exists_eq_add_of_le lo
  rw [hk] at hi
  rw [hk, relocate_add h] at entry
  refine ⟨k, block, Nat.lt_of_add_lt_add_left hi, relocates_of_lay h here _ next', ?_, ?_⟩
  · rw [← hk, ← here]
  · rw [← entry, ← there]

/-- A layout can be moved. Behind any two tables and with any two continuations, a pattern is laid
out to the same block, entered at the same place, but for its edges: those inside the block are
moved with it, and those to the one continuation lead to the other one. So the two copies of what a
`+` repeats stand behind each other and are the same up to that, the first one leading on and the
second one back to the split. -/
theorem lay_relocates (p : Pattern) (h : next < states.size) (next' : Nat)
    (states' : Array State) :
    (∃ k block, k < block.size ∧ Relocates block states.size states'.size next next' ∧
      lay p next states = ⟨states.size + k, states ++ block⟩ ∧
      lay p next' states' = ⟨states'.size + k, states' ++
        block.map (.mapTargets (relocate states.size states'.size next next'))⟩) ∧
    ∃ k copy, k < copy.size ∧
      let slot := states.size
      let opened := (reserve states).states
      let lo := slot + 1
      let lo' := lo + copy.size
      let moved := copy.map (.mapTargets (relocate lo lo' next slot))
      Relocates copy lo lo' next slot ∧
      (∀ i ∈ Set.Ico lo lo', i ∉ Set.Ico lo' (lo' + moved.size)) ∧
      lay p next opened = ⟨lo + k, opened ++ copy⟩ ∧
      lay p slot (opened ++ copy) = ⟨lo' + k, opened ++ copy ++ moved⟩ ∧
      lay (.plus p) next states =
        ⟨slot, states.push (.split (lo + k) (lo' + k)) ++ copy ++ moved⟩ := by
  refine ⟨exists_block_lay p h next' states', ?_⟩
  have inside : next < (states.push .reserved).size := by
    rw [Array.size_push]
    omega
  obtain ⟨k, copy, hk, moves, out, back⟩ := exists_block_lay p inside states.size
    (lay p next (states.push .reserved)).states
  simp only [out, Array.size_append, Array.size_push] at back moves
  rw [Array.size_push] at out
  refine ⟨k, copy, hk, moves, fun i first second => first.2.not_ge second.1, out, back, ?_⟩
  simp only [lay_plus, out, back, fill, Array.append_assoc, setIfInBounds_push_append]

/-- A repetition behind a character, moved behind a slot and a state, and repeated as a whole. -/
theorem lay_relocates_behind_slot :
    let p : Pattern := .concat (.char 'a') (.star (.char 'b'))
    let states : Array State := #[.accept]
    let states' : Array State := #[.accept, .reserved, .consume .any 1]
    0 < states.size ∧
      (∃ block, lay p 0 states = ⟨3, states ++ block⟩ ∧
        lay p 1 states' = ⟨5, states' ++ block.map (.mapTargets (relocate 1 3 0 1))⟩) ∧
      ∃ copy, lay (.plus p) 0 states =
        ⟨1, #[.accept, .split 4 7] ++ copy ++ copy.map (.mapTargets (relocate 2 5 0 1))⟩ := by
  intro p states states'
  have inside : 0 < states.size := by decide
  obtain ⟨⟨k, block, -, -, here, there⟩, k', copy, -, -, -, out, -, whole⟩ :=
    lay_relocates p inside 1 states'
  have laid : lay p 0 states =
      ⟨3, #[.accept, .split 2 0, .consume (.char 'b') 1, .consume (.char 'a') 1]⟩ := by
    rw [lay_eq_layNested]
    rfl
  have laid' : lay p 0 (reserve states).states =
      ⟨4, #[.accept, .reserved, .split 3 0, .consume (.char 'b') 2, .consume (.char 'a') 2]⟩ := by
    rw [lay_eq_layNested]
    rfl
  have entry : 1 + k = 1 + 2 := congrArg Layout.entry (here.symm.trans laid)
  have entry' : 2 + k' = 2 + 2 := congrArg Layout.entry (out.symm.trans laid')
  have size : ((reserve states).states ++ copy).size = 5 :=
    congrArg (fun l => l.states.size) (out.symm.trans laid')
  obtain rfl := Nat.add_left_cancel entry
  obtain rfl := Nat.add_left_cancel entry'
  have three : copy.size = 3 := by
    rw [Array.size_append] at size
    exact Nat.add_left_cancel (size : 2 + copy.size = 2 + 3)
  rw [three] at whole
  exact ⟨inside, ⟨block, here, there⟩, copy, whole⟩

end Layout
end PatternAutomaton
