import PatternAutomaton.Automaton.Layout

/-!
# Layout along a spine

Walking the spine of a concatenation or alternation as a list comes to the same as recursion on
the tree: the layout of a concatenation is the layout of its second part and then of its first,
and the layout of an alternation adds one split behind the two. With these equations the layout
of a pattern is followed by induction on the pattern, whatever its spines are.
-/
namespace PatternAutomaton
open Pattern

namespace Pattern

theorem concatSpine_append (p : Pattern) (earlier more : List Pattern) :
    concatSpine p (earlier ++ more) =
      ((concatSpine p earlier).1, (concatSpine p earlier).2 ++ more) := by
  fun_induction concatSpine p earlier with
  | case1 p q earlier ih => simpa only [concatSpine, List.cons_append] using ih
  | case2 p earlier h => rw [concatSpine.eq_2 _ _ h]

theorem altSpine_append (p : Pattern) (earlier more : List Pattern) :
    altSpine p (earlier ++ more) = ((altSpine p earlier).1, (altSpine p earlier).2 ++ more) := by
  fun_induction altSpine p earlier with
  | case1 p q earlier ih => simpa only [altSpine, List.cons_append] using ih
  | case2 p earlier h => rw [altSpine.eq_2 _ _ h]

end Pattern

namespace Layout

@[simp] theorem laySequence_nil (next : StateId) (states : Array State) :
    laySequence [] next states = ⟨next, states⟩ := by rw [laySequence]

@[simp] theorem laySequence_cons (p : Pattern) (earlier : List Pattern) (next : StateId)
    (states : Array State) :
    laySequence (p :: earlier) next states =
      laySequence earlier (lay p next states).entry (lay p next states).states := by
  rw [laySequence]

theorem laySequence_append (ps qs : List Pattern) (next : StateId) (states : Array State) :
    laySequence (ps ++ qs) next states =
      laySequence qs (laySequence ps next states).entry (laySequence ps next states).states := by
  induction ps generalizing next states with
  | nil => simp
  | cons p ps ih => simp [ih]

@[simp] theorem layChoices_nil (next others : StateId) (states : Array State) :
    layChoices [] next others states = ⟨others, states⟩ := by rw [layChoices]

@[simp] theorem layChoices_cons (p : Pattern) (earlier : List Pattern) (next others : StateId)
    (states : Array State) :
    layChoices (p :: earlier) next others states =
      layChoices earlier next
        (place (.split (lay p next states).entry others) (lay p next states).states).entry
        (place (.split (lay p next states).entry others) (lay p next states).states).states := by
  rw [layChoices]

theorem layChoices_append (ps qs : List Pattern) (next others : StateId)
    (states : Array State) :
    layChoices (ps ++ qs) next others states =
      layChoices qs next (layChoices ps next others states).entry
        (layChoices ps next others states).states := by
  induction ps generalizing others states with
  | nil => simp
  | cons p ps ih => simp [ih]

/-- A pattern is laid out along its own concatenation spine, which may be of one operand. -/
theorem lay_eq_laySequence (p : Pattern) (next : StateId) (states : Array State) :
    lay p next states =
      laySequence (concatSpine p []).2 (lay (concatSpine p []).1 next states).entry
        (lay (concatSpine p []).1 next states).states := by
  cases p with
  | concat p q => rw [lay, concatSpine]
  | char | alt | star | plus => simp [concatSpine]

/-- A pattern is laid out along its own alternation spine, which may be of one operand. -/
theorem lay_eq_layChoices (p : Pattern) (next : StateId) (states : Array State) :
    lay p next states =
      layChoices (altSpine p []).2 next (lay (altSpine p []).1 next states).entry
        (lay (altSpine p []).1 next states).states := by
  cases p with
  | alt p q => rw [lay, altSpine]
  | char | concat | star | plus => simp [altSpine]

theorem lay_char (c : Char) (next : StateId) (states : Array State) :
    lay (.char c) next states = place (.consume (.ofChar c) next) states := by rw [lay]

theorem lay_concat (p q : Pattern) (next : StateId) (states : Array State) :
    lay (.concat p q) next states =
      lay p (lay q next states).entry (lay q next states).states := by
  have spine : concatSpine q [p] = ((concatSpine q []).1, (concatSpine q []).2 ++ [p]) :=
    concatSpine_append q [] [p]
  rw [lay, spine, laySequence_append, laySequence_cons, laySequence_nil,
    ← lay_eq_laySequence q]

theorem lay_alt (p q : Pattern) (next : StateId) (states : Array State) :
    lay (.alt p q) next states =
      place
        (.split (lay p next (lay q next states).states).entry (lay q next states).entry)
        (lay p next (lay q next states).states).states := by
  have spine : altSpine q [p] = ((altSpine q []).1, (altSpine q []).2 ++ [p]) :=
    altSpine_append q [] [p]
  rw [lay, spine, layChoices_append, layChoices_cons, layChoices_nil, ← lay_eq_layChoices q]

theorem lay_star (p : Pattern) (next : StateId) (states : Array State) :
    lay (.star p) next states =
      fill states.size
        (.split (lay p states.size (states.push .reserved)).entry next)
        (lay p states.size (states.push .reserved)).states := by
  rw [lay]; rfl

theorem lay_plus (p : Pattern) (next : StateId) (states : Array State) :
    lay (.plus p) next states =
      fill states.size
        (.split (lay p next (states.push .reserved)).entry
          (lay p states.size (lay p next (states.push .reserved)).states).entry)
        (lay p states.size (lay p next (states.push .reserved)).states).states := by
  rw [lay]; rfl

/-- Along spines or by recursion on the tree, the same states are put at the same places. The
induction is on the tree, with table and continuation general: the parts laid out later come
first, and the earlier ones see the table and the entry that these leave. -/
theorem lay_eq_layNested (p : Pattern) (next : StateId) (states : Array State) :
    lay p next states = layNested p next states := by
  induction p generalizing next states with
  | char c => rw [lay_char, layNested]
  | concat p q ihp ihq => rw [lay_concat, layNested, ihq, ihp]
  | alt p q ihp ihq => rw [lay_alt, layNested, ihq, ihp]
  | star p ih => rw [lay_star, layNested, ih]; rfl
  | plus p ih => rw [lay_plus, layNested, ih, ih]; rfl

end Layout
end PatternAutomaton
