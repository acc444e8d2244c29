import PatternAutomaton.Proofs.Parsing

/-!
# Readings that go alike

Two readers of the same characters can go alike step by step although they hold different
things: one may stand behind more characters and inside of further groups, may have more room,
and may build other trees for the same text. A `Mirror` says what the second reader holds for
what the first one holds. Each step of the first is then a step of the second, and so is each
run, with one exception. What stops the first reader for want of an open group or of room need
not stop a reader that has groups around it or room to spare.
-/
namespace PatternAutomaton
open Pattern

/-- The same fault, `n` characters further on. -/
def PatternError.shift (n : Nat) : PatternError → PatternError
  | unopenedGroup i => unopenedGroup (i + n)
  | nothingBefore i => nothingBefore (i + n)
  | nothingAfter i => nothingAfter (i + n)
  | unclosedGroup => unclosedGroup
  | empty => empty
  | tooDeep i => tooDeep (i + n)

@[simp] theorem PatternError.shift_zero (e : PatternError) : e.shift 0 = e := by
  cases e <;> rfl

/-- Changes a result, or shifts the fault. -/
def carry {α β : Type} (f : α → β) (n : Nat) : Except PatternError α → Except PatternError β
  | .ok a => .ok (f a)
  | .error e => .error (e.shift n)

/-- The two marks that repeat, the bar, the two parentheses, and all other characters. -/
theorem Quantifier.mark_or_reserved_or (c : Char) :
    (∃ q : Quantifier, c = q.mark) ∨ c = '|' ∨ c = '(' ∨ c = ')' ∨ isReserved c = false := by
  by_cases hplus : c = '+'
  · exact .inl ⟨.plus, hplus⟩
  by_cases hstar : c = '*'
  · exact .inl ⟨.star, hstar⟩
  right
  simp only [isReserved, hplus, hstar]
  grind

theorem Reader.step_mark {repetition : Quantifier → Pattern → Pattern} {i : Nat} {r : Reader}
    (q : Quantifier) :
    r.step repetition i q.mark = r.onCurrent (·.quantify (repetition q) i) := by
  cases q <;> rfl

/-- How a second reader goes along with a first one: it stands `ahead` characters further on,
has `spare` more room and the groups `around` it, and holds `tree p` where the first holds
`p`. -/
structure Mirror (repetition repetition' : Quantifier → Pattern → Pattern) where
  tree : Pattern → Pattern
  ahead : Nat
  spare : Nat
  around : List Context
  tree_char : ∀ c, tree (.char c) = .char c
  tree_concat : ∀ p q, tree (.concat p q) = .concat (tree p) (tree q)
  tree_alt : ∀ p q, tree (.alt p q) = .alt (tree p) (tree q)
  tree_repetition : ∀ q p, tree (repetition q p) = repetition' q (tree p)

namespace Mirror

variable {repetition repetition' : Quantifier → Pattern → Pattern}

/-- The same trees, elsewhere. -/
def within (repetition : Quantifier → Pattern → Pattern) (ahead spare : Nat)
    (around : List Context) : Mirror repetition repetition where
  tree := id
  ahead := ahead
  spare := spare
  around := around
  tree_char _ := rfl
  tree_concat _ _ := rfl
  tree_alt _ _ := rfl
  tree_repetition _ _ := rfl

variable (m : Mirror repetition repetition') {i n : Nat} {k : Context} {r : Reader}

def context (k : Context) : Context := ⟨k.alternatives.map m.tree, k.items.map m.tree⟩

def reader (r : Reader) : Reader :=
  ⟨r.room + m.spare, m.context r.current, r.enclosing.map m.context ++ m.around⟩

/-- The faults of the first reader that the second one may do without. -/
def Excuses (e : PatternError) : Prop :=
  (∃ i, e = .unopenedGroup i) ∧ m.around ≠ [] ∨ (∃ i, e = .tooDeep i) ∧ 0 < m.spare

/-- The second result mirrors the first, unless that is a fault that the second reader may do
without. -/
def Follows (first second : Except PatternError Reader) : Prop :=
  (∃ e, first = .error e ∧ m.Excuses e) ∨ second = carry m.reader m.ahead first

theorem reader_within {ahead spare : Nat} {around : List Context} :
    (within repetition ahead spare around).reader =
      fun r => ⟨r.room + spare, r.current, r.enclosing ++ around⟩ := by
  have same : (within repetition ahead spare around).context = id := by
    funext k
    simp [context, within]
  funext r
  rw [reader, same, List.map_id]
  rfl

theorem concatAll?_map (ps : List Pattern) :
    concatAll? (ps.map m.tree) = (concatAll? ps).map m.tree := by
  have fold (last : Pattern) (earlier : List Pattern) :
      (earlier.map m.tree).foldl (fun rest p => concat p rest) (m.tree last) =
        m.tree (earlier.foldl (fun rest p => concat p rest) last) := by
    induction earlier generalizing last with
    | nil => rfl
    | cons p earlier ih => simp only [List.map_cons, List.foldl_cons, ← m.tree_concat, ih]
  cases ps with
  | nil => rfl
  | cons last earlier => simp [concatAll?, fold]

theorem altAll?_map (ps : List Pattern) :
    altAll? (ps.map m.tree) = (altAll? ps).map m.tree := by
  have fold (last : Pattern) (earlier : List Pattern) :
      (earlier.map m.tree).foldl (fun rest p => alt p rest) (m.tree last) =
        m.tree (earlier.foldl (fun rest p => alt p rest) last) := by
    induction earlier generalizing last with
    | nil => rfl
    | cons p earlier ih => simp only [List.map_cons, List.foldl_cons, ← m.tree_alt, ih]
  cases ps with
  | nil => rfl
  | cons last earlier => simp [altAll?, fold]

theorem quantify_context (q : Quantifier) :
    (m.context k).quantify (repetition' q) (i + m.ahead) =
      carry m.context m.ahead (k.quantify (repetition q) i) := by
  obtain ⟨alternatives, items⟩ := k
  cases items with
  | nil => rfl
  | cons latest earlier => simp [Context.quantify, context, carry, m.tree_repetition]

theorem endAlternative_context :
    (m.context k).endAlternative (i + m.ahead) =
      carry m.context m.ahead (k.endAlternative i) := by
  simp only [Context.endAlternative, context, m.concatAll?_map]
  cases concatAll? k.items <;> rfl

theorem close_context :
    (m.context k).close (i + m.ahead) = carry (Option.map m.tree) m.ahead (k.close i) := by
  simp only [Context.close, context, m.concatAll?_map]
  cases concatAll? k.items with
  | none => cases k.alternatives <;> rfl
  | some p =>
    have all := m.altAll?_map (p :: k.alternatives)
    simpa [carry] using all

/-- An operation on the innermost group is mirrored if it is mirrored there. -/
theorem follows_onCurrent {operation operation' : Context → Except PatternError Context}
    (h : operation' (m.context r.current) =
      carry m.context m.ahead (operation r.current)) :
    m.Follows (r.onCurrent operation) ((m.reader r).onCurrent operation') := by
  right
  have current : (m.reader r).current = m.context r.current := rfl
  simp only [Reader.onCurrent, current, h]
  cases operation r.current <;> rfl

theorem follows_openGroup :
    m.Follows (r.openGroup i) ((m.reader r).openGroup (i + m.ahead)) := by
  obtain ⟨room, current, enclosing⟩ := r
  cases room with
  | zero =>
    by_cases h : m.spare = 0
    · right
      simp [Reader.openGroup, reader, h, carry, PatternError.shift]
    · exact .inl ⟨_, rfl, .inr ⟨⟨i, rfl⟩, Nat.pos_of_ne_zero h⟩⟩
  | succ room =>
    right
    have more : room + 1 + m.spare = room + m.spare + 1 := by omega
    simp [Reader.openGroup, reader, more, carry, context]

theorem follows_closeGroup :
    m.Follows (r.closeGroup i) ((m.reader r).closeGroup (i + m.ahead)) := by
  obtain ⟨room, current, enclosing⟩ := r
  cases enclosing with
  | nil =>
    by_cases h : m.around = []
    · right
      simp [Reader.closeGroup, reader, h, carry, PatternError.shift]
    · exact .inl ⟨_, rfl, .inl ⟨⟨i, rfl⟩, h⟩⟩
  | cons outer enclosing =>
    right
    have more : room + 1 + m.spare = room + m.spare + 1 := by omega
    simp only [Reader.closeGroup, reader, List.map_cons, List.cons_append, m.close_context]
    cases current.close i with
    | error e => rfl
    | ok item => cases item <;> simp [carry, reader, more, context, Context.addItem]

/-- Each step of the first reader is a step of the second. -/
theorem follows_step (c : Char) :
    m.Follows (r.step repetition i c) ((m.reader r).step repetition' (i + m.ahead) c) := by
  rcases Quantifier.mark_or_reserved_or c with ⟨q, rfl⟩ | rfl | rfl | rfl | h
  · rw [Reader.step_mark, Reader.step_mark]
    exact m.follows_onCurrent (m.quantify_context q)
  · exact m.follows_onCurrent m.endAlternative_context
  · exact m.follows_openGroup
  · exact m.follows_closeGroup
  · right
    rw [Reader.step_of_not_reserved h, Reader.step_of_not_reserved h]
    simp [carry, reader, context, Context.addItem, m.tree_char]

/-- Each run of the first reader is a run of the second. -/
theorem follows_run (text : List Char) :
    m.Follows (r.run repetition i text) ((m.reader r).run repetition' (i + m.ahead) text) := by
  induction text generalizing i r with
  | nil => exact .inr rfl
  | cons c text ih =>
    simp only [Reader.run]
    rcases m.follows_step (r := r) (i := i) c with ⟨e, he, excused⟩ | mirrored
    · rw [he]
      exact .inl ⟨e, rfl, excused⟩
    · rw [mirrored]
      cases r.step repetition i c with
      | error e => exact .inr rfl
      | ok r' =>
        have shifted : i + 1 + m.ahead = i + m.ahead + 1 := by omega
        have rest := ih (i := i + 1) (r := r')
        rwa [shifted] at rest

/-- Without groups around it and without room to spare, the second reader shares all faults. -/
theorem not_excuses (haround : m.around = []) (hspare : m.spare = 0) (e : PatternError) :
    ¬ m.Excuses e := by
  rintro (⟨-, h⟩ | ⟨-, h⟩)
  · exact h haround
  · omega

theorem run_eq_carry (text : List Char)
    (h : ∀ e, r.run repetition i text = .error e → ¬ m.Excuses e) :
    (m.reader r).run repetition' (i + m.ahead) text =
      carry m.reader m.ahead (r.run repetition i text) := by
  rcases m.follows_run (r := r) (i := i) text with ⟨e, he, excused⟩ | mirrored
  · exact absurd excused (h e he)
  · exact mirrored

theorem run_of_ok {text : List Char} {r' : Reader} (h : r.run repetition i text = .ok r') :
    (m.reader r).run repetition' (i + m.ahead) text = .ok (m.reader r') := by
  rw [m.run_eq_carry text (by simp [h]), h]
  rfl

/-- At the end of the text a reader outside of further groups has the mirrored result. -/
theorem finish_reader (h : m.around = []) :
    (m.reader r).finish (n + m.ahead) = carry m.tree m.ahead (r.finish n) := by
  obtain ⟨room, current, enclosing⟩ := r
  cases enclosing with
  | cons outer enclosing => rfl
  | nil =>
    simp only [Reader.finish, reader, h, List.map_nil, List.append_nil, m.close_context]
    cases current.close n with
    | error e => rfl
    | ok item => cases item <;> rfl

end Mirror
end PatternAutomaton
