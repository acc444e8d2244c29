import PatternAutomaton.Proofs.Limit

/-!
# Groups that hold nothing

A part of a text that leaves the reader as it was is without effect: what comes behind it is read
to the same, and has the same faults further on. An empty group is such a part wherever there is
room to open it. It may stand between an item and its quantifier, behind a bar or a parenthesis,
and at either end of the text.
-/
namespace PatternAutomaton
open Pattern

namespace Reader

variable {repetition : Quantifier → Pattern → Pattern} {i : Nat} {r : Reader}

/-- An empty group leaves no item behind and gives back the room that it took. -/
theorem run_empty_group (h : 0 < r.room) : r.run repetition i "()".toList = .ok r := by
  obtain ⟨room, current, enclosing⟩ := r
  cases room with
  | zero => exact absurd h (Nat.lt_irrefl 0)
  | succ room => rfl

theorem finish_shift (n k : Nat) : r.finish (n + k) = carry id k (r.finish n) := by
  obtain ⟨room, current, enclosing⟩ := r
  cases enclosing with
  | cons outer enclosing => rfl
  | nil =>
    rcases current.close_cases with ⟨item, close⟩ | close
    · cases item <;> simp [finish, close, carry, PatternError.shift]
    · simp [finish, close, carry, PatternError.shift]

end Reader

theorem PatternError.shift_injective (n : Nat) : Function.Injective (shift n) := by
  intro e f same
  cases e <;> cases f <;> simp_all [shift]

namespace Pattern

variable {d : Nat} {u v part : List Char}

/-- A text in which no fault belongs to a character of the first part is read through that
part. -/
theorem live_of_faults_behind
    (behind : ∀ e i, parse d (u ++ v) = .error e → e.position? = some i → u.length ≤ i) :
    Live d u := by
  refine Classical.byContradiction fun dead => ?_
  obtain ⟨before, c, more, e, rfl, live, fault⟩ := exists_faultAt_of_not_live dead
  have stopped := parse_of_faultAt live fault (more ++ v)
  rw [← List.cons_append, ← List.append_assoc] at stopped
  have past := behind e before.length stopped fault.position?_eq
  rw [List.length_append, List.length_cons] at past
  omega

/-- A part of a text that leaves the reader as it was only moves what comes behind it. -/
theorem parse_insert {r : Reader} (read : (Reader.start d).run Quantifier.merge 0 u = .ok r)
    (same : r.run Quantifier.merge u.length part = .ok r) :
    parse d (u ++ part ++ v) = carry id part.length (parse d (u ++ v)) := by
  have readPart : (Reader.start d).run Quantifier.merge 0 (u ++ part) = .ok r := by
    rw [Reader.run_append_of_ok read, Nat.zero_add, same]
  have moved : (Reader.start d).run Quantifier.merge 0 (u ++ part ++ v) =
      carry id part.length ((Reader.start d).run Quantifier.merge 0 (u ++ v)) := by
    rw [Reader.run_append_of_ok readPart, Reader.run_append_of_ok read, List.length_append,
      ← Nat.add_assoc, Reader.run_shift]
  have length : (u ++ part ++ v).length = (u ++ v).length + part.length := by
    simp only [List.length_append]
    omega
  cases whole : (Reader.start d).run Quantifier.merge 0 (u ++ v) with
  | error e =>
    rw [whole] at moved
    rw [parse, parse, parseWith_of_error whole, parseWith_of_error moved]
    rfl
  | ok last =>
    rw [whole] at moved
    rw [parse, parse, parseWith_of_ok whole, parseWith_of_ok moved, length]
    exact Reader.finish_shift _ _

/-- An empty group may be put into a text wherever it can be opened, as long as no fault belongs to
a character before it. The text is then read to the same pattern, and it has the same fault if it
has one: the faults without a position are the same, and a position is two characters further on.
A quantifier behind the group applies to the latest item before the group. -/
theorem parse_insert_empty_group
    (behind : ∀ e i, parse d (u ++ v) = .error e → e.position? = some i → u.length ≤ i)
    (room : openGroups u < d) :
    (∀ p, parse d (u ++ "()".toList ++ v) = .ok p ↔ parse d (u ++ v) = .ok p) ∧
    (∀ e, parse d (u ++ "()".toList ++ v) = .error (e.shift 2) ↔
      parse d (u ++ v) = .error e) ∧
    ∃ r, (Reader.start d).run Quantifier.merge 0 u = .ok r ∧
      ∀ (q : Quantifier) (item : Pattern) (earlier : List Pattern),
        r.current.items = item :: earlier →
          (Reader.start d).run Quantifier.merge 0 (u ++ "()".toList ++ [q.mark]) =
            .ok { r with current := ⟨r.current.alternatives, q.merge item :: earlier⟩ } := by
  obtain ⟨r, read, reads⟩ := (live_of_faults_behind behind).exists_reads
  have spare : 0 < r.room := by
    have := reads.room_add_openGroups
    omega
  have inserted : parse d (u ++ "()".toList ++ v) = carry id 2 (parse d (u ++ v)) :=
    parse_insert read (Reader.run_empty_group spare)
  refine ⟨fun p => ?_, fun e => ?_, r, read, fun q item earlier items => ?_⟩
  · rw [inserted]
    cases parse d (u ++ v) <;> simp [carry]
  · rw [inserted]
    cases parse d (u ++ v) with
    | ok p => simp [carry]
    | error f => simp [carry, (PatternError.shift_injective 2).eq_iff]
  · have readGroup : (Reader.start d).run Quantifier.merge 0 (u ++ "()".toList) = .ok r := by
      rw [Reader.run_append_of_ok read, Reader.run_empty_group spare]
    rw [Reader.run_append_of_ok readGroup, Reader.run, Reader.step_mark, Reader.onCurrent,
      Context.quantify, items]
    rfl

/-- The star behind the empty group applies to the `b` before it, and a bar that nothing follows is
found two characters further on. -/
theorem parse_insert_empty_group_quantified :
    parse 2 "(a|b()*)".toList = .ok (.alt (.char 'a') (.star (.char 'b'))) ∧
      parse 2 "(a|b())|".toList = .error (.nothingAfter 8) := by
  have room : openGroups "(a|b".toList < 2 := by decide
  have read : parse 2 "(a|b*)".toList = .ok (.alt (.char 'a') (.star (.char 'b'))) := rfl
  have ends : parse 2 "(a|b)|".toList = .error (.nothingAfter 6) := rfl
  refine ⟨((parse_insert_empty_group (u := "(a|b".toList) (v := "*)".toList) ?_ room).1 _).mpr read,
    ((parse_insert_empty_group (u := "(a|b".toList) (v := ")|".toList) ?_ room).2.1 _).mpr ends⟩
  · intro e i h
    cases read.symm.trans h
  · intro e i h position
    obtain rfl := Except.error.inj (ends.symm.trans h)
    obtain rfl := Option.some.inj position
    decide

end Pattern
end PatternAutomaton
