import PatternAutomaton.Proofs.Reading

/-!
# What is open in a text

How many groups a text leaves open, and what the innermost of them holds so far, said of the text
alone: it is read back from its end to the parenthesis that opened the group. A group that is
closed counts by the characters in it that stand for themselves, since it is without effect
exactly if there are none.

For a text that is read without a fault these are what the reader holds.
-/
namespace PatternAutomaton
open Pattern

namespace Pattern

/-- The number of groups that the text opens and does not close. -/
def openGroups (text : List Char) : Nat := text.count '(' - text.count ')'

/-- Reads a text back, latest character first, to where its innermost open group was opened, and
keeps the bars of that group and all characters that stand for themselves. `closed` groups that
were closed further back are not opened yet; their bars are not kept. -/
def outlineFrom (closed : Nat) : List Char → List Char
  | [] => []
  | ')' :: rest => outlineFrom (closed + 1) rest
  | '(' :: rest =>
    match closed with
    | 0 => []
    | closed + 1 => outlineFrom closed rest
  | '|' :: rest => if closed = 0 then '|' :: outlineFrom 0 rest else outlineFrom closed rest
  | c :: rest => if isReserved c then outlineFrom closed rest else c :: outlineFrom closed rest

/-- The bars of the innermost open group and the characters in it that stand for themselves,
latest first. -/
def outline (text : List Char) : List Char := outlineFrom 0 text.reverse

/-- A bar was read in the innermost open group. -/
def BarSeen (text : List Char) : Prop := '|' ∈ outline text

/-- The alternative being read has nothing to match yet. -/
def Vacant (text : List Char) : Prop := (outline text).takeWhile (· != '|') = []

/-- The characters that stand for themselves, latest first. -/
def literals (text : List Char) : List Char := text.reverse.filter (!isReserved ·)

variable {d closed level level' : Nat} {text inner rest u v : List Char} {c : Char}
  {bare bare' : Prop}

theorem literals_append (u v : List Char) : literals (u ++ v) = literals v ++ literals u := by
  simp [literals]

theorem ne_bar_of_mem_literals (h : c ∈ literals text) : c ≠ '|' := by
  rintro rfl
  have free := (List.mem_filter.mp h).2
  cases free

theorem outlineFrom_literal (h : isReserved c = false) :
    outlineFrom closed (c :: rest) = c :: outlineFrom closed rest := by
  rw [outlineFrom, if_neg (by simp [h])] <;> rintro rfl <;> cases h

theorem outlineFrom_mark (q : Quantifier) :
    outlineFrom closed (q.mark :: rest) = outlineFrom closed rest := by
  cases q <;> simp [Quantifier.mark, outlineFrom, isReserved]

theorem outlineFrom_of_parens (h : ∀ c ∈ text, c = '(' ∨ c = ')') :
    outlineFrom closed text = [] := by
  induction text generalizing closed with
  | nil => rfl
  | cons c rest ih =>
    obtain ⟨rfl | rfl, hrest⟩ := List.forall_mem_cons.mp h
    · cases closed with
      | zero => rfl
      | succ closed => exact ih hrest
    · exact ih hrest

theorem outline_of_parens (h : ∀ c ∈ text, c = '(' ∨ c = ')') : outline text = [] :=
  outlineFrom_of_parens fun c hc => h c (List.mem_reverse.mp hc)

/-- A text opens as many groups as it closes. It is without effect exactly if no character in it
stands for itself, and then it holds parentheses only. Reading back over it from a group closed
`level` times or more keeps the characters that stand for themselves. -/
structure Outlined (level : Nat) (text : List Char) (bare : Prop) : Prop where
  count_eq : text.count '(' = text.count ')'
  literals_eq_nil_iff : literals text = [] ↔ bare
  parens : bare → ∀ c ∈ text, c = '(' ∨ c = ')'
  outlineFrom_append : ∀ closed rest, level ≤ closed →
    outlineFrom closed (text.reverse ++ rest) = literals text ++ outlineFrom closed rest

namespace Outlined

theorem nil : Outlined 0 [] True :=
  ⟨rfl, by simp [literals], fun _ c h => absurd h List.not_mem_nil, fun _ _ _ => rfl⟩

theorem mono (h : Outlined level text bare) (le : level ≤ level') :
    Outlined level' text bare :=
  { h with outlineFrom_append := fun closed rest le' =>
      h.outlineFrom_append closed rest (Nat.le_trans le le') }

theorem congr (h : Outlined level text bare) (same : bare ↔ bare') :
    Outlined level text bare' := by rwa [← propext same]

theorem append (hu : Outlined level u bare) (hv : Outlined level v bare') :
    Outlined level (u ++ v) (bare ∧ bare') where
  count_eq := by simp only [List.count_append, hu.count_eq, hv.count_eq]
  literals_eq_nil_iff := by
    rw [literals_append, List.append_eq_nil_iff, hu.literals_eq_nil_iff,
      hv.literals_eq_nil_iff, and_comm]
  parens := by
    rintro ⟨h, h'⟩
    exact List.forall_mem_append.mpr ⟨hu.parens h, hv.parens h'⟩
  outlineFrom_append closed rest le := by
    rw [List.reverse_append, List.append_assoc, hv.outlineFrom_append _ _ le,
      hu.outlineFrom_append _ _ le, literals_append, List.append_assoc]

theorem grouped (h : Outlined 1 text bare) : Outlined 0 (Pattern.grouped text) bare where
  count_eq := by
    have := h.count_eq
    simp [Pattern.grouped, List.count_append]
    omega
  literals_eq_nil_iff := by
    rw [← h.literals_eq_nil_iff]
    simp [literals, Pattern.grouped, isReserved]
  parens hbare := by
    rw [Pattern.grouped, List.forall_mem_append, List.forall_mem_cons]
    exact ⟨⟨.inl rfl, h.parens hbare⟩, List.forall_mem_singleton.mpr (.inr rfl)⟩
  outlineFrom_append closed rest _ := by
    have inside := h.outlineFrom_append (closed + 1) ('(' :: rest) (Nat.le_add_left 1 closed)
    have same : literals (Pattern.grouped text) = literals text := by
      simp [literals, Pattern.grouped, isReserved]
    rw [same]
    simpa [Pattern.grouped, outlineFrom] using inside

theorem literal (h : isReserved c = false) : Outlined 0 [c] False where
  count_eq := by
    have hopen : c ≠ '(' := by rintro rfl; cases h
    have hclose : c ≠ ')' := by rintro rfl; cases h
    simp [hopen, hclose]
  literals_eq_nil_iff := by simp [literals, h]
  parens := False.elim
  outlineFrom_append closed rest _ := by
    simp [outlineFrom_literal h, literals, h]

/-- A quantifier or a bar behind a text that has an effect is passed over. -/
theorem append_skipped (h : Outlined level u False) (hopen : c ≠ '(') (hclose : c ≠ ')')
    (reserved : isReserved c = true)
    (skip : ∀ closed rest, level ≤ closed →
      outlineFrom closed (c :: rest) = outlineFrom closed rest) :
    Outlined level (u ++ [c]) False where
  count_eq := by
    have := h.count_eq
    simpa [List.count_append, hopen, hclose] using this
  literals_eq_nil_iff := by
    rw [← h.literals_eq_nil_iff, literals_append]
    simp [literals, reserved]
  parens := False.elim
  outlineFrom_append closed rest le := by
    rw [List.reverse_append, literals_append]
    simpa [literals, reserved, skip _ _ le] using h.outlineFrom_append closed rest le

theorem append_mark (h : Outlined level u False) (q : Quantifier) :
    Outlined level (u ++ [q.mark]) False := by
  have skip (closed : Nat) (rest : List Char) (_ : level ≤ closed) :
      outlineFrom closed (q.mark :: rest) = outlineFrom closed rest := outlineFrom_mark q
  cases q with
  | star => exact h.append_skipped (by decide) (by decide) (by decide) skip
  | plus => exact h.append_skipped (by decide) (by decide) (by decide) skip

/-- A bar is passed over in a closed group. -/
theorem append_bar (h : Outlined 1 u False) : Outlined 1 (u ++ ['|']) False :=
  h.append_skipped (by decide) (by decide) (by decide) fun closed rest le => by
    rw [outlineFrom, if_neg (by omega)]

end Outlined

mutual

/-- A sequence is without effect if it has no items. -/
theorem outlined_of_isSequence :
    ∀ {d : Nat} {text : List Char} {items : List Pattern},
      IsSequence d text items → Outlined 0 text (items = [])
  | _, _, _, .nil => Outlined.nil.congr (by simp)
  | _, _, _, .char isSequence h =>
    ((outlined_of_isSequence isSequence).append (.literal h)).congr (by simp)
  | _, _, _, @IsSequence.group _ _ _ items item isSequence isAlternation => by
    have group := (outlined_of_isAlternation isAlternation).grouped
    refine ((outlined_of_isSequence isSequence).append group).congr ?_
    cases item <;> simp
  | _, _, _, @IsSequence.repeated _ _ items p p' q isSequence _ => by
    have before : Outlined 0 _ False := (outlined_of_isSequence isSequence).congr (by simp)
    exact (before.append_mark q).congr (by simp)

/-- An alternation is without effect if it denotes nothing. -/
theorem outlined_of_isAlternation :
    ∀ {d : Nat} {text : List Char} {item : Option Pattern},
      IsAlternation d text item → Outlined 1 text (item = none)
  | _, _, _, .single isSequence =>
    ((outlined_of_isSequence isSequence).mono (Nat.zero_le 1)).congr
      concatInOrder?_eq_none_iff.symm
  | _, _, _, @IsAlternation.choice _ text rest items p q isSequence some_p isAlternation => by
    have first : Outlined 1 text False :=
      ((outlined_of_isSequence isSequence).mono (Nat.zero_le 1)).congr
        (by rw [← concatInOrder?_eq_none_iff, some_p]; simp)
    have whole := first.append_bar.append (outlined_of_isAlternation isAlternation)
    rw [List.append_assoc] at whole
    exact whole.congr (by simp)

end

/-- Alternatives that a bar has ended are read back to a bar, if there are any. -/
theorem outlineFrom_of_ended {alternatives : List Pattern} (ended : Ended d u alternatives)
    (hrest : outlineFrom 0 rest = []) :
    (alternatives = [] ∧ outlineFrom 0 (u.reverse ++ rest) = []) ∨
      (alternatives ≠ [] ∧ ∃ more, outlineFrom 0 (u.reverse ++ rest) = '|' :: more) := by
  cases ended with
  | nil => exact .inl ⟨rfl, hrest⟩
  | bar => exact .inr ⟨List.cons_ne_nil _ _, by simp [outlineFrom]⟩

theorem count_eq_of_ended {alternatives : List Pattern} (ended : Ended d u alternatives) :
    u.count '(' = u.count ')' := by
  induction ended with
  | nil => rfl
  | bar _ isSequence _ ih =>
    simp [List.count_append, ih, (outlined_of_isSequence isSequence).count_eq]

end Pattern

namespace Context.Reads

variable {d : Nat} {text : List Char} {k : Context}

theorem count_eq (reads : k.Reads d text) : text.count '(' = text.count ')' := by
  obtain ⟨before, current, rfl, ended, isSequence⟩ := reads
  rw [List.count_append, List.count_append, count_eq_of_ended ended,
    (outlined_of_isSequence isSequence).count_eq]

/-- What a group holds shows in its text. -/
theorem outline_iff (reads : k.Reads d text) (rest : List Char)
    (hrest : outlineFrom 0 rest = []) :
    ('|' ∈ outlineFrom 0 (text.reverse ++ rest) ↔ k.alternatives ≠ []) ∧
      ((outlineFrom 0 (text.reverse ++ rest)).takeWhile (· != '|') = [] ↔ k.items = []) := by
  obtain ⟨before, current, rfl, ended, isSequence⟩ := reads
  have outlined := outlined_of_isSequence isSequence
  have kept : ∀ c ∈ literals current, (c != '|') = true :=
    fun c h => bne_iff_ne.mpr (ne_bar_of_mem_literals h)
  have bar : '|' ∉ literals current := fun h => ne_bar_of_mem_literals h rfl
  rw [List.reverse_append, List.append_assoc, outlined.outlineFrom_append _ _ (Nat.zero_le 0),
    List.mem_append, List.takeWhile_append_of_pos kept, List.append_eq_nil_iff,
    outlined.literals_eq_nil_iff, List.reverse_eq_nil_iff]
  rcases outlineFrom_of_ended ended hrest with ⟨none, eq⟩ | ⟨some, more, eq⟩
  · simp [eq, none, bar]
  · simp [eq, some]

end Context.Reads

namespace Reader.Reads

variable {d : Nat} {text : List Char} {r : Reader}

/-- The innermost open group of a text is the one that the reader is in. -/
theorem outline_iff (reads : r.Reads d text) :
    (BarSeen text ↔ r.current.alternatives ≠ []) ∧ (Vacant text ↔ r.current.items = []) := by
  rw [BarSeen, Vacant, outline]
  cases reads with
  | outermost reads => simpa using reads.outline_iff [] rfl
  | @opened text more room outer inner enclosing _ reads =>
    have whole := reads.outline_iff ('(' :: text.reverse) rfl
    simpa using whole

theorem count_eq (reads : r.Reads d text) :
    text.count '(' = text.count ')' + r.enclosing.length ∧
      r.room + r.enclosing.length = d := by
  induction reads with
  | outermost reads => exact ⟨reads.count_eq, rfl⟩
  | opened _ reads ih =>
    have inner := reads.count_eq
    obtain ⟨count, room⟩ := ih
    have opening : ('(' == ')') = false := by decide
    simp only [List.count_append, List.count_cons, List.length_cons, opening,
      beq_self_eq_true] at *
    simp only [if_true, Bool.false_eq_true, if_false]
    omega

theorem openGroups_eq (reads : r.Reads d text) : openGroups text = r.enclosing.length := by
  have := reads.count_eq
  rw [openGroups]
  omega

theorem room_add_openGroups (reads : r.Reads d text) : r.room + openGroups text = d := by
  rw [reads.openGroups_eq]
  exact reads.count_eq.2

end Reader.Reads
end PatternAutomaton
