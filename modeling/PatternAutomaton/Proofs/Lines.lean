import PatternAutomaton.Text.Lines

/-!
# Where lines end

What the lines of bytes are, said by how the bytes are put together and not by how they are read:
each line feed ends a line, one carriage return before it is left out, and what is behind the
last line feed is a line of its own, unless there is nothing. Every sequence of bytes is put
together in that way, and its lines are the texts of the pieces.
-/
namespace PatternAutomaton.Text

/-- A piece without the carriage return at its end. -/
def dropReturn (piece : List UInt8) : List UInt8 :=
  if piece.getLast? = some 0x0D then piece.dropLast else piece

/-- The bytes consist of lines with these contents. -/
inductive Cut : List UInt8 → List (List UInt8) → Prop
  | nil : Cut [] []
  | last {piece : List UInt8} : piece ≠ [] → 0x0A ∉ piece → Cut piece [piece]
  | ended {piece rest : List UInt8} {pieces : List (List UInt8)} : 0x0A ∉ piece →
      Cut rest pieces → Cut (piece ++ 0x0A :: rest) (dropReturn piece :: pieces)

/-- The text of bytes, if they are UTF-8. -/
def decode? (bytes : List UInt8) : Option String := String.fromUTF8? ⟨bytes.toArray⟩

variable {b : UInt8} {bytes piece rest current : List UInt8} {pieces done : List (List UInt8)}

/-- A byte in front of lines becomes a part of the first of them or ends an empty one. -/
theorem Cut.cons (h : Cut bytes pieces) (b : UInt8) : ∃ pieces, Cut (b :: bytes) pieces := by
  by_cases feed : b = 0x0A
  · subst feed
    exact ⟨_, .ended List.not_mem_nil h⟩
  · have free {piece : List UInt8} (h : 0x0A ∉ piece) : 0x0A ∉ b :: piece :=
      List.not_mem_cons_of_ne_of_not_mem (Ne.symm feed) h
    cases h with
    | nil => exact ⟨_, .last (List.cons_ne_nil b []) (free List.not_mem_nil)⟩
    | last _ clean => exact ⟨_, .last (List.cons_ne_nil b _) (free clean)⟩
    | ended clean h => exact ⟨_, .ended (free clean) h⟩

theorem exists_cut (bytes : List UInt8) : ∃ pieces, Cut bytes pieces := by
  induction bytes with
  | nil => exact ⟨[], .nil⟩
  | cons b bytes ih =>
    obtain ⟨pieces, h⟩ := ih
    exact h.cons b

/-! ## Reading the lines -/

/-- Pieces cut before are put in front. -/
theorem cutLines_eq_append (current : List UInt8) (done : List (List UInt8))
    (bytes : List UInt8) :
    cutLines current done bytes = done.reverse ++ cutLines current [] bytes := by
  induction bytes generalizing current done with
  | nil =>
    by_cases h : current.isEmpty = true
    · simp [cutLines, h]
    · simp [cutLines, h]
  | cons b rest ih =>
    by_cases feed : b = 0x0A
    · rw [cutLines, if_pos feed, ih, cutLines, if_pos feed, ih [] [(b :: current).reverse]]
      simp
    · rw [cutLines, if_neg feed, ih, cutLines, if_neg feed]

/-- Bytes without a line feed are collected. -/
theorem cutLines_append (clean : 0x0A ∉ piece) :
    cutLines current done (piece ++ rest) = cutLines (piece.reverse ++ current) done rest := by
  induction piece generalizing current with
  | nil => rfl
  | cons b piece ih =>
    rw [List.mem_cons, not_or] at clean
    rw [List.cons_append, cutLines, if_neg (Ne.symm clean.1), ih clean.2]
    simp

theorem cutLines_ended (clean : 0x0A ∉ piece) :
    cutLines [] [] (piece ++ 0x0A :: rest) = (piece ++ [0x0A]) :: cutLines [] [] rest := by
  rw [cutLines_append clean, cutLines, if_pos rfl, cutLines_eq_append]
  simp

theorem dropLineEnd_of_not_mem (clean : 0x0A ∉ piece) : dropLineEnd piece = piece := by
  rw [dropLineEnd]
  split
  · next body h => exact absurd (List.mem_reverse.mp (h ▸ List.mem_cons_self)) clean
  · next body h => exact absurd (List.mem_reverse.mp (h ▸ List.mem_cons_self)) clean
  · rfl

theorem dropLineEnd_ended (piece : List UInt8) :
    dropLineEnd (piece ++ [0x0A]) = dropReturn piece := by
  rcases List.eq_nil_or_concat piece with rfl | ⟨body, b, rfl⟩
  · rfl
  · by_cases carriage : b = 0x0D
    · subst carriage
      simp [dropLineEnd, dropReturn]
    · simp [dropLineEnd, dropReturn, carriage]

/-- The lines that are read are the texts of the pieces that the bytes consist of. -/
theorem Cut.lines_eq (h : Cut bytes pieces) : lines bytes = pieces.map decode? := by
  induction h with
  | nil => rfl
  | @last piece nonempty clean =>
    have whole : cutLines [] [] piece = [piece] := by
      have collected : cutLines [] [] (piece ++ []) = cutLines (piece.reverse ++ []) [] [] :=
        cutLines_append clean
      rw [List.append_nil, List.append_nil] at collected
      simp [collected, cutLines, nonempty]
    rw [lines, whole, List.map_singleton, List.map_singleton, lineText?,
      dropLineEnd_of_not_mem clean, decode?]
  | @ended piece rest pieces clean _ ih =>
    rw [lines, cutLines_ended clean, List.map_cons, List.map_cons, lineText?, dropLineEnd_ended,
      ← ih, decode?]
    rfl

end PatternAutomaton.Text
