/-!
# Marking entries of a table

A search ends because it marks entries of a table and marks none twice. Each mark leaves exactly
one entry less to be marked.
-/
namespace PatternAutomaton

/-- Replacing one entry that counts by one that does not lowers the count by one. -/
theorem countP_set_add_one {α : Type} (p : α → Bool) (table : Array α) (i : Nat) (x : α)
    (h : i < table.size) (before : p table[i] = true) (after : p x = false) :
    (table.set i x).countP p + 1 = table.countP p := by
  have pos : 0 < table.countP p :=
    Array.countP_pos_iff.mpr ⟨table[i], Array.getElem_mem h, before⟩
  rw [Array.countP_set h, if_pos before, if_neg (by rw [after]; exact Bool.false_ne_true)]
  omega

end PatternAutomaton
