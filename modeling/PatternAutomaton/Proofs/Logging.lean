import Mathlib.Data.Set.Card
import PatternAutomaton.Matcher
import PatternAutomaton.Proofs.Quoting
import PatternAutomaton.Proofs.Stopping
import PatternAutomaton.Proofs.WellFormed

/-!
# What is logged of a match

The log of a match shows what the paths of the automaton are. Behind each character the number of
the record is the number of consuming and accepting states that end a path over the characters so
far, and the last record tells whether that number has become zero. So the log is described by the
paths alone, without the search that found them. Each record also tells which character was read.
-/
namespace PatternAutomaton

theorem Verdict.message_stuck_ne_message_finished (k : Nat) (b : Bool) :
    (stuck k).record.message ≠ (finished b).record.message := by
  intro h
  have chars := congrArg String.toList h
  simp only [record, String.toList_append] at chars
  have first : some 'n' = some 'm' := congrArg List.head? chars
  cases first

/-- The last record of a run tells how the run ended. -/
theorem Verdict.record_inj {v v' : Verdict} : v.record = v'.record ↔ v = v' := by
  refine ⟨fun h => ?_, congrArg record⟩
  have message : v.record.message = v'.record.message := by rw [h]
  cases v with
  | stuck k =>
    cases v' with
    | stuck k' =>
      have digits : Nat.toDigits 10 k = Nat.toDigits 10 k' := by
        simpa [record] using congrArg String.toList message
      rw [← Nat.ofDigitChars_ten_toDigits (n := k), digits, Nat.ofDigitChars_ten_toDigits]
    | finished b' => exact absurd message (message_stuck_ne_message_finished k b')
  | finished b =>
    cases v' with
    | stuck k' => exact absurd message.symm (message_stuck_ne_message_finished k' b)
    | finished b' =>
      have text : toString b = toString b' := by simpa [record] using message
      have told : ∀ b b' : Bool, toString b = toString b' → b = b' := by decide
      rw [told b b' text]

/-- No record of a character is taken for the last one. -/
theorem Run.record_mem_records_iff {r : Run} {v : Verdict} :
    v.record ∈ r.records ↔ r.verdict = v := by
  have level : ∀ s : Advance, s.record ≠ v.record := fun s h => by
    cases congrArg Log.Record.level h
  rw [records, List.mem_append, List.mem_singleton, Verdict.record_inj, eq_comm]
  simp [level]

namespace Automaton

end Automaton

namespace Matcher

end Matcher
end PatternAutomaton
