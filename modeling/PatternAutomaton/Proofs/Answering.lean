import PatternAutomaton.CommandLine
import PatternAutomaton.Proofs.Lines
import PatternAutomaton.Proofs.Limit
import PatternAutomaton.Proofs.Wrapping

/-!
# Searching a file and asking about lines

A run replies to its lines one by one, up to the first line that is not text, so what it writes
is put together from its replies. A search of a file for a pattern and a dialogue about the
pattern between arbitrary text read the same lines of the same bytes and decide each of them
alike. So the search prints the lines that the dialogue says yes to, and both end alike.

The reader of the input is known only by what is relied on of it: without backspaces in the input,
it reads the lines that the bytes consist of, up to the first that is not text. The reader of
files does the same for all bytes.
-/
namespace PatternAutomaton

namespace Text

/-- The texts of lines, up to the first line that has none. -/
def readable : List (Option String) → List String
  | [] | none :: _ => []
  | some line :: rest => line :: readable rest

end Text

namespace CommandLine

variable {p : String → Bool} {report : String} {bytes input : List UInt8}
  {pieces : List (List UInt8)} {read : List Reading}

/-! ## Readers of lines -/

/-- What a reader gives of lines with these contents: their texts, and at the first one that is
not UTF-8 it fails and says so with `report`. What it would give after that is left open. -/
inductive Reads (report : String) : List (List UInt8) → List Reading → Prop
  | nil : Reads report [] []
  | line {piece : List UInt8} {text : String} {pieces : List (List UInt8)} {read : List Reading} :
      Text.decode? piece = some text → Reads report pieces read →
        Reads report (piece :: pieces) (.line text :: read)
  | failed {piece : List UInt8} {pieces : List (List UInt8)} {read : List Reading} :
      Text.decode? piece = none → Reads report (piece :: pieces) (.failed report :: read)

/-- What is relied on of the reader of the input. Of bytes without a backspace, which would edit
the line before it, it reads the lines that the bytes consist of. What it says of a line that is
not UTF-8 is its own affair. -/
def ReadsLines (readInput : LineReader) : Prop :=
  ∀ ⦃bytes pieces⦄, 0x08 ∉ bytes → Text.Cut bytes pieces →
    ∃ report, Reads report pieces (readInput bytes)

/-- Files are read in the same way, whatever bytes they hold. -/
theorem reads_readings (report : String) (cut : Text.Cut bytes pieces) :
    Reads report pieces (readings report bytes) := by
  rw [readings, cut.lines_eq]
  clear cut
  induction pieces with
  | nil => exact .nil
  | cons piece pieces ih =>
    rw [List.map_cons, List.map_cons]
    cases decoded : Text.decode? piece with
    | none => exact .failed decoded
    | some text => exact .line decoded ih

theorem readsLines_readings (report : String) : ReadsLines (readings report) :=
  fun _ _ _ cut => ⟨report, reads_readings report cut⟩

/-! ## Replies and endings -/

@[simp] theorem Output.append_out (a b : Output) : (a ++ b).out = a.out ++ b.out := rfl

theorem Output.append_assoc (a b c : Output) : a ++ b ++ c = a ++ (b ++ c) := by
  show Output.append (Output.append a b) c = Output.append a (Output.append b c)
  simp [Output.append, String.append_assoc]

theorem Output.append_empty (a : Output) : a ++ ({} : Output) = a := by
  show Output.append a {} = a
  simp [Output.append]

/-- The replies to texts, one after the other. -/
def replies (reply : String → Output) : List String → Output
  | [] => {}
  | line :: rest => reply line ++ replies reply rest

theorem replies_out (reply : String → Output) (texts : List String) :
    (replies reply texts).out = String.join (texts.map fun line => (reply line).out) := by
  induction texts with
  | nil => rfl
  | cons line rest ih => rw [replies, Output.append_out, ih, List.map_cons, String.join_cons]

/-- How a run ends that has written this: with a failure, or without one. -/
def Outcome.ending (output : Output) : Option Failure → Outcome
  | none => .success output
  | some f => .failure output f

/-- A run ends with a failure if a line has no text. -/
def failureOf (report : String) (lines : List (Option String)) : Option Failure :=
  if none ∈ lines then some (.reading report) else none

/-- Lines are replied to one by one, up to the first that has no text. -/
theorem Reads.answerReadings_eq (h : Reads report pieces read) (reply : String → Output)
    (output : Output) :
    answerReadings reply output read =
      .ending (output ++ replies reply (Text.readable (pieces.map Text.decode?)))
        (failureOf report (pieces.map Text.decode?)) := by
  induction h generalizing output with
  | nil => rw [answerReadings, List.map_nil, Text.readable, replies, Output.append_empty]; rfl
  | @line piece text pieces read decoded _ ih =>
    have same : failureOf report (some text :: pieces.map Text.decode?) =
        failureOf report (pieces.map Text.decode?) := by
      simp [failureOf]
    rw [answerReadings, ih, List.map_cons, decoded, Text.readable, replies, same,
      Output.append_assoc]
  | @failed piece pieces read broken =>
    have fails : failureOf report (none :: pieces.map Text.decode?) = some (.reading report) :=
      if_pos List.mem_cons_self
    rw [answerReadings, List.map_cons, broken, Text.readable, replies, fails,
      Output.append_empty]
    rfl

theorem Outcome.out_ending (output : Output) (f : Option Failure) :
    (Outcome.ending output f).output.out = output.out := by
  cases f with
  | none => rfl
  | some f => exact String.append_empty

/-- Whether a run fails shows in its lines, whatever is said of the failure. -/
theorem Outcome.exitCode_ending (output : Output) (report : String)
    (lines : List (Option String)) :
    (Outcome.ending output (failureOf report lines)).exitCode = if none ∈ lines then 1 else 0 := by
  rw [failureOf]
  split <;> rfl

/-- What is written of texts that are printed or left out is what is written of those printed. -/
theorem join_map_ite (text : String → String) (texts : List String) :
    String.join (texts.map fun line => if p line = true then text line else "") =
      String.join ((texts.filter p).map text) := by
  induction texts with
  | nil => rfl
  | cons line rest ih =>
    by_cases h : p line = true
    · simp [h, ih]
    · simp [h, ih]

/-! ## The two kinds of runs -/

variable {readInput : LineReader} {setting : Option String}
  {openFile : String → Except FileFault (List UInt8)} {pattern file : String} {m : Matcher}

theorem run_search (opened : openFile file = .ok bytes) (cut : Text.Cut bytes pieces)
    (made : Matcher.compile .anywhere defaultMaxDepth pattern = .ok m) :
    run readInput setting openFile input [pattern, file] =
      .ending (logOutput (.ofSetting setting) [m.automaton.record] ++
          replies (replyTo (.ofSetting setting) m searchText)
            (Text.readable (pieces.map Text.decode?)))
        (failureOf notText (pieces.map Text.decode?)) := by
  rw [← (reads_readings notText cut).answerReadings_eq]
  simp only [run, plan, searchPlan, made, Plan.carryOut, opened]

theorem run_dialogue (reads : Reads report pieces (readInput input))
    (made : Matcher.compile .wholeLine defaultMaxDepth pattern = .ok m) :
    run readInput setting openFile input [pattern] =
      .ending ({ out := (explain pattern).text ++ "\n" } ++
          logOutput (.ofSetting setting) [m.automaton.record, m.automaton.record] ++
          replies (replyTo (.ofSetting setting) m dialogueText)
            (Text.readable (pieces.map Text.decode?)))
        (failureOf report (pieces.map Text.decode?)) := by
  obtain ⟨p, parsed, rfl⟩ := Matcher.exists_pattern_of_compile made
  have explained : (explain pattern).result = .ok (.ofPattern p) := by
    have parsed : Pattern.parse defaultMaxDepth pattern.toList = .ok p := parsed
    simp only [explain, parsed]
  rw [← reads.answerReadings_eq]
  simp only [run, plan, dialoguePlan, explained, Plan.carryOut]

theorem replyTo_out (t : Log.Threshold) (m : Matcher) (text : Bool → String → String)
    (line : String) : (replyTo t m text line).out = text (m.isMatch line) line :=
  String.empty_append

/-- A pattern that can be read with one group less is found in a line exactly if the line is
described by the pattern between arbitrary text. -/
theorem exists_compile_wrapped
    (known : (∃ p, Pattern.parse 255 pattern.toList = .ok p) ∨
      Pattern.parse 255 pattern.toList = .error .empty) :
    ∃ found whole, Matcher.compile .anywhere defaultMaxDepth pattern = .ok found ∧
      Matcher.compile .wholeLine defaultMaxDepth (".*(" ++ pattern ++ ").*") = .ok whole ∧
        ∀ line, found.isMatch line = whole.isMatch line := by
  -- Alone the text is read with room for one group more, which it did not want for.
  rcases known with ⟨p, parsed⟩ | empty
  · obtain ⟨alone, between⟩ := Matcher.compile_wrapped_of_ok parsed
    exact ⟨_, _, Matcher.compile_mono alone (by decide), between, fun line => rfl⟩
  · obtain ⟨found, whole, alone, between, all⟩ := Matcher.compile_wrapped_of_empty empty
    refine ⟨found, whole, Matcher.compile_mono alone (by decide), between, fun line => ?_⟩
    rw [(all line).1, (all line).2]

/-- A search of a file for a pattern and a dialogue about the pattern between arbitrary text
agree on the same bytes without backspaces. Both reply to the same lines in order, which are those
that the bytes consist of, and both end at the first line that is not text, if there is one, or
else without a failure. The search prints exactly the lines that the dialogue says yes to, and the
dialogue says yes or no once to each line. -/
theorem run_search_agrees_with_dialogue {readInput : LineReader}
    (reader : ReadsLines readInput) (setting : Option String)
    (openFile : String → Except FileFault (List UInt8)) (input : List UInt8)
    {pattern file : String} {bytes : List UInt8} (opened : openFile file = .ok bytes)
    (unedited : 0x08 ∉ bytes)
    (known : (∃ p, Pattern.parse 255 pattern.toList = .ok p) ∨
      Pattern.parse 255 pattern.toList = .error .empty) :
    let t := Log.Threshold.ofSetting setting
    let wrapped := ".*(" ++ pattern ++ ").*"
    let search := run readInput setting openFile input [pattern, file]
    let dialogue := run readInput setting openFile bytes [wrapped]
    ∃ pieces report, Text.Cut bytes pieces ∧
      let lines := pieces.map Text.decode?
      let texts := Text.readable lines
      ∃ found whole,
        Matcher.compile .anywhere defaultMaxDepth pattern = .ok found ∧
        Matcher.compile .wholeLine defaultMaxDepth wrapped = .ok whole ∧
        search = .ending
          (logOutput t [found.automaton.record] ++ replies (replyTo t found searchText) texts)
          (failureOf notText lines) ∧
        dialogue = .ending
          ({ out := (explain wrapped).text ++ "\n" } ++
            logOutput t [whole.automaton.record, whole.automaton.record] ++
            replies (replyTo t whole dialogueText) texts)
          (failureOf report lines) ∧
        search.exitCode = dialogue.exitCode ∧
        search.exitCode = (if none ∈ lines then 1 else 0) ∧
        search.output.out = String.join ((texts.filter whole.isMatch).map (· ++ "\n")) ∧
        dialogue.output.out = (explain wrapped).text ++ "\n" ++
          String.join (texts.map fun line =>
            if whole.isMatch line then "match\n" else "no match\n") := by
  intro t wrapped search dialogue
  obtain ⟨pieces, cut⟩ := Text.exists_cut bytes
  obtain ⟨found, whole, madeFound, madeWhole, alike⟩ := exists_compile_wrapped known
  obtain ⟨report, reads⟩ := reader unedited cut
  have searched : search = _ := run_search opened cut madeFound
  have answered : dialogue = _ := run_dialogue reads madeWhole
  refine ⟨pieces, report, cut, found, whole, madeFound, madeWhole, searched, answered,
    ?_, ?_, ?_, ?_⟩
  · rw [searched, answered, Outcome.exitCode_ending, Outcome.exitCode_ending]
  · rw [searched, Outcome.exitCode_ending]
  · rw [searched, Outcome.out_ending, Output.append_out, replies_out]
    simp only [replyTo_out, alike, searchText, join_map_ite]
    exact String.empty_append
  · rw [answered, Outcome.out_ending, Output.append_out, replies_out, Output.append_out]
    simp only [replyTo_out, dialogueText]
    rw [logOutput, String.append_empty]

/-- Two lines are read, the first with a carriage return at its end. The third is not text, so
the fourth is not read. -/
theorem run_search_agrees_with_dialogue_broken :
    let readInput := readings inputNotText
    let bytes : List UInt8 := [0x78, 0x61, 0x0D, 0x0A, 0x71, 0x0A, 0xFF, 0x0A, 0x61]
    let openFile : String → Except FileFault (List UInt8) := fun _ => .ok bytes
    let search := run readInput none openFile [] ["b|(a)", "text"]
    let dialogue := run readInput none openFile bytes [".*(b|(a)).*"]
    ReadsLines readInput ∧ openFile "text" = .ok bytes ∧ 0x08 ∉ bytes ∧
      (∃ p, Pattern.parse 255 "b|(a)".toList = .ok p) ∧
        search.exitCode = 1 ∧ dialogue.exitCode = 1 ∧ search.output.out = "xa\n" ∧
          dialogue.output.out = (explain ".*(b|(a)).*").text ++ "\nmatch\nno match\n" := by
  intro readInput bytes openFile search dialogue
  have reader : ReadsLines readInput := readsLines_readings inputNotText
  have unedited : 0x08 ∉ bytes := by decide
  have known : ∃ p, Pattern.parse 255 "b|(a)".toList = .ok p := ⟨_, rfl⟩
  obtain ⟨pieces, -, cut, found, whole, -, made, -, -, sameExit, exit, printed, answered⟩ :=
    @run_search_agrees_with_dialogue readInput reader none openFile [] "b|(a)" "text" bytes rfl
      unedited (.inl known)
  have lines : pieces.map Text.decode? = [some "xa", some "q", none, some "a"] := by
    rw [← cut.lines_eq]
    decide +kernel
  have compiled : Matcher.compile .wholeLine defaultMaxDepth ".*(b|(a)).*" =
      .ok ⟨.ofPattern (.anywhere (.alt (.char 'b') (.char 'a')))⟩ := by decide +kernel
  obtain rfl := Except.ok.inj (made.symm.trans compiled)
  have yes : Matcher.isMatch ⟨.ofPattern (.anywhere (.alt (.char 'b') (.char 'a')))⟩ "xa" = true :=
    by decide +kernel
  have no : Matcher.isMatch ⟨.ofPattern (.anywhere (.alt (.char 'b') (.char 'a')))⟩ "q" = false :=
    by decide +kernel
  rw [lines] at exit printed answered
  refine ⟨reader, rfl, unedited, known, exit, sameExit.symm.trans exit, ?_, ?_⟩
  · simpa [Text.readable, yes, no] using printed
  · simpa [Text.readable, yes, no, String.append_assoc] using answered

end CommandLine
end PatternAutomaton
