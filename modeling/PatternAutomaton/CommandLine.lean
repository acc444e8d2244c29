import PatternAutomaton.Explanation
import PatternAutomaton.Automaton.Records
import PatternAutomaton.Text.Lines

/-!
# The command line

With a pattern and a file, the program prints the lines of the file in which the pattern is
found. With a pattern alone, it explains the pattern and then says for each line of its input
whether the pattern describes it. Log records go to the error output.

`plan` decides everything that does not depend on the lines: what is written first, where the
lines come from and how one is answered. `Plan.carryOut` is the whole run on given bytes. A line
that is not text ends the run with a failure, after the answers to the lines before it.

The lines of the input come from a reader that is not a part of the program, since on a terminal
they can be edited. It is a parameter here. The lines of a file are those of its bytes.
-/
namespace PatternAutomaton.CommandLine

def programName : String := "nfa_regex"

/-- What was written to the two outputs. -/
structure Output where
  out : String := ""
  err : String := ""
  deriving Repr, DecidableEq, Inhabited

/-- Both outputs of one part of a run after those of another. -/
def Output.append (first second : Output) : Output where
  out := first.out ++ second.out
  err := first.err ++ second.err

instance : Append Output := ⟨Output.append⟩

/-- Where the lines come from. -/
inductive Source where
  | input
  | file (name : String)
  deriving Repr, DecidableEq

/-- Why a file could not be opened or read, as the operating system says it. -/
structure FileFault where
  code : Nat
  kind : String
  message : String
  deriving Repr, DecidableEq

namespace FileFault

def missing : FileFault := ⟨2, "NotFound", "No such file or directory"⟩

def denied : FileFault := ⟨13, "PermissionDenied", "Permission denied"⟩

def notDirectory : FileFault := ⟨20, "NotADirectory", "Not a directory"⟩

def directory : FileFault := ⟨21, "IsADirectory", "Is a directory"⟩

def nameTooLong : FileFault := ⟨36, "InvalidFilename", "File name too long"⟩

def report (f : FileFault) : String :=
  "Os \x7b code: " ++ toString f.code ++ ", kind: " ++ f.kind ++
    ", message: \"" ++ f.message ++ "\" \x7d"

end FileFault

/-- What a reader of lines gives when it is asked for the next one. -/
inductive Reading where
  | line (text : String)
  /-- The line was broken off while it was edited. -/
  | interrupted
  /-- There is no line, and `report` says why. -/
  | failed (report : String)
  deriving Repr, DecidableEq

/-- A reader of lines, by all that it gives of some bytes until they end. -/
abbrev LineReader := List UInt8 → List Reading

/-- Reads the lines that the bytes consist of. `report` is what it says of a line that is not
UTF-8. -/
def readings (report : String) : LineReader := fun bytes =>
  (Text.lines bytes).map fun
    | some text => .line text
    | none => .failed report

/-- What is said of a line of a file that is not UTF-8. -/
def notText : String :=
  "Error \x7b kind: InvalidData, message: \"stream did not contain valid UTF-8\" \x7d"

/-- What is said of a line of the input that is not UTF-8, where it is not read from a terminal. -/
def inputNotText : String := "Io(" ++ notText ++ ")"

/-- Why a run fails. -/
inductive Failure where
  | arguments
  | pattern (error : PatternError)
  | file (fault : FileFault)
  /-- A reader of lines failed. -/
  | reading (report : String)
  deriving Repr, DecidableEq

namespace Failure

def report : Failure → String
  | arguments => "\"invalid arguments\""
  | pattern e => e.report
  | file f => f.report
  | reading report => report

/-- What a run prints last when it fails. -/
def output (f : Failure) : Output where
  err := "Error: " ++ f.report ++ "\n"

end Failure

/-- What a run does: fail at once, or answer the lines of a source. In both cases `opening` is
written first. -/
inductive Plan where
  | fail (opening : Output) (failure : Failure)
  | answer (opening : Output) (source : Source) (reply : String → Output)

/-- The log records that a threshold lets through, on the error output. -/
def logOutput (t : Log.Threshold) (records : List Log.Record) : Output where
  err := String.join (records.map t.write)

/-- The answer to a line: its log records, and `text` of whether the line matches. -/
def replyTo (t : Log.Threshold) (m : Matcher) (text : Bool → String → String) (line : String) :
    Output :=
  let r := m.run line
  logOutput t r.records ++ { out := text r.verdict.accepted line }

/-- What a search writes of a line. -/
def searchText (accepted : Bool) (line : String) : String := if accepted then line ++ "\n" else ""

/-- What a dialogue writes of a line. -/
def dialogueText (accepted : Bool) (_ : String) : String :=
  if accepted then "match\n" else "no match\n"

/-- The matching lines of a file. -/
def searchPlan (t : Log.Threshold) (pattern file : String) : Plan :=
  match Matcher.compile .anywhere defaultMaxDepth pattern with
  | .error e => .fail {} (.pattern e)
  | .ok m =>
    .answer (logOutput t [m.automaton.record]) (.file file)
      (replyTo t m searchText)

/-- An explanation of the pattern, then a verdict on each line of the input. The automaton is
made once for each of the two, and each leaves its record. -/
def dialoguePlan (t : Log.Threshold) (pattern : String) : Plan :=
  let explanation := explain pattern
  match explanation.result with
  | .error e => .fail { out := explanation.text } (.pattern e)
  | .ok a =>
    .answer ({ out := explanation.text ++ "\n" } ++ logOutput t [a.record, a.record]) .input
      (replyTo t ⟨a⟩ dialogueText)

/-- What a run does with its arguments and the setting of its log. -/
def plan (logSetting : Option String) (arguments : List String) : Plan :=
  let t := Log.Threshold.ofSetting logSetting
  match arguments with
  | [pattern] => dialoguePlan t pattern
  | [pattern, file] => searchPlan t pattern file
  | _ => .fail { err := "usage: " ++ programName ++ " regex [file]\n" } .arguments

/-- The outputs of a finished run and its exit code. -/
structure Outcome where
  output : Output
  exitCode : Nat
  deriving Repr, DecidableEq

def Outcome.success (output : Output) : Outcome := ⟨output, 0⟩

def Outcome.failure (output : Output) (f : Failure) : Outcome := ⟨output ++ f.output, 1⟩

/-- What is written of a line that was broken off. -/
def interruptedNotice : String := "終了はCtrl+D\n"

/-- Answers lines until the reader fails or is at the end. `output` is what was written before. -/
def answerReadings (reply : String → Output) (output : Output) : List Reading → Outcome
  | [] => .success output
  | .line text :: rest => answerReadings reply (output ++ reply text) rest
  | .interrupted :: rest =>
    answerReadings reply (output ++ { err := interruptedNotice }) rest
  | .failed report :: _ => .failure output (.reading report)

/-- The whole run. The lines of `input` come from `readInput`, and `openFile` gives the bytes of
a file. -/
def Plan.carryOut (readInput : LineReader)
    (openFile : String → Except FileFault (List UInt8)) (input : List UInt8) : Plan → Outcome
  | fail opening failure => .failure opening failure
  | answer opening source reply =>
    match source with
    | .input => answerReadings reply opening (readInput input)
    | .file name =>
      match openFile name with
      | .error fault => .failure opening (.file fault)
      | .ok bytes => answerReadings reply opening (readings notText bytes)

def run (readInput : LineReader) (logSetting : Option String)
    (openFile : String → Except FileFault (List UInt8)) (input : List UInt8)
    (arguments : List String) : Outcome :=
  (plan logSetting arguments).carryOut readInput openFile input

end PatternAutomaton.CommandLine
