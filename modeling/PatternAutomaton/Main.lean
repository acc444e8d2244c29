import PatternAutomaton.CommandLine

/-!
# The program

Carries out a plan with the real files and outputs. What a plan needs is read to its end first.
The input is taken as it stands, without editing.
-/
namespace PatternAutomaton.CommandLine

/-- Writes to the two outputs at once. -/
def Output.emit (o : Output) : IO Unit := do
  let out ← IO.getStdout
  let err ← IO.getStderr
  out.putStr o.out
  out.flush
  err.putStr o.err
  err.flush

/-- The file fault that an error of the operating system stands for. -/
def FileFault.ofError : IO.Error → FileFault
  | .noFileOrDirectory .. => missing
  | .permissionDenied .. => denied
  | .inappropriateType _ 20 _ => notDirectory
  | .inappropriateType .. => directory
  | .invalidArgument _ 36 _ => nameTooLong
  | e => ⟨0, "Uncategorized", toString e⟩

/-- All bytes of a stream; `before` holds those read so far. -/
partial def readStream (stream : IO.FS.Stream) (before : ByteArray) : IO ByteArray := do
  let more ← stream.read 4096
  if more.isEmpty then return before else readStream stream (before ++ more)

/-- What opening and reading a file gives. -/
def readFile (name : String) : IO (Except FileFault (List UInt8)) := do
  try
    let handle ← IO.FS.Handle.mk name .read
    let bytes ← readStream (.ofHandle handle) .empty
    return .ok bytes.toList
  catch e =>
    return .error (.ofError e)

def Plan.execute (p : Plan) : IO UInt32 := do
  let carryOut := p.carryOut (readings inputNotText)
  let outcome ←
    match p with
    | fail .. => pure (carryOut (fun _ => .ok []) [])
    | answer _ .input _ => do
      let input ← readStream (← IO.getStdin) .empty
      pure (carryOut (fun _ => .ok []) input.toList)
    | answer _ (.file name) _ => do
      let contents ← readFile name
      pure (carryOut (fun _ => contents) [])
  outcome.output.emit
  return outcome.exitCode.toUInt32

end PatternAutomaton.CommandLine

open PatternAutomaton.CommandLine in
def main (arguments : List String) : IO UInt32 := do
  let setting ← IO.getEnv PatternAutomaton.Log.settingName
  (plan setting arguments).execute
