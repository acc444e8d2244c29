import PatternAutomaton.Automaton.Listing

/-!
# Reading a listing

Recovers an automaton from its listing, from left to right. Lines cannot be told apart first,
since the character of a consuming state may be a line break, so every entry is read by its own
form. An index is read as far as its digits go.
-/
namespace PatternAutomaton.Automaton

/-- The text after a given beginning. -/
def afterWord? : List Char → List Char → Option (List Char)
  | [], text => some text
  | c :: word, d :: text => if c = d then afterWord? word text else none
  | _ :: _, [] => none

/-- The number that a row of digits stands for, put behind the digits of `n`. -/
def digitsValue (n : Nat) (digits : List Char) : Nat :=
  digits.foldl (fun n c => 10 * n + (c.toNat - '0'.toNat)) n

/-- An index and the text after it. -/
def readIndex? (text : List Char) : Option (Nat × List Char) :=
  let digits := text.takeWhile Char.isDigit
  if digits.isEmpty then none
  else some (digitsValue 0 digits, text.dropWhile Char.isDigit)

/-- The state after the word `char `. -/
def readChar? (text : List Char) : Option (State × List Char) := do
  let c :: rest := text | none
  let rest ← afterWord? ", ".toList rest
  let (next, rest) ← readIndex? rest
  return (.consume (.char c) next, rest)

/-- The state after the word `any, `. -/
def readAny? (text : List Char) : Option (State × List Char) := do
  let (next, rest) ← readIndex? text
  return (.consume .any next, rest)

/-- The state after the word `split `. -/
def readSplit? (text : List Char) : Option (State × List Char) := do
  let (first, rest) ← readIndex? text
  let rest ← afterWord? ", ".toList rest
  let (second, rest) ← readIndex? rest
  return (.split first second, rest)

/-- A state and the text after it. -/
def readState? (text : List Char) : Option (State × List Char) :=
  (afterWord? "char ".toList text >>= readChar?) <|>
  (afterWord? "any, ".toList text >>= readAny?) <|>
  (afterWord? "split ".toList text >>= readSplit?) <|>
  ((afterWord? "accept".toList text).map fun rest => (.accept, rest)) <|>
  ((afterWord? "unbound".toList text).map fun rest => (.reserved, rest))

/-- The state of one entry and the text after the entry. -/
def readEntry? (text : List Char) : Option (State × List Char) := do
  let (_, rest) ← readIndex? text
  let rest ← afterWord? ": ".toList rest
  let (s, rest) ← readState? rest
  let rest ← afterWord? ['\n'] rest
  return (s, rest)

/-- The states of all entries up to the end of the text, behind those read before. -/
def readEntries? (states : Array State) (text : List Char) : Option (Array State) :=
  if text.isEmpty then some states
  else
    match readEntry? text with
    | none => none
    | some (s, rest) =>
      if rest.length < text.length then readEntries? (states.push s) rest else none
termination_by text.length

def ofListing? (text : List Char) : Option Automaton := do
  let rest ← afterWord? "start: ".toList text
  let (start, rest) ← readIndex? rest
  let rest ← afterWord? ['\n'] rest
  let states ← readEntries? #[] rest
  return { states, start }

end PatternAutomaton.Automaton
