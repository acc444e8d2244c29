/-!
# Faults of a pattern text

The ways in which a text fails to be a pattern, each with the position (counted in characters)
at which it was noticed. `code` is the short name of a fault, `report` the short name with its
position, and `message` the sentence shown to a person.
-/
namespace PatternAutomaton

inductive PatternError where
  /-- A `)` closes no group. -/
  | unopenedGroup (position : Nat)
  /-- Nothing stands before a `+`, `*` or `|`. -/
  | nothingBefore (position : Nat)
  /-- Nothing stands between a `|` and the end of its group or of the text. -/
  | nothingAfter (position : Nat)
  /-- A group is still open at the end of the text. -/
  | unclosedGroup
  /-- The text holds no character to match. -/
  | empty
  /-- A `(` opens more groups than may be open at once. -/
  | tooDeep (position : Nat)
  deriving Repr, DecidableEq, Inhabited

namespace PatternError

/-- Where the fault was noticed, for the faults that belong to one character. -/
def position? : PatternError → Option Nat
  | unopenedGroup i | nothingBefore i | nothingAfter i | tooDeep i => some i
  | unclosedGroup | empty => none

def code : PatternError → String
  | unopenedGroup _ => "InvalidRightParen"
  | nothingBefore _ => "NoPrev"
  | nothingAfter _ => "NoNext"
  | unclosedGroup => "NoRightParen"
  | empty => "Empty"
  | tooDeep _ => "TooDeep"

/-- What is wrong, without the position. -/
def description : PatternError → String
  | unopenedGroup _ => "invalid right parenthesis"
  | nothingBefore _ => "no previous expression"
  | nothingAfter _ => "no next expression"
  | unclosedGroup => "no right parenthesis"
  | empty => "empty expression"
  | tooDeep _ => "too deeply nested"

def message (e : PatternError) : String :=
  "ParseError: " ++ e.description ++
    match e.position? with
    | some i => s!": pos = {i}"
    | none => ""

def report (e : PatternError) : String :=
  e.code ++
    match e.position? with
    | some i => s!"({i})"
    | none => ""

end PatternError
end PatternAutomaton
