import PatternAutomaton.Pattern.Quantifier
import PatternAutomaton.Pattern.Error

/-!
# Reading a pattern from its text

A text is read once, from left to right, without going back. The reader holds what it has seen
of the innermost open group and, for each group around it, what had been seen when that group's
inner group was opened. A quantifier applies to the latest item of the current alternative, and
a group that holds nothing leaves no item behind.

`parse` merges a repetition of a repetition into one. `parsePlain` is the same reader without
that: it writes one node for each quantifier.
-/
namespace PatternAutomaton

/-- What has been read of one group, or of the text outside all groups: the alternatives that a
`|` has ended and the items of the alternative being read, both latest first. -/
structure Context where
  alternatives : List Pattern := []
  items : List Pattern := []
  deriving Repr, DecidableEq, Inhabited

namespace Context

def addItem (p : Pattern) (k : Context) : Context :=
  { k with items := p :: k.items }

/-- Changes the latest item; a quantifier at position `i` needs one. -/
def quantify (repetition : Pattern → Pattern) (i : Nat) (k : Context) :
    Except PatternError Context :=
  match k.items with
  | [] => .error (.nothingBefore i)
  | latest :: earlier => .ok { k with items := repetition latest :: earlier }

/-- Ends the current alternative at a `|`; an alternative needs an item. -/
def endAlternative (i : Nat) (k : Context) : Except PatternError Context :=
  match Pattern.concatAll? k.items with
  | none => .error (.nothingBefore i)
  | some p => .ok { alternatives := p :: k.alternatives }

/-- The pattern of the whole group, if it holds one. Only a group without `|` may be empty. -/
def close (i : Nat) (k : Context) : Except PatternError (Option Pattern) :=
  match Pattern.concatAll? k.items, k.alternatives with
  | some p, earlier => .ok (Pattern.altAll? (p :: earlier))
  | none, [] => .ok none
  | none, _ :: _ => .error (.nothingAfter i)

end Context

/-- The state of reading: how many more groups may be opened, the innermost open group, and the
groups around it, innermost first. The text outside all groups comes last. -/
structure Reader where
  room : Nat
  current : Context := {}
  enclosing : List Context := []
  deriving Repr, DecidableEq, Inhabited

namespace Reader

/-- The reader before the first character, for at most `maxDepth` groups open at once. -/
def start (maxDepth : Nat) : Reader := { room := maxDepth }

/-- Replaces the innermost group by what an operation on it gives. -/
def onCurrent (operation : Context → Except PatternError Context) (r : Reader) :
    Except PatternError Reader :=
  match operation r.current with
  | .ok k => .ok { r with current := k }
  | .error e => .error e

def openGroup (i : Nat) (r : Reader) : Except PatternError Reader :=
  match r.room with
  | 0 => .error (.tooDeep i)
  | room + 1 => .ok { room, current := {}, enclosing := r.current :: r.enclosing }

/-- Closes the innermost group and adds its pattern to the group around it. -/
def closeGroup (i : Nat) (r : Reader) : Except PatternError Reader :=
  match r.enclosing with
  | [] => .error (.unopenedGroup i)
  | outer :: enclosing =>
    match r.current.close i with
    | .error e => .error e
    | .ok none => .ok { room := r.room + 1, current := outer, enclosing }
    | .ok (some p) => .ok { room := r.room + 1, current := outer.addItem p, enclosing }

/-- Reads the character `c` at position `i`. `repetition` says what a quantifier makes of the
item before it. -/
def step (repetition : Quantifier → Pattern → Pattern) (i : Nat) (c : Char) (r : Reader) :
    Except PatternError Reader :=
  match c with
  | '+' => r.onCurrent (·.quantify (repetition .plus) i)
  | '*' => r.onCurrent (·.quantify (repetition .star) i)
  | '|' => r.onCurrent (·.endAlternative i)
  | '(' => r.openGroup i
  | ')' => r.closeGroup i
  | c => .ok { r with current := r.current.addItem (.char c) }

/-- Reads characters whose first stands at position `i`, up to the first fault. -/
def run (repetition : Quantifier → Pattern → Pattern) :
    Nat → List Char → Reader → Except PatternError Reader
  | _, [], r => .ok r
  | i, c :: rest, r =>
    match r.step repetition i c with
    | .ok r => run repetition (i + 1) rest r
    | .error e => .error e

/-- The pattern read, when the text ends at position `n`. -/
def finish (n : Nat) (r : Reader) : Except PatternError Pattern :=
  match r.enclosing with
  | _ :: _ => .error .unclosedGroup
  | [] =>
    match r.current.close n with
    | .ok (some p) => .ok p
    | .ok none => .error .empty
    | .error e => .error e

end Reader

namespace Pattern

/-- The pattern of a text with at most `maxDepth` groups open at once, where `repetition` says
what a quantifier makes of the item before it. -/
def parseWith (repetition : Quantifier → Pattern → Pattern) (maxDepth : Nat)
    (text : List Char) : Except PatternError Pattern :=
  match (Reader.start maxDepth).run repetition 0 text with
  | .ok r => r.finish text.length
  | .error e => .error e

/-- The pattern of a text. Repeated repetitions are merged, so a run of quantifiers of any
length adds one node. -/
def parse (maxDepth : Nat) (text : List Char) : Except PatternError Pattern :=
  parseWith Quantifier.merge maxDepth text

/-- The pattern of a text with one node for each quantifier. -/
def parsePlain (maxDepth : Nat) (text : List Char) : Except PatternError Pattern :=
  parseWith Quantifier.wrap maxDepth text

end Pattern
end PatternAutomaton
