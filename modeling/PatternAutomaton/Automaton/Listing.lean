import PatternAutomaton.Automaton.Basic

/-!
# Listing of an automaton

The text form of an automaton: its start, then one entry for each state with its index. An index
has at least four digits. The character of a consuming state stands in the text as it is, also
if it is a line break, so an entry is not always one line.
-/
namespace PatternAutomaton

/-- An index in decimal, with zeros in front up to four digits. -/
def StateId.chars (id : StateId) : List Char := (Nat.toDigits 10 id).leftpad 4 '0'

def StateId.text (id : StateId) : String := String.ofList (StateId.chars id)

def State.chars : State → List Char
  | consume (.char c) next => "char ".toList ++ [c] ++ ", ".toList ++ StateId.chars next
  | consume .any next => "any, ".toList ++ StateId.chars next
  | split first second =>
    "split ".toList ++ StateId.chars first ++ ", ".toList ++ StateId.chars second
  | accept => "accept".toList
  | reserved => "unbound".toList

def State.text (s : State) : String := String.ofList s.chars

namespace Automaton

/-- One entry of the listing: the index of a state and the state. -/
def entryChars (i : Nat) (s : State) : List Char :=
  StateId.chars i ++ ": ".toList ++ s.chars ++ ['\n']

def listingChars (a : Automaton) : List Char :=
  "start: ".toList ++ StateId.chars a.start ++ ['\n'] ++
    a.states.toList.zipIdx.flatMap fun (s, i) => entryChars i s

def listing (a : Automaton) : String := String.ofList a.listingChars

end Automaton
end PatternAutomaton
