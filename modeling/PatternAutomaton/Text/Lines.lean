/-!
# Lines of bytes

A line feed ends a line and is not part of it, nor is one carriage return just before it. What
follows the last line feed is a line too, unless it is empty, and keeps its carriage return. A
line whose bytes are not UTF-8 has no text.
-/
namespace PatternAutomaton.Text

/-- Cuts bytes after each line feed. `current` holds the bytes since the last cut, and `done`
the pieces cut before, both latest first. -/
def cutLines (current : List UInt8) (done : List (List UInt8)) :
    List UInt8 → List (List UInt8)
  | [] => (if current.isEmpty then done else current.reverse :: done).reverse
  | b :: rest =>
    if b = 0x0A then cutLines [] ((b :: current).reverse :: done) rest
    else cutLines (b :: current) done rest

/-- A piece without the line feed that ends it and the carriage return before that. -/
def dropLineEnd (piece : List UInt8) : List UInt8 :=
  match piece.reverse with
  | 0x0A :: 0x0D :: body => body.reverse
  | 0x0A :: body => body.reverse
  | _ => piece

/-- The text of a piece, if its bytes are UTF-8. -/
def lineText? (piece : List UInt8) : Option String :=
  String.fromUTF8? ⟨(dropLineEnd piece).toArray⟩

def lines (bytes : List UInt8) : List (Option String) :=
  (cutLines [] [] bytes).map lineText?

end PatternAutomaton.Text
