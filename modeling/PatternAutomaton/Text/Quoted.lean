import PatternAutomaton.Text.DefaultIgnorable
import PatternAutomaton.Text.GraphemeExtend
import PatternAutomaton.Text.Unprintable

/-!
# Quoted characters

A character between single quotes, written so that it can be seen: six characters have a short
escape, characters that cannot be seen alone are written by their code point, and all others
stand for themselves.
-/
namespace PatternAutomaton.Text

/-- The half-width voiced and semi-voiced sound marks. They extend the character before them
but stand in a cell of their own. -/
def isHalfwidthSoundMark (c : Char) : Bool := c.toNat = 0xFF9E || c.toNat = 0xFF9F

/-- Whether a character has a form of its own: it is printable and drawn, and not as a mark on
the character before it. -/
def isVisibleAlone (c : Char) : Bool :=
  !(isUnprintable c || isDefaultIgnorable c || isGraphemeExtend c && !isHalfwidthSoundMark c)

/-- A code point in lower-case hexadecimal, without leading zeros. -/
def codePointEscape (c : Char) : String :=
  "\\u\x7b" ++ String.ofList (Nat.toDigits 16 c.toNat) ++ "\x7d"

def escaped (c : Char) : String :=
  match c with
  | '\x00' => "\\0"
  | '\t' => "\\t"
  | '\n' => "\\n"
  | '\r' => "\\r"
  | '\x27' => "\\'"
  | '\\' => "\\\\"
  | c => if isVisibleAlone c then String.singleton c else codePointEscape c

def quoted (c : Char) : String := "'" ++ escaped c ++ "'"

end PatternAutomaton.Text
