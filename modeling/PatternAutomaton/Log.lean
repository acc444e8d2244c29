import PatternAutomaton.Text.Blank

/-!
# Log records

A record has a level, the name of the part that wrote it, and a message. A threshold lets
through the records up to its level. Its setting is read from an environment variable; without
a valid setting, errors and warnings are let through.
-/
namespace PatternAutomaton.Log

inductive Level where
  | error
  | warn
  | info
  | debug
  | trace
  deriving Repr, DecidableEq

namespace Level

/-- The levels from the most to the least urgent. -/
def all : List Level := [error, warn, info, debug, trace]

def rank : Level → Nat
  | error => 1
  | warn => 2
  | info => 3
  | debug => 4
  | trace => 5

def name : Level → String
  | error => "ERROR"
  | warn => "WARN"
  | info => "INFO"
  | debug => "DEBUG"
  | trace => "TRACE"

/-- The level of a name, in upper or lower case. -/
def ofName? (name : String) : Option Level := all.find? (·.name = name.map Char.toUpper)

end Level

/-- Which records are written: none, or those up to a level. -/
inductive Threshold where
  | off
  | upTo (level : Level)
  deriving Repr, DecidableEq

namespace Threshold

/-- Whether a threshold lets records of a level through. -/
def admits : Threshold → Level → Bool
  | off, _ => false
  | upTo limit, level => level.rank ≤ limit.rank

/-- The threshold of a name, in upper or lower case. -/
def ofName? (name : String) : Option Threshold :=
  if name.map Char.toUpper = "OFF" then some off else (Level.ofName? name).map upTo

/-- The threshold of a setting; blanks around its name do not count. -/
def ofSetting (setting : Option String) : Threshold :=
  ((setting.map fun s => String.ofList (Text.trimBlanks s.toList)).bind ofName?).getD
    (upTo .warn)

end Threshold

/-- The environment variable with the setting. -/
def settingName : String := "NFA_REGEX_LOG"

structure Record where
  level : Level
  target : String
  message : String
  deriving Repr, DecidableEq

/-- The line that a record is written as. -/
def Record.line (r : Record) : String :=
  "[" ++ r.level.name ++ " " ++ r.target ++ "] " ++ r.message ++ "\n"

/-- What is written for a record. -/
def Threshold.write (t : Threshold) (r : Record) : String :=
  if t.admits r.level then r.line else ""

end PatternAutomaton.Log
