import PatternAutomaton.Automaton.Listing
import PatternAutomaton.Automaton.Run
import PatternAutomaton.Log
import PatternAutomaton.Text.Quoted

/-!
# Log records of an automaton

What is logged when an automaton is made and when it runs on a line: one record for each
consumed character and one for how the run ended.
-/
namespace PatternAutomaton

/-- The record of an automaton just made. -/
def Automaton.record (a : Automaton) : Log.Record where
  level := .debug
  target := "nfa_regex::engine::builder"
  message := s!"built NFA: {a.size} states, start = {StateId.text a.start}"

/-- The part that runs are logged under. -/
def Run.target : String := "nfa_regex::engine::evaluator"

def Advance.record (s : Advance) : Log.Record where
  level := .trace
  target := Run.target
  message := s!"sp = {s.position}, char = {Text.quoted s.char}, frontier = {s.frontierSize}"

def Verdict.record (v : Verdict) : Log.Record where
  level := .debug
  target := Run.target
  message :=
    match v with
    | stuck position => s!"no active state at sp = {position}"
    | finished accepted => s!"matched = {accepted}"

/-- The records of a run, in order. -/
def Run.records (r : Run) : List Log.Record :=
  r.advances.map Advance.record ++ [r.verdict.record]

end PatternAutomaton
