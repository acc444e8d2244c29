import PatternAutomaton.Matcher
import PatternAutomaton.Pattern.Tree
import PatternAutomaton.Automaton.Listing

/-!
# Explaining a pattern

The text of a pattern, its tree, and the listing of the automaton it describes.
-/
namespace PatternAutomaton

/-- What could be written about a pattern's text, and its automaton or its fault. -/
structure Explanation where
  text : String
  result : Except PatternError Automaton

/-- Explains a pattern's text. After a fault, only the text itself is written. -/
def explain (text : String) : Explanation :=
  let heading := "expr: " ++ text ++ "\n"
  match Pattern.parse defaultMaxDepth text.toList with
  | .error e => ⟨heading, .error e⟩
  | .ok p =>
    let a := Automaton.ofPattern p
    ⟨heading ++ "AST: " ++ p.treeText ++ "\n\nNFA:\n" ++ a.listing, .ok a⟩

end PatternAutomaton
