import Mathlib.Algebra.Group.Nat.Defs
import PatternAutomaton.Pattern.Basic

/-!
# The nodes of a pattern

Every node of the tree with all that is around it, so that something can be said of each node by
its way from the root.
-/
namespace PatternAutomaton.Pattern

def isPlus : Pattern → Bool
  | plus _ => true
  | _ => false

/-- A node: the part of the pattern that it is the root of, and the parts around that, innermost
first. -/
structure Node where
  part : Pattern
  around : List Pattern

/-- The number of `+` around the node. -/
def Node.pluses (n : Node) : Nat := n.around.countP isPlus

/-- The number of states that the node is laid out to. Every `+` around it lays it out twice as
often, and a concatenation only joins what its parts are laid out to. -/
def Node.states (n : Node) : Nat :=
  match n.part with
  | concat _ _ => 0
  | char _ | alt _ _ | star _ | plus _ => 2 ^ n.pluses

/-- The nodes of a pattern that has `around` around it. -/
def nodesWithin (around : List Pattern) : Pattern → List Node
  | char c => [⟨char c, around⟩]
  | concat p q =>
    let here := concat p q
    ⟨here, around⟩ :: (p.nodesWithin (here :: around) ++ q.nodesWithin (here :: around))
  | alt p q =>
    let here := alt p q
    ⟨here, around⟩ :: (p.nodesWithin (here :: around) ++ q.nodesWithin (here :: around))
  | star p => ⟨star p, around⟩ :: p.nodesWithin (star p :: around)
  | plus p => ⟨plus p, around⟩ :: p.nodesWithin (plus p :: around)

def nodes (p : Pattern) : List Node := p.nodesWithin []

end PatternAutomaton.Pattern
