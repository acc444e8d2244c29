import PatternAutomaton.Main
import PatternAutomaton.Pattern.Language
import PatternAutomaton.Pattern.Grammar
import PatternAutomaton.Pattern.Measure
import PatternAutomaton.Pattern.Printing
import PatternAutomaton.Automaton.Path
import PatternAutomaton.Automaton.DepthFirst
import PatternAutomaton.Automaton.FromListing
import PatternAutomaton.Automaton.Reachable
import PatternAutomaton.Automaton.Checked
import PatternAutomaton.Proofs.Discovery
import PatternAutomaton.Proofs.Matching
import PatternAutomaton.Proofs.Parsing
import PatternAutomaton.Proofs.Checked
import PatternAutomaton.Proofs.WellFormed
import PatternAutomaton.Proofs.Wrapping
import PatternAutomaton.Proofs.Collapsing
import PatternAutomaton.Proofs.Printing
import PatternAutomaton.Proofs.Faults
import PatternAutomaton.Automaton.Frontier
import PatternAutomaton.Proofs.Stopping
import PatternAutomaton.Proofs.Logging
import PatternAutomaton.Proofs.Hopeless
import PatternAutomaton.Proofs.Composing
import PatternAutomaton.Automaton.LayoutDepth
import PatternAutomaton.Proofs.Limit
import PatternAutomaton.Pattern.Nodes
import PatternAutomaton.Proofs.LayoutDepth
import PatternAutomaton.Proofs.Size
import PatternAutomaton.Proofs.Lines
import PatternAutomaton.Proofs.Answering
import PatternAutomaton.Proofs.DepthFirst
import PatternAutomaton.Proofs.Pops
import PatternAutomaton.Automaton.BreadthFirst
import PatternAutomaton.Proofs.BreadthFirst
import PatternAutomaton.Proofs.Listing
import PatternAutomaton.Proofs.EmptyGroup
import PatternAutomaton.Proofs.LayoutBlock
