import Mathlib.Algebra.GroupWithZero.Nat
import PatternAutomaton.Matcher
import PatternAutomaton.Pattern.Measure
import PatternAutomaton.Pattern.Nodes
import PatternAutomaton.Proofs.LayoutFragment
import PatternAutomaton.Proofs.Printing

/-!
# How many states a pattern takes

Each node but a concatenation is laid out to one state, once more for each time that a `+` around
it is laid out for the second time. In the text of a pattern each of these nodes has a character
of its own, so the length of the text bounds the number of nodes, whatever groups and quantifiers
it has besides.
-/
namespace PatternAutomaton

namespace Pattern

variable {k copies : Nat} {around : List Pattern} {p : Pattern}

/-- The weight of a pattern is the sum over its nodes. -/
theorem sum_nodesWithin (around : List Pattern) (p : Pattern) :
    ((p.nodesWithin around).map Node.states).sum = p.weight (2 ^ around.countP isPlus) := by
  induction p generalizing around with
  | char c => simp [nodesWithin, weight, Node.states, Node.pluses]
  | concat p q ihp ihq => simp [nodesWithin, weight, Node.states, isPlus, ihp, ihq]
  | alt p q ihp ihq =>
    simp [nodesWithin, weight, Node.states, Node.pluses, isPlus, ihp, ihq, Nat.add_assoc]
  | star p ih => simp [nodesWithin, weight, Node.states, Node.pluses, isPlus, ih]
  | plus p ih =>
    simp [nodesWithin, weight, Node.states, Node.pluses, List.countP_cons, isPlus, ih,
      Nat.pow_succ, Nat.mul_comm]

/-- The `+` on the ways from the root are counted at the leaves. -/
theorem pluses_le_iff :
    (∀ n ∈ p.nodesWithin around, ∀ c, n.part = char c → n.pluses ≤ k) ↔
      around.countP isPlus + p.plusDepth ≤ k := by
  induction p generalizing around with
  | char c => simp [nodesWithin, plusDepth, Node.pluses]
  | concat p q ihp ihq | alt p q ihp ihq =>
    simp only [nodesWithin, List.forall_mem_cons, List.forall_mem_append, ihp, ihq, reduceCtorEq,
      List.countP_cons, isPlus, plusDepth]
    grind
  | star p ih | plus p ih =>
    simp only [nodesWithin, List.forall_mem_cons, ih, reduceCtorEq, List.countP_cons, isPlus,
      plusDepth]
    grind

theorem weight_eq_mul (copies : Nat) (p : Pattern) : p.weight copies = copies * p.weight 1 := by
  induction p generalizing copies with
  | char c => simp [weight]
  | concat p q ihp ihq => rw [weight, weight, ihp, ihq, Nat.mul_add]
  | alt p q ihp ihq => rw [weight, weight, ihp, ihq, Nat.mul_add, Nat.mul_add, Nat.mul_one]
  | star p ih => rw [weight, weight, ih, Nat.mul_add, Nat.mul_one]
  | plus p ih =>
    rw [weight, weight, ih (2 * copies), ih (2 * 1), Nat.mul_add, Nat.mul_one, Nat.mul_one,
      ← Nat.mul_assoc, Nat.mul_comm 2 copies]

/-- Two parts are paid for by the lengths of two texts that have room in a third. -/
theorem add_le_mul_of_add_le {n a b x y z : Nat} (ha : a ≤ n * x) (hb : b ≤ n * y)
    (le : x + y ≤ z) : a + b ≤ n * z := by
  calc a + b ≤ n * x + n * y := Nat.add_le_add ha hb
    _ = n * (x + y) := (Nat.mul_add n x y).symm
    _ ≤ n * z := Nat.mul_le_mul_left n le

theorem length_le_groupedIf (b : Bool) (text : List Char) :
    text.length ≤ (groupedIf b text).length := by
  cases b with
  | false => exact Nat.le_refl _
  | true => simp only [groupedIf, grouped, if_true, List.length_cons, List.length_append]; omega

/-- Each node that is laid out has a character of its own in the printed text. -/
theorem weight_le_length_print (h : p.plusDepth ≤ k) :
    p.weight copies ≤ copies * 2 ^ k * p.print.length := by
  have one (copies k : Nat) : copies ≤ copies * 2 ^ k * 1 := by
    rw [Nat.mul_one]
    exact Nat.le_mul_of_pos_right copies (Nat.two_pow_pos k)
  induction p generalizing copies k with
  | char c => exact one copies k
  | concat p q ihp ihq =>
    rw [plusDepth, Nat.max_le] at h
    refine add_le_mul_of_add_le (ihp h.1) (ihq h.2) ?_
    have hp := length_le_groupedIf (p.isConcat || p.isAlt) p.print
    have hq := length_le_groupedIf q.isAlt q.print
    simp only [print, List.length_append]
    omega
  | alt p q ihp ihq =>
    rw [plusDepth, Nat.max_le] at h
    refine add_le_mul_of_add_le
      (add_le_mul_of_add_le (one copies k) (ihp h.1) (Nat.le_refl _)) (ihq h.2) ?_
    have hp := length_le_groupedIf p.isAlt p.print
    simp only [print, List.length_append, List.length_cons]
    omega
  | star p ih =>
    refine add_le_mul_of_add_le (one copies k) (ih h) ?_
    have hp := length_le_groupedIf (!p.isChar) p.print
    simp only [print, List.length_append, List.length_singleton]
    omega
  | plus p ih =>
    -- What is repeated is laid out twice, and that is paid for with one of the `k` levels.
    obtain ⟨k, rfl⟩ := Nat.exists_eq_add_one_of_ne_zero (Nat.ne_zero_of_lt h)
    have twice : 2 * copies * 2 ^ k = copies * 2 ^ (k + 1) := by
      rw [Nat.pow_succ, Nat.mul_comm 2, Nat.mul_assoc, Nat.mul_comm 2]
    have body : p.weight (2 * copies) ≤ 2 * copies * 2 ^ k * p.print.length :=
      ih (Nat.le_of_succ_le_succ h)
    rw [twice] at body
    refine add_le_mul_of_add_le (one copies (k + 1)) body ?_
    have hp := length_le_groupedIf (!p.isChar) p.print
    simp only [print, List.length_append, List.length_singleton]
    omega

end Pattern

namespace Layout

theorem size_lay (p : Pattern) (next : StateId) (states : Array State) :
    (lay p next states).states.size = states.size + p.weight 1 := by
  induction p generalizing next states with
  | char c => simp [lay_char, Pattern.weight]
  | concat p q ihp ihq =>
    rw [lay_concat, ihp, ihq, Pattern.weight]
    omega
  | alt p q ihp ihq =>
    rw [lay_alt, place_states, Array.size_push, ihp, ihq, Pattern.weight]
    omega
  | star p ih =>
    rw [lay_star, fill_states, Array.size_setIfInBounds, ih, Array.size_push, Pattern.weight]
    omega
  | plus p ih =>
    rw [lay_plus, fill_states, Array.size_setIfInBounds, ih, ih, Array.size_push,
      Pattern.weight, p.weight_eq_mul (2 * 1)]
    omega

end Layout

namespace Automaton

theorem size_ofPattern (p : Pattern) : (ofPattern p).size = 1 + p.weight 1 :=
  Layout.size_lay p acceptId #[.accept]

/-- Arbitrary text before and after a pattern takes two states each. -/
theorem size_ofPattern_anywhere (p : Pattern) :
    (ofPattern p.anywhere).size = (ofPattern p).size + 4 := by
  rw [size_ofPattern, size_ofPattern, Pattern.anywhere, Pattern.anyText]
  simp only [Pattern.weight]
  omega

/-- The automaton of a text has a state for each character at most, and so many copies of each as
the `+` inside of each other make. -/
theorem size_ofPattern_le {k maxDepth : Nat} {text : List Char} {p : Pattern}
    (parsed : Pattern.parse maxDepth text = .ok p) (h : p.plusDepth ≤ k) :
    (ofPattern p).size ≤ 1 + text.length * 2 ^ k := by
  have derived := (Pattern.parse_eq_answer_iff (some p)).mp parsed
  obtain ⟨-, noLarger⟩ := Pattern.noLarger_of_isAlternation derived p rfl
  rw [size_ofPattern]
  refine Nat.add_le_add_left ?_ 1
  calc p.weight 1 ≤ 1 * 2 ^ k * p.print.length := Pattern.weight_le_length_print h
    _ = p.print.length * 2 ^ k := by rw [Nat.one_mul, Nat.mul_comm]
    _ ≤ text.length * 2 ^ k := Nat.mul_le_mul_right _ noLarger.length_le

end Automaton

namespace Matcher

/-- The size of an automaton is read off its pattern. Besides the accepting state there is one
state for each character, choice and repetition, and twice as many for each `+` around it. So a
text has no more states than characters, for each of the copies that its `+` inside of each other
make, and to find it anywhere takes four states more. -/
theorem size_of_compile :
    (∀ p, (Automaton.ofPattern p).size = 1 + (p.nodes.map Pattern.Node.states).sum) ∧
    ∀ maxDepth (text : String) p, Pattern.parse maxDepth text.toList = .ok p →
      ∃ whole found, compile .wholeLine maxDepth text = .ok whole ∧
        compile .anywhere maxDepth text = .ok found ∧
        found.automaton.size = whole.automaton.size + 4 ∧
        ∀ k, (∀ n ∈ p.nodes, ∀ c, n.part = .char c → n.pluses ≤ k) →
          whole.automaton.size ≤ 1 + text.length * 2 ^ k := by
  refine ⟨fun p => ?_, fun maxDepth text p parsed => ?_⟩
  · rw [Automaton.size_ofPattern, Pattern.nodes, Pattern.sum_nodesWithin]
    rfl
  · refine ⟨⟨.ofPattern p⟩, ⟨.ofPattern p.anywhere⟩, ?_, ?_,
      Automaton.size_ofPattern_anywhere p, fun k leaves => ?_⟩
    · simp only [compile, Pattern.compile, parsed]
    · simp only [compile, Pattern.compile, parsed]
    · have deep := Pattern.pluses_le_iff.mp leaves
      rw [List.countP_nil, Nat.zero_add] at deep
      exact Automaton.size_ofPattern_le parsed deep

/-- A `+` inside of a `+` is laid out twice, and what it repeats four times. -/
theorem size_of_compile_nested :
    let p : Pattern := .plus (.concat (.char 'a') (.concat (.plus (.char 'b')) (.char 'c')))
    Pattern.parse 1 "(ab+c)+".toList = .ok p ∧ (Automaton.ofPattern p).size = 12 ∧
      ∃ whole found, compile .wholeLine 1 "(ab+c)+" = .ok whole ∧
        compile .anywhere 1 "(ab+c)+" = .ok found ∧
          found.automaton.size = whole.automaton.size + 4 ∧
            whole.automaton.size ≤ 1 + 7 * 2 ^ 2 := by
  intro p
  obtain ⟨size, texts⟩ := size_of_compile
  have parsed : Pattern.parse 1 "(ab+c)+".toList = .ok p := rfl
  have leaves : ∀ n ∈ p.nodes, ∀ c, n.part = .char c → n.pluses ≤ 2 := by
    simp [p, Pattern.nodes, Pattern.nodesWithin, Pattern.Node.pluses, Pattern.isPlus,
      List.countP_cons]
  obtain ⟨whole, found, hwhole, hfound, four, bound⟩ := texts 1 "(ab+c)+" p parsed
  exact ⟨parsed, size p, whole, found, hwhole, hfound, four, bound 2 leaves⟩

end Matcher
end PatternAutomaton
