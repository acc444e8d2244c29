import Mathlib.Computability.Language
import PatternAutomaton.Automaton.Path

/-!
# Paths inside a block of states

A block is any set of states. A path inside it leaves states of the block only, so it ends where
it first gets out. Two facts carry all that follows: a path that has to leave a block with a
single way out passes through it, and a path that has to leave a loop goes round it some number
of times first. `Path` itself is the case of the block that holds everything.
-/
namespace PatternAutomaton.Automaton
open scoped Computability

/-- One edge and what it takes: one character from a consuming state, nothing from a split. -/
inductive Step (a : Automaton) : StateId → List Char → StateId → Prop
  | consume {s next : StateId} {symbol : Symbol} {c : Char} :
      a.state? s = some (.consume symbol next) → symbol.accepts c = true → Step a s [c] next
  | first {s first second : StateId} :
      a.state? s = some (.split first second) → Step a s [] first
  | second {s first second : StateId} :
      a.state? s = some (.split first second) → Step a s [] second

/-- A path that leaves only states of the block. It may end outside of it. -/
inductive PathIn (a : Automaton) (block : Set StateId) : StateId → List Char → StateId → Prop
  | nil (s : StateId) : PathIn a block s [] s
  | step {s m t : StateId} {u v : List Char} :
      s ∈ block → a.Step s u m → PathIn a block m v t → PathIn a block s (u ++ v) t

/-- What the paths inside the block from one state to another take. -/
def between (a : Automaton) (block : Set StateId) (s t : StateId) : Language Char :=
  {w | a.PathIn block s w t}

/-- Every edge that leaves the block leads to one given state. -/
def ExitsTo (a : Automaton) (block : Set StateId) (next : StateId) : Prop :=
  ∀ s ∈ block, ∀ w t, a.Step s w t → t ∈ block ∨ t = next

variable {a : Automaton} {block whole : Set StateId} {s m t next : StateId}
  {u v w : List Char}

@[simp] theorem mem_between : w ∈ a.between block s t ↔ a.PathIn block s w t := Iff.rfl

theorem step_iff_of_consume {symbol : Symbol}
    (h : a.state? s = some (.consume symbol next)) :
    a.Step s w t ↔ t = next ∧ ∃ c, symbol.accepts c = true ∧ w = [c] := by
  constructor
  · intro step
    cases step <;> simp_all
  · rintro ⟨rfl, c, hc, rfl⟩
    exact .consume h hc

theorem step_iff_of_split {first second : StateId}
    (h : a.state? s = some (.split first second)) :
    a.Step s w t ↔ w = [] ∧ (t = first ∨ t = second) := by
  constructor
  · intro step
    cases step <;> simp_all
  · rintro ⟨rfl, rfl | rfl⟩
    · exact .first h
    · exact .second h

/-- Only consuming and splitting states have edges. -/
theorem Step.kind (step : a.Step s w t) :
    (∃ symbol next, a.state? s = some (.consume symbol next)) ∨
      ∃ first second, a.state? s = some (.split first second) := by
  cases step with
  | consume h _ => exact .inl ⟨_, _, h⟩
  | first h => exact .inr ⟨_, _, h⟩
  | second h => exact .inr ⟨_, _, h⟩

/-- Every edge can be taken, since every symbol accepts some character. -/
theorem hasEdge_iff_step : a.HasEdge s t ↔ ∃ w, a.Step s w t := by
  constructor
  · intro edge
    cases h : a.state? s with
    | none => simp [HasEdge, targets, h] at edge
    | some state =>
      cases state with
      | consume symbol next =>
        obtain rfl : t = next := by simpa [HasEdge, targets, h, State.targets] using edge
        cases symbol with
        | char c => exact ⟨[c], .consume h (beq_self_eq_true c)⟩
        | any => exact ⟨['a'], .consume h rfl⟩
      | split first second =>
        have ways : t = first ∨ t = second := by
          simpa [HasEdge, targets, h, State.targets] using edge
        exact ⟨[], (step_iff_of_split h).mpr ⟨rfl, ways⟩⟩
      | accept => simp [HasEdge, targets, h, State.targets] at edge
      | reserved => simp [HasEdge, targets, h, State.targets] at edge
  · rintro ⟨w, step⟩
    cases step with
    | consume h _ => simp [HasEdge, targets, h, State.targets]
    | first h => simp [HasEdge, targets, h, State.targets]
    | second h => simp [HasEdge, targets, h, State.targets]

namespace PathIn

theorem single (hs : s ∈ block) (step : a.Step s w t) : a.PathIn block s w t := by
  simpa only [List.append_nil] using PathIn.step hs step (.nil t)

theorem append (path : a.PathIn block s u m) (rest : a.PathIn block m v t) :
    a.PathIn block s (u ++ v) t := by
  induction path with
  | nil => exact rest
  | step hs step _ ih => rw [List.append_assoc]; exact .step hs step (ih rest)

theorem mono (sub : block ⊆ whole) (path : a.PathIn block s w t) : a.PathIn whole s w t := by
  induction path with
  | nil s => exact .nil s
  | step hs step _ ih => exact .step (sub hs) step ih

/-- Outside the block a path inside it stands still. -/
theorem eq_of_not_mem (hs : s ∉ block) (path : a.PathIn block s w t) : w = [] ∧ t = s := by
  cases path with
  | nil => exact ⟨rfl, rfl⟩
  | step h => exact absurd h hs

/-- A path from a block with one way out that ends outside of it passes through that way. -/
theorem exit (exits : a.ExitsTo block next) (path : a.PathIn whole s w t) (hs : s ∈ block)
    (ht : t ∉ block) :
    ∃ u v, w = u ++ v ∧ a.PathIn block s u next ∧ a.PathIn whole next v t := by
  induction path with
  | nil => exact absurd hs ht
  | @step s m t o w _ step rest ih =>
    by_cases hm : m ∈ block
    · obtain ⟨u, v, rfl, inside, after⟩ := ih hm ht
      exact ⟨o ++ u, v, (List.append_assoc ..).symm, .step hs step inside, after⟩
    · obtain rfl := (exits s hs o m step).resolve_left hm
      exact ⟨o, w, rfl, .single hs step, rest⟩

/-- A path from the head of a loop goes round the loop some number of times and then takes the
other way. The induction also follows the paths that start in the body, which first come back
to the head. -/
theorem laps {body : Set StateId} {head entry onward : StateId}
    (forks : ∀ w m, a.Step head w m → w = [] ∧ (m = entry ∨ m = onward))
    (exits : a.ExitsTo body head) (hentry : entry ∈ body)
    (path : a.PathIn whole head w t) (ht : t ≠ head) (ht' : t ∉ body) :
    ∃ u v, w = u ++ v ∧ u ∈ (a.between body entry head)∗ ∧ a.PathIn whole onward v t := by
  suffices h : ∀ s, a.PathIn whole s w t →
      (s = head → ∃ u v, w = u ++ v ∧ u ∈ (a.between body entry head)∗ ∧
        a.PathIn whole onward v t) ∧
      (s ∈ body → ∃ r u v, w = r ++ (u ++ v) ∧ a.PathIn body s r head ∧
        u ∈ (a.between body entry head)∗ ∧ a.PathIn whole onward v t) from (h head path).1 rfl
  clear path
  intro s path
  induction path with
  | nil => exact ⟨fun h => absurd h ht, fun h => absurd h ht'⟩
  | @step s m t o w hs step rest ih =>
    obtain ⟨ofHead, ofBody⟩ := ih ht ht'
    constructor
    · rintro rfl
      obtain ⟨rfl, rfl | rfl⟩ := forks o m step
      · obtain ⟨r, u, v, rfl, lap, hu, after⟩ := ofBody hentry
        refine ⟨r ++ u, v, by simp, ?_, after⟩
        have round : r ∈ a.between body m s := lap
        exact mul_kstar_le_kstar (a := a.between body m s) (Language.append_mem_mul round hu)
      · exact ⟨[], w, rfl, Language.nil_mem_kstar _, rest⟩
    · intro hs'
      rcases exits s hs' o m step with hm | rfl
      · obtain ⟨r, u, v, rfl, back, hu, after⟩ := ofBody hm
        exact ⟨o ++ r, u, v, by simp, .step hs' step back, hu, after⟩
      · obtain ⟨u, v, rfl, hu, after⟩ := ofHead rfl
        exact ⟨o, u, v, rfl, .single hs' step, hu, after⟩

/-- Going round a loop any number of times leads back to its head. -/
theorem of_mem_kstar {body : Set StateId} {head entry : StateId} (sub : body ⊆ whole)
    (hhead : head ∈ whole) (enter : a.Step head [] entry)
    (hw : w ∈ (a.between body entry head)∗) : a.PathIn whole head w head := by
  obtain ⟨rounds, rfl, each⟩ := Language.mem_kstar.mp hw
  clear hw
  induction rounds with
  | nil => exact .nil head
  | cons r rounds ih =>
    have lap : a.PathIn whole head r head :=
      .step hhead enter ((each r List.mem_cons_self).mono sub)
    exact lap.append (ih fun r' h => each r' (List.mem_cons_of_mem r h))

end PathIn

/-- `Path` is the path inside the block of all states. -/
theorem path_iff_pathIn : a.Path s w t ↔ a.PathIn Set.univ s w t := by
  constructor
  · intro path
    induction path with
    | nil s => exact .nil s
    | consume h hc _ ih => exact .step (Set.mem_univ _) (.consume h hc) ih
    | first h _ ih => exact .step (Set.mem_univ _) (.first h) ih
    | second h _ ih => exact .step (Set.mem_univ _) (.second h) ih
  · intro path
    induction path with
    | nil s => exact .nil s
    | step _ step _ ih =>
      cases step with
      | consume h hc => exact .consume h hc ih
      | first h => exact .first h ih
      | second h => exact .second h ih

end PatternAutomaton.Automaton
