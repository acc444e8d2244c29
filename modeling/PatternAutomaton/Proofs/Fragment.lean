import PatternAutomaton.Pattern.Language
import PatternAutomaton.Automaton.Layout
import PatternAutomaton.Proofs.Block

/-!
# Fragments of an automaton

A region is a block of states with one entry and one way out, to a state outside of it, and a
fragment is a region whose paths from the entry to that state take exactly the lines of a
language. A consuming state is a fragment, and fragments make larger ones for each way of
putting a pattern together. Nothing here depends on where in a table the states stand.

A split makes one region of two in the same way for alternatives and for both repetitions: one
of the two goes on, and the other goes on as well or comes back to the split.
-/
namespace PatternAutomaton
open scoped Computability

/-- The lines of a character are the characters that its state takes. -/
theorem Pattern.mem_charLanguage_iff {c : Char} {w : List Char} :
    w ∈ charLanguage c ↔ ∃ d, (Symbol.ofChar c).accepts d = true ∧ w = [d] := by
  by_cases h : c = wildcard
  · have lines : w ∈ charLanguage c ↔ ∃ d, w = [d] := iff_of_eq (congrArg (w ∈ ·) (if_pos h))
    simp only [lines, Symbol.ofChar, if_pos h, Symbol.accepts, true_and]
  · have lines : w ∈ charLanguage c ↔ w = [c] := iff_of_eq (congrArg (w ∈ ·) (if_neg h))
    simp only [lines, Symbol.ofChar, if_neg h, Symbol.accepts, beq_iff_eq, exists_eq_left']

namespace Automaton

/-- A block that is left to `next` only, and in which every state is on a way from the entry to
`next`. It is empty where the entry is `next` itself. -/
structure Region (a : Automaton) (block : Set StateId) (entry next : StateId) : Prop where
  starts : entry ∈ block ∨ entry = next
  next_not_mem : next ∉ block
  exits : a.ExitsTo block next
  reached : ∀ s ∈ block, ∃ w, a.PathIn block entry w s
  leaves : ∀ s ∈ block, ∃ w, a.PathIn block s w next

/-- A region with at least its entry, whose paths from the entry to `next` take the lines of a
language. -/
structure Fragment (a : Automaton) (block : Set StateId) (entry next : StateId)
    (lang : Language Char) : Prop extends a.Region block entry next where
  entry_mem : entry ∈ block
  between_eq : a.between block entry next = lang

namespace Region

variable {a : Automaton} {block P Q : Set StateId} {s e f m next back : StateId}

theorem empty (next : StateId) : a.Region ∅ next next where
  starts := .inr rfl
  next_not_mem := Set.notMem_empty next
  exits _ hs := absurd hs (Set.notMem_empty _)
  reached _ hs := absurd hs (Set.notMem_empty _)
  leaves _ hs := absurd hs (Set.notMem_empty _)

theorem through (r : a.Region block e next) : ∃ w, a.PathIn block e w next := by
  rcases r.starts with mem | rfl
  · exact r.leaves e mem
  · exact ⟨[], .nil _⟩

/-- A region that goes on to the entry of another one. -/
theorem concat (p : a.Region P e m) (q : a.Region Q m next) (hnext : next ∉ P) :
    a.Region (P ∪ Q) e next := by
  have subP : P ⊆ P ∪ Q := Set.subset_union_left
  have subQ : Q ⊆ P ∪ Q := Set.subset_union_right
  have second : m ∈ P ∪ Q ∨ m = next := q.starts.imp_left .inr
  obtain ⟨x, through⟩ := p.through
  obtain ⟨y, onward⟩ := q.through
  refine ⟨?_, fun h => h.elim hnext q.next_not_mem, ?_, ?_, ?_⟩
  · rcases p.starts with mem | rfl
    · exact .inl (.inl mem)
    · exact second
  · rintro s (hs | hs) w t step
    · rcases p.exits s hs w t step with ht | rfl
      · exact .inl (.inl ht)
      · exact second
    · exact (q.exits s hs w t step).imp_left (@subQ t)
  · rintro s (hs | hs)
    · obtain ⟨w, path⟩ := p.reached s hs
      exact ⟨w, path.mono subP⟩
    · obtain ⟨w, path⟩ := q.reached s hs
      exact ⟨x ++ w, (through.mono subP).append (path.mono subQ)⟩
  · rintro s (hs | hs)
    · obtain ⟨w, path⟩ := p.leaves s hs
      exact ⟨w ++ y, (path.mono subP).append (onward.mono subQ)⟩
    · obtain ⟨w, path⟩ := q.leaves s hs
      exact ⟨w, path.mono subQ⟩

/-- A split between a region that goes on and one that goes on too or comes back. -/
theorem fork (forks : ∀ w m, a.Step s w m ↔ w = [] ∧ (m = e ∨ m = f))
    (p : a.Region P e next) (q : a.Region Q f back) (hback : back = next ∨ back = s)
    (hnext : next ≠ s) (hnext' : next ∉ Q) : a.Region (insert s (P ∪ Q)) s next := by
  have subP : P ⊆ insert s (P ∪ Q) := fun _ h => .inr (.inl h)
  have subQ : Q ⊆ insert s (P ∪ Q) := fun _ h => .inr (.inr h)
  have mem_s : s ∈ insert s (P ∪ Q) := .inl rfl
  have toP := (forks [] e).mpr ⟨rfl, .inl rfl⟩
  have toQ := (forks [] f).mpr ⟨rfl, .inr rfl⟩
  have return_mem : back ∈ insert s (P ∪ Q) ∨ back = next := by
    rcases hback with rfl | rfl
    · exact .inr rfl
    · exact .inl mem_s
  obtain ⟨x, onward⟩ := p.through
  have leave : a.PathIn (insert s (P ∪ Q)) s x next := .step mem_s toP (onward.mono subP)
  refine ⟨.inl mem_s, ?_, ?_, ?_, ?_⟩
  · rintro (rfl | hP | hQ)
    · exact hnext rfl
    · exact p.next_not_mem hP
    · exact hnext' hQ
  · rintro t (rfl | ht | ht) w r step
    · obtain ⟨-, rfl | rfl⟩ := (forks w r).mp step
      · exact p.starts.imp_left (@subP r)
      · rcases q.starts with hr | rfl
        · exact .inl (subQ hr)
        · exact return_mem
    · exact (p.exits t ht w r step).imp_left (@subP r)
    · rcases q.exits t ht w r step with hr | rfl
      · exact .inl (subQ hr)
      · exact return_mem
  · rintro t (rfl | ht | ht)
    · exact ⟨[], .nil _⟩
    · obtain ⟨w, path⟩ := p.reached t ht
      exact ⟨w, .step mem_s toP (path.mono subP)⟩
    · obtain ⟨w, path⟩ := q.reached t ht
      exact ⟨w, .step mem_s toQ (path.mono subQ)⟩
  · rintro t (rfl | ht | ht)
    · exact ⟨x, leave⟩
    · obtain ⟨w, path⟩ := p.leaves t ht
      exact ⟨w, path.mono subP⟩
    · obtain ⟨w, path⟩ := q.leaves t ht
      rcases hback with rfl | rfl
      · exact ⟨w, path.mono subQ⟩
      · exact ⟨w ++ x, (path.mono subQ).append leave⟩

end Region

namespace Fragment

variable {a : Automaton} {block whole P Q : Set StateId} {s t e m next : StateId}
  {w : List Char} {K L : Language Char}

theorem pathIn_iff (f : a.Fragment block e next L) : a.PathIn block e w next ↔ w ∈ L := by
  rw [← f.between_eq, mem_between]

/-- A path from the entry to a state outside the fragment takes a line of the language before
it goes on from the way out. -/
theorem exists_append (f : a.Fragment block e next L) (path : a.PathIn whole e w t)
    (ht : t ∉ block) : ∃ u ∈ L, ∃ v, w = u ++ v ∧ a.PathIn whole next v t := by
  obtain ⟨u, v, rfl, inside, after⟩ := path.exit f.exits f.entry_mem ht
  exact ⟨u, f.pathIn_iff.mp inside, v, rfl, after⟩

/-- A path that ends at the way out of the fragment, where that is outside the larger block
too, takes a line of the language and nothing more. -/
theorem mem_of_pathIn (f : a.Fragment block e next L) (hnext : next ∉ whole)
    (path : a.PathIn whole e w next) : w ∈ L := by
  obtain ⟨u, hu, v, rfl, after⟩ := f.exists_append path f.next_not_mem
  obtain ⟨rfl, -⟩ := after.eq_of_not_mem hnext
  simpa using hu

theorem pathIn_of_mem (f : a.Fragment block e next L) (sub : block ⊆ whole) (hw : w ∈ L) :
    a.PathIn whole e w next := (f.pathIn_iff.mpr hw).mono sub

/-- A state of a fragment consumes or splits. -/
theorem kind (f : a.Fragment block e next L) (hs : s ∈ block) :
    (∃ symbol t, a.state? s = some (.consume symbol t)) ∨
      ∃ first second, a.state? s = some (.split first second) := by
  obtain ⟨w, path⟩ := f.leaves s hs
  cases path with
  | nil => exact absurd hs f.next_not_mem
  | step _ step => exact step.kind

/-- A consuming state takes the lines of one character. -/
theorem char {c : Char} (h : a.state? s = some (.consume (.ofChar c) next)) (ne : next ≠ s) :
    a.Fragment {s} s next (Pattern.charLanguage c) := by
  have out : next ∉ ({s} : Set StateId) := ne
  have mem_iff (w : List Char) : a.PathIn {s} s w next ↔ w ∈ Pattern.charLanguage c := by
    rw [Pattern.mem_charLanguage_iff]
    constructor
    · intro path
      cases path with
      | nil => exact absurd rfl ne
      | step _ step rest =>
        obtain ⟨rfl, d, hd, rfl⟩ := (step_iff_of_consume h).mp step
        obtain ⟨rfl, -⟩ := rest.eq_of_not_mem out
        exact ⟨d, hd, rfl⟩
    · rintro ⟨d, hd, rfl⟩
      exact .single rfl (.consume h hd)
  have taken : ∃ d, (Symbol.ofChar c).accepts d = true := by
    refine ⟨c, ?_⟩
    by_cases hc : c = Pattern.wildcard <;> simp [Symbol.ofChar, hc, Symbol.accepts]
  refine ⟨⟨.inl rfl, out, ?_, ?_, ?_⟩, rfl, Language.ext mem_iff⟩
  · rintro _ rfl w t step
    exact .inr ((step_iff_of_consume h).mp step).1
  · rintro _ rfl
    exact ⟨[], .nil _⟩
  · rintro _ rfl
    obtain ⟨d, hd⟩ := taken
    exact ⟨[d], .single rfl (.consume h hd)⟩

/-- A fragment that goes on to the entry of another one. -/
theorem concat (p : a.Fragment P e m K) (q : a.Fragment Q m next L) (hnext : next ∉ P) :
    a.Fragment (P ∪ Q) e next (K * L) := by
  have region := p.toRegion.concat q.toRegion hnext
  refine ⟨region, .inl p.entry_mem, Language.ext fun w => ?_⟩
  rw [mem_between, Language.mem_mul]
  constructor
  · intro path
    obtain ⟨u, hu, v, rfl, rest⟩ := p.exists_append path hnext
    exact ⟨u, hu, v, q.mem_of_pathIn region.next_not_mem rest, rfl⟩
  · rintro ⟨u, hu, v, hv, rfl⟩
    exact (p.pathIn_of_mem Set.subset_union_left hu).append
      (q.pathIn_of_mem Set.subset_union_right hv)

/-- A split between two fragments with the same way out. -/
theorem alt {first second : StateId} (h : a.state? s = some (.split first second))
    (p : a.Fragment P first next K) (q : a.Fragment Q second next L) (hnext : next ≠ s) :
    a.Fragment (insert s (P ∪ Q)) s next (K + L) := by
  have subP : P ⊆ insert s (P ∪ Q) := fun _ h => .inr (.inl h)
  have subQ : Q ⊆ insert s (P ∪ Q) := fun _ h => .inr (.inr h)
  have mem_s : s ∈ insert s (P ∪ Q) := .inl rfl
  have region := Region.fork (fun w m => step_iff_of_split h) p.toRegion q.toRegion (.inl rfl)
    hnext q.next_not_mem
  refine ⟨region, mem_s, Language.ext fun w => ?_⟩
  rw [mem_between, Language.mem_add]
  constructor
  · intro path
    cases path with
    | nil => exact absurd rfl hnext
    | step _ step rest =>
      obtain ⟨rfl, rfl | rfl⟩ := (step_iff_of_split h).mp step
      · exact .inl (p.mem_of_pathIn region.next_not_mem rest)
      · exact .inr (q.mem_of_pathIn region.next_not_mem rest)
  · rintro (hw | hw)
    · exact .step mem_s (.first h) (p.pathIn_of_mem subP hw)
    · exact .step mem_s (.second h) (q.pathIn_of_mem subQ hw)

/-- A split between leaving and a fragment that comes back to the split. -/
theorem star (h : a.state? s = some (.split e next)) (p : a.Fragment P e s L)
    (hnext : next ≠ s) (hnext' : next ∉ P) : a.Fragment (insert s P) s next L∗ := by
  have sub : P ⊆ insert s P := Set.subset_insert s P
  have mem_s : s ∈ insert s P := .inl rfl
  have region : a.Region (insert s P) s next := by
    have fork := Region.fork (fun w m => (step_iff_of_split h).trans (and_congr_right' or_comm))
      (.empty next) p.toRegion (.inr rfl) hnext hnext'
    rwa [Set.empty_union] at fork
  refine ⟨region, mem_s, Language.ext fun w => ?_⟩
  rw [mem_between]
  constructor
  · intro path
    obtain ⟨u, v, rfl, hu, after⟩ := path.laps (fun w m => (step_iff_of_split h).mp)
      p.exits p.entry_mem hnext hnext'
    obtain ⟨rfl, -⟩ := after.eq_of_not_mem region.next_not_mem
    rw [p.between_eq] at hu
    simpa using hu
  · intro hw
    rw [← p.between_eq] at hw
    simpa using (PathIn.of_mem_kstar sub mem_s (.first h) hw).append
      (.single mem_s (.second h))

/-- A split between two fragments of one language, of which the first leaves and the second
comes back to the split. -/
theorem plus {first second : StateId} (h : a.state? s = some (.split first second))
    (p : a.Fragment P first next L) (q : a.Fragment Q second s L) (hnext : next ≠ s)
    (hnext' : next ∉ Q) : a.Fragment (insert s (P ∪ Q)) s next (L * L∗) := by
  have subP : P ⊆ insert s (P ∪ Q) := fun _ h => .inr (.inl h)
  have subQ : Q ⊆ insert s (P ∪ Q) := fun _ h => .inr (.inr h)
  have mem_s : s ∈ insert s (P ∪ Q) := .inl rfl
  have region := Region.fork (fun w m => step_iff_of_split h) p.toRegion q.toRegion (.inr rfl)
    hnext hnext'
  refine ⟨region, mem_s, Language.ext fun w => ?_⟩
  rw [mem_between, ← Language.mul_self_kstar_comm, Language.mem_mul]
  constructor
  · intro path
    obtain ⟨u, v, rfl, hu, after⟩ := path.laps
      (fun w m step => ((step_iff_of_split h).mp step).imp_right Or.symm)
      q.exits q.entry_mem hnext hnext'
    rw [q.between_eq] at hu
    exact ⟨u, hu, v, p.mem_of_pathIn region.next_not_mem after, rfl⟩
  · rintro ⟨u, hu, v, hv, rfl⟩
    rw [← q.between_eq] at hu
    exact (PathIn.of_mem_kstar subQ mem_s (.second h) hu).append
      (.step mem_s (.first h) (p.pathIn_of_mem subP hv))

end Fragment
end Automaton
end PatternAutomaton
