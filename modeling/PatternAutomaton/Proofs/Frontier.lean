import PatternAutomaton.Automaton.Run
import PatternAutomaton.Proofs.Search

/-!
# What a run decides

After some characters the frontier holds exactly the consuming and accepting states at the end
of a path that takes these characters. Each step of a run keeps that, so a run accepts a line if
and only if a path takes the line and ends in an accepting state. An empty frontier stays empty,
so nothing is lost by stopping there.
-/
namespace PatternAutomaton.Automaton

variable {a : Automaton} {s m t : StateId} {c : Char} {u v w line : List Char}
  {marks : Marks} {frontier : List StateId}

namespace Path

theorem append (path : a.Path s u m) (rest : a.Path m v t) : a.Path s (u ++ v) t := by
  induction path with
  | nil => exact rest
  | consume h hc _ ih => exact .consume h hc (ih rest)
  | first h _ ih => exact .first h (ih rest)
  | second h _ ih => exact .second h (ih rest)

theorem of_leads (led : a.Leads s t) : a.Path s [] t := by
  induction led using Relation.ReflTransGen.head_induction_on with
  | refl => exact .nil t
  | head edge _ ih =>
    obtain ⟨_, _, h, rfl | rfl⟩ := edge
    · exact .first h ih
    · exact .second h ih

theorem leads (path : a.Path s [] t) : a.Leads s t := by
  generalize hw : [] = w at path
  induction path with
  | nil => exact .refl
  | consume => exact absurd hw.symm (List.cons_ne_nil _ _)
  | first h _ ih => exact .head ⟨_, _, h, .inl rfl⟩ (ih hw)
  | second h _ ih => exact .head ⟨_, _, h, .inr rfl⟩ (ih hw)

end Path

/-- A path that takes nothing follows split edges. -/
theorem path_nil_iff : a.Path s [] t ↔ a.Leads s t := ⟨Path.leads, Path.of_leads⟩

theorem afterChar?_eq_some_iff :
    a.afterChar? c s = some t ↔
      ∃ symbol, a.state? s = some (.consume symbol t) ∧ symbol.accepts c = true := by
  cases h : a.state? s with
  | none => simp [afterChar?, h]
  | some state => cases state <;> simp [afterChar?, State.afterChar?, h, and_comm]

theorem isGoal_of_afterChar? (h : a.afterChar? c s = some t) : a.IsGoal s := by
  obtain ⟨symbol, h, -⟩ := afterChar?_eq_some_iff.mp h
  exact .inl ⟨symbol, t, h⟩

/-- A path first follows split edges and then takes its first character. -/
theorem path_cons_iff :
    a.Path s (c :: w) t ↔
      ∃ m n, a.Leads s m ∧ a.afterChar? c m = some n ∧ a.Path n w t := by
  constructor
  · intro path
    generalize hw : c :: w = w' at path
    induction path with
    | nil => exact absurd hw (List.cons_ne_nil _ _)
    | @consume s next t symbol d w' h hd rest =>
      obtain ⟨rfl, rfl⟩ := List.cons.inj hw
      exact ⟨s, next, .refl, afterChar?_eq_some_iff.mpr ⟨symbol, h, hd⟩, rest⟩
    | first h _ ih =>
      obtain ⟨m, n, led, after, rest⟩ := ih hw
      exact ⟨m, n, .head ⟨_, _, h, .inl rfl⟩ led, after, rest⟩
    | second h _ ih =>
      obtain ⟨m, n, led, after, rest⟩ := ih hw
      exact ⟨m, n, .head ⟨_, _, h, .inr rfl⟩ led, after, rest⟩
  · rintro ⟨m, n, led, after, rest⟩
    obtain ⟨symbol, h, hc⟩ := afterChar?_eq_some_iff.mp after
    exact (Path.of_leads led).append (.consume h hc rest)

/-- A path can be cut wherever the line it takes can. -/
theorem path_append_iff : a.Path s (u ++ v) t ↔ ∃ m, a.Path s u m ∧ a.Path m v t := by
  constructor
  · intro path
    induction u generalizing s with
    | nil => exact ⟨s, .nil s, path⟩
    | cons c u ih =>
      obtain ⟨m, n, led, after, rest⟩ := path_cons_iff.mp path
      obtain ⟨k, path, rest⟩ := ih rest
      exact ⟨k, path_cons_iff.mpr ⟨m, n, led, after, path⟩, rest⟩
  · rintro ⟨m, path, rest⟩
    exact path.append rest

/-- Some path from the state takes the characters and ends in an accepting state. -/
def AcceptsFrom (a : Automaton) (s : StateId) (w : List Char) : Prop :=
  ∃ t, a.Path s w t ∧ a.state? t = some .accept

/-- An accepting path goes through a goal before it takes its first character. -/
theorem AcceptsFrom.goal (h : a.AcceptsFrom s w) : ∃ g, a.Leads s g ∧ a.IsGoal g := by
  obtain ⟨t, path, accept⟩ := h
  cases w with
  | nil => exact ⟨t, path.leads, .inr accept⟩
  | cons c w =>
    obtain ⟨m, n, led, after, -⟩ := path_cons_iff.mp path
    exact ⟨m, led, isGoal_of_afterChar? after⟩

/-- The frontier after some characters: the goals at the end of the paths that take them. -/
def IsFrontier (a : Automaton) (w : List Char) (frontier : List StateId) : Prop :=
  ∀ t, t ∈ frontier ↔ a.Path a.start w t ∧ a.IsGoal t

/-- A run starts with the frontier after no character. -/
theorem isFrontier_start (fits : marks.Fits a) :
    a.IsFrontier [] (a.closure marks [a.start]).states := by
  intro t
  rw [mem_closure_iff fits, path_nil_iff]
  simp

/-- Each step of a run makes the frontier after one more character. -/
theorem IsFrontier.advance (front : a.IsFrontier w frontier) (fits : marks.Fits a) (c : Char) :
    a.IsFrontier (w ++ [c])
      (a.closure marks (frontier.filterMap (a.afterChar? c))).states := by
  intro t
  rw [mem_closure_iff fits]
  refine and_congr_left fun _ => ?_
  constructor
  · rintro ⟨seed, hseed, led⟩
    obtain ⟨m, hm, after⟩ := List.mem_filterMap.mp hseed
    exact ((front m).mp hm).1.append (path_cons_iff.mpr ⟨m, seed, .refl, after, .of_leads led⟩)
  · intro path
    obtain ⟨k, path, rest⟩ := path_append_iff.mp path
    obtain ⟨m, n, led, after, rest⟩ := path_cons_iff.mp rest
    have here : a.Path a.start w m := by simpa using path.append (.of_leads led)
    have mem : m ∈ frontier := (front m).mpr ⟨here, isGoal_of_afterChar? after⟩
    exact ⟨n, List.mem_filterMap.mpr ⟨m, mem, after⟩, rest.leads⟩

/-- An empty frontier can never lead to acceptance again. -/
theorem IsFrontier.not_acceptsFrom (front : a.IsFrontier w []) :
    ¬ a.AcceptsFrom a.start (w ++ line) := by
  rintro ⟨t, path, accept⟩
  obtain ⟨m, path, rest⟩ := path_append_iff.mp path
  obtain ⟨g, led, goal⟩ := AcceptsFrom.goal ⟨t, rest, accept⟩
  have here : a.Path a.start w g := by simpa using path.append (.of_leads led)
  exact List.not_mem_nil ((front g).mpr ⟨here, goal⟩)

theorem isAccept_iff : a.isAccept s = true ↔ a.state? s = some .accept := by
  cases h : a.state? s with
  | none => simp [isAccept, h]
  | some state => cases state <;> simp [isAccept, State.isAccept, h]

/-- At the end of the line the frontier decides. -/
theorem IsFrontier.any_isAccept_iff (front : a.IsFrontier w frontier) :
    frontier.any a.isAccept = true ↔ a.AcceptsFrom a.start w := by
  rw [List.any_eq_true]
  constructor
  · rintro ⟨t, mem, accept⟩
    exact ⟨t, ((front t).mp mem).1, isAccept_iff.mp accept⟩
  · rintro ⟨t, path, accept⟩
    exact ⟨t, (front t).mpr ⟨path, .inr accept⟩, isAccept_iff.mpr accept⟩

/-- A run goes on from a frontier to the right answer. -/
theorem accepted_runFrom_iff {position pops : Nat} {advances : List Advance}
    (front : a.IsFrontier w frontier) (fits : marks.Fits a) :
    (a.runFrom marks frontier position advances pops line).verdict.accepted = true ↔
      a.AcceptsFrom a.start (w ++ line) := by
  induction line generalizing w marks frontier position advances pops with
  | nil =>
    rw [List.append_nil]
    exact front.any_isAccept_iff
  | cons c line ih =>
    have next := front.advance fits c
    have cut : w ++ c :: line = (w ++ [c]) ++ line := by simp
    rw [runFrom, cut]
    split
    · next stuck =>
      rw [List.isEmpty_iff.mp stuck] at next
      exact iff_of_false Bool.false_ne_true next.not_acceptsFrom
    · exact ih next (fits_closure fits _)

/-- An automaton accepts the lines of its accepting paths. -/
theorem accepts_iff_hasAcceptingPath (a : Automaton) (line : List Char) :
    a.accepts line = true ↔ a.HasAcceptingPath line :=
  accepted_runFrom_iff (isFrontier_start (fits_fresh a)) (fits_closure (fits_fresh a) _)

end PatternAutomaton.Automaton
