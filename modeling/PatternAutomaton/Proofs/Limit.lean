import PatternAutomaton.Proofs.Faults
import PatternAutomaton.Proofs.Matching

/-!
# Raising the limit

The limit on the groups open at once only cuts a text off. What is read without a fault is read
again with more room, and all faults but want of room show in the text alone. So a higher limit
changes a result only if the lower one was reached, and then it goes on behind the parenthesis
that reached it.
-/
namespace PatternAutomaton

namespace Pattern

variable {d e i j : Nat} {text before u v : List Char} {c : Char} {f : PatternError}
  {p : Pattern}

theorem parse_mono (h : parse d text = .ok p) (le : d ≤ e) : parse e text = .ok p :=
  parse_of_parenDepth_le h (Nat.le_trans (parenDepth_le_of_parse h) le)

theorem Live.mono (live : Live d text) (le : d ≤ e) : Live e text := by
  obtain ⟨more, p, parsed⟩ := live
  exact ⟨more, p, parse_mono parsed le⟩

/-- Want of room apart, the limit has no part in a fault. -/
theorem FaultAt.mono (h : FaultAt d before c f) (room : ∀ i, f ≠ .tooDeep i) :
    FaultAt e before c f := by
  cases h with
  | unopenedGroup outside => exact .unopenedGroup outside
  | tooDeep => exact absurd rfl (room _)
  | nothingBefore mark vacant => exact .nothingBefore mark vacant
  | nothingAfter inside bar vacant => exact .nothingAfter inside bar vacant

/-- A fault belongs to the end of a live text or to a character behind one. -/
theorem parse_eq_error_cases (h : parse d text = .error f) :
    (Live d text ∧ FaultAtEnd text f) ∨
      ∃ before c more, text = before ++ c :: more ∧ Live d before ∧ FaultAt d before c f := by
  by_cases live : Live d text
  · exact .inl ⟨live, (parse_eq_error_iff_of_live live).mp h⟩
  · obtain ⟨before, c, more, f', rfl, live', fault⟩ := exists_faultAt_of_not_live live
    rw [parse_of_faultAt live' fault more] at h
    obtain rfl := Except.error.inj h
    exact .inr ⟨before, c, more, rfl, live', fault⟩

/-- A result that is not for want of room stays when there is more room. -/
theorem parse_eq_of_not_tooDeep (le : d ≤ e) (room : ∀ i, parse d text ≠ .error (.tooDeep i)) :
    parse e text = parse d text := by
  cases h : parse d text with
  | ok p => exact parse_mono h le
  | error f =>
    have other : ∀ i, f ≠ .tooDeep i := fun i eq => room i (eq ▸ h)
    rcases parse_eq_error_cases h with ⟨live, atEnd⟩ | ⟨before, c, more, rfl, live, fault⟩
    · exact (parse_eq_error_iff_of_live (live.mono le)).mpr atEnd
    · exact parse_of_faultAt (live.mono le) (fault.mono other) more

/-- What can be looked for under a limit is the same with more room. -/
theorem compile_mono {scope : Scope} (h : compile scope d text = .ok p) (le : d ≤ e) :
    compile scope e text = .ok p := by
  cases scope with
  | wholeLine => exact parse_mono h le
  | anywhere =>
    rcases compile_anywhere_cases h with ⟨q, parsed, rfl⟩ | ⟨empty, rfl⟩
    · simp only [compile, parse_mono parsed le]
    · have room : ∀ i, parse d text ≠ .error (.tooDeep i) := by simp [empty]
      simp only [compile, parse_eq_of_not_tooDeep le room, empty]

/-- Want of room is found at a parenthesis behind a live text that opens as many groups as may
be open. -/
theorem exists_open_of_tooDeep (h : parse d text = .error (.tooDeep i)) :
    ∃ before more, text = before ++ '(' :: more ∧ before.length = i ∧ openGroups before = d ∧
      Live d before := by
  rcases parse_eq_error_cases h with ⟨-, atEnd⟩ | ⟨before, c, more, rfl, live, fault⟩
  · cases atEnd
  · cases fault with
    | tooDeep full => exact ⟨before, more, rfl, rfl, full, live⟩

/-- No fault belongs to a character of a part that is live. -/
theorem length_le_of_live (live : Live d u) (h : parse d (u ++ v) = .error f)
    (position : f.position? = some j) : u.length ≤ j := by
  rcases parse_eq_error_cases h with ⟨-, atEnd⟩ | ⟨before, c, more, same, live', fault⟩
  · cases atEnd with
    | unclosedGroup | empty => cases position
    | nothingAfter =>
      obtain rfl := Option.some.inj position
      exact List.length_append ▸ Nat.le_add_right _ _
  · -- A fault inside of the live part would be one of a text that goes on to a pattern.
    obtain rfl := Option.some.inj (fault.position?_eq.symm.trans position)
    refine Nat.le_of_not_lt fun lt => ?_
    have shorter : before ++ [c] <+: u :=
      List.prefix_of_prefix_length_le ⟨more, by simp [same]⟩ (List.prefix_append u v)
        (by rw [List.length_append]; exact lt)
    exact (live_append_singleton_iff live').mp (live.of_isPrefix shorter) f fault

/-- With room for one more group, the parenthesis that found none is read. -/
theorem live_append_open (live : Live d before) (full : openGroups before = d) (lt : d < e) :
    Live e (before ++ ['(']) := by
  rw [live_append_singleton_iff (live.mono (Nat.le_of_lt lt))]
  intro f fault
  cases fault with
  | tooDeep full' => omega
  | nothingBefore mark => simp at mark

/-- As many groups as there are parentheses to open them are always enough. -/
theorem parse_ne_tooDeep_of_count_le (le : text.count '(' ≤ d) (i : Nat) :
    parse d text ≠ .error (.tooDeep i) := by
  intro h
  obtain ⟨before, more, rfl, -, full, -⟩ := exists_open_of_tooDeep h
  rw [openGroups] at full
  simp only [List.count_append, List.count_cons_self] at le
  omega

/-- The limit cuts a text off and has no other effect. A result that is not for want of room is
the result under every higher limit. Want of room is found at a parenthesis with exactly as many
groups open before it as the limit allows; under a higher limit nothing before that parenthesis
has a fault, and neither has the parenthesis itself. So want of room is found further on under a
higher limit, and the number of parentheses that open groups is a limit from which on the result
stays the same. -/
theorem parse_raise_limit (text : List Char) :
    (∀ d e, d ≤ e → (∀ i, parse d text ≠ .error (.tooDeep i)) →
      parse e text = parse d text) ∧
    (∀ d i, parse d text = .error (.tooDeep i) →
      text[i]? = some '(' ∧ openGroups (text.take i) = d ∧
        ∀ e, d ≤ e →
          (∀ f j, parse e (text.take i) = .error f → f.position? = some j → i ≤ j) ∧
          ∀ f j, parse e text = .error f → f.position? = some j → i ≤ j ∧ (d < e → i < j)) ∧
    (∀ d e i j, d ≤ e → parse d text = .error (.tooDeep i) →
      parse e text = .error (.tooDeep j) → i ≤ j ∧ (d < e → i < j)) ∧
    ∀ d, text.count '(' ≤ d → parse d text = parse (text.count '(') text := by
  have behind (d e i j : Nat) (f : PatternError) (le : d ≤ e)
      (h : parse d text = .error (.tooDeep i)) (h' : parse e text = .error f)
      (position : f.position? = some j) : i ≤ j ∧ (d < e → i < j) := by
    obtain ⟨before, more, rfl, rfl, full, live⟩ := exists_open_of_tooDeep h
    refine ⟨length_le_of_live (live.mono le) h' position, fun lt => ?_⟩
    have opened := live_append_open live full lt
    rw [List.append_cons] at h'
    have past := length_le_of_live opened h' position
    rwa [List.length_append] at past
  refine ⟨fun d e => parse_eq_of_not_tooDeep, fun d i h => ?_,
    fun d e i j le h h' => behind d e i j _ le h h' rfl, fun d le => ?_⟩
  · obtain ⟨before, more, same, rfl, full, live⟩ := exists_open_of_tooDeep h
    have cut : text.take before.length = before := by rw [same, List.take_left]
    refine ⟨by simp [same], by rw [cut, full], fun e le => ⟨fun f j h' position => ?_,
      fun f j h' => behind d e _ j f le h h'⟩⟩
    rw [cut, ← List.append_nil before] at h'
    exact length_le_of_live (live.mono le) h' position
  · exact parse_eq_of_not_tooDeep le (parse_ne_tooDeep_of_count_le (Nat.le_refl _))

/-- The second group is cut off by the limit 1, and the bar at the end is found by all others. -/
theorem parse_raise_limit_nested :
    let text := "a(b(c))|".toList
    parse 1 text = .error (.tooDeep 3) ∧ openGroups (text.take 3) = 1 ∧
      parse 2 text = .error (.nothingAfter 8) ∧ 3 < 8 ∧ parse 9 text = parse 2 text := by
  intro text
  obtain ⟨-, cut, -, stays⟩ := parse_raise_limit text
  obtain ⟨-, full, behind⟩ := cut 1 3 rfl
  exact ⟨rfl, full, rfl, ((behind 2 (by decide)).2 _ 8 rfl rfl).2 (by decide),
    stays 9 (by decide)⟩

end Pattern

/-- A matcher made under a limit is made under a higher one too. -/
theorem Matcher.compile_mono {scope : Scope} {d e : Nat} {text : String} {m : Matcher}
    (h : compile scope d text = .ok m) (le : d ≤ e) : compile scope e text = .ok m := by
  obtain ⟨p, compiled, rfl⟩ := exists_pattern_of_compile h
  simp only [compile, Pattern.compile_mono compiled le]

end PatternAutomaton
