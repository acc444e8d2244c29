import PatternAutomaton.Automaton.FromListing

/-!
# Listings lose nothing

An automaton is read back from its listing, so different automata have different listings. Two
things could be in the way. The character of a consuming state stands in the text as it is, be it a
line break, a comma or a digit; but it is always one character, at a place that the word before it
fixes. And an index has no greatest number of digits; but what stands behind an index never starts
with a digit.
-/
namespace PatternAutomaton

namespace StateId

variable {c : Char} {id : StateId}

theorem chars_eq_append (id : StateId) :
    chars id = List.replicate (4 - (Nat.toDigits 10 id).length) '0' ++ Nat.toDigits 10 id := rfl

theorem isDigit_of_mem_chars (h : c ∈ chars id) : c.isDigit = true := by
  rw [chars_eq_append, List.mem_append, List.mem_replicate] at h
  rcases h with ⟨-, rfl⟩ | h
  · rfl
  · exact Nat.isDigit_of_mem_toDigits (by decide) (by decide) h

theorem chars_ne_nil (id : StateId) : chars id ≠ [] := by
  rw [chars_eq_append]
  exact List.append_ne_nil_of_right_ne_nil _ Nat.toDigits_ne_nil

end StateId

namespace State

-- The cases of `chars`, each by definition. The equations that are generated for it take long,
-- since they compare the words.

@[simp] theorem chars_char (c : Char) (next : StateId) :
    (consume (.char c) next).chars =
      "char ".toList ++ [c] ++ ", ".toList ++ StateId.chars next := rfl

@[simp] theorem chars_any (next : StateId) :
    (consume .any next).chars = "any, ".toList ++ StateId.chars next := rfl

@[simp] theorem chars_split (first second : StateId) :
    (split first second).chars =
      "split ".toList ++ StateId.chars first ++ ", ".toList ++ StateId.chars second := rfl

@[simp] theorem chars_accept : accept.chars = "accept".toList := rfl

@[simp] theorem chars_reserved : reserved.chars = "unbound".toList := rfl

end State

namespace Automaton

variable {c : Char} {rest : List Char}

/-- Zeros in front of an index do not change it. -/
theorem digitsValue_chars (id : StateId) : digitsValue 0 (StateId.chars id) = id := by
  have value (digits : List Char) : digitsValue 0 digits = Nat.ofDigitChars 10 digits 0 := rfl
  rw [value, StateId.chars_eq_append, Nat.ofDigitChars_append, Nat.ofDigitChars_replicate_zero,
    Nat.mul_zero, Nat.ofDigitChars_ten_toDigits]

/-- An index ends at the first character that is no digit. -/
theorem readIndex?_chars (id : StateId) (hc : c.isDigit = false) :
    readIndex? (StateId.chars id ++ c :: rest) = some (id, c :: rest) := by
  have digits : ∀ d ∈ StateId.chars id, d.isDigit = true := fun _ => StateId.isDigit_of_mem_chars
  have taken : (StateId.chars id ++ c :: rest).takeWhile Char.isDigit = StateId.chars id := by
    rw [List.takeWhile_append_of_pos digits, List.takeWhile_cons_of_neg (by simp [hc]),
      List.append_nil]
  have left : (StateId.chars id ++ c :: rest).dropWhile Char.isDigit = c :: rest := by
    rw [List.dropWhile_append_of_pos digits, List.dropWhile_cons_of_neg (by simp [hc])]
  have nonempty : ¬ (StateId.chars id).isEmpty = true := by simp [StateId.chars_ne_nil]
  simp only [readIndex?, taken, left, digitsValue_chars, if_neg nonempty]

/-- A state is read up to the line break behind it. Which kind it is shows in its first word, and
a character that it takes is passed over without being looked at. -/
theorem readState?_chars (s : State) (rest : List Char) :
    readState? (s.chars ++ '\n' :: rest) = some (s, '\n' :: rest) := by
  have last (id : StateId) : readIndex? (StateId.chars id ++ '\n' :: rest) =
      some (id, '\n' :: rest) := readIndex?_chars id rfl
  have first (id : StateId) (more : List Char) : readIndex? (StateId.chars id ++ ',' :: more) =
      some (id, ',' :: more) := readIndex?_chars id rfl
  cases s with
  | consume symbol next =>
    cases symbol with
    | char c => simp [readState?, readChar?, afterWord?, last]
    | any => simp [readState?, readAny?, afterWord?, last]
  | split left right => simp [readState?, readSplit?, afterWord?, first, last]
  | accept => simp [readState?, afterWord?]
  | reserved => simp [readState?, afterWord?]

theorem readEntry?_entryChars (i : Nat) (s : State) (rest : List Char) :
    readEntry? (entryChars i s ++ rest) = some (s, rest) := by
  have place (more : List Char) : readIndex? (StateId.chars i ++ ':' :: more) =
      some (i, ':' :: more) := readIndex?_chars i rfl
  simp [entryChars, readEntry?, afterWord?, place, readState?_chars]

theorem entryChars_ne_nil (i : Nat) (s : State) : entryChars i s ≠ [] := by simp [entryChars]

/-- The induction is on the states that are still to be read, with those read before general. -/
theorem readEntries?_entries (before : Array State) (states : List State) (i : Nat) :
    readEntries? before ((states.zipIdx i).flatMap fun (s, i) => entryChars i s) =
      some (before ++ states) := by
  induction states generalizing before i with
  | nil => simp [readEntries?]
  | cons s states ih =>
    have shorter := List.length_pos_iff.mpr (entryChars_ne_nil i s)
    rw [List.zipIdx_cons, List.flatMap_cons, readEntries?, readEntry?_entryChars]
    simp [entryChars_ne_nil, shorter, ih]

theorem listingChars_eq_append (a : Automaton) :
    a.listingChars = "start: ".toList ++ (StateId.chars a.start ++ '\n' ::
      a.states.toList.zipIdx.flatMap fun (s, i) => entryChars i s) := by
  show "start: ".toList ++ StateId.chars a.start ++ ['\n'] ++ _ = _
  rw [List.append_assoc, List.append_assoc, List.singleton_append]

theorem ofListing?_listingChars (a : Automaton) : ofListing? a.listingChars = some a := by
  have entries := readEntries?_entries #[] a.states.toList 0
  rw [listingChars_eq_append]
  have start (more : List Char) : readIndex? (StateId.chars a.start ++ '\n' :: more) =
      some (a.start, '\n' :: more) := readIndex?_chars a.start rfl
  simp [ofListing?, afterWord?, start, entries]

/-- A listing is read back from left to right to the automaton it was written for. So automata of
any size, with any characters and any kinds of states, have the same listing only if they have the
same start and the same states. -/
theorem ofListing?_listing :
    (∀ a : Automaton, ofListing? a.listing.toList = some a) ∧
      ∀ a b : Automaton, a.listing = b.listing ↔ a.start = b.start ∧ a.states = b.states := by
  have read (a : Automaton) : ofListing? a.listing.toList = some a := by
    rw [listing, String.toList_ofList, ofListing?_listingChars]
  refine ⟨read, fun a b => ⟨fun same => ?_, fun ⟨start, states⟩ => ?_⟩⟩
  · have both : some a = some b := by rw [← read a, ← read b, same]
    obtain rfl := Option.some.inj both
    exact ⟨rfl, rfl⟩
  · obtain ⟨_, _⟩ := a
    obtain rfl := start
    obtain rfl := states
    rfl

/-- A line break that a state takes stands between two lines of the listing. -/
example : ofListing? "start: 0001\n0000: accept\n0001: char \n, 0000\n".toList =
    some { states := #[.accept, .consume (.char '\n') 0], start := 1 } := by decide +kernel

end Automaton
end PatternAutomaton
