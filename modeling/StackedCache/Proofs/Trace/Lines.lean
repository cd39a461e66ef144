import StackedCache.Trace.Thermal

/-!
# Lines of traces

A line is read field by field, and the first field that is missing or no value refuses it, with the
number of the line.  A line of a thermal trace is refused if it has words that do not say a reading,
and only then: `Reading.malformed_iff`.
-/

namespace StackedCache

/-- The number of the line that is refused. -/
def TraceFault.line : TraceFault → Nat
  | missing line _ => line
  | invalid line _ _ => line

namespace Trace

/-! ## Fields -/

section Fields

variable {α β : Type} {line : Nat} {field : TraceField} {parse : List Char → Option α} {value : α}
  {words rest : List (List Char)} {fault : TraceFault}

theorem bind_eq_ok_iff {first : Except TraceFault α} {next : α → Except TraceFault β} {b : β} :
    first.bind next = .ok b ↔ ∃ a, first = .ok a ∧ next a = .ok b := by
  cases first with
  | error fault => simp [Except.bind]
  | ok a => simp [Except.bind]

theorem bind_eq_error_iff {first : Except TraceFault α} {next : α → Except TraceFault β} :
    first.bind next = .error fault ↔
      first = .error fault ∨ ∃ a, first = .ok a ∧ next a = .error fault := by
  cases first with
  | error fault' => simp [Except.bind]
  | ok a => simp [Except.bind]

theorem readField_eq_ok_iff : readField line field parse words = .ok (value, rest) ↔
    ∃ word, words = word :: rest ∧ parse word = some value := by
  cases words with
  | nil => exact ⟨nofun, nofun⟩
  | cons word others =>
      rw [readField]
      cases parsed : parse word with
      | some found =>
          constructor
          · rintro ⟨⟩
            exact ⟨word, rfl, parsed⟩
          · rintro ⟨_, ⟨⟩, here⟩
            rw [parsed] at here
            cases here
            rfl
      | none =>
          refine ⟨nofun, ?_⟩
          rintro ⟨_, ⟨⟩, here⟩
          rw [parsed] at here
          cases here

/-- Whether a field is missing or invalid, the fault names its line. -/
theorem line_of_readField (refused : readField line field parse words = .error fault) :
    fault.line = line := by
  cases words with
  | nil =>
      cases refused
      rfl
  | cons word others =>
      rw [readField] at refused
      split at refused
      · cases refused
      · cases refused
        rfl

end Fields

end Trace

/-! ## Lines of thermal traces -/

namespace Reading

variable {line epoch : Nat} {words : List (List Char)} {text : List Char} {r : Reading}

/-- The words begin with an epoch, a vault, a bank and a temperature. -/
def Says (words : List (List Char)) (epoch : Nat) (r : Reading) : Prop :=
  ∃ first second third fourth rest, words = first :: second :: third :: fourth :: rest ∧
    Text.wordNumeral? first = some epoch ∧ Trace.index? second = some r.place.vault ∧
    Trace.index? third = some r.place.bank ∧ Celsius.ofWord? fourth = some r.temperature

/-- The line has words, but they say no reading. -/
def Malformed (text : List Char) : Prop :=
  ∃ words, Text.lineWords text = some words ∧ ∀ epoch r, ¬Says words epoch r

theorem ofWords_eq_ok_iff : ofWords line words = .ok (epoch, r) ↔ Says words epoch r := by
  unfold ofWords Says
  simp only [bind, Trace.bind_eq_ok_iff, Prod.exists, Trace.readField_eq_ok_iff]
  constructor
  · rintro ⟨_, _, ⟨first, rfl, here₁⟩, _, _, ⟨second, rfl, here₂⟩, _, _, ⟨third, rfl, here₃⟩,
      _, rest, ⟨fourth, rfl, here₄⟩, done⟩
    cases done
    exact ⟨first, second, third, fourth, rest, rfl, here₁, here₂, here₃, here₄⟩
  · rintro ⟨first, second, third, fourth, rest, rfl, here₁, here₂, here₃, here₄⟩
    exact ⟨_, _, ⟨first, rfl, here₁⟩, _, _, ⟨second, rfl, here₂⟩, _, _, ⟨third, rfl, here₃⟩,
      _, rest, ⟨fourth, rfl, here₄⟩, rfl⟩

theorem line_of_ofWords {fault : TraceFault} (refused : ofWords line words = .error fault) :
    fault.line = line := by
  unfold ofWords at refused
  simp only [bind, Trace.bind_eq_error_iff] at refused
  rcases refused with first | ⟨_, _, second | ⟨_, _, third | ⟨_, _, fourth | ⟨_, _, done⟩⟩⟩⟩
  · exact Trace.line_of_readField first
  · exact Trace.line_of_readField second
  · exact Trace.line_of_readField third
  · exact Trace.line_of_readField fourth
  · cases done

/-- Malformed lines are refused, and no others. -/
theorem malformed_iff (line : Nat) :
    Malformed text ↔ ∃ fault, ofLine line text = .error fault := by
  unfold Malformed ofLine Trace.readLine
  cases Text.lineWords text with
  | none => simp
  | some words =>
      simp only [Option.some.injEq, exists_eq_left']
      cases read : ofWords line words with
      | ok entry =>
          have said := ofWords_eq_ok_iff.1 read
          refine ⟨fun silent => absurd said (silent _ _), ?_⟩
          rintro ⟨fault, ⟨⟩⟩
      | error fault =>
          refine ⟨fun _ => ⟨fault, rfl⟩, fun _ epoch r said => ?_⟩
          rw [ofWords_eq_ok_iff.2 said] at read
          cases read

theorem not_malformed {found : Option (Nat × Reading)} (read : ofLine line text = .ok found) :
    ¬Malformed text := by
  intro malformed
  rcases (malformed_iff line).1 malformed with ⟨fault, refused⟩
  rw [read] at refused
  cases refused

theorem line_of_ofLine {fault : TraceFault} (refused : ofLine line text = .error fault) :
    fault.line = line := by
  unfold ofLine Trace.readLine at refused
  cases found : Text.lineWords text with
  | none =>
      rw [found] at refused
      cases refused
  | some words =>
      rw [found] at refused
      cases read : ofWords line words with
      | ok entry =>
          simp only [read] at refused
          cases refused
      | error fault' =>
          simp only [read] at refused
          cases refused
          exact line_of_ofWords read

end Reading

end StackedCache
