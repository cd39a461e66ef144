import StackedCache.Proofs.Json.Codecs
import StackedCache.Settings.Document

/-!
# Settings and their documents

Written settings are read back, section by section and field by field, by every library that does
what is documented: `Settings.codec_restores`.  A document passes over members it does not know and
fills in those it misses, so a field whose name or form differed between the two directions would go
unnoticed.  None does.

The text of the settings carries them too, provided that the library reproduces the values it
writes: `Settings.codec_round_trip`.
-/

namespace StackedCache

open Json Json.Codec

variable {library : Library} {known : Float → Prop} {depth : Nat}

section Restored

variable (documented : library.Documented)

include documented

/-! ## Values -/

theorem Bandwidth.codec_restores {rate : Bandwidth} (finite : rate.bytesPerNs.isFinite)
    (here : known rate.bytesPerNs) : Restores known depth (Bandwidth.codec library) rate :=
  documented.wrap_restores rfl (documented.float_restores finite here)

theorem Celsius.codec_restores {t : Celsius} (finite : t.value.isFinite) (here : known t.value) :
    Restores known depth (Celsius.codec library) t :=
  documented.wrap_restores rfl (documented.float_restores finite here)

theorem Design.codec_restores (design : Design) :
    Restores known depth (Design.codec library) design :=
  documented.choice_restores ⟨by decide, by decide⟩ (by cases design <;> decide)

theorem Ageing.codec_restores (ageing : Ageing) :
    Restores known depth (Ageing.codec library) ageing :=
  documented.choice_restores ⟨by decide, by decide⟩ (by cases ageing <;> decide)

theorem Policy.codec_restores (policy : Policy) :
    Restores known depth (Policy.codec library) policy :=
  documented.code_restores (by cases policy <;> decide) (by cases policy <;> rfl)

/-! ## Sections -/

theorem Speed.codec_restores (s : Speed) : Restores known (depth + 1) (Speed.codec library) s := by
  refine documented.record_restores ?_ ?_
  · simp only [cycleFields, List.map_cons, List.map_nil, Member.of]
    decide
  -- Field by field, the parts of `s` take the place of the defaults, until nothing else is left.
  · simp only [cycleFields, copies_of, documented.word64_restores, documented.word32_restores,
      copies_nil]

theorem StackSettings.codec_restores {s : StackSettings} (finite : s.bandwidth.bytesPerNs.isFinite)
    (here : known s.bandwidth.bytesPerNs) :
    Restores known (depth + 2) (StackSettings.codec library) s := by
  refine documented.record_restores ?_ ?_
  · simp only [List.map_cons, List.map_nil, Member.of]
    decide
  · simp only [copies_of, documented.word64_restores, documented.word32_restores,
      documented.bool_restores, Bandwidth.codec_restores documented finite here,
      Speed.codec_restores documented, copies_nil]

theorem CacheSettings.codec_restores (s : CacheSettings) :
    Restores known (depth + 1) (CacheSettings.codec library) s := by
  refine documented.record_restores ?_ ?_
  · simp only [List.map_cons, List.map_nil, Member.of]
    decide
  · simp only [copies_of, documented.word64_restores, documented.word32_restores,
      documented.bool_restores, Design.codec_restores documented, Ageing.codec_restores documented,
      copies_nil]

theorem SegmentSettings.codec_restores (s : SegmentSettings) :
    Restores known (depth + 1) (SegmentSettings.codec library) s := by
  refine documented.record_restores ?_ ?_
  · simp only [List.map_cons, List.map_nil, Member.of]
    decide
  · simp only [copies_of, documented.word64_restores, documented.word32_restores, copies_nil]

theorem MemorySettings.codec_restores {s : MemorySettings}
    (finite : s.bandwidth.bytesPerNs.isFinite) (here : known s.bandwidth.bytesPerNs) :
    Restores known (depth + 1) (MemorySettings.codec library) s := by
  refine documented.record_restores ?_ ?_
  · simp only [List.map_cons, List.map_nil, Member.of]
    decide
  · simp only [copies_of, documented.word64_restores, documented.bool_restores,
      Bandwidth.codec_restores documented finite here, copies_nil]

theorem RelocationSettings.codec_restores {s : RelocationSettings}
    (finite : ∀ t ∈ s.temperatures, t.value.isFinite) (here : ∀ t ∈ s.temperatures, known t.value) :
    Restores known (depth + 1) (RelocationSettings.codec library) s := by
  have each (t : Celsius) (mem : t ∈ s.temperatures) :
      Restores known depth (Celsius.codec library) t :=
    Celsius.codec_restores documented (finite t mem) (here t mem)
  simp only [temperatures, List.forall_mem_cons] at each
  refine documented.record_restores ?_ ?_
  · simp only [List.map_cons, List.map_nil, Member.of]
    decide
  · simp only [copies_of, documented.word64_restores, documented.bool_restores,
      Policy.codec_restores documented, each, copies_nil]

/-- All floats of the settings: two bandwidths and four temperatures. -/
def Settings.floats (s : Settings) : List Float :=
  [s.stack.bandwidth.bytesPerNs, s.memory.bandwidth.bytesPerNs]
    ++ s.relocation.temperatures.map Celsius.value

theorem Settings.codec_restores {s : Settings} (finite : ∀ x ∈ s.floats, x.isFinite)
    (here : ∀ x ∈ s.floats, known x) :
    Restores known (depth + 3) (Settings.codec library) s := by
  simp only [floats, List.forall_mem_append, List.forall_mem_cons, List.forall_mem_map]
    at finite here
  refine documented.record_restores ?_ ?_
  · simp only [List.map_cons, List.map_nil, Member.of]
    decide
  · simp only [copies_of, documented.word32_restores, documented.bool_restores,
      StackSettings.codec_restores documented finite.1.1 here.1.1,
      CacheSettings.codec_restores documented, SegmentSettings.codec_restores documented,
      MemorySettings.codec_restores documented finite.1.2.1 here.1.2.1,
      RelocationSettings.codec_restores documented finite.2 here.2, copies_nil]

end Restored

/-! ## Texts -/

namespace Settings

variable {s : Settings}

/-- Settings with finite floats are read back from what any library that does what is documented
writes for them, field by field.  If the library reproduces what it writes, with these floats, then
the settings are decoded from their text too, and accepted if they pass the check. -/
theorem codec_round_trip (documented : library.Documented) (finite : ∀ x ∈ s.floats, x.isFinite)
    (reproduces : library.Reproduces (· ∈ s.floats)) :
    (codec library).read ((codec library).write s) = .ok s ∧
      decode (s.toText library) library = .ok s ∧
      (s.check = .ok () → ofText (s.toText library) library = .ok s) := by
  have restores : Restores (· ∈ s.floats) depthLimit (codec library) s :=
    codec_restores documented finite fun _ mem => mem
  have decoded : decode (s.toText library) library = .ok s := by
    rw [decode, toText, reproduces.readText_print _ restores.expressible, restores.read]
    rfl
  refine ⟨restores.read, decoded, fun passes => ?_⟩
  simp only [ofText, decoded, passes, bind, Except.bind]
  rfl

/-- A float is found again if its text is a number of tenths, and dividing by ten gives the float. -/
theorem reproduced_tenths {x : Float} {whole : List Char} {tenth : Char} {n : Nat}
    (text : Literal.read? (skipGap (numberText (.float x)).toList)
      = some (⟨false, whole, [tenth], none⟩, []))
    (collected : Literal.collectDecimals [tenth] (Literal.collectWhole whole 0) = ⟨n, -1⟩)
    (quotient : Float.ofNat n / Decimal.powerOfTen 1 = x) : Reproduced (.number (.float x)) := by
  have value : Literal.value ⟨false, whole, [tenth], none⟩ = .float x := by
    rw [← quotient]
    simp only [Literal.value, collected, Literal.floatOf]
    rw [Literal.scale?]
    rfl
  refine read_eq_iff.2 ⟨[], ?_, rfl⟩
  rw [pretty, print_number, readValue_literal text, value]

/-- Settings that differ from the defaults in every choice. -/
def hybridSegments : Settings :=
  { cache := { design := .constant, ageing := .lru }, relocation := { policy := .hybrid } }

/-- The library that runs finds the floats of these settings again. -/
theorem codec_round_trip_hybridSegments :
    Library.plain.Documented ∧ (∀ x ∈ hybridSegments.floats, x.isFinite) ∧
      Library.plain.Reproduces (· ∈ hybridSegments.floats) ∧ hybridSegments.check = .ok () ∧
      decode hybridSegments.toText = .ok hybridSegments ∧
      ofText hybridSegments.toText = .ok hybridSegments := by
  have finite : ∀ x ∈ hybridSegments.floats, x.isFinite := by decide +kernel
  have found : ∀ x ∈ hybridSegments.floats, Reproduced (.number (.float x)) := by
    simp only [floats, hybridSegments, RelocationSettings.temperatures, List.map_cons, List.map_nil,
      List.cons_append, List.nil_append, List.forall_mem_cons]
    refine ⟨?_, ?_, ?_, ?_, ?_, ?_, nofun⟩
    · exact reproduced_tenths (n := 160) rfl rfl (by decide +kernel)
    · exact reproduced_tenths (n := 76) rfl rfl (by decide +kernel)
    · exact reproduced_tenths (n := 850) rfl rfl (by decide +kernel)
    · exact reproduced_tenths (n := 950) rfl rfl (by decide +kernel)
    · exact reproduced_tenths (n := 800) rfl rfl (by decide +kernel)
    · exact reproduced_tenths (n := 600) rfl rfl (by decide +kernel)
  have reproduces := Library.plain_reproduces found
  have passes : hybridSegments.check = .ok () := rfl
  rcases codec_round_trip Library.plain_documented finite reproduces with ⟨_, decoded, accepted⟩
  exact ⟨Library.plain_documented, finite, reproduces, passes, decoded, accepted passes⟩

end Settings

end StackedCache
