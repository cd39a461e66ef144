import Mathlib.Data.List.Induction
import StackedCache.Proofs.Relocation.Reach

/-!
# Properties of all banks

`Layer.Under` is what every layer of a run has: it is sound, and its settings and its geometry are
those it was started with.  A property that the turn of each bank establishes for that bank, and
that the turns of the others keep, holds of all banks when the pass is over: `takeAll_establishes`.
-/

namespace StackedCache

open Relation (ReflTransGen)

namespace Layer

variable {s : RelocationSettings} {g : Geometry} {l l' : Layer} {id other v : Nat}

/-! ## Layers of a run -/

/-- A sound layer with these settings, of a stack with this geometry. -/
structure Under (s : RelocationSettings) (g : Geometry) (l : Layer) : Prop where
  sound : l.Sound
  settings : l.settings = s
  geometry : l.geometry = g

namespace Under

theorem changes (h : l.Under s g) (changes : ReflTransGen Change l l') : l'.Under s g where
  sound := h.sound.changes changes
  settings := (changes_frame changes).settings.trans h.settings
  geometry := (changes_frame changes).geometry.trans h.geometry

theorem nextEpoch (h : l.Under s g) : l.nextEpoch.layer.Under s g :=
  ⟨nextEpoch_sound h.sound, h.settings, h.geometry⟩

theorem stage (h : l.Under s g) (n : Nat) : (l.stage n).Under s g :=
  h.nextEpoch.changes (stage_changes h.sound n)

theorem takeAll {e : Epoch} {turns : List Turn} (h : e.layer.Under s g)
    (within : ∀ t ∈ turns, t.Within g) : (e.takeAll turns).layer.Under s g :=
  h.changes (Epoch.takeAll_changes h.sound (h.geometry ▸ within))

theorem perform (h : l.Under s g) (op : Operation) : (l.perform op).Under s g where
  sound := perform_sound h.sound op
  geometry := (perform_geometry h.sound op).trans h.geometry
  settings := by
    cases op with
    | setTemperature p t =>
        rcases perform_setTemperature l p t with ⟨ledger, stored⟩
        rw [stored]
        exact h.settings
    | recordAccess row requests =>
        rcases perform_recordAccess l row requests with refused | ⟨ledger, recorded⟩
        · rw [refused]
          exact h.settings
        · rw [recorded]
          exact h.settings
    | runEpoch => exact (changes_frame (runEpoch_changes h.sound)).settings.trans h.settings
    | settle => exact h.settings
    | resetCounts => exact h.settings

theorem run (h : l.Under s g) (ops : List Operation) : (l.run ops).Under s g := by
  induction ops generalizing l with
  | nil => exact h
  | cons op ops ih => exact ih (h.perform op)

end Under

theorem ofSettings_under (s : RelocationSettings) (g : Geometry) : (ofSettings s g).Under s g :=
  ⟨ofSettings_sound s g, rfl, rfl⟩

/-- An epoch takes all turns, and then counts its failures. -/
theorem runEpoch_countFailures (h : l.Under s g) (enabled : s.enabled = true) :
    l.runEpoch.2 = (l.nextEpoch.takeAll (s.turns g)).countFailures.layer := by
  have geometry : l.nextEpoch.layer.geometry = g := h.geometry
  simp only [runEpoch, h.settings, enabled, if_true, Epoch.apply_eq (nextEpoch_sound h.sound),
    geometry]

theorem runEpoch_takeAll (h : l.Under s g) (enabled : s.enabled = true) :
    ∃ c, l.runEpoch.2 = ((l.nextEpoch.takeAll (s.turns g)).layer).withCounts c :=
  ⟨_, runEpoch_countFailures h enabled⟩

end Layer

namespace Epoch

open Layer

variable {s : RelocationSettings} {g : Geometry} {e e' : Epoch} {id other : Nat}

/-- In a pass, each bank's turn establishes a property for that bank.  If the turns of the others
keep it, all banks have it in the end. -/
theorem takeAll_establishes {P : Layer → Nat → Prop} {turn : Nat → Turn} {ids : List Nat}
    (within : ∀ id ∈ ids, (turn id).Within g)
    (own : ∀ (e : Epoch), ∀ id ∈ ids, e.layer.Under s g → P (e.take (turn id)).layer id)
    (keep : ∀ (e : Epoch), ∀ id ∈ ids, ∀ other ∈ ids, e.layer.Under s g → other ≠ id →
      P e.layer other → P (e.take (turn id)).layer other)
    (h : e.layer.Under s g) : ∀ id ∈ ids, P (e.takeAll (ids.map turn)).layer id := by
  -- The last turn is taken off, since it is the last to keep the property for those before it.
  induction ids using List.reverseRecOn with
  | nil => simp
  | append_singleton ids last ih =>
      have before : ∀ t ∈ ids.map turn, t.Within g := by
        intro t ht
        rcases List.mem_map.1 ht with ⟨id, hid, rfl⟩
        exact within id (List.mem_append_left _ hid)
      have under := h.takeAll before
      have settled := ih (fun id hid => within id (List.mem_append_left _ hid))
        (fun e id hid => own e id (List.mem_append_left _ hid))
        (fun e id hid other hother =>
          keep e id (List.mem_append_left _ hid) other (List.mem_append_left _ hother))
      have hlast : last ∈ ids ++ [last] := List.mem_append_right _ (List.mem_singleton_self last)
      rw [List.map_append, takeAll_append]
      intro id hid
      by_cases heq : id = last
      · subst heq
        exact own _ id hlast under
      · have hmem : id ∈ ids := by simpa [heq] using hid
        exact keep _ last hlast id hid under heq (settled id hmem)

/-- What every turn keeps for all banks, a list of turns keeps for all banks. -/
theorem takeAll_keeps {P : Layer → Prop} {turns : List Turn} (within : ∀ t ∈ turns, t.Within g)
    (keep : ∀ (e : Epoch), ∀ t ∈ turns, e.layer.Under s g → P e.layer → P (e.take t).layer)
    (h : e.layer.Under s g) (start : P e.layer) : P (e.takeAll turns).layer := by
  induction turns generalizing e with
  | nil => exact start
  | cons t turns ih =>
      have change := take_change h.sound (h.geometry ▸ within t List.mem_cons_self)
      have under : (e.take t).layer.Under s g := h.changes (.single change)
      exact ih (fun u hu => within u (List.mem_cons_of_mem _ hu))
        (fun e u hu => keep e u (List.mem_cons_of_mem _ hu)) under
        (keep e t List.mem_cons_self h start)

end Epoch

end StackedCache
