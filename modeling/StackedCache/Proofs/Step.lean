import Mathlib.Order.Defs.Unbundled

/-!
# Steps that succeed

A step is a computation with a state that may fail.  `Succeeds` says that it does not, and what
holds of its result and of the state it ends in; `Yields` says what holds of them if it does not.
`Refuses` says that it does fail, and why.  `Leads` relates the state in which a step ends, in whatever
way, to the one in which it starts, for example by what it `Preserves`.

`Agrees` compares two steps that start from states that are alike: both succeed or both fail in the
same way, with results that are related and in states that are alike again.
-/

namespace StackedCache

variable {ε σ α β : Type}

/-- The step succeeds from `s`, with a result and a state in `Q`. -/
def Succeeds (m : EStateM ε σ α) (s : σ) (Q : α → σ → Prop) : Prop :=
  ∃ a s', m s = .ok a s' ∧ Q a s'

/-- A step goes on from where its first part has ended. -/
theorem bind_of_ok {m : EStateM ε σ α} {f : α → EStateM ε σ β} {s s' : σ} {a : α}
    (h : m s = .ok a s') : (m >>= f) s = f a s' := by
  simp only [bind, EStateM.bind, h]

/-- A step fails where its first part has failed. -/
theorem bind_of_error {m : EStateM ε σ α} {f : α → EStateM ε σ β} {s s' : σ} {e : ε}
    (h : m s = .error e s') : (m >>= f) s = .error e s' := by
  simp only [bind, EStateM.bind, h]

namespace Succeeds

variable {m : EStateM ε σ α} {f : α → EStateM ε σ β} {s : σ} {P Q : α → σ → Prop}
  {R : β → σ → Prop}

theorem pure {a : α} (h : Q a s) : Succeeds (Pure.pure a : EStateM ε σ α) s Q := ⟨a, s, rfl, h⟩

theorem bind (first : Succeeds m s P) (rest : ∀ a s', P a s' → Succeeds (f a) s' R) :
    Succeeds (m >>= f) s R := by
  rcases first with ⟨a, s', h, hP⟩
  rcases rest a s' hP with ⟨b, s'', h', hR⟩
  exact ⟨b, s'', (bind_of_ok h).trans h', hR⟩

/-- Both branches of a condition go on alike. -/
theorem ite_bind {c : Prop} [Decidable c] {m' : EStateM ε σ α}
    (first : Succeeds (if c then m else m') s P)
    (rest : ∀ a s', P a s' → Succeeds (f a) s' R) :
    Succeeds (if c then m >>= f else m' >>= f) s R := by
  -- A `do` block copies what follows into both branches, which `bind` alone does not see.
  by_cases hc : c
  · simp only [hc, if_true] at first ⊢
    exact first.bind rest
  · simp only [hc, if_false] at first ⊢
    exact first.bind rest

theorem mono (h : Succeeds m s P) (weaker : ∀ a s', P a s' → Q a s') : Succeeds m s Q := by
  rcases h with ⟨a, s', hm, hP⟩
  exact ⟨a, s', hm, weaker a s' hP⟩

/-- Reading the state. -/
theorem get_bind {f : σ → EStateM ε σ β} (h : Succeeds (f s) s R) :
    Succeeds (get >>= f) s R := h

/-- Changing the state. -/
theorem modify {g : σ → σ} {R : PUnit → σ → Prop} (h : R ⟨⟩ (g s)) :
    Succeeds (modify g : EStateM ε σ PUnit) s R := ⟨⟨⟩, g s, rfl, h⟩

end Succeeds

/-- The step fails from `s` for this cause, in a state in `Q`. -/
def Refuses (m : EStateM ε σ α) (s : σ) (cause : ε) (Q : σ → Prop) : Prop :=
  ∃ s', m s = .error cause s' ∧ Q s'

namespace Refuses

variable {m m' : EStateM ε σ α} {f : α → EStateM ε σ β} {s : σ} {cause : ε} {P : α → σ → Prop}
  {Q : σ → Prop}

/-- The first part fails. -/
theorem bind (first : Refuses m s cause Q) : Refuses (m >>= f) s cause Q := by
  rcases first with ⟨s', failed, hQ⟩
  exact ⟨s', bind_of_error failed, hQ⟩

/-- The first part succeeds, and what follows fails. -/
theorem after (first : Succeeds m s P) (rest : ∀ a s', P a s' → Refuses (f a) s' cause Q) :
    Refuses (m >>= f) s cause Q := by
  rcases first with ⟨a, s', done, hP⟩
  rcases rest a s' hP with ⟨s'', failed, hQ⟩
  exact ⟨s'', (bind_of_ok done).trans failed, hQ⟩

/-- Both branches of a condition succeed, and what follows fails. -/
theorem after_ite {c : Prop} [Decidable c] (first : Succeeds (if c then m else m') s P)
    (rest : ∀ a s', P a s' → Refuses (f a) s' cause Q) :
    Refuses (if c then m >>= f else m' >>= f) s cause Q := by
  by_cases hc : c
  · simp only [hc, if_true] at first ⊢
    exact after first rest
  · simp only [hc, if_false] at first ⊢
    exact after first rest

/-- Reading the state. -/
theorem get_bind {f : σ → EStateM ε σ β} (h : Refuses (f s) s cause Q) :
    Refuses (get >>= f) s cause Q := h

end Refuses

/-- If the step succeeds from `s`, then with a result and a state in `Q`. -/
def Yields (m : EStateM ε σ α) (s : σ) (Q : α → σ → Prop) : Prop :=
  ∀ a s', m s = .ok a s' → Q a s'

namespace Yields

variable {m m' : EStateM ε σ α} {f : α → EStateM ε σ β} {s : σ} {P Q : α → σ → Prop}
  {R : β → σ → Prop}

theorem pure {a : α} (h : Q a s) : Yields (Pure.pure a : EStateM ε σ α) s Q := by
  intro a' s' done
  cases done
  exact h

theorem throw {e : ε} : Yields (throw e : EStateM ε σ α) s Q := by
  intro a s' done
  cases done

theorem bind (first : Yields m s P) (rest : ∀ a s', P a s' → Yields (f a) s' R) :
    Yields (m >>= f) s R := by
  intro b s'' done
  cases run : m s with
  | ok a s' =>
      rw [bind_of_ok run] at done
      exact rest a s' (first a s' run) b s'' done
  | error e s' =>
      rw [bind_of_error run] at done
      cases done

theorem ite {c : Prop} [Decidable c] (yes : c → Yields m s Q) (no : ¬c → Yields m' s Q) :
    Yields (if c then m else m') s Q := by
  by_cases hc : c
  · rw [if_pos hc]
    exact yes hc
  · rw [if_neg hc]
    exact no hc

/-- Both branches of a condition go on alike. -/
theorem ite_bind {c : Prop} [Decidable c] (first : Yields (if c then m else m') s P)
    (rest : ∀ a s', P a s' → Yields (f a) s' R) :
    Yields (if c then m >>= f else m' >>= f) s R := by
  by_cases hc : c
  · simp only [hc, if_true] at first ⊢
    exact first.bind rest
  · simp only [hc, if_false] at first ⊢
    exact first.bind rest

theorem mono (h : Yields m s P) (weaker : ∀ a s', P a s' → Q a s') : Yields m s Q :=
  fun a s' done => weaker a s' (h a s' done)

/-- Reading the state. -/
theorem get_bind {f : σ → EStateM ε σ β} (h : Yields (f s) s R) : Yields (get >>= f) s R := h

/-- Changing the state. -/
theorem modify {g : σ → σ} {R : PUnit → σ → Prop} (h : R ⟨⟩ (g s)) :
    Yields (modify g : EStateM ε σ PUnit) s R := by
  intro a s' done
  cases done
  exact h

end Yields

/-- The state in which a step ends. -/
def final : EStateM.Result ε σ α → σ
  | .ok _ s => s
  | .error _ s => s

/-- The step leads from `s` to a state related to it, whether it fails or not. -/
def Leads (R : σ → σ → Prop) (m : EStateM ε σ α) (s : σ) : Prop := R s (final (m s))

namespace Leads

variable {R : σ → σ → Prop} {m m' : EStateM ε σ α} {f : α → EStateM ε σ β} {s : σ}

theorem ite {c : Prop} [Decidable c] (yes : Leads R m s) (no : Leads R m' s) :
    Leads R (if c then m else m') s := by
  by_cases hc : c
  · rwa [if_pos hc]
  · rwa [if_neg hc]

/-- Changing the state. -/
theorem modify {g : σ → σ} (h : R s (g s)) : Leads R (modify g : EStateM ε σ PUnit) s := h

variable [IsPreorder σ R]

theorem pure (a : α) : Leads R (Pure.pure a : EStateM ε σ α) s := refl s

theorem throw (e : ε) : Leads R (throw e : EStateM ε σ α) s := refl s

theorem bind (first : Leads R m s) (rest : ∀ a s', m s = .ok a s' → Leads R (f a) s') :
    Leads R (m >>= f) s := by
  unfold Leads at first ⊢
  cases run : m s with
  | ok a s' =>
      rw [run] at first
      rw [bind_of_ok run]
      exact IsTrans.trans _ _ _ first (rest a s' run)
  | error e s' =>
      rw [run] at first
      rwa [bind_of_error run]

end Leads

/-- What holds of the one state holds of the other. -/
def Preserves (P : σ → Prop) (s s' : σ) : Prop := P s → P s'

instance (P : σ → Prop) : IsPreorder σ (Preserves P) where
  refl _ := id
  trans _ _ _ h h' := h' ∘ h

/-- Two ends of a step: results related by `R`, or the same error, in states related by `E`. -/
inductive SameEnd (E : σ → σ → Prop) (R : α → α → Prop) :
    EStateM.Result ε σ α → EStateM.Result ε σ α → Prop where
  | ok {a a' : α} {s s' : σ} (result : R a a') (state : E s s') :
      SameEnd E R (.ok a s) (.ok a' s')
  | error {e : ε} {s s' : σ} (state : E s s') : SameEnd E R (.error e s) (.error e s')

/-- From states related by `E`, two steps end alike. -/
def Agrees (E : σ → σ → Prop) (m m' : EStateM ε σ α) (R : α → α → Prop) : Prop :=
  ∀ s s', E s s' → SameEnd E R (m s) (m' s')

namespace Agrees

variable {E : σ → σ → Prop} {m m' n n' : EStateM ε σ α} {f f' : α → EStateM ε σ β}
  {R : α → α → Prop} {S : β → β → Prop}

theorem pure {a a' : α} (h : R a a') : Agrees E (Pure.pure a : EStateM ε σ α) (Pure.pure a') R :=
  fun _ _ alike => .ok h alike

theorem throw {e : ε} : Agrees E (throw e : EStateM ε σ α) (throw e) R :=
  fun _ _ alike => .error alike

theorem bind (first : Agrees E m m' R) (rest : ∀ a a', R a a' → Agrees E (f a) (f' a') S) :
    Agrees E (m >>= f) (m' >>= f') S := by
  intro s s' alike
  have ends := first s s' alike
  generalize run : m s = r, run' : m' s' = r' at ends
  cases ends with
  | ok result state =>
      rw [bind_of_ok run, bind_of_ok run']
      exact rest _ _ result _ _ state
  | error state =>
      rw [bind_of_error run, bind_of_error run']
      exact .error state

/-- A step whose result is the same in both runs. -/
theorem bind_eq (first : Agrees E m m' Eq) (rest : ∀ a, Agrees E (f a) (f' a) S) :
    Agrees E (m >>= f) (m' >>= f') S := by
  refine first.bind ?_
  rintro a _ rfl
  exact rest a

theorem ite {c : Prop} [Decidable c] (yes : Agrees E m m' R) (no : Agrees E n n' R) :
    Agrees E (if c then m else n) (if c then m' else n') R := by
  by_cases hc : c
  · rw [if_pos hc, if_pos hc]
    exact yes
  · rw [if_neg hc, if_neg hc]
    exact no

/-- Both branches of a condition go on alike. -/
theorem ite_bind_eq {c : Prop} [Decidable c]
    (first : Agrees E (if c then m else n) (if c then m' else n') Eq)
    (rest : ∀ a, Agrees E (f a) (f' a) S) :
    Agrees E (if c then m >>= f else n >>= f) (if c then m' >>= f' else n' >>= f') S := by
  by_cases hc : c
  · simp only [hc, if_true] at first ⊢
    exact first.bind_eq rest
  · simp only [hc, if_false] at first ⊢
    exact first.bind_eq rest

/-- Reading a state of which only what is alike is used. -/
theorem get_bind {f : σ → EStateM ε σ β} (same : ∀ s s', E s s' → f s' = f s)
    (h : ∀ s, Agrees E (f s) (f s) S) : Agrees E (get >>= f) (get >>= f) S := by
  intro s s' alike
  show SameEnd E S (f s s) (f s' s')
  rw [same s s' alike]
  exact h s s s' alike

theorem modify {g g' : σ → σ} (h : ∀ s s', E s s' → E (g s) (g' s')) :
    Agrees E (modify g : EStateM ε σ PUnit) (modify g') Eq :=
  fun s s' alike => .ok rfl (h s s' alike)

end Agrees

/-- Two outcomes: results related by `R`, or the same refusal. -/
inductive SameOutcome (R : α → α → Prop) : Except ε α → Except ε α → Prop where
  | ok {a a' : α} (result : R a a') : SameOutcome R (.ok a) (.ok a')
  | error (cause : ε) : SameOutcome R (.error cause) (.error cause)

end StackedCache
