import Mathlib.Logic.Basic

/-!
# Computations that throw

A computation over a state that may throw. What it did to the state before it threw stays done.
`tryCatch` is `try { … } catch (e: Exception) { … }`: an `Error` passes through it.
-/

namespace Kaede.Infra

/-- What a call can throw. `Exception` and `Error` are siblings: a handler of one does not catch
the other. -/
inductive Throwable where
  | exception
  | error
deriving DecidableEq, Repr

/-- A computation over the state `σ` that returns or throws. -/
def Jvm (σ α : Type) : Type := σ → Except Throwable α × σ

namespace Jvm

variable {σ α β : Type}

instance : Monad (Jvm σ) where
  pure a := fun s => (.ok a, s)
  bind x f := fun s =>
    match x s with
    | (.ok a, s') => f a s'
    | (.error t, s') => (.error t, s')

/-- Reading the state. -/
def get : Jvm σ σ := fun s => (.ok s, s)

/-- Changing the state. -/
def modify (f : σ → σ) : Jvm σ Unit := fun s => (.ok (), f s)

/-- A call whose outcome the environment decides. -/
def call (outcome : Except Throwable α) : Jvm σ α := fun s => (outcome, s)

/-- `try { body } catch (e: Exception) { handler }`. -/
def tryCatch (body handler : Jvm σ α) : Jvm σ α := fun s =>
  match body s with
  | (.error .exception, s') => handler s'
  | result => result

/-! ## What a run of a computation does -/

/-- From `s` it returns a value and a state that satisfy `Q`. -/
def Returns (x : Jvm σ α) (s : σ) (Q : α → σ → Prop) : Prop :=
  ∃ a s', x s = (.ok a, s') ∧ Q a s'

/-- From `s` it throws an `Exception`, in a state that satisfies `P`. -/
def Raises (x : Jvm σ α) (s : σ) (P : σ → Prop) : Prop :=
  ∃ s', x s = (.error .exception, s') ∧ P s'

variable {s : σ} {Q : α → σ → Prop} {P : σ → Prop}

/-! ## Rules -/

@[simp] theorem returns_pure {a : α} : Returns (pure a : Jvm σ α) s Q ↔ Q a s := by
  constructor
  · rintro ⟨_, _, h, hq⟩
    cases h
    exact hq
  · exact fun hq => ⟨a, s, rfl, hq⟩

@[simp] theorem returns_get {Q : σ → σ → Prop} : Returns get s Q ↔ Q s s := by
  constructor
  · rintro ⟨_, _, h, hq⟩
    cases h
    exact hq
  · exact fun hq => ⟨s, s, rfl, hq⟩

@[simp] theorem returns_modify {f : σ → σ} {Q : Unit → σ → Prop} :
    Returns (modify f) s Q ↔ Q () (f s) := by
  constructor
  · rintro ⟨_, _, h, hq⟩
    cases h
    exact hq
  · exact fun hq => ⟨(), f s, rfl, hq⟩

@[simp] theorem returns_call {outcome : Except Throwable α} :
    Returns (call outcome) s Q ↔ ∃ a, outcome = .ok a ∧ Q a s := by
  constructor
  · rintro ⟨a, _, h, hq⟩
    cases h
    exact ⟨a, rfl, hq⟩
  · rintro ⟨a, rfl, hq⟩
    exact ⟨a, s, rfl, hq⟩

@[simp] theorem returns_false {x : Jvm σ α} : ¬ Returns x s fun _ _ => False := by
  rintro ⟨_, _, _, h⟩
  exact h

@[simp] theorem returns_ite {c : Prop} [Decidable c] {x y : Jvm σ α} :
    Returns (if c then x else y) s Q ↔ if c then Returns x s Q else Returns y s Q := by
  split <;> rfl

theorem bind_of_ok {x : Jvm σ α} {f : α → Jvm σ β} {s' : σ} {a : α} (h : x s = (.ok a, s')) :
    (x >>= f) s = f a s' := by
  show (match x s with
    | (.ok a, s') => f a s'
    | (.error t, s') => (.error t, s')) = _
  rw [h]

theorem bind_of_error {x : Jvm σ α} {f : α → Jvm σ β} {s' : σ} {t : Throwable}
    (h : x s = (.error t, s')) : (x >>= f) s = (.error t, s') := by
  show (match x s with
    | (.ok a, s') => f a s'
    | (.error t, s') => (.error t, s')) = _
  rw [h]

theorem tryCatch_of_ok {body handler : Jvm σ α} {s' : σ} {a : α} (h : body s = (.ok a, s')) :
    tryCatch body handler s = (.ok a, s') := by
  rw [tryCatch, h]

@[simp] theorem returns_bind {x : Jvm σ α} {f : α → Jvm σ β} {Q : β → σ → Prop} :
    Returns (x >>= f) s Q ↔ Returns x s fun a s' => Returns (f a) s' Q := by
  rcases hx : x s with ⟨t | a, s'⟩
  · constructor
    · rintro ⟨b, u, h, _⟩
      rw [bind_of_error hx] at h
      cases h
    · rintro ⟨b, u, h, _⟩
      rw [hx] at h
      cases h
  · constructor
    · rintro ⟨b, u, h, hq⟩
      rw [bind_of_ok hx] at h
      exact ⟨a, s', hx, b, u, h, hq⟩
    · rintro ⟨b, u, h, c, v, hf, hq⟩
      rw [hx] at h
      cases h
      exact ⟨c, v, by rw [bind_of_ok hx, hf], hq⟩

@[simp] theorem raises_pure {a : α} : ¬ Raises (pure a : Jvm σ α) s P := by
  rintro ⟨_, h, _⟩
  cases h

@[simp] theorem raises_get : ¬ Raises get s P := by
  rintro ⟨_, h, _⟩
  cases h

@[simp] theorem raises_modify {f : σ → σ} : ¬ Raises (modify f) s P := by
  rintro ⟨_, h, _⟩
  cases h

@[simp] theorem raises_call {outcome : Except Throwable α} :
    Raises (call outcome) s P ↔ outcome = .error .exception ∧ P s := by
  constructor
  · rintro ⟨_, h, hp⟩
    cases h
    exact ⟨rfl, hp⟩
  · rintro ⟨rfl, hp⟩
    exact ⟨s, rfl, hp⟩

@[simp] theorem raises_false {x : Jvm σ α} : ¬ Raises x s fun _ => False := by
  rintro ⟨_, _, h⟩
  exact h

@[simp] theorem raises_ite {c : Prop} [Decidable c] {x y : Jvm σ α} :
    Raises (if c then x else y) s P ↔ if c then Raises x s P else Raises y s P := by
  split <;> rfl

@[simp] theorem raises_bind {x : Jvm σ α} {f : α → Jvm σ β} :
    Raises (x >>= f) s P ↔ Raises x s P ∨ Returns x s fun a s' => Raises (f a) s' P := by
  rcases hx : x s with ⟨t | a, s'⟩
  · constructor
    · rintro ⟨u, h, hp⟩
      rw [bind_of_error hx] at h
      cases h
      exact Or.inl ⟨s', hx, hp⟩
    · rintro (⟨u, h, hp⟩ | ⟨b, u, h, _⟩)
      · rw [hx] at h
        cases h
        exact ⟨s', bind_of_error hx, hp⟩
      · rw [hx] at h
        cases h
  · constructor
    · rintro ⟨u, h, hp⟩
      rw [bind_of_ok hx] at h
      exact Or.inr ⟨a, s', hx, u, h, hp⟩
    · rintro (⟨u, h, _⟩ | ⟨b, u, h, v, hf, hp⟩)
      · rw [hx] at h
        cases h
      · rw [hx] at h
        cases h
        exact ⟨v, by rw [bind_of_ok hx, hf], hp⟩

/-- `tryCatch` returns when its body does, or when its body throws an `Exception` and the handler
returns. -/
@[simp] theorem returns_tryCatch {body handler : Jvm σ α} :
    Returns (tryCatch body handler) s Q ↔
      Returns body s Q ∨ Raises body s fun s' => Returns handler s' Q := by
  rcases hb : body s with ⟨result, s'⟩
  cases result with
  | ok a => simp [Returns, Raises, tryCatch, hb]
  | error t => cases t <;> simp [Returns, Raises, tryCatch, hb]

/-- An `Exception` leaves `tryCatch` only out of the handler. -/
@[simp] theorem raises_tryCatch {body handler : Jvm σ α} :
    Raises (tryCatch body handler) s P ↔ Raises body s fun s' => Raises handler s' P := by
  rcases hb : body s with ⟨result, s'⟩
  cases result with
  | ok a => simp [Raises, tryCatch, hb]
  | error t => cases t <;> simp [Raises, tryCatch, hb]

end Jvm

end Kaede.Infra
