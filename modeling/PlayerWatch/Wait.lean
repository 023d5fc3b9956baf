/-!
# Waiting

A value that has to be waited for either arrives after some milliseconds or never. `Wait.within` puts
a bound on the waiting; it is the only place where a timeout comes from.
-/

namespace PlayerWatch

/-- A value that arrives after a time in milliseconds, or never. -/
inductive Wait (α : Type) where
  | after (ms : Nat) (value : α)
  | forever

namespace Wait

/-- The same value, so much later. -/
def later {α : Type} (ms : Nat) : Wait α → Wait α
  | after t a => after (ms + t) a
  | forever => forever

/-- What follows a value, after the time that both take. -/
def bind {α β : Type} : Wait α → (α → Wait β) → Wait β
  | after t a, f => (f a).later t
  | forever, _ => forever

/-- A value made of another one, at the same time. -/
def map {α β : Type} (f : α → β) : Wait α → Wait β
  | after t a => after t (f a)
  | forever => forever

/-- The value, if it arrives. -/
def arrival? {α : Type} : Wait α → Option α
  | after _ a => some a
  | forever => none

instance : Monad Wait where
  pure := after 0
  bind := bind

/-- A value if it arrives within the limit. One that comes with the last millisecond is in time. -/
def within {α : Type} : Option Nat → Wait α → Wait (Option α)
  | none, after t a => after t (some a)
  | none, forever => forever
  | some limit, after t a => if t ≤ limit then after t (some a) else after limit none
  | some limit, forever => after limit none

/-! ### Values that have arrived -/

@[simp] theorem later_after {α : Type} (ms t : Nat) (a : α) : (after t a).later ms = after (ms + t) a :=
  rfl

@[simp] theorem bind_after {α β : Type} (t : Nat) (a : α) (f : α → Wait β) :
    (after t a).bind f = (f a).later t := rfl

@[simp] theorem map_after {α β : Type} (f : α → β) (t : Nat) (a : α) :
    (after t a).map f = after t (f a) := rfl

@[simp] theorem arrival?_after {α : Type} (t : Nat) (a : α) : (after t a).arrival? = some a := rfl

@[simp] theorem arrival?_forever {α : Type} : (forever : Wait α).arrival? = none := rfl

@[simp] theorem arrival?_later {α : Type} (ms : Nat) (w : Wait α) :
    (w.later ms).arrival? = w.arrival? := by
  cases w <;> rfl

@[simp] theorem arrival?_map {α β : Type} (f : α → β) (w : Wait α) :
    (w.map f).arrival? = w.arrival?.map f := by
  cases w <;> rfl

@[simp] theorem later_zero {α : Type} (w : Wait α) : w.later 0 = w := by
  cases w with
  | after t a => simp
  | forever => rfl

theorem map_later {α β : Type} (f : α → β) (w : Wait α) (ms : Nat) :
    (w.later ms).map f = (w.map f).later ms := by
  cases w <;> rfl

theorem bind_later {α β : Type} (w : Wait α) (f : α → Wait β) (ms : Nat) :
    (w.later ms).bind f = (w.bind f).later ms := by
  cases w with
  | forever => rfl
  | after t a =>
    rw [later_after, bind_after, bind_after]
    cases f a with
    | forever => rfl
    | after s b => simp [Nat.add_assoc]

/-- What comes later comes. -/
theorem later_eq_after {α : Type} {w : Wait α} {ms t : Nat} {a : α} (h : w.later ms = after t a) :
    ∃ s, w = after s a ∧ t = ms + s := by
  cases w with
  | forever => cases h
  | after s b =>
    obtain ⟨rfl, rfl⟩ := by simpa using h
    exact ⟨s, rfl, rfl⟩

theorem map_eq_after_iff {α β : Type} {f : α → β} {w : Wait α} {t : Nat} {b : β} :
    w.map f = after t b ↔ ∃ a, w = after t a ∧ f a = b := by
  cases w with
  | after s a =>
    constructor
    · intro h
      obtain ⟨rfl, rfl⟩ := by simpa using h
      exact ⟨a, rfl, rfl⟩
    · rintro ⟨a', ha, rfl⟩
      obtain ⟨rfl, rfl⟩ := by simpa using ha
      rfl
  | forever => simp [map]

theorem map_map {α β γ : Type} (g : β → γ) (f : α → β) (w : Wait α) :
    (w.map f).map g = w.map fun a => g (f a) := by
  cases w <;> rfl

theorem bind_map {α β γ : Type} (w : Wait α) (f : α → β) (g : β → Wait γ) :
    (w.map f).bind g = w.bind fun a => g (f a) := by
  cases w <;> rfl

theorem map_bind {α β γ : Type} (f : β → γ) (w : Wait α) (g : α → Wait β) :
    (w.bind g).map f = w.bind fun a => (g a).map f := by
  cases w with
  | forever => rfl
  | after t a =>
    rw [bind_after, bind_after]
    cases g a <;> rfl

/-- What follows a value has arrived only if both have. -/
theorem arrived_of_bind {α β : Type} {w : Wait α} {f : α → Wait β} {t : Nat} {b : β}
    (h : w.bind f = after t b) : ∃ s a u, w = after s a ∧ f a = after u b := by
  cases w with
  | forever => cases h
  | after s a =>
    rw [bind_after] at h
    cases hf : f a with
    | forever =>
      rw [hf] at h
      cases h
    | after u b' =>
      rw [hf] at h
      obtain ⟨-, rfl⟩ := by simpa using h
      exact ⟨s, a, u, rfl, hf⟩

/-! ### Bounded waiting -/

@[simp] theorem within_none_after {α : Type} (t : Nat) (a : α) :
    (after t a).within none = after t (some a) := rfl

theorem within_map {α β : Type} (limit : Option Nat) (f : α → β) (w : Wait α) :
    (w.map f).within limit = (w.within limit).map (Option.map f) := by
  cases w with
  | forever => cases limit <;> rfl
  | after t a =>
    cases limit with
    | none => rfl
    | some limit =>
      rw [map_after, within, within]
      split <;> rfl

/-- Without a bound, what arrives is a value. -/
theorem within_none_ne {α : Type} (w : Wait α) (t : Nat) : w.within none ≠ after t none := by
  cases w <;> simp [within]

theorem eq_after_of_within {α : Type} {limit : Option Nat} {w : Wait α} {t : Nat} {a : α}
    (h : w.within limit = after t (some a)) : w = after t a := by
  cases limit <;> cases w <;> simp only [within] at h
  · simpa using h
  · cases h
  · split at h
    · simpa using h
    · cases h
  · cases h

/-- With a bound nothing is waited for without end. -/
theorem arrives_within {α : Type} (limit : Nat) (w : Wait α) :
    ∃ t a, w.within (some limit) = after t a := by
  cases w with
  | forever => exact ⟨limit, none, rfl⟩
  | after t a =>
    rw [within]
    split
    · exact ⟨t, some a, rfl⟩
    · exact ⟨limit, none, rfl⟩

end Wait

end PlayerWatch
