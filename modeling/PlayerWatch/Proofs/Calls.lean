import PlayerWatch.Wait

/-!
# Calls, one after the other

Whoever uses something that has a state makes one call after the other, each in the state that the
one before has left. `madeCalls` is what comes of it: the calls that returned, with the state that
each of them found. A call that never returns is the last one. What every call keeps, each of them
finds (`before_of_kept`), and what comes behind a call is a run of its own from the state that it left
(`drop_madeCalls`).
-/

namespace PlayerWatch

/-- A call that has returned. -/
structure Made (σ κ ρ : Type) where
  /-- What it found. -/
  before : σ
  call : κ
  /-- How many milliseconds it took. -/
  took : Nat
  outcome : ρ

section Runs

variable {σ κ ρ : Type} {perform : σ → κ → Wait ρ} {next : ρ → σ}

/-- The calls that return when they are made one after the other; `next` is what an outcome leaves. -/
def madeCalls (perform : σ → κ → Wait ρ) (next : ρ → σ) (s : σ) : List κ → List (Made σ κ ρ)
  | [] => []
  | call :: rest =>
    match perform s call with
    | .after t x => ⟨s, call, t, x⟩ :: madeCalls perform next (next x) rest
    | .forever => []

theorem madeCalls_of_after {s : σ} {call : κ} {t : Nat} {x : ρ} (h : perform s call = .after t x)
    (rest : List κ) :
    madeCalls perform next s (call :: rest) =
      ⟨s, call, t, x⟩ :: madeCalls perform next (next x) rest := by
  rw [madeCalls, h]

theorem madeCalls_of_forever {s : σ} {call : κ} (h : perform s call = .forever) (rest : List κ) :
    madeCalls perform next s (call :: rest) = [] := by
  rw [madeCalls, h]

/-- What comes behind a call is what is made in the state that it left. -/
theorem drop_madeCalls {s : σ} {calls : List κ} {i : Nat} {a : Made σ κ ρ}
    (ha : (madeCalls perform next s calls)[i]? = some a) :
    (madeCalls perform next s calls).drop (i + 1) =
      madeCalls perform next (next a.outcome) (calls.drop (i + 1)) := by
  induction calls generalizing s i with
  | nil => cases ha
  | cons call rest ih =>
    cases hcall : perform s call with
    | forever =>
      rw [madeCalls_of_forever hcall] at ha
      cases ha
    | after t x =>
      rw [madeCalls_of_after hcall] at ha ⊢
      cases i with
      | zero =>
        obtain rfl := by simpa using ha
        rfl
      | succ i =>
        have ha' : (madeCalls perform next (next x) rest)[i]? = some a := by simpa using ha
        rw [List.drop_succ_cons, List.drop_succ_cons]
        exact ih ha'

/-- A call finds what the one before it left. -/
theorem before_of_succ {s : σ} {calls : List κ} {i : Nat} {a b : Made σ κ ρ}
    (ha : (madeCalls perform next s calls)[i]? = some a)
    (hb : (madeCalls perform next s calls)[i + 1]? = some b) : b.before = next a.outcome := by
  have hfirst : (madeCalls perform next (next a.outcome) (calls.drop (i + 1)))[0]? = some b := by
    rw [← drop_madeCalls ha]
    simpa using hb
  cases hrest : calls.drop (i + 1) with
  | nil =>
    rw [hrest] at hfirst
    cases hfirst
  | cons call rest =>
    rw [hrest, madeCalls] at hfirst
    split at hfirst
    · obtain rfl := by simpa using hfirst
      rfl
    · cases hfirst

/-- A call that was made has returned. -/
theorem perform_of_made {s : σ} {calls : List κ} {m : Made σ κ ρ}
    (hm : m ∈ madeCalls perform next s calls) :
    perform m.before m.call = .after m.took m.outcome := by
  induction calls generalizing s with
  | nil => cases hm
  | cons call rest ih =>
    cases hcall : perform s call with
    | forever =>
      rw [madeCalls_of_forever hcall] at hm
      cases hm
    | after t x =>
      rw [madeCalls_of_after hcall] at hm
      rcases List.mem_cons.1 hm with rfl | hm
      · exact hcall
      · exact ih hm

/-- What every call keeps, each call of a run finds. -/
theorem before_of_kept {P : σ → Prop} {s : σ} {calls : List κ}
    (hkeeps : ∀ {s : σ} {call : κ} {t : Nat} {x : ρ},
      P s → perform s call = .after t x → P (next x))
    (hs : P s) : ∀ m ∈ madeCalls perform next s calls, P m.before := by
  induction calls generalizing s with
  | nil => simp [madeCalls]
  | cons call rest ih =>
    intro m hm
    cases hcall : perform s call with
    | forever =>
      rw [madeCalls_of_forever hcall] at hm
      cases hm
    | after t x =>
      rw [madeCalls_of_after hcall] at hm
      rcases List.mem_cons.1 hm with rfl | hm
      · exact hs
      · exact ih (hkeeps hs hcall) m hm

/-- What every call keeps, each call of a run leaves. -/
theorem left_of_kept {P : σ → Prop} {s : σ} {calls : List κ} {m : Made σ κ ρ}
    (hkeeps : ∀ {s : σ} {call : κ} {t : Nat} {x : ρ},
      P s → perform s call = .after t x → P (next x))
    (hs : P s) (hm : m ∈ madeCalls perform next s calls) : P (next m.outcome) :=
  hkeeps (before_of_kept (P := P) hkeeps hs m hm) (perform_of_made hm)

/-- What every call keeps and one call has left, all later calls leave. -/
theorem left_of_later {P : σ → Prop} {s : σ} {calls : List κ} {i j : Nat} {a b : Made σ κ ρ}
    (hkeeps : ∀ {s : σ} {call : κ} {t : Nat} {x : ρ},
      P s → perform s call = .after t x → P (next x))
    (ha : (madeCalls perform next s calls)[i]? = some a) (hleft : P (next a.outcome))
    (hb : (madeCalls perform next s calls)[j]? = some b) (hlater : i < j) : P (next b.outcome) := by
  have hmem : b ∈ (madeCalls perform next s calls).drop (i + 1) := by
    refine List.mem_of_getElem? (i := j - (i + 1)) ?_
    rw [List.getElem?_drop, Nat.add_sub_cancel' hlater]
    exact hb
  rw [drop_madeCalls ha] at hmem
  exact left_of_kept (P := P) hkeeps hleft hmem

/-- Where every call returns, all calls are made. -/
theorem map_call_madeCalls {P : σ → Prop} {s : σ} {calls : List κ}
    (hreturns : ∀ {s : σ} (call : κ), P s → ∃ t x, perform s call = .after t x ∧ P (next x))
    (hs : P s) : (madeCalls perform next s calls).map Made.call = calls := by
  induction calls generalizing s with
  | nil => rfl
  | cons call rest ih =>
    obtain ⟨t, x, hcall, hx⟩ := hreturns call hs
    rw [madeCalls_of_after hcall, List.map_cons, ih hx]

end Runs

/-! ### Runs seen as others -/

/-- A call seen as one to something else. -/
def Made.map {σ κ ρ σ' ρ' : Type} (f : σ → σ') (g : ρ → ρ') (m : Made σ κ ρ) : Made σ' κ ρ' :=
  ⟨f m.before, m.call, m.took, g m.outcome⟩

/-- Where every single call can be seen as one to something else, so can all calls of a run. -/
theorem map_madeCalls {σ κ ρ σ' ρ' : Type} {perform : σ → κ → Wait ρ} {next : ρ → σ}
    {perform' : σ' → κ → Wait ρ'} {next' : ρ' → σ'} {f : σ → σ'} {g : ρ → ρ'}
    (hperform : ∀ s call, (perform s call).map g = perform' (f s) call)
    (hnext : ∀ x, next' (g x) = f (next x)) (s : σ) (calls : List κ) :
    (madeCalls perform next s calls).map (Made.map f g) = madeCalls perform' next' (f s) calls := by
  induction calls generalizing s with
  | nil => rfl
  | cons call rest ih =>
    have hsame := hperform s call
    cases hcall : perform s call with
    | forever =>
      rw [hcall] at hsame
      rw [madeCalls_of_forever hcall, madeCalls_of_forever hsame.symm]
      rfl
    | after t x =>
      rw [hcall, Wait.map_after] at hsame
      rw [madeCalls_of_after hcall, madeCalls_of_after hsame.symm, List.map_cons, ih, hnext]
      rfl

end PlayerWatch
