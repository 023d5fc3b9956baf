import Mathlib.Data.List.Basic
import Mathlib.Data.List.Induction
import Mathlib.Logic.Relation
import PlayerWatch.Slot

/-!
# What a history says about slots

Handles to slots are made and used one call after another. Which of them lead to the same slot, and
what was published there, is settled by the calls alone: each handle has an `origin`, the first handle
to its slot, and two have the same one just when they are related by sharing (`origin_eq_iff`). What
was published on the slot of a handle is what was published through any handle of that origin.
-/

namespace PlayerWatch.Slots

/-! ### Calls -/

inductive Call where
  | publish (handle : Nat) (status : Status)
  | read (handle : Nat)
  | snapshot (handle : Nat)
  | generation (handle : Nat)
  | share (handle : Nat)
  | fresh
  /-- Looks again at what an earlier call has read. -/
  | revisit (call : Nat)

namespace Call

def handle? : Call → Option Nat
  | publish handle _ | read handle | snapshot handle | generation handle | share handle => some handle
  | fresh | revisit _ => none

def makes : Call → Bool
  | share _ | fresh => true
  | _ => false

def publishes : Call → Bool
  | publish .. => true
  | _ => false

end Call

variable {past calls : List Call} {c : Call} {h h' : Nat}

/-- How many handles there are after calls; at first there is one. -/
def made (past : List Call) : Nat := 1 + past.countP Call.makes

/-- Every call uses a handle that has been made. -/
def WellMade (calls : List Call) : Prop :=
  ∀ i (hi : i < calls.length), ∀ h ∈ calls[i].handle?, h < made (calls.take i)

theorem made_append (past : List Call) (c : Call) :
    made (past ++ [c]) = made past + if c.makes then 1 else 0 := by
  rw [made, made, List.countP_append, List.countP_singleton, Nat.add_assoc]

theorem made_le_append (past more : List Call) : made past ≤ made (past ++ more) :=
  Nat.add_le_add_left (List.Sublist.countP_le (List.sublist_append_left past more)) 1

theorem wellMade_append :
    WellMade (past ++ [c]) ↔ WellMade past ∧ ∀ h ∈ c.handle?, h < made past := by
  constructor
  · intro hwell
    constructor
    · intro i hi h hh
      have hused := hwell i (by simp; omega) h
      rw [List.getElem_append_left hi, List.take_append_of_le_length (Nat.le_of_lt hi)] at hused
      exact hused hh
    · intro h hh
      have hused := hwell past.length (by simp) h
      rw [List.getElem_concat_length rfl, List.take_left] at hused
      exact hused hh
  · rintro ⟨hwell, hlast⟩ i hi h hh
    rw [List.length_append, List.length_singleton] at hi
    rcases Nat.lt_succ_iff_lt_or_eq.1 hi with hi | rfl
    · rw [List.getElem_append_left hi] at hh
      rw [List.take_append_of_le_length (Nat.le_of_lt hi)]
      exact hwell i hi h hh
    · rw [List.getElem_concat_length rfl] at hh
      rw [List.take_left]
      exact hlast h hh

theorem WellMade.left {more : List Call} (hwell : WellMade (past ++ more)) : WellMade past := by
  induction more using List.reverseRecOn with
  | nil => rwa [List.append_nil] at hwell
  | append_singleton more c ih =>
    rw [← List.append_assoc, wellMade_append] at hwell
    exact ih hwell.1

theorem WellMade.handle_lt (hwell : WellMade past) (hc : c ∈ past) (hh : c.handle? = some h) :
    h < made past := by
  obtain ⟨before, rest, rfl⟩ := List.append_of_mem hc
  rw [← List.singleton_append, ← List.append_assoc] at hwell ⊢
  have hused : h < made before := (wellMade_append.1 hwell.left).2 h hh
  rw [List.append_assoc]
  exact Nat.lt_of_lt_of_le hused (made_le_append before _)

/-! ### Origins -/

def originStep (origins : List Nat) : Call → List Nat
  | .share handle => origins ++ [origins.getD handle 0]
  | .fresh => origins ++ [origins.length]
  | _ => origins

/-- The origin of each handle: of a shared handle it is that of the handle it was made from. -/
def origins (past : List Call) : List Nat := past.foldl originStep [0]

def origin (past : List Call) (handle : Nat) : Option Nat := (origins past)[handle]?

theorem origins_append (past : List Call) (c : Call) :
    origins (past ++ [c]) = originStep (origins past) c := List.foldl_append

theorem length_origins (past : List Call) : (origins past).length = made past := by
  induction past using List.reverseRecOn with
  | nil => rfl
  | append_singleton past c ih =>
    rw [origins_append, made_append, ← ih]
    cases c with
    | share handle => simp [originStep, Call.makes]
    | fresh => simp [originStep, Call.makes]
    | _ => simp [originStep, Call.makes]

theorem origin_append (hh : h < made past) (c : Call) : origin (past ++ [c]) h = origin past h := by
  rw [← length_origins] at hh
  rw [origin, origin, origins_append]
  cases c with
  | share handle => exact List.getElem?_append_left hh
  | fresh => exact List.getElem?_append_left hh
  | _ => rfl

theorem origin_append_all (hh : h < made past) (more : List Call) :
    origin (past ++ more) h = origin past h := by
  induction more using List.reverseRecOn with
  | nil => rw [List.append_nil]
  | append_singleton more c ih =>
    rw [← List.append_assoc, origin_append (Nat.lt_of_lt_of_le hh (made_le_append past more)), ih]

theorem origin_share (hh : h < made past) :
    origin (past ++ [.share h]) (made past) = origin past h := by
  rw [← length_origins] at hh ⊢
  rw [origin, origins_append, originStep, List.getElem?_concat_length, origin,
    List.getD_eq_getElem?_getD, List.getElem?_eq_getElem hh, Option.getD_some]

theorem origin_fresh (past : List Call) :
    origin (past ++ [.fresh]) (made past) = some (made past) := by
  rw [← length_origins, origin, origins_append, originStep, List.getElem?_concat_length]

theorem lt_of_mem_origins {r : Nat} (hr : r ∈ origins past) : r < made past := by
  induction past using List.reverseRecOn generalizing r with
  | nil =>
    obtain rfl := List.mem_singleton.1 hr
    decide
  | append_singleton past c ih =>
    have hmade : made past ≤ made (past ++ [c]) := made_le_append past [c]
    rw [origins_append] at hr
    cases c with
    | share handle =>
      rcases List.mem_append.1 hr with hr | hr
      · exact Nat.lt_of_lt_of_le (ih hr) hmade
      · obtain rfl := List.mem_singleton.1 hr
        rw [List.getD_eq_getElem?_getD]
        cases hget : (origins past)[handle]? with
        | none => exact Nat.lt_of_lt_of_le Nat.zero_lt_one (Nat.le_add_right 1 _)
        | some r =>
          have hr : r < made past := ih (List.mem_of_getElem? hget)
          exact Nat.lt_of_lt_of_le hr hmade
    | fresh =>
      rcases List.mem_append.1 hr with hr | hr
      · exact Nat.lt_of_lt_of_le (ih hr) hmade
      · obtain rfl := List.mem_singleton.1 hr
        rw [length_origins, made_append]
        exact Nat.lt_succ_self _
    | _ => exact Nat.lt_of_lt_of_le (ih hr) hmade

/-- No handle so far has a handle to come for its origin. -/
theorem origin_ne_made (past : List Call) (handle : Nat) : origin past handle ≠ some (made past) := by
  intro horigin
  exact Nat.lt_irrefl _ (lt_of_mem_origins (List.mem_of_getElem? horigin))

/-! ### Handles that are related -/

inductive Shared : List Call → Nat → Nat → Prop
  | of_call (past : List Call) (handle : Nat) (rest : List Call) :
    Shared (past ++ .share handle :: rest) handle (made past)

theorem Shared.append (hshared : Shared past h h') (c : Call) : Shared (past ++ [c]) h h' := by
  cases hshared with
  | of_call past handle rest =>
    rw [List.append_assoc, List.cons_append]
    exact .of_call past h (rest ++ [c])

/-- A shared handle has the origin of the handle it was made from. -/
theorem Shared.origin_eq (hwell : WellMade past) (hshared : Shared past h h') :
    origin past h = origin past h' := by
  cases hshared with
  | of_call before handle rest =>
    rw [← List.singleton_append, ← List.append_assoc] at hwell ⊢
    have hh : h < made before := (wellMade_append.1 hwell.left).2 h rfl
    have hlast : made before < made (before ++ [.share h]) := by
      rw [made_append]
      exact Nat.lt_succ_self _
    rw [origin_append_all (Nat.lt_trans hh hlast), origin_append_all hlast, origin_append hh,
      origin_share hh]

/-- A handle is related to its origin. -/
theorem related_origin (hwell : WellMade past) (hh : h < made past) :
    ∃ r, origin past h = some r ∧ Relation.EqvGen (Shared past) r h := by
  -- The last call may be the one that made the handle.
  induction past using List.reverseRecOn generalizing h with
  | nil =>
    obtain rfl : h = 0 := Nat.lt_one_iff.1 hh
    exact ⟨0, rfl, .refl 0⟩
  | append_singleton past c ih =>
    obtain ⟨hbefore, hlast⟩ := wellMade_append.1 hwell
    have hstays {g r : Nat} (hrelated : Relation.EqvGen (Shared past) r g) :
        Relation.EqvGen (Shared (past ++ [c])) r g :=
      hrelated.mono fun _ _ hshared => hshared.append c
    by_cases hold : h < made past
    · obtain ⟨r, horigin, hrelated⟩ := ih hbefore hold
      exact ⟨r, (origin_append hold c).trans horigin, hstays hrelated⟩
    · -- The handle is the one that the last call made.
      rw [made_append] at hh
      have hmakes : c.makes = true := by
        by_contra hmakes
        rw [if_neg hmakes] at hh
        exact hold hh
      rw [if_pos hmakes] at hh
      obtain rfl : h = made past := Nat.le_antisymm (Nat.le_of_lt_succ hh) (Nat.not_lt.1 hold)
      cases c with
      | share g =>
        have hg : g < made past := hlast g rfl
        obtain ⟨r, horigin, hrelated⟩ := ih hbefore hg
        exact ⟨r, (origin_share hg).trans horigin,
          .trans _ _ _ (hstays hrelated) (.rel _ _ (.of_call past g []))⟩
      | fresh => exact ⟨made past, origin_fresh past, .refl _⟩
      | _ => cases hmakes

/-- **Two handles have the same origin just when they are related by sharing.** -/
theorem origin_eq_iff (hwell : WellMade past) (hh : h < made past) (hh' : h' < made past) :
    origin past h = origin past h' ↔ Relation.EqvGen (Shared past) h h' := by
  constructor
  · intro horigin
    obtain ⟨r, hr, hrelated⟩ := related_origin hwell hh
    obtain ⟨r', hr', hrelated'⟩ := related_origin hwell hh'
    obtain rfl : r = r' := Option.some.inj (hr.symm.trans (horigin.trans hr'))
    exact .trans _ _ _ (.symm _ _ hrelated) hrelated'
  · intro hrelated
    clear hh hh'
    induction hrelated with
    | rel _ _ hshared => exact hshared.origin_eq hwell
    | refl _ => rfl
    | symm _ _ _ ih => exact ih.symm
    | trans _ _ _ _ _ ih ih' => exact ih.trans ih'

/-! ### What was published -/

def publishedBy (past : List Call) (handle : Nat) : Call → Option Status
  | .publish other status => if origin past other = origin past handle then some status else none
  | _ => none

/-- What was published on the slot of a handle, through whichever of its handles. -/
def published (past : List Call) (handle : Nat) : List Status :=
  past.filterMap (publishedBy past handle)

theorem publishedBy_congr (horigin : origin past h = origin past h') :
    publishedBy past h = publishedBy past h' := by
  funext c
  cases c with
  | publish other status => simp only [publishedBy, horigin]
  | _ => rfl

theorem published_congr (horigin : origin past h = origin past h') :
    published past h = published past h' := by
  rw [published, published, publishedBy_congr horigin]

theorem published_append (hwell : WellMade (past ++ [c])) (hh : h < made past) :
    published (past ++ [c]) h = published past h ++ (publishedBy past h c).toList := by
  obtain ⟨hbefore, hlast⟩ := wellMade_append.1 hwell
  -- The handles that calls use were made before the last one, so their origins are as they were.
  have hcall {d : Call} (hd : ∀ other ∈ d.handle?, other < made past) :
      publishedBy (past ++ [c]) h d = publishedBy past h d := by
    cases d with
    | publish other status =>
      simp only [publishedBy, origin_append hh, origin_append (hd other rfl)]
    | _ => rfl
  have hpast : past.filterMap (publishedBy (past ++ [c]) h) = published past h := by
    apply List.filterMap_congr
    intro d hd
    exact hcall fun other hother => hbefore.handle_lt hd hother
  rw [published, List.filterMap_append, hpast, ← hcall hlast]
  cases hc : publishedBy (past ++ [c]) h c with
  | none => simp [hc]
  | some status => simp [hc]

theorem published_prefix {more : List Call} (hwell : WellMade (past ++ more)) (hh : h < made past) :
    published past h <+: published (past ++ more) h := by
  induction more using List.reverseRecOn with
  | nil => simp
  | append_singleton more c ih =>
    rw [← List.append_assoc] at hwell ⊢
    rw [published_append hwell (Nat.lt_of_lt_of_le hh (made_le_append past more))]
    exact (ih hwell.left).trans (List.prefix_append _ _)

theorem published_fresh (hwell : WellMade (past ++ [.fresh])) :
    published (past ++ [.fresh]) (made past) = [] := by
  obtain ⟨hbefore, -⟩ := wellMade_append.1 hwell
  rw [published, List.filterMap_eq_nil_iff]
  intro d hd
  cases d with
  | publish other status =>
    have hother : other < made past := by
      rcases List.mem_append.1 hd with hd | hd
      · exact hbefore.handle_lt hd rfl
      · cases List.mem_singleton.1 hd
    rw [publishedBy, origin_append hother, origin_fresh, if_neg (origin_ne_made past other)]
  | _ => rfl

/-! ### What the answers should be -/

inductive Answer where
  | generation (n : Nat)
  | status (status : Option Status)
  | snapshot (snapshot : Option (Status × Nat))
  | handle (n : Nat)

/-- The status that a call has read. -/
def recalled (past : List Call) (call : Nat) : Option Status :=
  match past[call]? with
  | some (.read handle) | some (.snapshot handle) => (published (past.take call) handle).getLast?
  | _ => none

/-- The answer to a call that comes after others, by what was published before. -/
def expected (past : List Call) : Call → Answer
  | .publish handle _ => .generation ((published past handle).length + 1)
  | .read handle => .status (published past handle).getLast?
  | .snapshot handle =>
    .snapshot ((published past handle).getLast?.map fun status =>
      (status, (published past handle).length))
  | .generation handle => .generation (published past handle).length
  | .share _ | .fresh => .handle (made past)
  | .revisit call => .status (recalled past call)

end PlayerWatch.Slots
