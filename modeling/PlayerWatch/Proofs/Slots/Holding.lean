import PlayerWatch.Proofs.Slots.History

/-!
# What slots hold

A slot holds the last of the statuses that were published on it, under their number. The **invariant**
is `Tells`: the handles are those that the calls so far have made, two of them lead to the same slot just
when they have the same origin, and each slot holds what was published there. It is kept by a publish
(`Tells.publish`), by a handle that is shared (`Tells.share`) and by one to a slot of its own
(`Tells.fresh`).
-/

namespace PlayerWatch

/-- The slot that statuses have been published on. -/
def Slot.holding (statuses : List Status) : Slot :=
  ⟨statuses.getLast?.map fun status => ⟨status, UInt64.ofNat statuses.length⟩⟩

namespace Slot

theorem generation_holding (statuses : List Status) :
    (holding statuses).generation = UInt64.ofNat statuses.length := by
  cases hlast : statuses.getLast? with
  | none =>
    obtain rfl := List.getLast?_eq_none_iff.1 hlast
    rfl
  | some status => rw [holding, hlast]; rfl

theorem read_holding (statuses : List Status) : (holding statuses).read = statuses.getLast? := by
  rw [holding, read, Option.map_map]
  exact Option.map_id'

theorem publish_holding (statuses : List Status) (status : Status) :
    (holding statuses).publish status = holding (statuses ++ [status]) := by
  rw [publish, generation_holding, holding, List.getLast?_concat, List.length_append,
    List.length_singleton, UInt64.ofNat_add]
  rfl

end Slot

namespace Slots

/-! ### What the slots hold -/

/-- The handles are those that the calls have made, and lead to the same slot if they have the same
origin. -/
structure Leads (handles : List Nat) (past : List Call) : Prop where
  length : handles.length = made past
  same : ∀ h h', h < made past → h' < made past →
    (handles[h]? = handles[h']? ↔ origin past h = origin past h')

/-- Each slot holds the last of the statuses published there, under their number. -/
structure Tells (s : Slots) (past : List Call) : Prop where
  leads : Leads s.handles past
  holds : ∀ h i, s.handles[h]? = some i → s.slots[i]? = some (Slot.holding (published past h))

variable {s : Slots} {past : List Call} {c : Call} {h : Nat}

/-- A call that makes no handle leaves them as they are. -/
theorem Leads.keep {handles : List Nat} (hl : Leads handles past) (hmakes : c.makes = false) :
    Leads handles (past ++ [c]) := by
  have hmade : made (past ++ [c]) = made past := by
    rw [made_append, hmakes]
    rfl
  refine ⟨hmade ▸ hl.length, ?_⟩
  intro h h' hh hh'
  rw [hmade] at hh hh'
  rw [origin_append hh, origin_append hh']
  exact hl.same h h' hh hh'

namespace Tells

theorem lt_made (ht : Tells s past) {i : Nat} (hi : s.handles[h]? = some i) : h < made past := by
  rw [← ht.leads.length]
  exact (List.getElem?_eq_some_iff.1 hi).1

theorem slot_eq (ht : Tells s past) (hh : h < made past) :
    s.slot h = Slot.holding (published past h) := by
  rw [← ht.leads.length] at hh
  have hi := List.getElem?_eq_getElem hh
  rw [slot, hi, Option.bind_some, ht.holds h _ hi, Option.getD_some]

theorem start : Tells {} [] where
  leads := by
    refine ⟨rfl, ?_⟩
    intro h h' hh hh'
    obtain rfl : h = 0 := Nat.lt_one_iff.1 hh
    obtain rfl : h' = 0 := Nat.lt_one_iff.1 hh'
    exact ⟨fun _ => rfl, fun _ => rfl⟩
  holds h i hi := by
    have hh : h < 1 := (List.getElem?_eq_some_iff.1 hi).1
    obtain rfl : h = 0 := Nat.lt_one_iff.1 hh
    obtain rfl : 0 = i := Option.some.inj hi
    rfl

/-- A call that neither makes a handle nor publishes leaves all as it is. -/
theorem keep (ht : Tells s past) (hwell : WellMade (past ++ [c])) (hmakes : c.makes = false)
    (hpublishes : c.publishes = false) : Tells s (past ++ [c]) where
  leads := ht.leads.keep hmakes
  holds h i hi := by
    have hnothing : publishedBy past h c = none := by
      cases c with
      | publish _ _ => cases hpublishes
      | _ => rfl
    rw [published_append hwell (ht.lt_made hi), hnothing, Option.toList_none, List.append_nil]
    exact ht.holds h i hi

theorem publish (ht : Tells s past) {status : Status}
    (hwell : WellMade (past ++ [.publish h status])) :
    Tells (s.publish h status) (past ++ [.publish h status]) := by
  have hh : h < made past := (wellMade_append.1 hwell).2 h rfl
  obtain ⟨i, hi⟩ : ∃ i, s.handles[h]? = some i :=
    ⟨_, List.getElem?_eq_getElem (ht.leads.length ▸ hh)⟩
  rw [Slots.publish, hi]
  refine ⟨ht.leads.keep rfl, ?_⟩
  intro h' i' hi'
  have hh' : h' < made past := ht.lt_made hi'
  have hsame := ht.leads.same h h' hh hh'
  rw [hi, show s.handles[h']? = some i' from hi', Option.some_inj] at hsame
  show (s.slots.modify i _)[i']? = _
  rw [List.getElem?_modify, ht.holds h' i' hi', published_append hwell hh', publishedBy]
  by_cases hslot : i = i'
  · rw [if_pos (hsame.1 hslot), Option.toList_some, ← Slot.publish_holding]
    simp [hslot]
  · rw [if_neg fun horigin => hslot (hsame.2 horigin)]
    simp [hslot]

theorem share (ht : Tells s past) (hwell : WellMade (past ++ [.share h])) :
    Tells (s.share h) (past ++ [.share h]) := by
  have hh : h < made past := (wellMade_append.1 hwell).2 h rfl
  have hlength : s.handles.length = made past := ht.leads.length
  have hmade : made (past ++ [.share h]) = made past + 1 := made_append past _
  -- Each handle stands for one that was there before: the new one for the handle it was made from.
  have hstands {x : Nat} (hx : x < made past + 1) : ∃ y < made past,
      (s.share h).handles[x]? = s.handles[y]? ∧
        origin (past ++ [.share h]) x = origin past y := by
    rcases Nat.lt_succ_iff_lt_or_eq.1 hx with hx | rfl
    · exact ⟨x, hx, List.getElem?_append_left (hlength ▸ hx), origin_append hx _⟩
    · refine ⟨h, hh, ?_, origin_share hh⟩
      rw [Slots.share, ← hlength, List.getElem?_concat_length, List.getD_eq_getElem?_getD,
        List.getElem?_eq_getElem (hlength ▸ hh), Option.getD_some]
  constructor
  case leads =>
    refine ⟨?_, ?_⟩
    · rw [hmade, ← hlength]
      exact List.length_append
    · intro x x' hx hx'
      obtain ⟨y, hy, hhandle, horigin⟩ := hstands (hmade ▸ hx)
      obtain ⟨y', hy', hhandle', horigin'⟩ := hstands (hmade ▸ hx')
      rw [hhandle, hhandle', horigin, horigin']
      exact ht.leads.same y y' hy hy'
  case holds =>
    intro x i hi
    have hx : x < made past + 1 := by
      have hx := (List.getElem?_eq_some_iff.1 hi).1
      rw [Slots.share, List.length_append, hlength] at hx
      exact hx
    obtain ⟨y, hy, hhandle, horigin⟩ := hstands hx
    have hpublished : published (past ++ [.share h]) x = published past y := by
      rw [published_congr (horigin.trans (origin_append hy _).symm), published_append hwell hy]
      exact List.append_nil _
    rw [hpublished]
    exact ht.holds y i (hhandle ▸ hi)

theorem fresh (ht : Tells s past) (hwell : WellMade (past ++ [.fresh])) :
    Tells s.fresh (past ++ [.fresh]) := by
  have hlength : s.handles.length = made past := ht.leads.length
  have hmade : made (past ++ [.fresh]) = made past + 1 := made_append past _
  have hold {x : Nat} (hx : x < made past) : s.fresh.handles[x]? = s.handles[x]? :=
    List.getElem?_append_left (hlength ▸ hx)
  have hnew : s.fresh.handles[made past]? = some s.slots.length := by
    rw [← hlength]
    exact List.getElem?_concat_length
  -- The new slot is none of those that handles lead to.
  have hother {x : Nat} (hx : x < made past) : s.handles[x]? ≠ some s.slots.length := by
    intro hi
    have hlt := (List.getElem?_eq_some_iff.1 (ht.holds x _ hi)).1
    exact Nat.lt_irrefl _ hlt
  constructor
  case leads =>
    refine ⟨?_, ?_⟩
    · rw [hmade, ← hlength]
      exact List.length_append
    · intro x x' hx hx'
      rw [hmade] at hx hx'
      rcases Nat.lt_succ_iff_lt_or_eq.1 hx with hx | rfl
      · rcases Nat.lt_succ_iff_lt_or_eq.1 hx' with hx' | rfl
        · rw [hold hx, hold hx', origin_append hx, origin_append hx']
          exact ht.leads.same x x' hx hx'
        · rw [hold hx, hnew, origin_append hx, origin_fresh]
          exact iff_of_false (hother hx) (origin_ne_made past x)
      · rcases Nat.lt_succ_iff_lt_or_eq.1 hx' with hx' | rfl
        · rw [hold hx', hnew, origin_append hx', origin_fresh]
          exact iff_of_false (hother hx').symm (origin_ne_made past x').symm
        · exact ⟨fun _ => rfl, fun _ => rfl⟩
  case holds =>
    intro x i hi
    have hx : x < made past + 1 := by
      have hx := (List.getElem?_eq_some_iff.1 hi).1
      rw [Slots.fresh, List.length_append, hlength] at hx
      exact hx
    rcases Nat.lt_succ_iff_lt_or_eq.1 hx with hx | rfl
    · have hslot := ht.holds x i (hold hx ▸ hi)
      have hlt : i < s.slots.length := (List.getElem?_eq_some_iff.1 hslot).1
      rw [published_append hwell hx]
      show (s.slots ++ [_])[i]? = some (Slot.holding (published past x ++ []))
      rw [List.append_nil, List.getElem?_append_left hlt, hslot]
    · obtain rfl : s.slots.length = i := Option.some.inj (hnew.symm.trans hi)
      rw [published_fresh hwell]
      exact List.getElem?_concat_length

end Tells

end Slots

end PlayerWatch
