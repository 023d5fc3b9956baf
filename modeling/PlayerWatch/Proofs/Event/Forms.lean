import PlayerWatch.Event.Json
import PlayerWatch.Proofs.Json.Members

/-!
# The forms of an event

An event is read from its type and its payload in either order, with the members of the payload in any
order, and with other members among both.
-/

namespace PlayerWatch

open Json

namespace Event

/-! ### The payload -/

theorem ofJson_stage (mode : Mode) (stage : Stage) : Stage.ofJson mode stage.toJson = .ok stage := by
  cases stage <;> cases mode <;> rfl

theorem readTag_name (t : Tag) : readTag (text t.name) = .ok t := by
  cases t <;> rfl

theorem nodup_payload (e : Event) : (e.payload.map Prod.fst).Nodup := by
  cases e <;> simp [payload]

/-- The members of a payload stand for the fields of its type. -/
theorem fits_payload (mode : Mode) (e : Event) :
    List.Forall₂ Field.Fits (e.tag.fields mode) e.payload := by
  cases e with
  | stageChanged addr stage =>
    have hstage : (Stage.ofJson mode stage.toJson).map (fun _ => ()) = .ok () := by
      rw [ofJson_stage]
      rfl
    exact .cons ⟨rfl, rfl⟩ (.cons ⟨rfl, hstage⟩ .nil)
  | statusUpdated addr generation state =>
    have hgeneration : (readUInt64 (natural generation.toNat)).map (fun _ => ()) = .ok () := by
      rw [readUInt64_natural]
      rfl
    exact .cons ⟨rfl, rfl⟩ (.cons ⟨rfl, hgeneration⟩ (.cons ⟨rfl, rfl⟩ .nil))
  | fieldUnreadable request name value =>
    exact .cons ⟨rfl, rfl⟩ (.cons ⟨rfl, rfl⟩ (.cons ⟨rfl, rfl⟩ .nil))
  | connected | disconnected | songUnavailable => exact .cons ⟨rfl, rfl⟩ (.cons ⟨rfl, rfl⟩ .nil)

theorem ofEntries_payload (mode : Mode) (e : Event) {entries : Entries}
    (h : ∀ m ∈ e.payload, entries.lookup m.1 = some m.2) : ofEntries mode entries e.tag = .ok e := by
  cases e <;>
    simp_all [payload, ofEntries, tag, Entries.get, readText, text, ofJson_stage, readUInt64_natural,
      pure, Except.pure, bind, Except.bind]

/-- A payload is read with its members in any order, and others among them. -/
theorem ofPayload_rearranged (mode : Mode) (e : Event) {extra payload : List (String × Json)}
    (h : Rearranged e.payload extra payload) (hskip : ∀ m ∈ extra, m.2.skip = .ok ()) :
    ofPayload mode e.tag (record payload) = .ok e := by
  obtain ⟨entries, hread, hlookup⟩ :=
    readEntries_rearranged mode false (fits_payload mode e) (nodup_payload e) h hskip
  rw [ofPayload, hread]
  exact ofEntries_payload mode e hlookup

theorem settle_payload (e : Event) (depth : Nat) : ∀ m ∈ e.payload, m.2.settle depth = .ok () := by
  cases e with
  | statusUpdated addr generation state =>
    have hgeneration : (natural generation.toNat).settle depth = .ok () := by
      rw [natural, settle, figure?_ofNat generation.toNat_lt]
      rfl
    intro m hm
    simp only [payload, List.mem_cons, List.not_mem_nil, or_false] at hm
    rcases hm with rfl | rfl | rfl
    · rfl
    · exact hgeneration
    · rfl
  | stageChanged | connected | disconnected | fieldUnreadable | songUnavailable =>
    intro m hm
    simp only [payload, List.mem_cons, List.not_mem_nil, or_false] at hm
    rcases hm with rfl | rfl | rfl <;> rfl

/-! ### The whole event -/

/-- The members of an event with a payload. -/
def members (e : Event) (payload : List (String × Json)) : List (String × Json) :=
  [("type", text e.tag.name), ("payload", record payload)]

/-- The type stands in front of the payload. -/
def TypeFirst (members : List (String × Json)) : Prop :=
  (members.map Prod.fst).find? (· ∈ keys) = some "type"

/-- The members of an event and of its payload, each in any order and with others among them that can be
passed over. What stands so in a payload that comes first is looked at closely: its numbers have to be in
range, and it may be no deeper than what is left of the greatest depth. -/
structure Form (e : Event) (inner outer payload members : List (String × Json)) : Prop where
  inside : Rearranged e.payload inner payload
  outside : Rearranged (e.members payload) outer members
  passed : ∀ m ∈ inner ++ outer, m.2.skip = .ok ()
  settled : TypeFirst members ∨ ∀ m ∈ inner, m.2.settle (greatestDepth - 2) = .ok ()

/-- **An event is read from each of its forms.** -/
theorem ofJson_form {e : Event} {inner outer payload members : List (String × Json)}
    (h : e.Form inner outer payload members) : Event.ofJson (record members) = .ok e := by
  obtain ⟨hpayload, hmembers, hskip, hsettle⟩ := h
  have hinner : ∀ m ∈ inner, m.2.skip = .ok () := fun m hm => hskip m (List.mem_append_left _ hm)
  obtain ⟨before, between, after, horder, hothers⟩ := split_of_perm hmembers.1
  have hpass : ∀ m ∈ before ++ (between ++ after), m.1 ∉ keys ∧ m.2.skip = .ok () := fun m hm =>
    ⟨hmembers.2 m (hothers m hm), hskip m (List.mem_append_right _ (hothers m hm))⟩
  simp only [List.forall_mem_append] at hpass
  obtain ⟨hbefore, hbetween, hafter⟩ := hpass
  have hsealed : sealed none (keyed after) e = .ok e := by
    rw [sealed, nextMember_none hafter]
    rfl
  have hobject (members : List (String × Json)) : record members = .object (keyed members) none := rfl
  have htype : ("type", text e.tag.name).1 ∈ keys := List.mem_cons_self
  have hpay : ("payload", record payload).1 ∈ keys := List.mem_cons_of_mem _ List.mem_cons_self
  rcases horder with rfl | rfl
  · rw [hobject, ofJson, nextMember_found hbefore htype]
    simp only [bind, Except.bind, if_true, readTag_name]
    rw [nextMember_found hbetween hpay]
    simp only [ofPayload_rearranged .streamed e hpayload hinner]
    exact hsealed
  · rw [hobject, ofJson, nextMember_found hbefore hpay]
    have hsettled : (record payload).settle (greatestDepth - 1) = .ok () := by
      rcases hsettle with hfirst | hsettle
      · -- The payload is what is found first here.
        have hnone : (before.map Prod.fst).find? (· ∈ keys) = none := by
          rw [List.find?_eq_none]
          intro key hkey
          obtain ⟨m, hm, rfl⟩ := List.mem_map.1 hkey
          simpa using (hbefore m hm).1
        rw [TypeFirst, List.map_append, List.find?_append, hnone, List.map_cons] at hfirst
        have hsame : some "payload" = some "type" := hfirst
        exact absurd hsame (by decide)
      · apply settle_record
        intro m hm
        rcases List.mem_append.1 (hpayload.1.mem_iff.1 hm) with hm | hm
        · exact settle_payload e _ m hm
        · exact hsettle m hm
    have hne : ¬ "payload" = "type" := by decide
    simp only [bind, Except.bind, if_neg hne, hsettled]
    rw [nextMember_found hbetween htype]
    simp only [readTag_name, ofPayload_rearranged .settled e hpayload hinner]
    exact hsealed

/-! ### Without a fault -/

theorem proper_payload (e : Event) : ∀ m ∈ e.payload, m.2.Proper := by
  intro m hm
  cases e <;> simp only [payload, List.mem_cons, List.not_mem_nil, or_false] at hm <;>
    rcases hm with rfl | rfl | rfl <;> first | exact .string _ | exact .number (wellWritten_ofNat _)

theorem proper_form {e : Event} {inner outer payload members : List (String × Json)}
    (h : e.Form inner outer payload members) (hextra : ∀ m ∈ inner ++ outer, m.2.Proper) :
    (record members).Proper := by
  have hpayload : (record payload).Proper := by
    refine .record fun m hm => ?_
    rcases List.mem_append.1 (h.inside.1.mem_iff.1 hm) with hm | hm
    · exact proper_payload e m hm
    · exact hextra m (List.mem_append_left _ hm)
  refine .record fun m hm => ?_
  rcases List.mem_append.1 (h.outside.1.mem_iff.1 hm) with hm | hm
  · rcases List.mem_pair.1 hm with rfl | rfl
    · exact .string _
    · exact hpayload
  · exact hextra m (List.mem_append_right _ hm)

/-- As it is written, an event has the type first and nothing under other keys. -/
theorem form_toJson (e : Event) : e.Form [] [] e.payload (e.members e.payload) where
  inside := ⟨by simp, nofun⟩
  outside := ⟨by simp, nofun⟩
  passed := nofun
  settled := .inr nofun

end Event

end PlayerWatch
