import Mathlib.Data.List.Forall2
import Mathlib.Data.List.Perm.Basic
import PlayerWatch.Json.Fields
import PlayerWatch.Proofs.Json.RoundTrip

/-!
# Members in any order

A record is read from an object by the keys of its members. Those may stand in any order, and members
with other keys among them (`Rearranged`); such a member only has to be one that can be passed over. What
is read for a field is then the value under its key (`readEntries_record`), and of two keys that are
looked for the one that stands first is found first (`nextMember_found`).
-/

namespace PlayerWatch.Json

open Number

/-- The members of an object: the known ones and some extra ones with other keys, in any order. -/
def Rearranged (known extra members : List (String × Json)) : Prop :=
  members.Perm (known ++ extra) ∧ ∀ m ∈ extra, m.1 ∉ known.map Prod.fst

/-- The members as they stand in an object. -/
def keyed (members : List (String × Json)) : List (Json × Json) :=
  members.map fun m => (text m.1, m.2)

/-! ### Passing over a value -/

theorem skipItems_eq_ok {items : List Json} (h : ∀ j ∈ items, j.skip = .ok ()) :
    skipItems items = .ok () := by
  induction items with
  | nil => rfl
  | cons j items ih =>
    obtain ⟨hj, hitems⟩ := List.forall_mem_cons.1 h
    rw [skipItems, hj]
    exact ih hitems

theorem skipMembers_keyed {members : List (String × Json)} (h : ∀ m ∈ members, m.2.skip = .ok ()) :
    skipMembers (keyed members) = .ok () := by
  induction members with
  | nil => rfl
  | cons m members ih =>
    obtain ⟨hm, hmembers⟩ := List.forall_mem_cons.1 h
    show (do m.2.skip; skipMembers (keyed members)) = _
    rw [hm]
    exact ih hmembers

/-- What has no fault can be passed over. -/
theorem skip_of_proper {j : Json} (h : j.Proper) : j.skip = .ok () := by
  induction h with
  | null | bool | number | string => rfl
  | list h ih =>
    rw [list, skip, skipItems_eq_ok ih]
    rfl
  | record h ih =>
    rw [record, skip]
    show (do skipMembers (keyed _); ending none) = _
    rw [skipMembers_keyed ih]
    rfl

theorem settle_record {members : List (String × Json)} {depth : Nat}
    (h : ∀ m ∈ members, m.2.settle depth = .ok ()) : (record members).settle (depth + 1) = .ok () := by
  have hmembers : settleMembers depth (keyed members) = .ok () := by
    induction members with
    | nil => rfl
    | cons m members ih =>
      obtain ⟨hm, hmembers⟩ := List.forall_mem_cons.1 h
      show (do m.2.settle depth; settleMembers depth (keyed members)) = _
      rw [hm]
      exact ih hmembers
  show (do settleMembers depth (keyed members); ending none) = _
  rw [hmembers]
  rfl

/-! ### The fields of a record -/

theorem lookup_of_mem {members : List (String × Json)} (hkeys : (members.map Prod.fst).Nodup)
    {key : String} {v : Json} (h : (key, v) ∈ members) : members.lookup key = some v := by
  induction members with
  | nil => cases h
  | cons m members ih =>
    rw [List.map_cons, List.nodup_cons] at hkeys
    rw [List.lookup_cons]
    rcases List.mem_cons.1 h with rfl | h
    · simp
    · have hne : key ≠ m.1 := by
        rintro rfl
        exact hkeys.1 (List.mem_map.2 ⟨_, h, rfl⟩)
      rw [beq_eq_false_iff_ne.2 hne]
      exact ih hkeys.2 h

theorem lookup_of_not_mem {members : List (String × Json)} {key : String}
    (h : key ∉ members.map Prod.fst) : members.lookup key = none := by
  rw [List.lookup_eq_none_iff]
  intro m hm
  have hne : key ≠ m.1 := by
    rintro rfl
    exact h (List.mem_map_of_mem hm)
  exact bne_iff_ne.2 hne

/-- A member that the field with its key takes, or that can be passed over if there is none. -/
def Field.Takes (fields : List Field) (m : String × Json) : Prop :=
  match fields.find? fun f => f.key = m.1 with
  | some f => f.check m.2 = .ok ()
  | none => m.2.skip = .ok ()

/-- Whether a record has a field with a key. -/
def Field.named (fields : List Field) (key : String) : Bool :=
  (fields.find? fun f => f.key = key).isSome

/-- A member that stands for a field. -/
def Field.Fits (f : Field) (m : String × Json) : Prop := f.key = m.1 ∧ f.check m.2 = .ok ()

theorem Field.named_iff {fields : List Field} {known : List (String × Json)}
    (h : List.Forall₂ Field.Fits fields known) {key : String} :
    Field.named fields key = true ↔ key ∈ known.map Prod.fst := by
  rw [Field.named]
  induction h with
  | nil => simp
  | @cons f m fields known hfits _ ih =>
    rw [List.find?_cons, List.map_cons, List.mem_cons, ← ih, ← hfits.1]
    by_cases hkey : f.key = key
    · simp [hkey]
    · simp [hkey, Ne.symm hkey]

theorem Field.takes_of_fits {fields : List Field} {known : List (String × Json)}
    (h : List.Forall₂ Field.Fits fields known) (hkeys : (known.map Prod.fst).Nodup) :
    ∀ m ∈ known, Field.Takes fields m := by
  induction h with
  | nil => nofun
  | @cons f m fields known hfits _ ih =>
    rw [List.map_cons, List.nodup_cons] at hkeys
    intro m' hm'
    rw [Field.Takes, List.find?_cons]
    rcases List.mem_cons.1 hm' with rfl | hm'
    · simp only [hfits.1, decide_true]
      exact hfits.2
    · have hne : f.key ≠ m'.1 := by
        rw [hfits.1]
        exact fun hsame => hkeys.1 (hsame ▸ List.mem_map_of_mem hm')
      simp only [decide_eq_false hne]
      exact ih hkeys.2 m' hm'

theorem ofMembers_keyed {fields : List Field} {members : List (String × Json)} {seen : Entries}
    (htakes : ∀ m ∈ members, Field.Takes fields m)
    (hkeys : ((seen ++ members.filter fun m => Field.named fields m.1).map Prod.fst).Nodup) :
    ofMembers fields seen none (keyed members) =
      .ok ((members.filter fun m => Field.named fields m.1).reverse ++ seen) := by
  induction members generalizing seen with
  | nil => rfl
  | cons m members ih =>
    obtain ⟨hm, hmembers⟩ := List.forall_mem_cons.1 htakes
    have hkey : (text m.1).readText = .ok m.1 := rfl
    show ofMembers fields seen none ((text m.1, m.2) :: keyed members) = _
    rw [ofMembers, hkey]
    simp only [bind, Except.bind]
    cases hfield : fields.find? fun f => f.key = m.1 with
    | none =>
      have hother : Field.named fields m.1 = false := by rw [Field.named, hfield]; rfl
      have hskip : m.2.skip = .ok () := by
        rw [Field.Takes, hfield] at hm
        exact hm
      rw [List.filter_cons_of_neg (by simp [hother])] at hkeys ⊢
      simp only [hskip]
      exact ih hmembers hkeys
    | some f =>
      have hnamed : Field.named fields m.1 = true := by rw [Field.named, hfield]; rfl
      have hcheck : f.check m.2 = .ok () := by
        rw [Field.Takes, hfield] at hm
        exact hm
      rw [List.filter_cons_of_pos (by simp [hnamed])] at hkeys ⊢
      have hkeys' := (List.perm_middle.map Prod.fst).nodup_iff.1 hkeys
      have hunseen : seen.lookup m.1 = none := by
        apply lookup_of_not_mem
        rw [List.map_cons, List.nodup_cons, List.map_append] at hkeys'
        exact fun hmem => hkeys'.1 (List.mem_append_left _ hmem)
      simp only [hunseen, hcheck]
      rw [List.reverse_cons, List.append_assoc]
      exact ih hmembers hkeys'

/-- **A record is read by the keys of its members**: a field has the value under its key, or none. -/
theorem readEntries_record {fields : List Field} {members : List (String × Json)} (mode : Mode)
    (lenient : Bool) (htakes : ∀ m ∈ members, Field.Takes fields m)
    (hkeys : ((members.filter fun m => Field.named fields m.1).map Prod.fst).Nodup) :
    ∃ entries, readEntries mode lenient fields (record members) = .ok entries ∧
      (∀ m ∈ members, Field.named fields m.1 = true → entries.lookup m.1 = some m.2) ∧
      ∀ key, key ∉ members.map Prod.fst → entries.lookup key = none := by
  have hread : ofMembers fields [] none (keyed members) =
      .ok ((members.filter fun m => Field.named fields m.1).reverse ++ []) :=
    ofMembers_keyed htakes hkeys
  rw [List.append_nil] at hread
  refine ⟨_, hread, ?_, ?_⟩
  · intro m hm hnamed
    apply lookup_of_mem
    · rw [List.map_reverse, List.nodup_reverse]
      exact hkeys
    · rw [List.mem_reverse, List.mem_filter]
      exact ⟨hm, hnamed⟩
  · intro key hkey
    apply lookup_of_not_mem
    intro hmem
    obtain ⟨m, hm, rfl⟩ := List.mem_map.1 hmem
    rw [List.mem_reverse, List.mem_filter] at hm
    exact hkey (List.mem_map_of_mem hm.1)

/-- The same with the members in any order, and others among them that can be passed over. -/
theorem readEntries_rearranged {fields : List Field} {known extra members : List (String × Json)}
    (mode : Mode) (lenient : Bool) (hfits : List.Forall₂ Field.Fits fields known)
    (hkeys : (known.map Prod.fst).Nodup) (h : Rearranged known extra members)
    (hskip : ∀ m ∈ extra, m.2.skip = .ok ()) :
    ∃ entries, readEntries mode lenient fields (record members) = .ok entries ∧
      ∀ m ∈ known, entries.lookup m.1 = some m.2 := by
  have hknown : ∀ m ∈ known, Field.named fields m.1 = true := fun m hm =>
    (Field.named_iff hfits).2 (List.mem_map_of_mem hm)
  have hextra : ∀ m ∈ extra, Field.named fields m.1 = false := by
    intro m hm
    rw [← Bool.not_eq_true, Field.named_iff hfits]
    exact h.2 m hm
  have htakes : ∀ m ∈ members, Field.Takes fields m := by
    intro m hm
    rcases List.mem_append.1 (h.1.mem_iff.1 hm) with hm | hm
    · exact Field.takes_of_fits hfits hkeys m hm
    · have hnone := hextra m hm
      rw [Field.named, Option.isSome_eq_false_iff, Option.isNone_iff_eq_none] at hnone
      rw [Field.Takes, hnone]
      exact hskip m hm
  have hfields : (members.filter fun m => Field.named fields m.1).Perm known := by
    have hnone : extra.filter (fun m => Field.named fields m.1) = [] :=
      List.filter_eq_nil_iff.2 fun m hm => by simp [hextra m hm]
    have hperm := h.1.filter fun m => Field.named fields m.1
    rw [List.filter_append, List.filter_eq_self.2 hknown, hnone, List.append_nil] at hperm
    exact hperm
  obtain ⟨entries, hread, hlookup, -⟩ :=
    readEntries_record mode lenient htakes ((hfields.map _).nodup_iff.2 hkeys)
  exact ⟨entries, hread, fun m hm =>
    hlookup m (h.1.mem_iff.2 (List.mem_append_left _ hm)) (hknown m hm)⟩

/-- The same with some of the members left out: the fields that they stand for have no value. -/
theorem readEntries_kept {κ : Type} {fields : List Field} {all : List κ} {member : κ → String × Json}
    (mode : Mode) (lenient : Bool) (keep : κ → Bool)
    (hfits : List.Forall₂ Field.Fits fields (all.map member))
    (hkeys : ((all.map member).map Prod.fst).Nodup) :
    ∃ entries, readEntries mode lenient fields (record ((all.filter keep).map member)) = .ok entries ∧
      ∀ k ∈ all, entries.lookup (member k).1 = if keep k then some (member k).2 else none := by
  have hsub : ((all.filter keep).map member).Sublist (all.map member) := List.filter_sublist.map _
  have htakes : ∀ m ∈ (all.filter keep).map member, Field.Takes fields m := fun m hm =>
    Field.takes_of_fits hfits hkeys m (hsub.subset hm)
  have hnodup := ((List.filter_sublist (p := fun m => Field.named fields m.1)).trans hsub).map Prod.fst
  obtain ⟨entries, hread, hlookup, hnone⟩ :=
    readEntries_record mode lenient htakes (hnodup.nodup hkeys)
  refine ⟨entries, hread, ?_⟩
  intro k hk
  cases hkeep : keep k with
  | true =>
    have hmem := List.mem_map_of_mem (f := member) (List.mem_filter.2 ⟨hk, hkeep⟩)
    exact hlookup _ hmem ((Field.named_iff hfits).2 (List.mem_map_of_mem (hsub.subset hmem)))
  | false =>
    apply hnone
    intro hmem
    rw [List.map_map] at hmem hkeys
    obtain ⟨k', hk', hsame⟩ := List.mem_map.1 hmem
    obtain ⟨hk', hkept⟩ := List.mem_filter.1 hk'
    rw [List.inj_on_of_nodup_map hkeys hk' hk hsame, hkeep] at hkept
    cases hkept

/-! ### Keys that are looked for -/

theorem nextMember_keyed (keys : List String) (m : String × Json) (rest : List (String × Json)) :
    nextMember keys none (keyed (m :: rest)) =
      if m.1 ∈ keys then .ok (some (m.1, m.2, keyed rest))
      else (do m.2.skip; nextMember keys none (keyed rest)) := by
  show (if keys.contains m.1 then _ else _) = _
  simp only [List.contains_iff_mem]
  rfl

/-- The members in front of the first one that is looked for are passed over. -/
theorem nextMember_found {keys : List String} {before after : List (String × Json)}
    {m : String × Json} (hbefore : ∀ m ∈ before, m.1 ∉ keys ∧ m.2.skip = .ok ()) (hm : m.1 ∈ keys) :
    nextMember keys none (keyed (before ++ m :: after)) = .ok (some (m.1, m.2, keyed after)) := by
  induction before with
  | nil => rw [List.nil_append, nextMember_keyed, if_pos hm]
  | cons b before ih =>
    obtain ⟨⟨hkey, hskip⟩, hbefore⟩ := List.forall_mem_cons.1 hbefore
    rw [List.cons_append, nextMember_keyed, if_neg hkey, hskip]
    exact ih hbefore

theorem nextMember_none {keys : List String} {rest : List (String × Json)}
    (hrest : ∀ m ∈ rest, m.1 ∉ keys ∧ m.2.skip = .ok ()) :
    nextMember keys none (keyed rest) = .ok none := by
  induction rest with
  | nil => rfl
  | cons b rest ih =>
    obtain ⟨⟨hkey, hskip⟩, hrest⟩ := List.forall_mem_cons.1 hrest
    rw [nextMember_keyed, if_neg hkey, hskip]
    exact ih hrest

/-- Two members among others, in the order in which they come. -/
theorem split_of_perm {a b : String × Json} {extra members : List (String × Json)}
    (h : members.Perm ([a, b] ++ extra)) : ∃ before between after,
      (members = before ++ a :: (between ++ b :: after) ∨
        members = before ++ b :: (between ++ a :: after)) ∧
      ∀ m ∈ before ++ (between ++ after), m ∈ extra := by
  obtain ⟨s, t, rfl⟩ := List.append_of_mem (h.mem_iff.2 List.mem_cons_self)
  have hst : (s ++ t).Perm (b :: extra) := (List.perm_middle.symm.trans h).cons_inv
  rcases List.mem_append.1 (hst.mem_iff.2 List.mem_cons_self) with hb | hb
  · obtain ⟨u, v, rfl⟩ := List.append_of_mem hb
    have hrest : (u ++ (v ++ t)).Perm extra := by
      rw [List.append_assoc, List.cons_append] at hst
      exact (List.perm_middle.symm.trans hst).cons_inv
    exact ⟨u, v, t, .inr (by simp), fun m hm => hrest.mem_iff.1 hm⟩
  · obtain ⟨u, v, rfl⟩ := List.append_of_mem hb
    have hrest : (s ++ (u ++ v)).Perm extra := by
      rw [← List.append_assoc] at hst ⊢
      exact (List.perm_middle.symm.trans hst).cons_inv
    exact ⟨s, u, v, .inl rfl, fun m hm => hrest.mem_iff.1 hm⟩

end PlayerWatch.Json
