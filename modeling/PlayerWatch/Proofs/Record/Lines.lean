import PlayerWatch.Record

/-!
# What a record has from its lines

A line is split where its separator first stands (`field?_eq_some_iff`), and a record has for each key
what the last line with that key gives (`get?_ofLines_eq_some_iff`). So lines of other keys may stand
anywhere between, and a line may be left out if it has no key or if a later line has the same
(`lastValue_filter`, `lastValue_leave_out`).
-/

namespace PlayerWatch

/-! ### Splitting at the first separator -/

namespace Text

variable {sep cs before after : List Char}

/-- A text in which the separator occurs is split there or before. -/
theorem exists_splitAtFirst (hsep : sep ≠ []) (front back : List Char) :
    ∃ parts, splitAtFirst sep (front ++ sep ++ back) = some parts ∧
      parts.1.length ≤ front.length := by
  induction front with
  | nil =>
    obtain ⟨c, sep, rfl⟩ := List.exists_cons_of_ne_nil hsep
    have hlead : dropLead? (c :: sep) (c :: (sep ++ back)) = some back := dropLead?_eq_some_iff.2 rfl
    rw [List.nil_append, List.cons_append, splitAtFirst, hlead]
    exact ⟨_, rfl, Nat.le_refl _⟩
  | cons c front ih =>
    obtain ⟨parts, hsplit, hlength⟩ := ih
    rw [List.cons_append, List.cons_append, splitAtFirst]
    split
    · exact ⟨_, rfl, Nat.zero_le _⟩
    · rw [hsplit]
      exact ⟨_, rfl, Nat.succ_le_succ hlength⟩

/-- **A text is split where the separator first occurs.** -/
theorem splitAtFirst_eq_some_iff (hsep : sep ≠ []) :
    splitAtFirst sep cs = some (before, after) ↔
      cs = before ++ sep ++ after ∧
        ∀ front back, cs = front ++ sep ++ back → before.length ≤ front.length := by
  constructor
  · intro h
    refine ⟨eq_of_splitAtFirst h, ?_⟩
    rintro front back rfl
    obtain ⟨parts, hsplit, hlength⟩ := exists_splitAtFirst hsep front back
    cases h.symm.trans hsplit
    exact hlength
  · rintro ⟨rfl, hfirst⟩
    obtain ⟨⟨b, a⟩, hsplit, hlength⟩ := exists_splitAtFirst hsep before after
    -- Two occurrences, neither of them before the other, are one.
    have hparts := eq_of_splitAtFirst hsplit
    have hsame : before.length = b.length := Nat.le_antisymm (hfirst b a hparts) hlength
    rw [hsplit]
    rw [List.append_assoc, List.append_assoc] at hparts
    obtain ⟨rfl, hrest⟩ := List.append_inj hparts hsame
    rw [List.append_cancel_left hrest]

end Text

/-! ### Keys and values of lines -/

/-- A line splits into a key and a value: a separator stands between them, and none before. -/
def SplitsInto (line key value : String) : Prop :=
  line = key ++ ": " ++ value ∧
    ∀ before after : String, line = before ++ ": " ++ after → key.length ≤ before.length

/-- A line gives some value for a key. -/
def HasKey (key line : String) : Prop := ∃ value, SplitsInto line key value

theorem eq_append_separator_iff {line before after : String} :
    line = before ++ ": " ++ after ↔ line.toList = before.toList ++ separator ++ after.toList := by
  rw [← String.toList_inj, String.toList_append, String.toList_append]
  rfl

theorem field?_eq_some_iff {line key value : String} :
    field? line = some (key, value) ↔ SplitsInto line key value := by
  have hfield : field? line = some (key, value) ↔
      Text.splitAtFirst separator line.toList = some (key.toList, value.toList) := by
    rw [field?, Option.map_eq_some_iff]
    constructor
    · rintro ⟨⟨before, after⟩, hsplit, hfields⟩
      obtain ⟨rfl, rfl⟩ := Prod.mk.inj hfields
      rw [hsplit, String.toList_ofList, String.toList_ofList]
    · intro hsplit
      exact ⟨_, hsplit, by rw [String.ofList_toList, String.ofList_toList]⟩
  rw [hfield, Text.splitAtFirst_eq_some_iff (by decide), SplitsInto, eq_append_separator_iff]
  refine and_congr_right fun _ => ?_
  constructor
  · intro h before after hline
    have hfirst := h before.toList after.toList (eq_append_separator_iff.1 hline)
    rwa [String.length_toList, String.length_toList] at hfirst
  · intro h front back hline
    have hfirst := h (String.ofList front) (String.ofList back)
    simp only [eq_append_separator_iff, String.toList_ofList, String.length_ofList] at hfirst
    rw [String.length_toList]
    exact hfirst hline

theorem hasKey_iff {key line : String} :
    HasKey key line ↔ ((field? line).any fun f => f.1 = key) = true := by
  simp only [HasKey, ← field?_eq_some_iff, Option.any_eq_true, decide_eq_true_eq]
  constructor
  · rintro ⟨value, hfield⟩
    exact ⟨(key, value), hfield, rfl⟩
  · rintro ⟨⟨k, value⟩, hfield, rfl⟩
    exact ⟨value, hfield⟩

instance (key line : String) : Decidable (HasKey key line) := decidable_of_iff _ hasKey_iff.symm

/-- A line has one key. -/
theorem HasKey.eq {key key' line : String} (h : HasKey key line) (h' : HasKey key' line) :
    key = key' := by
  obtain ⟨value, hline⟩ := h
  obtain ⟨value', hline'⟩ := h'
  have hsame := (field?_eq_some_iff.2 hline).symm.trans (field?_eq_some_iff.2 hline')
  exact (Prod.mk.inj (Option.some.inj hsame)).1

/-- The line that is written for a key and a value. -/
def fieldLine (f : String × String) : String := f.1 ++ ": " ++ f.2

/-- A line that is written for a key without a colon has that key, whatever the value. -/
theorem field?_fieldLine {f : String × String} (hkey : ':' ∉ f.1.toList) :
    field? (fieldLine f) = some f := by
  refine field?_eq_some_iff.2 ⟨rfl, fun before after hline => ?_⟩
  rw [fieldLine, ← String.toList_inj] at hline
  simp only [String.toList_append] at hline
  rw [← String.length_toList, ← String.length_toList]
  -- A separator that stood before would have its colon in the key.
  refine Nat.le_of_not_lt fun hlt => hkey ?_
  have hcolon : (f.1.toList ++ ": ".toList ++ f.2.toList)[before.toList.length]? = some ':' := by
    rw [hline, List.append_assoc, List.getElem?_append_right (Nat.le_refl _), Nat.sub_self]
    rfl
  rw [List.append_assoc, List.getElem?_append_left hlt] at hcolon
  exact List.mem_of_getElem? hcolon

theorem splitsInto_fieldLine_iff {f : String × String} (hkey : ':' ∉ f.1.toList)
    {key value : String} : SplitsInto (fieldLine f) key value ↔ f = (key, value) := by
  rw [← field?_eq_some_iff, field?_fieldLine hkey, Option.some.injEq]

theorem hasKey_fieldLine_iff {f : String × String} (hkey : ':' ∉ f.1.toList) {key : String} :
    HasKey key (fieldLine f) ↔ f.1 = key := by
  rw [hasKey_iff, field?_fieldLine hkey]
  simp

/-! ### The last line with a key -/

/-- The last of the lines with a key gives it the value. -/
def LastValue (lines : List String) (key value : String) : Prop :=
  ∃ before line after, lines = before ++ line :: after ∧ SplitsInto line key value ∧
    ∀ later ∈ after, ¬ HasKey key later

theorem not_lastValue_nil (key value : String) : ¬ LastValue [] key value := by
  rintro ⟨before, line, after, hlines, -⟩
  exact absurd hlines (by simp)

theorem lastValue_cons {line : String} {lines : List String} {key value : String} :
    LastValue (line :: lines) key value ↔
      LastValue lines key value ∨
        (∀ later ∈ lines, ¬ HasKey key later) ∧ SplitsInto line key value := by
  constructor
  · rintro ⟨before, last, after, hlines, hlast, hafter⟩
    cases before with
    | nil =>
      obtain ⟨rfl, rfl⟩ := List.cons.inj hlines
      exact .inr ⟨hafter, hlast⟩
    | cons first before => exact .inl ⟨before, last, after, (List.cons.inj hlines).2, hlast, hafter⟩
  · rintro (⟨before, last, after, rfl, hlast, hafter⟩ | ⟨hlater, hline⟩)
    · exact ⟨line :: before, last, after, rfl, hlast, hafter⟩
    · exact ⟨[], line, lines, rfl, hline, hlater⟩

/-- Lines in front count for a key only if none of the others has it. -/
theorem lastValue_append {lines more : List String} {key value : String} :
    LastValue (lines ++ more) key value ↔
      LastValue more key value ∨
        (∀ later ∈ more, ¬ HasKey key later) ∧ LastValue lines key value := by
  induction lines with
  | nil => simp [not_lastValue_nil]
  | cons line lines ih =>
    rw [List.cons_append, lastValue_cons, ih, lastValue_cons, List.forall_mem_append]
    grind

namespace Record

/-- The fields of lines go into a record one after the other. -/
theorem get?_foldl_insert (lines : List String) (r : Record) (key value : String) :
    ((lines.filterMap field?).foldl (fun r f => r.insert f.1 f.2) r).get? key = some value ↔
      LastValue lines key value ∨
        (∀ line ∈ lines, ¬ HasKey key line) ∧ r.get? key = some value := by
  induction lines generalizing r with
  | nil => simp [not_lastValue_nil]
  | cons line lines ih =>
    rw [lastValue_cons, List.forall_mem_cons]
    cases hfield : field? line with
    | none =>
      have hnone (k v : String) : ¬ SplitsInto line k v := by
        rw [← field?_eq_some_iff, hfield]
        exact nofun
      rw [List.filterMap_cons_none hfield, ih]
      simp [HasKey, hnone]
    | some f =>
      obtain ⟨k, v⟩ := f
      have hline (k' v' : String) : SplitsInto line k' v' ↔ k = k' ∧ v = v' := by
        rw [← field?_eq_some_iff, hfield, Option.some.injEq, Prod.mk.injEq]
      rw [List.filterMap_cons_some hfield, List.foldl_cons, ih, get?_insert]
      by_cases hkey : key = k
      · subst hkey
        simp [HasKey, hline]
      · simp [HasKey, hline, hkey, Ne.symm hkey]

/-- **The last line with a key counts.** -/
theorem get?_ofLines_eq_some_iff {lines : List String} {key value : String} :
    (ofLines lines).get? key = some value ↔ LastValue lines key value := by
  rw [ofLines, ofFields, get?_foldl_insert]
  simp [get?]

/-- A record of keys that differ has what is listed in it. -/
theorem get?_eq_some_iff {fields : List (String × String)} (h : (fields.map Prod.fst).Nodup)
    {key value : String} :
    (Record.mk fields).get? key = some value ↔ (key, value) ∈ fields := by
  induction fields with
  | nil => simp [get?]
  | cons f fields ih =>
    rw [List.map_cons, List.nodup_cons] at h
    have ih := ih h.2
    simp only [get?] at ih ⊢
    rw [List.lookup_cons, List.mem_cons]
    by_cases hkey : key = f.1
    · subst hkey
      have hnone : (f.1, value) ∉ fields := fun hmem => h.1 (List.mem_map.2 ⟨_, hmem, rfl⟩)
      simp [hnone, Prod.ext_iff, eq_comm]
    · simp [hkey, beq_eq_false_iff_ne.2 hkey, ih, Prod.ext_iff]

end Record

/-! ### Lines that may be left out or moved -/

/-- What counts for a key is told by the lines that have it. -/
theorem lastValue_filter {lines : List String} {key value : String} :
    LastValue (lines.filter (HasKey key)) key value ↔ LastValue lines key value := by
  induction lines with
  | nil => rfl
  | cons line lines ih =>
    rw [List.filter_cons]
    by_cases hline : HasKey key line
    · simp [lastValue_cons, ih, hline]
    · have hnone : ¬ SplitsInto line key value := fun h => hline ⟨value, h⟩
      simp [lastValue_cons, ih, hline, hnone]

/-- A line is not missed if it has no key, or if a later line has the same. -/
theorem lastValue_leave_out {before after : List String} {line key value : String}
    (h : HasKey key line → ∃ later ∈ after, HasKey key later) :
    LastValue (before ++ line :: after) key value ↔ LastValue (before ++ after) key value := by
  have hline : (∀ later ∈ after, ¬ HasKey key later) → ¬ HasKey key line := by
    intro hafter hkey
    obtain ⟨later, hmem, hlater⟩ := h hkey
    exact hafter later hmem hlater
  have hnone : (∀ later ∈ after, ¬ HasKey key later) → ¬ SplitsInto line key value :=
    fun hafter hsplit => hline hafter ⟨value, hsplit⟩
  rw [lastValue_append, lastValue_append, lastValue_cons, List.forall_mem_cons]
  grind

/-- Lines that are written for some keys have no other. -/
theorem forall_not_hasKey_iff {fields : List (String × String)}
    (hkeys : ∀ f ∈ fields, ':' ∉ f.1.toList) {key : String} :
    (∀ line ∈ fields.map fieldLine, ¬ HasKey key line) ↔ key ∉ fields.map Prod.fst := by
  simp only [List.mem_map, not_exists, not_and, forall_exists_index, and_imp,
    forall_apply_eq_imp_iff₂]
  refine forall₂_congr fun f hf => ?_
  rw [hasKey_fieldLine_iff (hkeys f hf)]

/-- Lines that are written for keys that differ give each its value. -/
theorem lastValue_fieldLines_iff {fields : List (String × String)}
    (hnodup : (fields.map Prod.fst).Nodup) (hkeys : ∀ f ∈ fields, ':' ∉ f.1.toList)
    {key value : String} : LastValue (fields.map fieldLine) key value ↔ (key, value) ∈ fields := by
  induction fields with
  | nil => simp [not_lastValue_nil]
  | cons f fields ih =>
    rw [List.map_cons, List.nodup_cons] at hnodup
    rw [List.forall_mem_cons] at hkeys
    rw [List.map_cons, lastValue_cons, ih hnodup.2 hkeys.2, forall_not_hasKey_iff hkeys.2,
      splitsInto_fieldLine_iff hkeys.1, List.mem_cons]
    constructor
    · rintro (hmem | ⟨-, rfl⟩)
      · exact .inr hmem
      · exact .inl rfl
    · rintro (rfl | hmem)
      · exact .inr ⟨hnodup.1, rfl⟩
      · exact .inl hmem

end PlayerWatch
