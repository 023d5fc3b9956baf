import PlayerWatch.Proofs.Settings.Overlay

/-!
# Ways that part

Laying a value over a tree changes what is at the end of its way. Changes under two names do not disturb
each other, nor do changes of two items of a list, and two changes at one place are one. So two values
whose ways part somewhere are laid in any order (`putPath_comm`).
-/

namespace PlayerWatch.Settings

open Text

namespace Node

/-! ### Changes at two places -/

theorem insertEntry_comm_of_lt {key key' : String} (h : key < key') (value value' : Node)
    (entries : List (String × Node)) :
    insertEntry key value (insertEntry key' value' entries) =
      insertEntry key' value' (insertEntry key value entries) := by
  have hback : ¬key' < key := String.lt_asymm h
  induction entries with
  | nil => simp [insertEntry, h, hback]
  | cons e rest ih =>
    obtain ⟨k, old⟩ := e
    by_cases hk : key < k
    · by_cases hk' : key' < k <;> simp [insertEntry, h, hback, hk, hk']
    · have hk' : ¬key' < k := fun hlt => hk (String.lt_trans h hlt)
      simp [insertEntry, hk, hk', ih]

theorem insertEntry_comm {key key' : String} (h : key ≠ key') (value value' : Node)
    (entries : List (String × Node)) :
    insertEntry key value (insertEntry key' value' entries) =
      insertEntry key' value' (insertEntry key value entries) := by
  by_cases hlt : key < key'
  · exact insertEntry_comm_of_lt hlt value value' entries
  · have hgt : key' < key := by
      by_cases hgt : key' < key
      · exact hgt
      · exact absurd (String.le_antisymm (String.not_lt.1 hgt) (String.not_lt.1 hlt)) h
    exact (insertEntry_comm_of_lt hgt value' value entries).symm

theorem map_replace_insertEntry {key key' : String} (h : key ≠ key') (value value' : Node)
    (entries : List (String × Node)) :
    (insertEntry key value entries).map (replace key' value') =
      insertEntry key value (entries.map (replace key' value')) := by
  induction entries with
  | nil => rw [insertEntry, List.map_cons, replace_of_ne h, List.map_nil, insertEntry]
  | cons e rest ih =>
    obtain ⟨k, old⟩ := e
    obtain ⟨new, hnew⟩ : ∃ new, replace key' value' (k, old) = (k, new) := by
      by_cases hk : k = key'
      · exact ⟨value', hk ▸ replace_self _ _ _⟩
      · exact ⟨old, replace_of_ne hk _ _⟩
    rw [insertEntry, List.map_cons, hnew, insertEntry]
    split
    · rw [List.map_cons, replace_of_ne h, List.map_cons, hnew]
    · rw [List.map_cons, hnew, ih]

theorem map_replace_comm {key key' : String} (h : key ≠ key') (value value' : Node)
    (entries : List (String × Node)) :
    (entries.map (replace key value)).map (replace key' value') =
      (entries.map (replace key' value')).map (replace key value) := by
  rw [List.map_map, List.map_map]
  congr 1
  funext ⟨k, old⟩
  simp only [Function.comp_apply]
  by_cases hk : k = key
  · subst hk
    rw [replace_self, replace_of_ne h, replace_of_ne h, replace_self]
  · rw [replace_of_ne hk]
    by_cases hk' : k = key'
    · subst hk'
      rw [replace_self, replace_of_ne (Ne.symm h)]
    · rw [replace_of_ne hk', replace_of_ne hk]

theorem map_replace_of_absent {key : String} {entries : List (String × Node)}
    (h : entries.lookup key = none) (value : Node) : entries.map (replace key value) = entries := by
  induction entries with
  | nil => rfl
  | cons e rest ih =>
    obtain ⟨k, old⟩ := e
    rw [lookup_cons_eq_ite] at h
    by_cases hk : k = key
    · rw [if_pos hk.symm] at h
      cases h
    · rw [if_neg (Ne.symm hk)] at h
      rw [List.map_cons, replace_of_ne hk, ih h]

theorem map_replace_insertEntry_self {key : String} {entries : List (String × Node)}
    (h : entries.lookup key = none) (old value : Node) :
    (insertEntry key old entries).map (replace key value) = insertEntry key value entries := by
  induction entries with
  | nil => rw [insertEntry, List.map_cons, replace_self, List.map_nil, insertEntry]
  | cons e rest ih =>
    obtain ⟨k, other⟩ := e
    have hall := map_replace_of_absent h value
    rw [lookup_cons_eq_ite] at h
    have hk : key ≠ k := by
      intro heq
      rw [if_pos heq] at h
      cases h
    rw [if_neg hk] at h
    rw [insertEntry, insertEntry]
    split
    · rw [List.map_cons, replace_self, hall]
    · rw [List.map_cons, replace_of_ne (Ne.symm hk), ih h]

theorem adjustEntry_of_none {key : String} {f : Option Node → Node} {entries : List (String × Node)}
    (h : entries.lookup key = none) : adjustEntry key f entries = insertEntry key (f none) entries := by
  rw [adjustEntry, h]

theorem adjustEntry_of_some {key : String} {f : Option Node → Node} {entries : List (String × Node)}
    {old : Node} (h : entries.lookup key = some old) :
    adjustEntry key f entries = entries.map (replace key (f (some old))) := by
  rw [adjustEntry, h]

/-- Changes under two keys do not disturb each other. -/
theorem adjustEntry_comm {key key' : String} (h : key ≠ key') (f g : Option Node → Node)
    (entries : List (String × Node)) :
    adjustEntry key f (adjustEntry key' g entries) =
      adjustEntry key' g (adjustEntry key f entries) := by
  have hlookup : (adjustEntry key' g entries).lookup key = entries.lookup key := by
    rw [lookup_adjustEntry, if_neg h]
  have hlookup' : (adjustEntry key f entries).lookup key' = entries.lookup key' := by
    rw [lookup_adjustEntry, if_neg (Ne.symm h)]
  cases hold : entries.lookup key with
  | none =>
    rw [hold] at hlookup
    rw [adjustEntry_of_none hlookup, adjustEntry_of_none hold]
    cases hold' : entries.lookup key' with
    | none =>
      rw [adjustEntry_of_none hold, hold'] at hlookup'
      rw [adjustEntry_of_none hold', adjustEntry_of_none hlookup', insertEntry_comm h]
    | some old' =>
      rw [adjustEntry_of_none hold, hold'] at hlookup'
      rw [adjustEntry_of_some hold', adjustEntry_of_some hlookup', map_replace_insertEntry h]
  | some old =>
    rw [hold] at hlookup
    rw [adjustEntry_of_some hlookup, adjustEntry_of_some hold]
    cases hold' : entries.lookup key' with
    | none =>
      rw [adjustEntry_of_some hold, hold'] at hlookup'
      rw [adjustEntry_of_none hold', adjustEntry_of_none hlookup',
        map_replace_insertEntry (Ne.symm h)]
    | some old' =>
      rw [adjustEntry_of_some hold, hold'] at hlookup'
      rw [adjustEntry_of_some hold', adjustEntry_of_some hlookup', map_replace_comm h]

/-- Two changes under one key are one. -/
theorem adjustEntry_adjustEntry (key : String) (f g : Option Node → Node)
    (entries : List (String × Node)) :
    adjustEntry key g (adjustEntry key f entries) =
      adjustEntry key (fun old => g (some (f old))) entries := by
  have hlookup : (adjustEntry key f entries).lookup key = some (f (entries.lookup key)) := by
    rw [lookup_adjustEntry, if_pos rfl]
  rw [adjustEntry_of_some hlookup]
  cases hold : entries.lookup key with
  | none =>
    rw [adjustEntry_of_none hold, adjustEntry_of_none hold, map_replace_insertEntry_self hold]
  | some old =>
    rw [adjustEntry_of_some hold, adjustEntry_of_some hold, List.map_map]
    congr 1
    funext ⟨k, value⟩
    simp only [Function.comp_apply]
    by_cases hk : k = key
    · subst hk
      rw [replace_self, replace_self, replace_self]
    · rw [replace_of_ne hk, replace_of_ne hk]

theorem adjust_comm {key key' : String} (h : key ≠ key') (f g : Option Node → Node) (root : Node) :
    (root.adjust key' g).adjust key f = (root.adjust key f).adjust key' g := by
  cases root with
  | table origin entries => exact congrArg (Node.table origin) (adjustEntry_comm h f g entries)
  | _ => exact congrArg (Node.table none) (adjustEntry_comm h f g [])

theorem adjust_adjust (key : String) (f g : Option Node → Node) (root : Node) :
    (root.adjust key f).adjust key g = root.adjust key fun old => g (some (f old)) := by
  cases root with
  | table origin entries => exact congrArg (Node.table origin) (adjustEntry_adjustEntry key f g entries)
  | _ => exact congrArg (Node.table none) (adjustEntry_adjustEntry key f g [])

/-! ### Items of a list -/

/-- A list that is filled up to a place. -/
def filled (i : Int) (items : List Node) : List Node :=
  let (n, missing) := place i items.length
  let items := List.replicate missing nil ++ items
  items ++ List.replicate (n + 1 - items.length) nil

theorem adjustAt_eq (i : Int) (f : Node → Node) (items : List Node) :
    adjustAt i f items = (filled i items).modify (place i items.length).1 f := rfl

theorem place_cases (i : Int) (length : Nat) :
    (0 ≤ i ∧ place i length = (i.toNat, 0)) ∨
      (i < 0 ∧ i.natAbs ≤ length ∧ place i length = (length - i.natAbs, 0)) ∨
      (i < 0 ∧ length < i.natAbs ∧ place i length = (0, i.natAbs - length)) := by
  unfold place
  split
  · next h => exact .inl ⟨h, rfl⟩
  · next h =>
    split
    · next hfits => exact .inr (.inl ⟨Int.not_le.1 h, hfits, rfl⟩)
    · next hlong => exact .inr (.inr ⟨Int.not_le.1 h, Nat.lt_of_not_le hlong, rfl⟩)

theorem length_filled (i : Int) (items : List Node) :
    (filled i items).length =
      max ((place i items.length).2 + items.length) ((place i items.length).1 + 1) := by
  simp only [filled, List.length_append, List.length_replicate]
  omega

/-- A list that is filled up to a place has an item there. -/
theorem place_filled (i : Int) (items : List Node) :
    place i (filled i items).length = ((place i items.length).1, 0) ∧
      (place i items.length).1 < (filled i items).length := by
  rw [length_filled]
  refine ⟨?_, by omega⟩
  obtain ⟨hi, hplace⟩ | ⟨hi, hfits, hplace⟩ | ⟨hi, hlong, hplace⟩ := place_cases i items.length
  · rw [hplace, place, if_pos hi]
  · have hlength : max (0 + items.length) (items.length - i.natAbs + 1) = items.length := by omega
    rw [hplace, hlength, hplace]
  · have hlength : max (i.natAbs - items.length + items.length) (0 + 1) = i.natAbs := by omega
    rw [hplace, hlength, place, if_neg (Int.not_le.2 hi), if_pos (Nat.le_refl _), Nat.sub_self]

theorem filled_of_filled {i : Int} {items : List Node} {n : Nat}
    (h : place i items.length = (n, 0)) (hn : n < items.length) : filled i items = items := by
  have hlength : n + 1 - items.length = 0 := by omega
  rw [filled, h]
  simp [hlength]

/-- Two changes of one item are one. -/
theorem adjustItem_adjustItem (i : Int) (f g : Node → Node) (root : Node) :
    (root.adjustItem i f).adjustItem i g = root.adjustItem i fun old => g (f old) := by
  have hitems (items : List Node) :
      adjustAt i g (adjustAt i f items) = adjustAt i (fun old => g (f old)) items := by
    obtain ⟨hplace, hbound⟩ := place_filled i items
    rw [adjustAt_eq, adjustAt_eq i f, adjustAt_eq, filled_of_filled, List.length_modify, hplace,
      List.modify_modify_eq]
    · rfl
    · rw [List.length_modify, hplace]
    · rwa [List.length_modify]
  cases root with
  | list origin items => exact congrArg (Node.list origin) (hitems items)
  | _ => exact congrArg (Node.list none) (hitems [])

theorem getElem?_adjustAt {i : Int} (hi : 0 ≤ i) (f : Node → Node) (items : List Node) (n : Nat) :
    (adjustAt i f items)[n]? =
      if n < i.toNat then some (items[n]?.getD nil)
      else if n = i.toNat then some (f (items[n]?.getD nil))
      else items[n]? := by
  rw [adjustAt_eq, filled, place, if_pos hi]
  simp only [List.replicate_zero, List.nil_append, List.getElem?_modify]
  rw [List.getElem?_append, List.getElem?_replicate]
  grind

/-- Changes of two items do not disturb each other. -/
theorem adjustItem_comm {i j : Int} (h : i ≠ j) (hi : 0 ≤ i) (hj : 0 ≤ j) (f g : Node → Node)
    (root : Node) : (root.adjustItem j g).adjustItem i f = (root.adjustItem i f).adjustItem j g := by
  have hitems (items : List Node) :
      adjustAt i f (adjustAt j g items) = adjustAt j g (adjustAt i f items) := by
    apply List.ext_getElem?
    intro n
    have hne : i.toNat ≠ j.toNat := by omega
    rw [getElem?_adjustAt hi, getElem?_adjustAt hj, getElem?_adjustAt hj, getElem?_adjustAt hi]
    grind
  cases root with
  | list origin items => exact congrArg (Node.list origin) (hitems items)
  | _ => exact congrArg (Node.list none) (hitems [])

/-! ### Ways that part -/

/-- Whether two ways part: at different names, or at different places of a list. Places that are counted
from the end may be the same ones as others. -/
def apart : List Step → List Step → Bool
  | .child k :: p, .child l :: q => k ≠ l || apart p q
  | .item i :: p, .item j :: q => if i = j then apart p q else 0 ≤ i && 0 ≤ j
  | _, _ => false

theorem apart_comm (p q : List Step) : apart p q = apart q p := by
  induction p generalizing q with
  | nil => cases q <;> simp [apart]
  | cons step p ih =>
    cases q with
    | nil => cases step <;> rfl
    | cons step' q =>
      cases step <;> cases step'
      case child.child k l => simp only [apart, ih q, ne_comm]
      case item.item i j => simp only [apart, ih q, eq_comm, Bool.and_comm]
      all_goals rfl

theorem ne_nil_of_apart {p q : List Step} (h : apart p q = true) : p ≠ [] ∧ q ≠ [] := by
  cases p <;> cases q <;> simp_all [apart]

theorem putPath_item (root : Node) (i : Int) {path : List Step} (h : path ≠ []) (value : Node) :
    root.putPath (.item i :: path) value = root.adjustItem i fun old => old.putPath path value := by
  cases path with
  | nil => exact absurd rfl h
  | cons step path => rw [putPath]; exact List.cons_ne_nil step path

/-- Laying a value below an item changes that item only. -/
theorem exists_adjustItem (i : Int) (path : List Step) (value : Node) :
    ∃ f, ∀ root : Node, root.putPath (.item i :: path) value = root.adjustItem i f := by
  cases path with
  | nil => exact ⟨fun _ => value, fun root => by rw [putPath]⟩
  | cons step path =>
    exact ⟨fun old => old.putPath (step :: path) value,
      fun root => putPath_item root i (List.cons_ne_nil step path) value⟩

theorem grafted_of_ne_nil {path : List Step} (h : path ≠ []) (value : Node) (old : Option Node) :
    grafted path value old = (old.getD nil).putPath path value := by
  cases path with
  | nil => exact absurd rfl h
  | cons step path => rfl

/-- **Values whose ways part are laid in any order.** -/
theorem putPath_comm {p q : List Step} (h : apart p q = true) (root v w : Node) :
    (root.putPath p v).putPath q w = (root.putPath q w).putPath p v := by
  induction p generalizing q root with
  | nil => exact absurd rfl (ne_nil_of_apart h).1
  | cons step p ih =>
    cases q with
    | nil => exact absurd rfl (ne_nil_of_apart h).2
    | cons step' q =>
      cases step with
      | child k =>
        cases step' with
        | item j => cases h
        | child l =>
          simp only [putPath_child]
          by_cases hkl : k = l
          · subst hkl
            have hrest : apart p q = true := by simpa [apart] using h
            obtain ⟨hp, hq⟩ := ne_nil_of_apart hrest
            rw [adjust_adjust, adjust_adjust]
            congr 1
            funext old
            simp only [grafted_of_ne_nil hp, grafted_of_ne_nil hq, Option.getD_some]
            exact ih hrest _
          · exact (adjust_comm hkl _ _ root).symm
      | item i =>
        cases step' with
        | child l => cases h
        | item j =>
          by_cases hij : i = j
          · subst hij
            have hrest : apart p q = true := by simpa [apart] using h
            obtain ⟨hp, hq⟩ := ne_nil_of_apart hrest
            rw [putPath_item _ _ hp, putPath_item _ _ hq, putPath_item _ _ hq, putPath_item _ _ hp,
              adjustItem_adjustItem, adjustItem_adjustItem]
            congr 1
            funext old
            exact ih hrest old
          · have hpos : 0 ≤ i ∧ 0 ≤ j := by simpa [apart, hij] using h
            obtain ⟨f, hf⟩ := exists_adjustItem i p v
            obtain ⟨g, hg⟩ := exists_adjustItem j q w
            rw [hf, hg, hg, hf]
            exact (adjustItem_comm hij hpos.1 hpos.2 f g root).symm

end Node

end PlayerWatch.Settings
