import PlayerWatch.Settings.Load

/-!
# Values laid over a tree

What stands under a key after a value has been laid over a tree. Laying a value changes what is under
the first name of its path and nothing else (`child?_putPath`), and what it leaves there depends only
on what was there before (`grafted`). So a source that leads to one key can be told apart from what is
under all others: two trees that agree off a key still do after sources that differ only there
(`AgreeOff.overlay`).
-/

namespace PlayerWatch.Settings

open Text

namespace Node

/-! ### One entry -/

/-- What is found under a key when an entry stands in front. -/
theorem lookup_cons_eq_ite {α : Type} (k key : String) (value : α) (entries : List (String × α)) :
    ((key, value) :: entries).lookup k = if k = key then some value else entries.lookup k := by
  rw [List.lookup_cons]
  by_cases hk : k = key
  · rw [if_pos hk, beq_iff_eq.2 hk]
  · rw [if_neg hk, beq_eq_false_iff_ne.2 hk]

/-- Two entries in front may change places if their keys differ. -/
theorem lookup_swap {key key' : String} (h : key ≠ key') (k : String) (value value' : Node)
    (entries : List (String × Node)) :
    ((key, value) :: (key', value') :: entries).lookup k =
      ((key', value') :: (key, value) :: entries).lookup k := by
  simp only [lookup_cons_eq_ite]
  by_cases hk : k = key
  · rw [if_pos hk, if_neg (hk ▸ h), if_pos hk]
  · rw [if_neg hk, if_neg hk]

/-- A new entry is found wherever its place is. -/
theorem lookup_insertEntry {key : String} {entries : List (String × Node)}
    (hnew : entries.lookup key = none) (k : String) (value : Node) :
    (insertEntry key value entries).lookup k = ((key, value) :: entries).lookup k := by
  induction entries with
  | nil => rfl
  | cons e rest ih =>
    obtain ⟨name, other⟩ := e
    rw [lookup_cons_eq_ite] at hnew
    have hname : key ≠ name := by
      rintro rfl
      simp at hnew
    rw [if_neg hname] at hnew
    rw [insertEntry]
    split
    · rfl
    · rw [lookup_swap hname, lookup_cons_eq_ite, ih hnew, ← lookup_cons_eq_ite]

theorem replace_self (key : String) (value old : Node) :
    replace key value (key, old) = (key, value) := if_pos rfl

theorem replace_of_ne {key k : String} (h : k ≠ key) (value old : Node) :
    replace key value (k, old) = (k, old) := if_neg h

theorem lookup_map_replace (key k : String) (value : Node) (entries : List (String × Node)) :
    (entries.map (replace key value)).lookup k =
      if k = key then (entries.lookup key).map fun _ => value else entries.lookup k := by
  induction entries with
  | nil => split <;> rfl
  | cons e rest ih =>
    obtain ⟨name, other⟩ := e
    rw [List.map_cons, lookup_cons_eq_ite key, lookup_cons_eq_ite k]
    by_cases hname : name = key
    · subst hname
      rw [replace_self, lookup_cons_eq_ite, ih, if_pos rfl]
      split <;> rfl
    · rw [replace_of_ne hname, lookup_cons_eq_ite, ih, if_neg (Ne.symm hname)]
      by_cases hk : k = key
      · rw [if_neg (hk ▸ Ne.symm hname), if_pos hk, if_pos hk]
      · rw [if_neg hk, if_neg hk]

theorem lookup_adjustEntry (key k : String) (f : Option Node → Node)
    (entries : List (String × Node)) :
    (adjustEntry key f entries).lookup k =
      if k = key then some (f (entries.lookup key)) else entries.lookup k := by
  unfold adjustEntry
  cases hold : entries.lookup key with
  | none => rw [lookup_insertEntry hold, lookup_cons_eq_ite]
  | some old => rw [lookup_map_replace, hold, Option.map_some]

/-- A change under a key leaves a table. -/
theorem adjust_eq_table (root : Node) (key : String) (f : Option Node → Node) :
    ∃ origin entries, root.adjust key f = .table origin entries := by
  cases root with
  | table origin entries => exact ⟨origin, _, rfl⟩
  | _ => exact ⟨none, _, rfl⟩

theorem child?_adjust (root : Node) (key k : String) (f : Option Node → Node) :
    (root.adjust key f).child? k =
      if k = key then some (f (root.child? key)) else root.child? k := by
  cases root with
  | table origin entries => exact lookup_adjustEntry key k f entries
  | _ => exact lookup_adjustEntry key k f []

/-- What a value makes of what was there. -/
def merged : Node → Option Node → Node
  | .table _ incoming, old => putAll incoming (old.getD empty)
  | value, _ => value

theorem put_eq_adjust (key : String) (value root : Node) :
    put key value root = root.adjust key (merged value) := by
  cases value with
  | _ => rw [put]; rfl

theorem child?_put (key k : String) (value root : Node) :
    (put key value root).child? k =
      if k = key then some (merged value (root.child? key)) else root.child? k := by
  rw [put_eq_adjust, child?_adjust]

/-! ### Entries of a table -/

/-- Entries under other keys leave what is under a key as it is. -/
theorem child?_putAll_of_absent {entries : List (String × Node)} {name : String}
    (habsent : ∀ e ∈ entries, lower e.1 ≠ name) (root : Node) :
    (putAll entries root).child? name = root.child? name := by
  induction entries generalizing root with
  | nil => rw [putAll]
  | cons e rest ih =>
    have hhead : name ≠ lower e.1 := (habsent e List.mem_cons_self).symm
    rw [putAll, ih fun e he => habsent e (List.mem_cons_of_mem _ he), child?_put, if_neg hhead]

/-! ### Paths -/

/-- What a value makes of what was under the first name of its path. -/
def grafted (path : List Step) (value : Node) (old : Option Node) : Node :=
  match path with
  | [] => merged value old
  | path => putPath (old.getD nil) path value

theorem putPath_child (root : Node) (key : String) (path : List Step) (value : Node) :
    root.putPath (.child key :: path) value = root.adjust key (grafted path value) := by
  cases path with
  | nil => exact put_eq_adjust key value root
  | cons step path =>
    rw [putPath]
    · rfl
    · exact List.cons_ne_nil step path

/-- **Laying a value over a tree changes what is under the first name of its path and nothing else.** -/
theorem child?_putPath (root : Node) (key k : String) (path : List Step) (value : Node) :
    (root.putPath (.child key :: path) value).child? k =
      if k = key then some (grafted path value (root.child? key)) else root.child? k := by
  rw [putPath_child, child?_adjust]

/-- What is under a name in a section. -/
def setting? (root : Node) (part name : String) : Option Node :=
  (root.child? part).bind (child? name)

/-- Nothing but a table stands under a key. -/
def IsSection (root : Node) (key : String) : Prop :=
  ∀ node, root.child? key = some node → ∃ origin entries, node = .table origin entries

/-- Where a value has been put in a section there is a table. -/
theorem isSection_putPath (root : Node) (part name : String) (value : Node) :
    (root.putPath [.child part, .child name] value).IsSection part := by
  intro node hnode
  rw [child?_putPath, if_pos rfl] at hnode
  obtain rfl := Option.some.inj hnode
  show ∃ origin entries, putPath ((root.child? part).getD nil) [.child name] value = _
  rw [putPath_child]
  exact adjust_eq_table _ _ _

theorem setting?_putPath (root : Node) (part name p n : String) (value : Node) :
    (root.putPath [.child part, .child name] value).setting? p n =
      if p = part ∧ n = name then some (merged value (root.setting? part name))
      else root.setting? p n := by
  unfold setting?
  rw [child?_putPath]
  by_cases hp : p = part
  · subst hp
    -- What is no section has no settings, just as the tree that stands for it.
    have hold : ((root.child? p).getD nil).child? n = (root.child? p).bind (child? n) := by
      cases root.child? p <;> rfl
    have hold' : ((root.child? p).getD nil).child? name = (root.child? p).bind (child? name) := by
      cases root.child? p <;> rfl
    have hgrafted : grafted [.child name] value (root.child? p) =
        put name value ((root.child? p).getD nil) := rfl
    rw [if_pos rfl, Option.bind_some, hgrafted, child?_put, hold, hold']
    simp
  · simp [hp]

/-! ### Sources -/

@[simp] theorem overlay_nil (root : Node) : root.overlay [] = root := by
  unfold overlay
  exact List.foldl_nil

theorem overlay_cons (root : Node) (entry : String × Node) (source : Source) :
    root.overlay (entry :: source) =
      (root.putPath (Path.ofKey (lower entry.1)) entry.2).overlay source := by
  unfold overlay
  exact List.foldl_cons ..

theorem overlay_append (root : Node) (source more : Source) :
    root.overlay (source ++ more) = (root.overlay source).overlay more :=
  List.foldl_append

end Node

/-- The tree of a load, layer by layer. -/
theorem layered_eq (file : Source) (env : Variables) (overrides : Overrides) :
    layered file env overrides =
      (((((Node.empty.overlay defaults).overlay file).overlay (Source.ofVariables env)).overlay
        (ofHostVariable env).1).overlay (ofPortVariable env).1).overlay overrides.source := by
  simp only [layered, layers, List.foldl_cons, List.foldl_nil]

/-- Every path begins with a name. -/
theorem Path.ofKey_eq_child (key : String) : ∃ name path, ofKey key = .child name :: path := by
  unfold ofKey
  cases hread : read? key with
  | none => exact ⟨key, [], rfl⟩
  | some steps =>
    simp only [read?] at hread
    split at hread
    · cases hread
    · obtain ⟨path, -, hsteps⟩ := Option.bind_eq_some_iff.1 hread
      obtain rfl := Option.some.inj hsteps
      exact ⟨_, path, rfl⟩

theorem Path.ofKey_ne_nil (key : String) : ofKey key ≠ [] := by
  obtain ⟨name, path, h⟩ := ofKey_eq_child key
  rw [h]
  exact List.cons_ne_nil _ _

/-- Whether the path that a name stands for begins at a key. -/
def Source.leadsTo (key name : String) : Bool :=
  (Path.ofKey (lower name)).head? = some (.child key)

namespace Node

variable {key : String} {r s t : Node}

/-- The two trees have the same under all keys but one. -/
def AgreeOff (key : String) (r s : Node) : Prop := ∀ k, k ≠ key → r.child? k = s.child? k

namespace AgreeOff

theorem refl (key : String) (r : Node) : AgreeOff key r r := fun _ _ => rfl

theorem symm (h : AgreeOff key r s) : AgreeOff key s r := fun k hk => (h k hk).symm

theorem trans (h : AgreeOff key r s) (h' : AgreeOff key s t) : AgreeOff key r t :=
  fun k hk => (h k hk).trans (h' k hk)

/-- A value that is laid at the key makes no difference. -/
theorem of_leadsTo {name : String} (h : Source.leadsTo key name) (r value : Node) :
    AgreeOff key (r.putPath (Path.ofKey (lower name)) value) r := by
  intro k hk
  obtain ⟨first, path, hpath⟩ := Path.ofKey_eq_child (lower name)
  obtain rfl : first = key := by simpa [Source.leadsTo, hpath] using h
  rw [hpath, child?_putPath, if_neg hk]

/-- A value that is laid over both makes no difference. -/
theorem putPath (h : AgreeOff key r s) (name : String) (value : Node) :
    AgreeOff key (r.putPath (Path.ofKey name) value) (s.putPath (Path.ofKey name) value) := by
  intro k hk
  obtain ⟨first, path, hpath⟩ := Path.ofKey_eq_child name
  rw [hpath, child?_putPath, child?_putPath, h k hk]
  by_cases hfirst : k = first
  · rw [if_pos hfirst, if_pos hfirst, h first (hfirst ▸ hk)]
  · rw [if_neg hfirst, if_neg hfirst]

theorem overlay_both (h : AgreeOff key r s) (source : Source) :
    AgreeOff key (r.overlay source) (s.overlay source) := by
  induction source generalizing r s with
  | nil => exact h
  | cons entry rest ih =>
    rw [overlay_cons, overlay_cons]
    exact ih (h.putPath _ _)

/-- Only what leads elsewhere counts. -/
theorem overlay_filter (r : Node) (source : Source) :
    AgreeOff key (r.overlay source) (r.overlay (source.filter fun e => !Source.leadsTo key e.1)) := by
  induction source generalizing r with
  | nil => exact refl key r
  | cons entry rest ih =>
    rw [overlay_cons]
    cases hleads : Source.leadsTo key entry.1 with
    | true =>
      rw [List.filter_cons_of_neg (by simp [hleads])]
      exact ((of_leadsTo hleads r entry.2).overlay_both rest).trans (ih r)
    | false =>
      rw [List.filter_cons_of_pos (by simp [hleads]), overlay_cons]
      exact ih _

/-- **Sources that differ only in what leads to a key make no difference off it.** -/
theorem overlay (h : AgreeOff key r s) {source other : Source}
    (hsame : (source.filter fun e => !Source.leadsTo key e.1) =
      other.filter fun e => !Source.leadsTo key e.1) :
    AgreeOff key (r.overlay source) (s.overlay other) := by
  have hsource : AgreeOff key (r.overlay source) _ := overlay_filter r source
  have hother : AgreeOff key (s.overlay other) _ := overlay_filter s other
  rw [hsame] at hsource
  exact hsource.trans ((h.overlay_both _).trans hother.symm)

end AgreeOff

end Node

end PlayerWatch.Settings
