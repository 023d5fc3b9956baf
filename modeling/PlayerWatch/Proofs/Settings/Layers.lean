import PlayerWatch.Proofs.Settings.Given

/-!
# What the layers leave in a tree

The **invariant** is `Holds`: what stands in a tree under the name of a setting reads as the value that
was given, or as the default if none was. Every layer keeps it, since it changes the settings it gives
and no others (`Holds.file`, `Holds.variables`, `Holds.player`), and a tree that holds what was given
reads as just that (`Holds.ofNode_eq`).
-/

namespace PlayerWatch.Settings

open Text Number

variable {root root' : Node} {g : Given}

/-! ### What a tree holds -/

/-- Each setting of a tree reads as what was given. -/
structure Holds (root : Node) (g : Given) : Prop where
  isSection : ∀ part : Section, root.IsSection part.key
  reads : ∀ k : Key, ∀ key, (root.setting? k.part.key k.name).elim (.ok k.default) (k.read key) =
    .ok (g.value k)

namespace Holds

theorem empty : Holds .empty .nothing where
  isSection _ _ hnode := nomatch hnode
  reads _ _ := rfl

theorem of_child? (h : Holds root g)
    (hsame : ∀ part : Section, root'.child? part.key = root.child? part.key) : Holds root' g where
  isSection part node hnode := h.isSection part node (hsame part ▸ hnode)
  reads k key := by
    rw [Node.setting?, hsame]
    exact h.reads k key

/-- A value at the path of a setting gives that setting. -/
theorem putPath (h : Holds root g) {k : Key} {origin : Option String} {value : Scalar} {v : k.Value}
    (hv : k.Denotes (.scalar origin value) v) :
    Holds (root.putPath (Path.ofKey (lower k.path)) (.scalar origin value)) (g.set k v) := by
  rw [k.ofKey_path]
  constructor
  case isSection =>
    intro part
    by_cases hpart : part = k.part
    · rw [hpart]
      exact Node.isSection_putPath root k.part.key k.name _
    · intro node hnode
      rw [Node.child?_putPath, if_neg fun hkey => hpart (Key.part_eq_of_key hkey)] at hnode
      exact h.isSection part node hnode
  case reads =>
    intro k' key
    rw [Node.setting?_putPath]
    by_cases hk : k' = k
    · subst hk
      rw [if_pos ⟨rfl, rfl⟩, Given.value, Given.set_self]
      exact hv key
    · rw [if_neg fun heq => hk (Key.eq_of_name heq.2), Given.value, Given.set_of_ne g v hk]
      exact h.reads k' key

/-- **A tree that holds what was given reads as just that.** -/
theorem ofNode_eq (h : Holds root g) :
    ∃ s, Settings.ofNode root = .ok s ∧ ∀ k, s.get k = g.value k := by
  have hread (k : Key) (place : Nat) :
      readIn k.part (root.content k.part) k.name place k.read k.default = .ok (g.value k) := by
    rw [readIn_content (h.isSection k.part)]
    exact h.reads k _
  let player : PlayerSettings := {}
  let watch : WatchSettings := {}
  have hhost : readIn .player (root.content .player) "host" 0 readText player.host = _ :=
    hread .host 0
  have hport : readIn .player (root.content .player) "port" 1 readPort player.port = _ :=
    hread .port 1
  have hinterval : readIn .watch (root.content .watch) "poll_interval_ms" 0 readNatural
      watch.pollInterval = _ := hread .pollInterval 0
  have hdelay : readIn .watch (root.content .watch) "retry_delay_ms" 1 readNatural
      watch.retryDelay = _ := hread .retryDelay 1
  have hmax : readIn .watch (root.content .watch) "max_retry_delay_ms" 2 readNatural
      watch.maxRetryDelay = _ := hread .maxRetryDelay 2
  have htimeout : readIn .watch (root.content .watch) "io_timeout_ms" 3 readOptional
      watch.ioTimeout = _ := hread .ioTimeout 3
  have hplayer : PlayerSettings.ofNode (root.content .player) =
      .ok ⟨g.value .host, g.value .port⟩ := by
    rw [PlayerSettings.ofNode, hhost, hport]
    rfl
  have hwatch : WatchSettings.ofNode (root.content .watch) =
      .ok ⟨g.value .pollInterval, g.value .retryDelay, g.value .maxRetryDelay,
        g.value .ioTimeout⟩ := by
    rw [WatchSettings.ofNode, hinterval, hdelay, hmax, htimeout]
    rfl
  refine ⟨⟨⟨g.value .host, g.value .port⟩, ⟨g.value .pollInterval, g.value .retryDelay,
    g.value .maxRetryDelay, g.value .ioTimeout⟩⟩, ?_, ?_⟩
  · show (PlayerSettings.ofNode (root.content .player) >>= fun player =>
      WatchSettings.ofNode (root.content .watch) >>= _) = _
    rw [hplayer, hwatch]
    rfl
  · intro k
    cases k <;> rfl

/-- A default that is laid where nothing was given makes no difference. -/
theorem putPath_default (h : Holds root .nothing) {k : Key} {origin : Option String} {value : Scalar}
    (hv : k.Denotes (.scalar origin value) k.default) :
    Holds (root.putPath (Path.ofKey (lower k.path)) (.scalar origin value)) .nothing := by
  obtain ⟨hsection, hreads⟩ := h.putPath hv
  refine ⟨hsection, ?_⟩
  intro k' key
  rw [hreads k' key, Given.value]
  by_cases hk : k' = k
  · subst hk
    rw [Given.set_self]
    rfl
  · rw [Given.set_of_ne _ _ hk]
    rfl

theorem defaults : Holds (Node.empty.overlay defaults) .nothing := by
  have hdefaults : Settings.defaults =
      [(Key.host.path, .scalar none (.text Key.host.default)),
        (Key.port.path, .scalar none (.integer Key.port.default.toNat)),
        (Key.pollInterval.path, .scalar none (.integer Key.pollInterval.default.toNat)),
        (Key.retryDelay.path, .scalar none (.integer Key.retryDelay.default.toNat)),
        (Key.maxRetryDelay.path, .scalar none (.integer Key.maxRetryDelay.default.toNat))] := rfl
  rw [hdefaults]
  simp only [Node.overlay_cons, Node.overlay_nil]
  -- Each of the five lies on the ones before and gives its own default.
  refine Holds.empty.putPath_default (k := .host) ?_ |>.putPath_default (k := .port) ?_
    |>.putPath_default (k := .pollInterval) ?_ |>.putPath_default (k := .retryDelay) ?_
    |>.putPath_default (k := .maxRetryDelay) ?_
  all_goals
    apply denotes_of_ofScalar?
    decide

end Holds

/-! ### Entries of a table -/

theorem named?_cons (name : String) (e : String × Node) (entries : List (String × Node)) :
    named? name (e :: entries) = if lower e.1 = name then some e.2 else named? name entries := by
  unfold named?
  rw [List.find?_cons]
  split <;> simp_all

theorem named?_eq_none {name : String} {entries : List (String × Node)}
    (h : ∀ e ∈ entries, lower e.1 ≠ name) : named? name entries = none := by
  rw [named?, List.find?_eq_none.2 fun e he => by simpa using h e he]
  rfl

theorem Once.absent {name : String} {e : String × Node} {entries : List (String × Node)}
    (h : Once name (e :: entries)) (he : lower e.1 = name) : ∀ e' ∈ entries, lower e'.1 ≠ name := by
  rw [Once, List.countP_cons_of_pos (by simpa using he)] at h
  have hnone : (entries.countP fun e => lower e.1 = name) = 0 := by omega
  simpa using List.countP_eq_zero.1 hnone

theorem Once.tail {name : String} {e : String × Node} {entries : List (String × Node)}
    (h : Once name (e :: entries)) : Once name entries := by
  unfold Once at h ⊢
  rw [List.countP_cons] at h
  omega

theorem putAll_eq_table (entries : List (String × Node)) {origin : Option String}
    {old : List (String × Node)} :
    ∃ origin' new, Node.putAll entries (.table origin old) = .table origin' new := by
  induction entries generalizing origin old with
  | nil =>
    rw [Node.putAll]
    exact ⟨origin, old, rfl⟩
  | cons e rest ih =>
    rw [Node.putAll, Node.put_eq_adjust]
    exact ih

/-- A single value among laid entries replaces what was there. -/
theorem child?_putAll {entries : List (String × Node)} {name : String} (hone : Once name entries)
    (hsingle : ∀ e ∈ entries, lower e.1 = name → ∃ origin value, e.2 = .scalar origin value)
    (root : Node) :
    (Node.putAll entries root).child? name = (named? name entries).or (root.child? name) := by
  -- Entries are laid from the first to the last, so the tree below grows.
  induction entries generalizing root with
  | nil =>
    rw [Node.putAll]
    rfl
  | cons e rest ih =>
    rw [Node.putAll, named?_cons]
    by_cases he : lower e.1 = name
    · obtain ⟨origin, value, hvalue⟩ := hsingle e List.mem_cons_self he
      rw [Node.child?_putAll_of_absent (hone.absent he), Node.child?_put, if_pos he.symm,
        if_pos he, hvalue]
      rfl
    · rw [ih hone.tail fun e' he' => hsingle e' (List.mem_cons_of_mem e he'), Node.child?_put,
        if_neg (Ne.symm he), if_neg he]

/-! ### Files -/

theorem isNameChar_lowerChar {c : Char} (h : Path.isNameChar c = true) :
    Path.isNameChar (lowerChar c) = true := by
  have hletters : ∀ n < 26, Path.isNameChar (Char.ofNat (97 + n)) = true := by decide
  unfold lowerChar
  split
  · next hupper =>
    have hlow : 65 ≤ c.toNat := Char.le_def.1 hupper.1
    have hhigh : c.toNat ≤ 90 := Char.le_def.1 hupper.2
    have hcode : c.toNat + 32 = 97 + (c.toNat - 65) := by omega
    rw [hcode]
    exact hletters _ (by omega)
  · exact h

/-- An identifier is a path of one step. -/
theorem ofKey_lower_of_isIdentifier {name : String} (h : IsIdentifier name) :
    Path.ofKey (lower name) = [.child (lower name)] := by
  have hall : ∀ c ∈ (lower name).toList, Path.isNameChar c = true := by
    intro c hc
    rw [lower, String.toList_ofList] at hc
    obtain ⟨d, hd, rfl⟩ := List.mem_map.1 hc
    exact isNameChar_lowerChar (List.all_eq_true.1 h.2 d hd)
  have hne : (lower name).toList.isEmpty = false := by
    have hname : name.toList ≠ [] := fun hnil => h.1 (String.toList_eq_nil_iff.1 hnil)
    rw [lower, String.toList_ofList]
    simpa using hname
  have hread : Path.read? (lower name) = some [.child (lower name)] := by
    simp only [Path.read?, List.takeWhile_eq_self_iff.2 hall, List.dropWhile_eq_nil_iff.2 hall, hne,
      String.ofList_toList]
    cases (lower name).toList.length <;> rfl
  rw [Path.ofKey, hread]
  rfl

theorem named?_eq_some {name : String} {entries : List (String × Node)} {node : Node}
    (h : named? name entries = some node) : ∃ e ∈ entries, lower e.1 = name ∧ e.2 = node := by
  obtain ⟨e, he, rfl⟩ := Option.map_eq_some_iff.1 h
  exact ⟨e, List.mem_of_find?_eq_some he, by simpa using List.find?_some he, rfl⟩

theorem single_of_ofNode? {k : Key} {node : Node} (h : (k.ofNode? node).isSome) :
    ∃ origin value v, node = .scalar origin value ∧ k.ofNode? node = some v ∧ k.Denotes node v := by
  obtain ⟨v, hv⟩ := Option.isSome_iff_exists.1 h
  cases node with
  | scalar origin value => exact ⟨origin, value, v, rfl, hv, denotes_of_ofScalar? hv origin⟩
  | _ => cases hv

/-- A section of a file gives its settings, over what was there. -/
theorem Holds.putSection (h : Holds root g) {part : Section} {content : Node}
    (hfits : content.FitsSection part) :
    Holds (Node.put part.key content root) ((Given.ofSection part content).atop g) := by
  obtain ⟨htable, hentries⟩ := hfits
  obtain ⟨origin, entries, rfl⟩ : ∃ origin entries, content = .table origin entries := by
    cases content with
    | table origin entries => exact ⟨origin, entries, rfl⟩
    | _ => cases htable
  simp only [Node.entries] at hentries
  obtain ⟨old, below, hold⟩ : ∃ old below, (root.child? part.key).getD .empty = .table old below := by
    cases hpart : root.child? part.key with
    | none => exact ⟨none, [], rfl⟩
    | some node => exact h.isSection part node hpart
  constructor
  case isSection =>
    intro part' node hnode
    rw [Node.child?_put] at hnode
    split at hnode
    · obtain rfl := Option.some.inj hnode
      rw [Node.merged, hold]
      exact putAll_eq_table entries
    · exact h.isSection part' node hnode
  case reads =>
    intro k key
    rw [Node.setting?, Node.child?_put]
    by_cases hk : k.part = part
    · subst hk
      obtain ⟨hone, hvalue⟩ := hentries k rfl
      have hsingle : ∀ e ∈ entries, lower e.1 = k.name → ∃ origin value, e.2 = .scalar origin value := by
        intro e he hname
        obtain ⟨origin, value, -, hnode, -⟩ := single_of_ofNode? (hvalue e he hname)
        exact ⟨origin, value, hnode⟩
      have hbelow : ((root.child? k.part.key).getD .empty).child? k.name =
          root.setting? k.part.key k.name := by
        rw [Node.setting?]
        cases root.child? k.part.key <;> rfl
      rw [if_pos rfl, Option.bind_some, Node.merged, child?_putAll hone hsingle, hbelow]
      cases hnamed : named? k.name entries with
      | none =>
        have hnothing : Given.ofSection k.part (.table origin entries) k = none := by
          rw [Given.ofSection, if_pos rfl, Node.entries, hnamed]
          rfl
        rw [Option.none_or, Given.value, Given.atop, hnothing, Option.none_or]
        exact h.reads k key
      | some node =>
        obtain ⟨e, he, hname, rfl⟩ := named?_eq_some hnamed
        obtain ⟨-, -, v, -, hv, hread⟩ := single_of_ofNode? (hvalue e he hname)
        have hgiven : Given.ofSection k.part (.table origin entries) k = some v := by
          rw [Given.ofSection, if_pos rfl, Node.entries, hnamed, Option.bind_some, hv]
        rw [Option.some_or, Given.value, Given.atop, hgiven, Option.some_or]
        exact hread key
    · have hother : Given.ofSection part (.table origin entries) k = none := if_neg hk
      rw [if_neg fun hkey => hk (Key.part_eq_of_key hkey), Given.value, Given.atop, hother,
        Option.none_or]
      exact h.reads k key

theorem Given.ofFile_cons_of_part {part : Section} {e : String × Node} {rest : Source}
    (hone : Once part.key (e :: rest)) (he : lower e.1 = part.key) :
    Given.ofFile (e :: rest) = (Given.ofFile rest).atop (Given.ofSection part e.2) := by
  funext k
  unfold Given.atop Given.ofFile
  rw [named?_cons]
  by_cases hk : k.part = part
  · subst hk
    rw [if_pos he, named?_eq_none (hone.absent he)]
    rfl
  · have hother : Given.ofSection part e.2 k = none := if_neg hk
    rw [if_neg fun hkey => hk (Key.part_eq_of_key (hkey.symm.trans he)), hother, Option.or_none]

theorem Given.ofFile_cons_of_ne {e : String × Node} {rest : Source}
    (he : ∀ part : Section, lower e.1 ≠ part.key) : Given.ofFile (e :: rest) = Given.ofFile rest := by
  funext k
  unfold Given.ofFile
  rw [named?_cons, if_neg (he k.part)]

theorem Source.FitsFile.tail {e : String × Node} {rest : Source}
    (h : Source.FitsFile (e :: rest)) : Source.FitsFile rest := by
  obtain ⟨hidentifiers, hparts⟩ := h
  refine ⟨fun e' he' => hidentifiers e' (List.mem_cons_of_mem e he'), ?_⟩
  intro part
  obtain ⟨hone, hfits⟩ := hparts part
  exact ⟨hone.tail, fun e' he' => hfits e' (List.mem_cons_of_mem e he')⟩

/-- **A file gives what is in its sections.** -/
theorem Holds.file (h : Holds root g) {file : Source} (hfits : file.FitsFile) :
    Holds (root.overlay file) ((Given.ofFile file).atop g) := by
  induction file generalizing root g with
  | nil =>
    rw [Node.overlay_nil]
    exact h
  | cons e rest ih =>
    have hrest : Source.FitsFile rest := hfits.tail
    obtain ⟨hidentifiers, hparts⟩ := hfits
    rw [Node.overlay_cons, ofKey_lower_of_isIdentifier (hidentifiers e List.mem_cons_self),
      Node.putPath]
    -- An entry is a section or leaves the sections as they are.
    by_cases he : ∃ part : Section, lower e.1 = part.key
    · obtain ⟨part, he⟩ := he
      obtain ⟨hone, hsection⟩ := hparts part
      rw [he, Given.ofFile_cons_of_part hone he, Given.atop_assoc]
      exact ih (h.putSection (hsection e List.mem_cons_self he)) hrest
    · rw [Given.ofFile_cons_of_ne fun part hpart => he ⟨part, hpart⟩]
      refine ih (h.of_child? ?_) hrest
      intro part
      rw [Node.child?_put, if_neg fun hpart => he ⟨part, hpart.symm⟩]

/-! ### Variables -/

/-- What a stray variable gives leads to no section. -/
theorem not_leadsTo_of_isStray {v : String × String} (hv : Source.isStray v.1)
    {entry : String × Node} (hentry : Source.ofVariable v = some entry) (part : Section) :
    Source.leadsTo part.key entry.1 = false := by
  rw [Source.ofVariable_eq] at hentry
  obtain ⟨key, hkey, rfl⟩ := Option.map_eq_some_iff.1 hentry
  rw [Source.isStray, hkey, Option.all_some, Bool.and_eq_true, Bool.not_eq_true',
    Bool.not_eq_true'] at hv
  cases part with
  | player => exact hv.1
  | watch => exact hv.2

theorem Holds.stray (h : Holds root g) {name : String} {value : Node}
    (hname : ∀ part : Section, Source.leadsTo part.key name = false) :
    Holds (root.putPath (Path.ofKey (lower name)) value) g := by
  obtain ⟨first, path, hpath⟩ := Path.ofKey_eq_child (lower name)
  rw [hpath]
  refine h.of_child? ?_
  intro part
  have hpart : part.key ≠ first := by
    rintro rfl
    simpa [Source.leadsTo, hpath] using hname part
  rw [Node.child?_putPath, if_neg hpart]

theorem Given.ofVariables_cons_of_ne {v : String × String} {env : Variables}
    (hv : ∀ k : Key, v.1 ≠ k.varName) : Given.ofVariables (v :: env) = Given.ofVariables env := by
  funext k
  unfold Given.ofVariables
  rw [Node.lookup_cons_eq_ite, if_neg (hv k).symm]

theorem Given.ofVariables_cons_atop {k : Key} {s : String} {x : k.Value} {env : Variables}
    (hnew : k.varName ∉ env.map Prod.fst) (hx : k.ofText? s = some x) (g : Given) :
    (Given.ofVariables ((k.varName, s) :: env)).atop g =
      (Given.ofVariables env).atop (g.set k x) := by
  have habsent : env.lookup k.varName = none := by
    rw [List.lookup_eq_none_iff]
    intro v hv
    have hne : k.varName ≠ v.1 := fun heq => hnew (heq ▸ List.mem_map_of_mem hv)
    simpa using hne
  funext k'
  unfold Given.atop Given.ofVariables
  rw [Node.lookup_cons_eq_ite]
  by_cases hk : k' = k
  · subst hk
    rw [if_pos rfl, habsent, Given.set_self, Option.bind_some, hx]
    rfl
  · rw [if_neg fun heq => hk (Key.eq_of_varName heq), Given.set_of_ne g x hk]

/-- No variable but its own gives a setting. -/
theorem Variables.FitsEnvironment.absent {env : Variables} (h : env.FitsEnvironment) {k : Key}
    (hnew : k.varName ∉ env.map Prod.fst) :
    (env.filterMap Source.ofVariable).any (·.1 = k.path) = false := by
  rw [List.any_eq_false]
  intro entry hentry hpath
  obtain ⟨v, hv, hgives⟩ := List.mem_filterMap.1 hentry
  have hname : v.1 ≠ k.varName := fun heq => hnew (heq ▸ List.mem_map_of_mem hv)
  by_cases hown : ∃ k' : Key, v.1 = k'.varName
  · obtain ⟨k', hk'⟩ := hown
    obtain ⟨name, s⟩ := v
    obtain rfl : name = k'.varName := hk'
    rw [ofVariable_varName] at hgives
    obtain rfl := Option.some.inj hgives
    exact hname (congrArg Key.varName (Key.eq_of_path (of_decide_eq_true hpath)))
  · have hstray : Source.isStray v.1 := h.stray v hv fun k' hk' => hown ⟨k', hk'⟩
    have hleads := not_leadsTo_of_isStray hstray hgives k.part
    rw [of_decide_eq_true hpath, k.leadsTo_path] at hleads
    cases hleads

theorem Variables.FitsEnvironment.tail {v : String × String} {env : Variables}
    (h : Variables.FitsEnvironment (v :: env)) : env.FitsEnvironment where
  once := (List.nodup_cons.1 h.once).2
  fits v' hv' := h.fits v' (List.mem_cons_of_mem v hv')
  stray v' hv' := h.stray v' (List.mem_cons_of_mem v hv')

/-- **The environment gives what its variables say.** -/
theorem Holds.variables (h : Holds root g) {env : Variables} (hfits : env.FitsEnvironment) :
    Holds (root.overlay (Source.ofVariables env)) ((Given.ofVariables env).atop g) := by
  induction env generalizing root g with
  | nil =>
    show Holds (root.overlay []) g
    rw [Node.overlay_nil]
    exact h
  | cons v rest ih =>
    -- A variable gives a setting, which no later one gives, or it is stray.
    by_cases hv : ∃ k : Key, v.1 = k.varName
    · obtain ⟨k, hk⟩ := hv
      obtain ⟨name, s⟩ := v
      obtain rfl : name = k.varName := hk
      obtain ⟨x, hx⟩ := Option.isSome_iff_exists.1 (hfits.fits _ List.mem_cons_self k rfl)
      have hnew : k.varName ∉ rest.map Prod.fst := (List.nodup_cons.1 hfits.once).1
      rw [Given.ofVariables_cons_atop hnew hx,
        Source.ofVariables_cons_some (ofVariable_varName k s), hfits.tail.absent hnew,
        if_neg Bool.false_ne_true, Node.overlay_cons]
      exact ih (h.putPath (denotes_of_ofText? hx _)) hfits.tail
    · have hother : ∀ k : Key, v.1 ≠ k.varName := fun k hk => hv ⟨k, hk⟩
      have hstray : Source.isStray v.1 := hfits.stray v List.mem_cons_self hother
      rw [Given.ofVariables_cons_of_ne hother]
      cases hgives : Source.ofVariable v with
      | none =>
        rw [Source.ofVariables_cons_none hgives]
        exact ih h hfits.tail
      | some entry =>
        rw [Source.ofVariables_cons_some hgives]
        split
        · exact ih h hfits.tail
        · rw [Node.overlay_cons]
          exact ih (h.stray (not_leadsTo_of_isStray hstray hgives)) hfits.tail

/-! ### The player's clients and the call -/

theorem Given.player_none_atop (g : Given) : (Given.player none none).atop g = g := by
  funext k
  cases k <;> rfl

theorem Holds.givenHost (h : Holds root g) (host : Option String) :
    Holds (root.overlay ((host.map givenHost).getD [])) ((Given.player host none).atop g) := by
  cases host with
  | none =>
    rw [Given.player_none_atop]
    exact h
  | some host =>
    have hg : (Given.player (some host) none).atop g = g.set .host host := by
      funext k
      cases k <;> rfl
    rw [hg, Option.map_some, Option.getD_some, Settings.givenHost, Node.overlay_cons,
      Node.overlay_nil]
    exact h.putPath (k := .host) fun _ => rfl

theorem Holds.givenPort (h : Holds root g) (port : Option UInt16) :
    Holds (root.overlay ((port.map givenPort).getD [])) ((Given.player none port).atop g) := by
  cases port with
  | none =>
    rw [Given.player_none_atop]
    exact h
  | some port =>
    have hg : (Given.player none (some port)).atop g = g.set .port port := by
      funext k
      cases k <;> rfl
    rw [hg, Option.map_some, Option.getD_some, Settings.givenPort, Node.overlay_cons,
      Node.overlay_nil]
    refine h.putPath (k := .port) (denotes_of_ofScalar? ?_ none)
    rw [ofScalar?_port port.toNat_lt, UInt16.ofNat_toNat]

theorem Holds.player (h : Holds root g) (host : Option String) (port : Option UInt16) :
    Holds ((root.overlay ((host.map Settings.givenHost).getD [])).overlay
      ((port.map Settings.givenPort).getD [])) ((Given.player host port).atop g) := by
  have hg : (Given.player host port).atop g =
      (Given.player none port).atop ((Given.player host none).atop g) := by
    funext k
    cases k <;> rfl
  rw [hg]
  exact (h.givenHost host).givenPort port

theorem isUsableHost_iff (host : String) :
    IsUsableHost host ↔ isUnsupportedHost host = false ∧ host.isEmpty = false := by
  simp only [IsUsableHost, isUnsupportedHost, Bool.or_eq_false_iff, decide_eq_false_iff_not,
    List.contains_eq_mem, String.isEmpty_eq_false_iff]
  constructor
  · rintro ⟨hne, hsocket, hat⟩
    exact ⟨⟨hsocket, hat⟩, hne⟩
  · rintro ⟨⟨hsocket, hat⟩, hne⟩
    exact ⟨hne, hsocket, hat⟩

theorem ofHostVariable_fst (env : Variables) :
    (ofHostVariable env).1 = ((Given.ofClients env .host).map givenHost).getD [] := by
  show _ = (((env.lookup "MPD_HOST").filter fun host => decide (IsUsableHost host)).map givenHost).getD []
  unfold ofHostVariable
  cases env.lookup "MPD_HOST" with
  | none => rfl
  | some host =>
    rw [Option.filter_some]
    simp only [isUsableHost_iff]
    cases isUnsupportedHost host <;> cases host.isEmpty <;> rfl

theorem ofPortVariable_fst (env : Variables) :
    (ofPortVariable env).1 = ((Given.ofClients env .port).map givenPort).getD [] := by
  show _ = (((env.lookup "MPD_PORT").bind readUInt16?).map givenPort).getD []
  unfold ofPortVariable
  cases env.lookup "MPD_PORT" with
  | none => rfl
  | some text =>
    rw [Option.bind_some]
    dsimp only
    cases readUInt16? text <;> rfl

/-! ### All layers -/

theorem holds_layered {file : Source} {env : Variables} (hfile : file.FitsFile)
    (henv : env.FitsEnvironment) (overrides : Overrides) :
    Holds (layered file env overrides) (overrides.given.atop <| (Given.ofClients env).atop <|
      (Given.ofVariables env).atop <| Given.ofFile file) := by
  have hbelow : Holds ((Node.empty.overlay defaults).overlay file) (Given.ofFile file) := by
    rw [← Given.atop_nothing (Given.ofFile file)]
    exact Holds.defaults.file hfile
  rw [layered_eq, ofHostVariable_fst, ofPortVariable_fst, Overrides.source, Node.overlay_append]
  exact ((hbelow.variables henv).player _ _).player _ _

/-- Settings whose values are those that were given are loaded if they have no defect. -/
theorem load_of_values {files : Files} {env : Variables} {file : Source} {overrides : Overrides}
    {s : Settings} (hgiven : ofFiles files env = .ok file) (hfile : file.FitsFile)
    (henv : env.FitsEnvironment)
    (hvalues : ∀ k, s.get k = (overrides.given.atop <| (Given.ofClients env).atop <|
      (Given.ofVariables env).atop <| Given.ofFile file).value k)
    (hdefect : s.defect? = none) : load files env overrides = .ok s := by
  obtain ⟨t, hread, ht⟩ := (holds_layered hfile henv overrides).ofNode_eq
  obtain rfl : t = s := ext_get fun k => (ht k).trans (hvalues k).symm
  rw [load_of_ofFiles hgiven, hread]
  show checked t = _
  rw [checked, hdefect]

end PlayerWatch.Settings
