import PlayerWatch.Proofs.Settings.Loads

/-!
# A player given at the call

Whoever gives both a host and a port at the call has that player, whatever the sources below say about
the player. Two loads whose sources differ only there have trees that agree off the player's section,
and in that section the host and the port lie on top of whatever was there, be it a section or not. So
the two loads come out the same (`given_player_masks_sources`).
-/

namespace PlayerWatch.Settings

open Text

/-! ### What leads to the player -/

/-- The variables that reach the player's settings. -/
def playerVariables : List String :=
  ["MPD_HOST", "MPD_PORT", "MPDW_MPD", "MPDW_MPD__HOST", "MPDW_MPD__PORT"]

/-- Whether an entry leads anywhere but to the player. -/
def Source.offPlayer (entry : String × Node) : Bool := !leadsTo Section.player.key entry.1

theorem offPlayer_path {k : Key} (h : k.part = .player) (value : Node) :
    Source.offPlayer (k.path, value) = false := by
  rw [Source.offPlayer, ← h, k.leadsTo_path]
  rfl

theorem filter_givenHost (host : String) : (givenHost host).filter Source.offPlayer = [] := by
  apply List.filter_cons_of_neg
  rw [show "mpd.host" = Key.host.path by decide, offPlayer_path rfl]
  exact Bool.false_ne_true

theorem filter_givenPort (port : UInt16) : (givenPort port).filter Source.offPlayer = [] := by
  apply List.filter_cons_of_neg
  rw [show "mpd.port" = Key.port.path by decide, offPlayer_path rfl]
  exact Bool.false_ne_true

theorem filter_ofHostVariable (env : Variables) :
    (ofHostVariable env).1.filter Source.offPlayer = [] := by
  unfold ofHostVariable
  cases env.lookup "MPD_HOST" with
  | none => rfl
  | some host =>
    dsimp only
    split
    · rfl
    · split
      · rfl
      · exact filter_givenHost host

theorem filter_ofPortVariable (env : Variables) :
    (ofPortVariable env).1.filter Source.offPlayer = [] := by
  unfold ofPortVariable
  cases env.lookup "MPD_PORT" with
  | none => rfl
  | some text =>
    dsimp only
    split
    · exact filter_givenPort _
    · rfl

/-- A variable of the player gives nothing, or something that leads to the player. -/
theorem leadsTo_of_playerVariable {name key : String} (h : name ∈ playerVariables)
    (hkey : Source.variableKey? name = some key) : Source.leadsTo Section.player.key key = true := by
  have hall : playerVariables.all (fun name =>
      (Source.variableKey? name).all (Source.leadsTo Section.player.key)) = true := by
    decide +kernel
  have hname := List.all_eq_true.1 hall name h
  rwa [hkey] at hname

/-- The variables of the player make no difference elsewhere. -/
theorem filter_ofVariables (env : Variables) :
    (Source.ofVariables env).filter Source.offPlayer =
      (Source.ofVariables (env.filter fun v => v.1 ∉ playerVariables)).filter Source.offPlayer := by
  have hgiven : (env.filterMap Source.ofVariable).filter Source.offPlayer =
      ((env.filter fun v => v.1 ∉ playerVariables).filterMap Source.ofVariable).filter
        Source.offPlayer := by
    rw [List.filterMap_filter, List.filter_filterMap, List.filter_filterMap]
    congr 1
    funext v
    by_cases hv : v.1 ∈ playerVariables
    · have hnothing : (Source.ofVariable v).filter Source.offPlayer = none := by
        rw [Source.ofVariable_eq, Option.filter_eq_none_iff]
        intro entry hentry
        obtain ⟨key, hkey, rfl⟩ := Option.map_eq_some_iff.1 hentry
        simp [Source.offPlayer, leadsTo_of_playerVariable hv hkey]
      rw [hnothing, if_neg (by simpa using hv), Option.filter_none]
    · rw [if_pos (by simpa using hv)]
  have hfilter := Source.filter_latest fun name => !Source.leadsTo Section.player.key name
  exact (hfilter _).trans ((congrArg Source.latest hgiven).trans (hfilter _).symm)

/-! ### What lies on top -/

/-- The variables that do not reach the player's settings. -/
def otherVariables (env : Variables) : Variables := env.filter fun v => v.1 ∉ playerVariables

/-- Whatever lies on top of other sources that differ only in what leads to the player can lie on top of
these, and makes no difference elsewhere. -/
theorem exists_rearranged {source source' other : Source}
    (hsame : Rearranged Source.laysEntries (source.filter Source.offPlayer)
      (source'.filter Source.offPlayer))
    (h : Rearranged Source.laysEntries source other) :
    ∃ other', Rearranged Source.laysEntries source' other' ∧
      other.filter Source.offPlayer = other'.filter Source.offPlayer := by
  have hrest : Rearranged Source.laysEntries (source'.filter Source.offPlayer)
      (other.filter Source.offPlayer) :=
    hsame.symm.trans (h.filter fun name => !Source.leadsTo Section.player.key name)
  refine ⟨source'.filter (fun e => !Source.offPlayer e) ++ other.filter Source.offPlayer, ?_, ?_⟩
  · exact (Rearranged.of_perm (List.perm_append_comm.trans (List.filter_append_perm _ _)).symm).trans
      (hrest.append_left _)
  · have hnone : (source'.filter fun e => !Source.offPlayer e).filter Source.offPlayer = [] := by
      rw [List.filter_filter]
      simp
    rw [List.filter_append, hnone, List.nil_append, List.filter_filter]
    simp

/-- **Sources that differ only in what leads to the player can be laid so that they make no difference
elsewhere.** -/
theorem exists_laid {r r' root : Node} {sources sources' : List Source}
    (hsame : List.Forall₂ (fun source source' => Rearranged Source.laysEntries
      (source.filter Source.offPlayer) (source'.filter Source.offPlayer)) sources sources')
    (hlaid : Laid r sources root) (hr : Node.AgreeOff Section.player.key r r') :
    ∃ root', Laid r' sources' root' ∧ Node.AgreeOff Section.player.key root root' := by
  induction hlaid generalizing r' sources' with
  | nil root =>
    cases hsame
    exact ⟨r', .nil r', hr⟩
  | cons order _ ih =>
    cases hsame with
    | cons hsource hrest =>
      obtain ⟨other', horder, hother⟩ := exists_rearranged hsource order
      obtain ⟨root', hlaid', hroot⟩ := ih hrest (hr.overlay hother)
      exact ⟨root', .cons horder hlaid', hroot⟩

/-- Sources that say the same about everything but the player, in whatever order. -/
structure DifferInPlayer (file file' : Source) (env env' : Variables) : Prop where
  inFile : Rearranged Source.laysEntries (file.filter Source.offPlayer)
    (file'.filter Source.offPlayer)
  inEnvironment : Rearranged Source.laysEntries (Source.ofVariables (otherVariables env))
    (Source.ofVariables (otherVariables env'))

theorem DifferInPlayer.symm {file file' : Source} {env env' : Variables}
    (h : DifferInPlayer file file' env env') : DifferInPlayer file' file env' env :=
  ⟨h.inFile.symm, h.inEnvironment.symm⟩

/-- The other layers say nothing but about the player, or are the same. -/
theorem forall₂_layers {file file' : Source} {env env' : Variables} {R : Source → Source → Prop}
    (overrides : Overrides) (hrefl : ∀ source, R source source)
    (hfile : R (file.filter Source.offPlayer) (file'.filter Source.offPlayer))
    (henv : R ((Source.ofVariables env).filter Source.offPlayer)
      ((Source.ofVariables env').filter Source.offPlayer)) :
    List.Forall₂ (fun source source' => R (source.filter Source.offPlayer)
      (source'.filter Source.offPlayer)) (layers file env overrides) (layers file' env' overrides) := by
  refine .cons (hrefl _) (.cons hfile (.cons henv (.cons ?_ (.cons ?_ (.cons (hrefl _) .nil)))))
  · rw [filter_ofHostVariable, filter_ofHostVariable]
    exact hrefl []
  · rw [filter_ofPortVariable, filter_ofPortVariable]
    exact hrefl []

/-- The entries of a host and a port given at the call. -/
theorem source_of_both (host : String) (port : UInt16) : Overrides.source ⟨host, port⟩ =
    [(Key.host.path, .scalar none (.text host)),
      (Key.port.path, .scalar none (.integer port.toNat))] := rfl

theorem coherent_of_both (host : String) (port : UInt16) :
    (Overrides.source ⟨host, port⟩).Coherent Section.player.key := by
  have hpieces : (Overrides.source ⟨host, port⟩).pieces =
      [([.child "mpd", .child "host"], .scalar none (.text host)),
        ([.child "mpd", .child "port"], .scalar none (.integer port.toNat))] := by
    rw [source_of_both, Source.pieces, List.flatMap_cons, List.flatMap_cons, Key.ofKey_path,
      Key.ofKey_path]
    rfl
  have hapart : Node.apart [.child "mpd", .child "host"] [.child "mpd", .child "port"] = true := by
    decide
  rw [Source.Coherent, hpieces]
  refine List.Pairwise.filter _ (List.pairwise_pair.2 ?_)
  exact hapart

/-- **A host and a port given at the call lie on top**, in whatever order. -/
theorem player_of_laid {file : Source} {env : Variables} {host : String} {port : UInt16}
    {root : Node} (hlaid : Laid .empty (layers file env ⟨host, port⟩) root) :
    root.IsSection Section.player.key ∧
      root.setting? Section.player.key "host" = some (.scalar none (.text host)) ∧
      root.setting? Section.player.key "port" = some (.scalar none (.integer port.toNat)) := by
  have htop : Laid .empty ([defaults, file, Source.ofVariables env, (ofHostVariable env).1,
      (ofPortVariable env).1] ++ [Overrides.source ⟨host, port⟩]) root := hlaid
  obtain ⟨below, other, horder, rfl⟩ := htop.top
  have hsame : (below.overlay other).child? Section.player.key =
      (below.overlay (Overrides.source ⟨host, port⟩)).child? Section.player.key :=
    (Node.child?_overlay (coherent_of_both host port) horder rfl).symm
  rw [Node.IsSection, Node.setting?, Node.setting?, hsame, ← Node.setting?, ← Node.setting?,
    ← Node.IsSection, source_of_both, Node.overlay_cons, Node.overlay_cons, Node.overlay_nil,
    Key.ofKey_path, Key.ofKey_path]
  refine ⟨Node.isSection_putPath _ _ _ _, ?_, ?_⟩
  · rw [Node.setting?_putPath, if_neg (by decide), Node.setting?_putPath, if_pos ⟨rfl, rfl⟩]
    rfl
  · rw [Node.setting?_putPath, if_pos ⟨rfl, rfl⟩]
    rfl

/-- With a host and a port given at the call only the other settings are still to be read. -/
theorem ofNode_of_laid {file : Source} {env : Variables} {host : String} {port : UInt16}
    {root : Node} (hlaid : Laid .empty (layers file env ⟨host, port⟩) root) :
    ofNode root = (WatchSettings.ofNode (root.content .watch)).map fun watch => ⟨⟨host, port⟩, watch⟩ := by
  obtain ⟨hsection, hhost, hport⟩ := player_of_laid hlaid
  exact ofNode_of_player hsection hhost hport

/-- The player given at the call does not misfit. -/
theorem misfit?_player_of_laid {file : Source} {env : Variables} {host : String} {port : UInt16}
    {root : Node} (hlaid : Laid .empty (layers file env ⟨host, port⟩) root) {k : Key}
    (hk : k.part = .player) : root.misfit? k = none := by
  obtain ⟨hsection, hhost, hport⟩ := player_of_laid hlaid
  cases k with
  | host =>
    apply Node.misfit?_of_ok (v := host)
    show readIn .player (root.content .player) "host" 0 readText _ = _
    rw [readIn_content hsection, hhost]
    rfl
  | port =>
    apply Node.misfit?_of_ok (v := port)
    show readIn .player (root.content .player) "port" 1 readPort _ = _
    rw [readIn_content hsection, hport, Option.elim_some, readPort_integer _ _ port.toNat_lt,
      UInt16.ofNat_toNat]
  | _ => cases hk

/-- Trees with the same player and the same settings beside it are read alike. -/
theorem reads_of_same_watch {file file' : Source} {env env' : Variables} {host : String}
    {port : UInt16} {root root' : Node} (hlaid : Laid .empty (layers file env ⟨host, port⟩) root)
    (hlaid' : Laid .empty (layers file' env' ⟨host, port⟩) root')
    (hwatch : root.content .watch = root'.content .watch) {read : Except Misfit Settings}
    (h : Reads root read) : Reads root' read := by
  have hmisfit (k : Key) : root'.misfit? k = root.misfit? k := by
    cases hpart : k.part with
    | player => rw [misfit?_player_of_laid hlaid' hpart, misfit?_player_of_laid hlaid hpart]
    | watch => rw [Node.misfit?, Node.misfit?, Node.reading, Node.reading, hpart, hwatch]
  cases h with
  | settings hs =>
    apply Reads.settings
    rw [ofNode_of_laid hlaid', ← hwatch, ← ofNode_of_laid hlaid, hs]
  | misfit hshows =>
    obtain ⟨k, hm, hfirst⟩ := hshows
    have hpart : k.part = .watch := by
      cases hpart : k.part with
      | watch => rfl
      | player =>
        rw [misfit?_player_of_laid hlaid hpart] at hm
        cases hm
    refine .misfit ⟨k, (hmisfit k).trans hm, ?_⟩
    rw [hpart, ← hwatch, ← hpart]
    exact hfirst.imp_right fun hnone k' hk' => (hmisfit k').trans (hnone k' hk')

/-! ### Settings beside the player -/

/-- What the one load may return the other may return. -/
theorem LoadsTo.of_differInPlayer {files files' : Files} {env env' : Variables} {file file' : Source}
    {host : String} {port : UInt16} (hfile : ofFiles files env = .ok file)
    (hfile' : ofFiles files' env' = .ok file') (hsame : DifferInPlayer file file' env env')
    {result : Except LoadError Settings} (h : LoadsTo files env ⟨host, port⟩ result) :
    LoadsTo files' env' ⟨host, port⟩ result := by
  have hvariables : Rearranged Source.laysEntries
      ((Source.ofVariables env).filter Source.offPlayer)
      ((Source.ofVariables env').filter Source.offPlayer) := by
    rw [filter_ofVariables env, filter_ofVariables env']
    exact hsame.inEnvironment.filter fun name => !Source.leadsTo Section.player.key name
  obtain ⟨root, read, hlaid, hread, rfl⟩ := (loadsTo_iff hfile _ _).1 h
  obtain ⟨root', hlaid', hroot⟩ :=
    exists_laid (forall₂_layers _ Rearranged.refl hsame.inFile hvariables) hlaid (.refl _ _)
  have hwatch : root.content .watch = root'.content .watch := by
    rw [Node.content, Node.content, hroot _ (by decide)]
  exact (loadsTo_iff hfile' _ _).2
    ⟨root', read, hlaid', reads_of_same_watch hlaid hlaid' hwatch hread, rfl⟩

/-- Variables that contradict each other: the section itself and a setting in it. With these a load may
succeed and may fail. -/
theorem contradiction_loads_both_ways :
    let env : Variables := [("MPDW_WATCHER", "1"), ("MPDW_WATCHER__POLL_INTERVAL_MS", "500")]
    let overrides : Overrides := ⟨some "music", some 6601⟩
    ¬(Source.ofVariables env).Coherent Section.watch.key ∧
      (∃ s, LoadsTo ⟨"/", []⟩ env overrides (.ok s)) ∧
      ∃ e, LoadsTo ⟨"/", []⟩ env overrides (.error e) := by
  intro env overrides
  have hgiven (env : Variables) : ofFiles ⟨"/", []⟩ env = .ok [] := rfl
  have hsame : DifferInPlayer [] [] env.reverse env := by
    refine ⟨.nil, ?_⟩
    have hsection : Source.ofVariable ("MPDW_WATCHER", "1") =
        some ("watcher", .scalar (some Source.environmentName) (Source.valueOfText "1")) := by
      rw [Source.ofVariable_eq, show Source.variableKey? "MPDW_WATCHER" = some "watcher" by
        decide +kernel]
      rfl
    have hinterval := ofVariable_varName .pollInterval "500"
    rw [show otherVariables env = [("MPDW_WATCHER", "1"), (Key.pollInterval.varName, "500")] by
        decide,
      show otherVariables env.reverse =
        [(Key.pollInterval.varName, "500"), ("MPDW_WATCHER", "1")] by decide]
    simp only [Source.ofVariables, List.filterMap_cons, List.filterMap_nil, hsection, hinterval]
    exact .swap _ _ []
  have hload : (load ⟨"/", []⟩ env overrides).toOption.isSome = true := by decide +kernel
  have hload' : (load ⟨"/", []⟩ env.reverse overrides).toOption.isSome = false := by decide +kernel
  refine ⟨by decide +kernel, ?_, ?_⟩
  · have h := loadsTo_load ⟨"/", []⟩ env overrides
    cases hresult : load ⟨"/", []⟩ env overrides with
    | error e => rw [hresult] at hload; cases hload
    | ok s => exact ⟨s, hresult ▸ h⟩
  · have h : LoadsTo ⟨"/", []⟩ env overrides (load ⟨"/", []⟩ env.reverse overrides) :=
      .of_differInPlayer (hgiven _) (hgiven _) hsame (loadsTo_load _ _ _)
    cases hresult : load ⟨"/", []⟩ env.reverse overrides with
    | error e => exact ⟨e, hresult ▸ h⟩
    | ok s => rw [hresult] at hload'; cases hload'

end PlayerWatch.Settings
