import PlayerWatch.Proofs.Settings.Layers

/-!
# Which source counts

Of the sources that give a setting the highest one counts, whatever they say about the other settings:
the call, the usable variables of the player's clients, the variables of the settings, the file, and the
default below them all (`highest_source_counts`). A host or a port that cannot be used is as good as
none, since nothing else is read from its variable (`load_unset`).
-/

namespace PlayerWatch.Settings

open Text Number

/-! ### Variables that cannot be used -/

/-- The variables without one of them. -/
def Variables.unset (env : Variables) (name : String) : Variables := env.filter fun v => v.1 ≠ name

theorem lookup_unset (env : Variables) (name other : String) :
    (env.unset name).lookup other = if other = name then none else env.lookup other := by
  induction env with
  | nil =>
    split <;> rfl
  | cons v rest ih =>
    obtain ⟨key, value⟩ := v
    unfold Variables.unset at ih ⊢
    by_cases hkey : key = name
    · rw [List.filter_cons_of_neg (by simpa using hkey), ih, Node.lookup_cons_eq_ite]
      by_cases hother : other = name
      · rw [if_pos hother, if_pos hother]
      · rw [if_neg hother, if_neg hother, if_neg fun heq => hother (heq.trans hkey)]
    · rw [List.filter_cons_of_pos (by simpa using hkey), Node.lookup_cons_eq_ite,
        Node.lookup_cons_eq_ite, ih]
      by_cases hother : other = name
      · rw [if_pos hother, if_pos hother, if_neg fun heq => hkey (heq.symm.trans hother)]
      · rw [if_neg hother, if_neg hother]

theorem ofVariables_unset {name : String} (hname : Source.variableKey? name = none) (env : Variables) :
    Source.ofVariables (env.unset name) = Source.ofVariables env := by
  have hgiven : (env.unset name).filterMap Source.ofVariable = env.filterMap Source.ofVariable := by
    rw [Variables.unset, List.filterMap_filter]
    congr 1
    funext v
    by_cases hv : v.1 = name
    · have hnothing : Source.ofVariable v = none := by rw [Source.ofVariable_eq, hv, hname]; rfl
      rw [if_neg (by simpa using hv), hnothing]
    · rw [if_pos (by simpa using hv)]
  rw [Source.ofVariables, Source.ofVariables, hgiven]

/-- A variable that names no setting and no place makes no difference if nothing is taken from it. -/
theorem load_unset {name : String} {env : Variables} (files : Files) (overrides : Overrides)
    (hname : Source.variableKey? name = none)
    (hplace : name ∉ ["MPDW_CONFIG_DIR", "XDG_CONFIG_HOME", "HOME"])
    (hclients : Given.ofClients (env.unset name) = Given.ofClients env) :
    load files (env.unset name) overrides = load files env overrides := by
  have hdirectory : directory (env.unset name) = directory env := by
    simp only [List.mem_cons, List.not_mem_nil, not_or, or_false] at hplace
    unfold directory
    rw [lookup_unset, lookup_unset, lookup_unset, if_neg (Ne.symm hplace.1),
      if_neg (Ne.symm hplace.2.1), if_neg (Ne.symm hplace.2.2)]
  have hlayered (file : Source) : layered file (env.unset name) overrides =
      layered file env overrides := by
    rw [layered_eq, layered_eq, ofHostVariable_fst, ofHostVariable_fst, ofPortVariable_fst,
      ofPortVariable_fst, hclients, ofVariables_unset hname]
  unfold load ofFiles
  simp only [hdirectory, hlayered]

/-- **Of the sources that give a setting the highest one counts**: the call, then the usable variables
of the player's clients, the variables of the settings, and the file; below them all lies the default.
Only what comes out is checked. A host or a port in the variables of the clients that cannot be used
is as good as none. -/
theorem highest_source_counts {files : Files} {env : Variables} {file : Source}
    (overrides : Overrides) (hgiven : ofFiles files env = .ok file) (hfile : file.FitsFile)
    (henv : env.FitsEnvironment) :
    (∃ s, ofNode (layered file env overrides) = .ok s ∧
      (∀ k, s.get k = (overrides.given.atop <| (Given.ofClients env).atop <|
        (Given.ofVariables env).atop <| Given.ofFile file).value k) ∧
      load files env overrides = checked s ∧
      ((∃ e, load files env overrides = .error e) ↔ s.defect? ≠ none)) ∧
    ((∀ host, env.lookup "MPD_HOST" = some host → ¬IsUsableHost host) →
      load files (env.unset "MPD_HOST") overrides = load files env overrides) ∧
    ((∀ text, env.lookup "MPD_PORT" = some text → readUInt16? text = none) →
      load files (env.unset "MPD_PORT") overrides = load files env overrides) := by
  refine ⟨?merged, ?host, ?port⟩
  case merged =>
    obtain ⟨s, hread, hvalues⟩ := (holds_layered hfile henv overrides).ofNode_eq
    have hload : load files env overrides = checked s := by rw [load_of_ofFiles hgiven, hread]
    refine ⟨s, hread, hvalues, hload, ?_⟩
    rw [hload, checked]
    cases s.defect? with
    | none => simp
    | some d => simp
  case host =>
    intro hunusable
    apply load_unset files overrides (by decide) (by decide)
    have hnone : (env.lookup "MPD_HOST").filter (fun host => decide (IsUsableHost host)) = none :=
      Option.filter_eq_none_iff.2 fun host hhost => by simpa using hunusable host hhost
    rw [Given.ofClients, Given.ofClients, lookup_unset, lookup_unset, if_pos rfl,
      if_neg (by decide), hnone]
    rfl
  case port =>
    intro hunreadable
    apply load_unset files overrides (by decide) (by decide)
    have hnone : (env.lookup "MPD_PORT").bind readUInt16? = none :=
      Option.bind_eq_none_iff.2 hunreadable
    rw [Given.ofClients, Given.ofClients, lookup_unset, lookup_unset, if_neg (by decide),
      if_pos rfl, hnone]
    rfl

/-- A file below a variable, above it variables of the clients that cannot be used. -/
theorem highest_source_counts_attic :
    let files : Files :=
      ⟨"/", [(["config.toml"], encode
        "[mpd]\nhost = \"cellar\"\nport = 6700\nvolume = 3\n[watcher]\nretry_delay_ms = 0\n")]⟩
    let env : Variables :=
      [("MPD_HOST", "/run/mpd"), ("MPD_PORT", "none"), ("MPDW_MPD__HOST", "attic"),
        ("MPDW_WATCHER__RETRY_DELAY_MS", "500")]
    ∃ file s, ofFiles files env = .ok file ∧ file.FitsFile ∧ env.FitsEnvironment ∧
      load files env {} = checked s ∧ s.get .host = "attic" ∧ s.get .port = 6700 ∧
      s.get .retryDelay = 500 ∧
      load files (env.unset "MPD_HOST") {} = load files env {} ∧
      load files (env.unset "MPD_PORT") {} = load files env {} := by
  intro files env
  obtain ⟨file, hgiven, hport, hfile⟩ : ∃ file, ofFiles files env = .ok file ∧
      Given.ofFile file .port = some 6700 ∧ file.FitsFile := by
    have htest : ∃ file, ofFiles files env = .ok file ∧
        decide (Given.ofFile file .port = some 6700 ∧ file.FitsFile) = true := by
      apply exists_of_any
      rw [ofFiles, show directory env = "." by decide, locate_here]
      decide +kernel
    simpa using htest
  have henv : env.FitsEnvironment := ⟨by decide, by decide +kernel, by decide +kernel⟩
  obtain ⟨⟨s, -, hvalues, hload, -⟩, hhost, hport'⟩ :=
    highest_source_counts {} hgiven hfile henv
  refine ⟨file, s, hgiven, hfile, henv, hload, ?_, ?_, ?_, hhost ?_, hport' ?_⟩
  · have hclients : Given.ofClients env .host = none := by decide
    have hvariable : Given.ofVariables env .host = some "attic" := by decide +kernel
    rw [hvalues .host, Given.value, Given.atop, Given.atop, Given.atop, hclients, hvariable]
    rfl
  · have hclients : Given.ofClients env .port = none := by decide
    have hvariable : Given.ofVariables env .port = none := by decide +kernel
    rw [hvalues .port, Given.value, Given.atop, Given.atop, Given.atop, hclients, hvariable, hport]
    rfl
  · have hclients : Given.ofClients env .retryDelay = none := by decide
    have hvariable : Given.ofVariables env .retryDelay = some 500 := by decide +kernel
    rw [hvalues .retryDelay, Given.value, Given.atop, Given.atop, Given.atop, hclients, hvariable]
    rfl
  · intro host hhost
    obtain rfl : host = "/run/mpd" := (Option.some.inj hhost).symm
    decide
  · intro text htext
    obtain rfl : text = "none" := (Option.some.inj htext).symm
    decide

/-- A whole number of 64 bits is not held exactly: from 2⁶³ on it is the nearest double. -/
theorem large_interval_rounded :
    let env : Variables := [("MPDW_WATCHER__POLL_INTERVAL_MS", "9223372036854775809")]
    wholeOfText? 64 "9223372036854775809" = some 9223372036854775809 ∧
      ∃ s, load ⟨"/", []⟩ env {} = .ok s ∧ s.get .pollInterval ≠ 9223372036854775809 := by
  intro env
  have hgiven : ofFiles ⟨"/", []⟩ env = .ok [] := rfl
  have hfile : Source.FitsFile [] := by decide
  have henv : env.FitsEnvironment := ⟨by decide, by decide +kernel, by decide +kernel⟩
  have hload : load ⟨"/", []⟩ env {} = .ok { watch := { pollInterval := 9223372036854775808 } } := by
    apply load_of_values hgiven hfile henv
    · intro k
      cases k <;> decide +kernel
    · decide
  exact ⟨by decide +kernel, _, hload, by decide⟩

end PlayerWatch.Settings
