import Mathlib.Data.List.TakeWhile
import PlayerWatch.Proofs.Settings.Layers
import PlayerWatch.Proofs.Watcher.Delays

/-!
# Loaded settings are safe

Settings without a defect are just the usable ones (`defect?_eq_none_iff`), and a load gives no others,
wherever the values came from. A watcher with such settings cannot fail for good: its ticker has a
period, and every wait stays in the range of the backoff, where the machine can double it
(`loaded_settings_safe`).
-/

namespace PlayerWatch

/-- Nothing is left of a text once it is trimmed just when all of it is blank. -/
theorem Text.trim_eq_nil_iff {cs : List Char} : trim cs = [] ↔ ∀ c ∈ cs, isBlank c = true := by
  unfold trim dropBlanks
  rw [List.reverse_eq_nil_iff, ← List.dropWhile_eq_nil_iff]
  constructor
  · intro h
    -- The first character that is left over would be no blank.
    by_contra hne
    have hhead := List.head_dropWhile_not isBlank hne
    have hall := List.dropWhile_eq_nil_iff.1 h
    rw [hall _ (List.mem_reverse.2 (List.head_mem hne))] at hhead
    cases hhead
  · intro h
    rw [h]
    rfl

namespace Settings

/-- Settings that can be used. -/
structure Usable (s : Settings) : Prop where
  host : ∃ c ∈ s.player.host.toList, Text.isBlank c = false
  port : 1 ≤ s.player.port.toNat ∧ s.player.port.toNat ≤ 65535
  pollInterval : 0 < s.watch.pollInterval.toNat
  retryDelay : 0 < s.watch.retryDelay.toNat
  retryDelay_le : s.watch.retryDelay.toNat ≤ s.watch.maxRetryDelay.toNat
  ioTimeout : ∀ t, s.watch.ioTimeout = some t → 0 < t.toNat

/-- A check that names what it finds finds nothing. -/
theorem ite_some_eq_none {α : Type} {c : Prop} [Decidable c] {a : α} {rest : Option α} :
    (if c then some a else rest) = none ↔ ¬c ∧ rest = none := by
  by_cases hc : c
  · simp [hc]
  · simp [hc]

/-- **Settings without a defect are just those that can be used.** -/
theorem defect?_eq_none_iff (s : Settings) : s.defect? = none ↔ s.Usable := by
  unfold defect?
  simp only [ite_some_eq_none, List.isEmpty_iff, Text.trim_eq_nil_iff, ← UInt64.toNat_inj,
    ← UInt16.toNat_inj, UInt64.lt_iff_toNat_lt]
  constructor
  · rintro ⟨hhost, hport, hinterval, hdelay, hle, htimeout, -⟩
    refine ⟨?_, ⟨?_, ?_⟩, ?_, ?_, ?_, ?_⟩
    · simpa using hhost
    · exact Nat.pos_of_ne_zero hport
    · exact Nat.le_of_lt_succ s.player.port.toNat_lt
    · exact Nat.pos_of_ne_zero hinterval
    · exact Nat.pos_of_ne_zero hdelay
    · exact Nat.not_lt.1 hle
    · intro t ht
      apply Nat.pos_of_ne_zero
      intro hzero
      obtain rfl : t = 0 := UInt64.toNat_inj.1 hzero
      exact htimeout ht
  · intro h
    obtain ⟨c, hc, hblank⟩ := h.host
    refine ⟨?_, ?_, ?_, ?_, ?_, ?_, trivial⟩
    · intro hall
      rw [hall c hc] at hblank
      cases hblank
    · exact Nat.ne_of_gt h.port.1
    · exact Nat.ne_of_gt h.pollInterval
    · exact Nat.ne_of_gt h.retryDelay
    · exact Nat.not_lt.2 h.retryDelay_le
    · intro hzero
      exact absurd (h.ioTimeout 0 hzero) (by decide)

/-- Whatever is loaded has no defect. -/
theorem usable_of_load {files : Files} {env : Variables} {overrides : Overrides} {s : Settings}
    (h : load files env overrides = .ok s) : s.Usable := by
  cases hfile : ofFiles files env with
  | error e =>
    rw [load, hfile] at h
    cases h
  | ok file =>
    rw [load_of_ofFiles hfile] at h
    cases hread : ofNode (layered file env overrides) with
    | error m =>
      rw [hread] at h
      cases h
    | ok t =>
      rw [hread] at h
      obtain ⟨rfl, hdefect⟩ := checked_eq_ok h
      exact (defect?_eq_none_iff t).1 hdefect

/-- **Whatever is loaded is safe to run**: the settings are usable, and along every run of a watcher
with their pace there is a ticker with a period, and each wait stays in the range of the backoff, where
the machine computes the next one without an overflow. -/
theorem loaded_settings_safe {files : Files} {env : Variables} {overrides : Overrides} {s : Settings}
    (h : load files env overrides = .ok s) :
    s.Usable ∧ ∀ (addr : String) (network : Network) (slot : Slot) (n : Nat),
      let w : Watcher := { addr, pace := s.pace, network, slot }
      let longest := s.watch.maxRetryDelay
      ((w.run n).phase ≠ .broken ∧
        ∀ ticker, (w.run n).phase.ticker? = some ticker → 0 < ticker.period) ∧
      (s.watch.retryDelay.toNat ≤ (w.run n).delay ∧ (w.run n).delay ≤ longest.toNat) ∧
      (∀ d ∈ w.waits n, s.watch.retryDelay.toNat ≤ d ∧ d ≤ longest.toNat) ∧
      ∃ delay next : UInt64, delay.toNat = (w.run n).delay ∧
        next.toNat = s.pace.backoff.next (w.run n).delay ∧
        Span.next? (.ofMillis longest) (.ofMillis delay) = some (.ofMillis next) := by
  have husable := usable_of_load h
  refine ⟨husable, ?_⟩
  intro addr network slot n w longest
  have hw : w.InOrder := Watcher.inOrder_of_start addr s.pace network slot
  have htimely : w.Timely :=
    Watcher.timely_of_start addr s.pace network slot husable.retryDelay_le
  obtain ⟨-, hpace, hbroken⟩ := Watcher.run_stays hw (by simp [w]) n
  -- All along the run the pace is that of the settings.
  have hrange (m : Nat) : s.watch.retryDelay.toNat ≤ (w.run m).delay ∧
      (w.run m).delay ≤ longest.toNat := by
    obtain ⟨-, hpace, -⟩ := Watcher.run_stays hw (by simp [w]) m
    obtain ⟨hinitial, hmax, -⟩ := Watcher.timely_of_run hw htimely m
    rw [hpace] at hinitial hmax
    exact ⟨hinitial, hmax⟩
  refine ⟨⟨?_, ?_⟩, hrange n, ?_, ?_⟩
  · intro hphase
    exact Nat.ne_of_gt husable.pollInterval (hbroken hphase)
  · intro ticker hticker
    rw [(Watcher.timely_of_run hw htimely n).period ticker hticker, hpace]
    exact husable.pollInterval
  · intro d hd
    obtain ⟨m, -, rfl⟩ := Watcher.exists_delay_of_mem_waits hd
    exact hrange m
  · have hword : (w.run n).delay < 2 ^ 64 := Nat.lt_of_le_of_lt (hrange n).2 longest.toNat_lt
    have hdelay : (UInt64.ofNat (w.run n).delay).toNat = (w.run n).delay :=
      UInt64.toNat_ofNat_of_lt' hword
    have hmax : s.pace.backoff.max = longest.toNat := rfl
    obtain ⟨next, hnext, hspan⟩ := Span.next?_ofMillis s.pace.backoff hmax (.ofNat (w.run n).delay)
    rw [hdelay] at hnext
    exact ⟨_, next, hdelay, hnext, hspan⟩

/-- The longest waits that a word can hold are safe. -/
theorem longest_delays_safe :
    let env : Variables :=
      [("MPDW_WATCHER__RETRY_DELAY_MS", "18446744073709551615"),
        ("MPDW_WATCHER__MAX_RETRY_DELAY_MS", "18446744073709551615")]
    ∃ s, load ⟨"/", []⟩ env {} = .ok s ∧ s.watch.retryDelay.toNat = 2 ^ 64 - 1 ∧
      ∀ n, let w : Watcher := { addr := s.address, pace := s.pace, network := {} }
        (w.run n).delay = 2 ^ 64 - 1 ∧ (w.run n).phase ≠ .broken := by
  intro env
  let s : Settings :=
    { watch :=
        { retryDelay := 18446744073709551615
          maxRetryDelay := 18446744073709551615 } }
  have hgiven : ofFiles ⟨"/", []⟩ env = .ok [] := rfl
  have hfile : Source.FitsFile [] := by decide
  have henv : env.FitsEnvironment := ⟨by decide, by decide +kernel, by decide +kernel⟩
  have hload : load ⟨"/", []⟩ env {} = .ok s := by
    apply load_of_values hgiven hfile henv
    · intro k
      cases k <;> decide +kernel
    · decide
  have hdelay : s.watch.retryDelay.toNat = 2 ^ 64 - 1 := rfl
  obtain ⟨husable, hruns⟩ := loaded_settings_safe hload
  refine ⟨s, hload, hdelay, ?_⟩
  intro n w
  obtain ⟨⟨hphase, -⟩, ⟨hinitial, hmax⟩, -⟩ := hruns s.address {} {} n
  have hword : s.watch.maxRetryDelay.toNat ≤ 2 ^ 64 - 1 :=
    Nat.le_of_lt_succ s.watch.maxRetryDelay.toNat_lt
  refine ⟨Nat.le_antisymm (Nat.le_trans hmax hword) ?_, hphase⟩
  rw [← hdelay]
  exact hinitial

end Settings

end PlayerWatch
