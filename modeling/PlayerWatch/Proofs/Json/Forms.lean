import PlayerWatch.Proofs.Event.Forms
import PlayerWatch.Proofs.Settings.Forms

/-!
# What is written is read back

The text of an event is read as that event, and the text of settings as those settings. So it is with
every other text for the same tree, for an event with its members in another order or others among them,
and for settings with parts of them left out (`json_round_trips`).
-/

namespace PlayerWatch

open Json

/-- **Events and settings are read back from their JSON.** The text of an event is read as the event,
whatever characters its texts have. So is every text for one of its forms: with the type and the payload
in either order, the members of the payload in any order, and other members among both; the compact text
of such a form is one. Settings are read back too, and with any of them or of their sections left out
those that are have their default, and no other. -/
theorem json_round_trips :
    (∀ e : Event, decode Event.ofJson e.toJson.compact = .ok e) ∧
    (∀ (e : Event) (inner outer payload members : List (String × Json)),
      e.Form inner outer payload members →
      (∀ s, Json.read s = ⟨record members, false⟩ → decode Event.ofJson s = .ok e) ∧
      ((∀ m ∈ inner ++ outer, m.2.Proper) →
        decode Event.ofJson (record members).compact = .ok e)) ∧
    (∀ s : Settings, decode Settings.ofJson s.toJson.compact = .ok s) ∧
    ∀ (s : Settings) (keepPart : Settings.Section → Bool) (keep : Settings.Key → Bool), ∃ t : Settings,
      (∀ k, t.get k = if keepPart k.part ∧ keep k then s.get k else k.default) ∧
      decode Settings.ofJson (s.partly keepPart keep).compact = .ok t ∧
      ∀ text, Json.read text = ⟨s.partly keepPart keep, false⟩ →
        decode Settings.ofJson text = .ok t := by
  refine ⟨?_, ?_, ?_, ?_⟩
  · intro e
    have hproper : e.toJson.Proper := Event.proper_form e.form_toJson nofun
    exact decode_of_read (read_compact hproper) (Event.ofJson_form e.form_toJson)
  · intro e inner outer payload members hform
    refine ⟨?_, ?_⟩
    · intro s hs
      exact decode_of_read hs (Event.ofJson_form hform)
    · intro hextra
      exact decode_of_read (read_compact (Event.proper_form hform hextra)) (Event.ofJson_form hform)
  · intro s
    obtain ⟨t, hread, ht⟩ := s.ofJson_partly (fun _ => true) fun _ => true
    have hsame : t = s := Settings.ext_get fun k => by simpa using ht k
    have hproper := s.proper_partly (fun _ => true) fun _ => true
    rw [hsame, s.partly_all] at hread
    rw [s.partly_all] at hproper
    exact decode_of_read (read_compact hproper) hread
  · intro s keepPart keep
    obtain ⟨t, hread, ht⟩ := s.ofJson_partly keep keepPart
    refine ⟨t, ht, decode_of_read (read_compact (s.proper_partly keepPart keep)) hread, ?_⟩
    intro text htext
    exact decode_of_read htext hread

/-- An event with everything turned round and a note at either level. -/
theorem reversed_event_read :
    let e : Event := .statusUpdated "mpd:6600" 7 "play"
    let note : String × Json := ("note", .null)
    let payload := (e.payload ++ [note]).reverse
    let members := (e.members payload ++ [note]).reverse
    e.Form [note] [note] payload members ∧ (∀ m ∈ [note] ++ [note], m.2.Proper) ∧
      (record members).compact =
        "\x7b\"note\":null,\"payload\":\x7b\"note\":null,\"state\":\"play\",\"generation\":7," ++
          "\"addr\":\"mpd:6600\"\x7d,\"type\":\"StatusUpdated\"\x7d" ∧
      decode Event.ofJson (record members).compact = .ok e := by
  intro e note payload members
  have hproper : ∀ m ∈ [note] ++ [note], m.2.Proper := by
    intro m hm
    obtain rfl : m = note := by simpa using hm
    exact .null
  have hform : e.Form [note] [note] payload members :=
    { inside := ⟨List.reverse_perm _, by decide⟩
      outside := ⟨List.reverse_perm _, by decide⟩
      passed := fun m hm => skip_of_proper (hproper m hm)
      settled := .inr (by simp [note, settle]) }
  exact ⟨hform, hproper, by decide +kernel, (json_round_trips.2.1 e _ _ _ _ hform).2 hproper⟩

end PlayerWatch
