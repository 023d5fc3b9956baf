import PlayerWatch.CommandLine.Run
import PlayerWatch.Proofs.Json.Reals
import PlayerWatch.Proofs.Player.Forms

/-!
# A status survives its JSON

A status is read from its own JSON with every field as it was, but for what has elapsed: that is read as a
double near to it (`answer_survives_json`), which need not be the same one (`elapsed_not_kept`).
-/

namespace PlayerWatch.Status

open Json Number

/-- What is written of a status is decoded as its object is read, in one line or as it is printed. -/
theorem decode_written (s : Status) : decode ofJson s.toJson.compact = ofJson s.toJson ∧
    decode ofJson (CommandLine.printStatus true s) = ofJson s.toJson := by
  have hproper := proper_toJson (proper_real s.elapsed)
  have hline : ∀ c ∈ ['\n'], isSpace c = true := List.forall_mem_singleton.2 rfl
  exact ⟨decode_eq ofJson (read_compact hproper), decode_eq ofJson (read_indented hproper hline)⟩

/-- **The status of a reply survives its own JSON**, in one line or as it is printed, if what has elapsed is
a finite number. All fields are what they were, but what has elapsed is computed from its digits, with more
than one rounding: it keeps its sign and is less than eight units of its last place away. It is the same to
the bit where one rounding is enough, that is, where its digits make a whole number below `2 ^ 53` and the
point is moved by no more than 22 places. -/
theorem answer_survives_json (lines : List String)
    (h : isFinite (ofRecord (.ofLines lines)).elapsed = true) :
    let s := ofRecord (.ofLines lines)
    ∃ y, ReadAs s.elapsed y ∧ decode ofJson s.toJson.compact = .ok { s with elapsed := y } ∧
      decode ofJson (CommandLine.printStatus true s) = .ok { s with elapsed := y } := by
  intro s
  obtain ⟨y, hread, hy⟩ := readReal_real h
  obtain ⟨hcompact, hprinted⟩ := s.decode_written
  refine ⟨y, hy, ?_, ?_⟩
  · rw [hcompact, ofJson_toJson hread]
  · rw [hprinted, ofJson_toJson hread]

/-- An ordinary time comes back to the bit. -/
theorem ordinary_answer_survives :
    let s := ofRecord (.ofLines ["state: play", "volume: 50", "elapsed: 61.250", "Title: \"\\"])
    isFinite s.elapsed = true ∧ decode ofJson s.toJson.compact = .ok s ∧
      decode ofJson (CommandLine.printStatus true s) = .ok s := by
  intro s
  have hfinite : isFinite s.elapsed = true := by decide +kernel
  obtain ⟨y, hy, hcompact, hprinted⟩ := answer_survives_json
    ["state: play", "volume: 50", "elapsed: 61.250", "Title: \"\\"] hfinite
  have hsame : y = s.elapsed := hy.exact (by decide +kernel) (by decide +kernel)
  rw [hsame] at hcompact hprinted
  exact ⟨hfinite, hcompact, hprinted⟩

/-- Another time comes back one unit of its last place smaller, and what is no finite number does not come
back at all. -/
theorem elapsed_not_kept :
    (let s := ofRecord (.ofLines ["elapsed: 100.33333333333333"])
     ∃ y, decode ofJson s.toJson.compact = .ok { s with elapsed := y } ∧
       s.elapsed.toBits = 0x4059155555555555 ∧ y.toBits = 0x4059155555555554) ∧
    let s := ofRecord (.ofLines ["elapsed: inf"])
    s.elapsed.toBits = 0x7FF0000000000000 ∧ ∀ t, decode ofJson s.toJson.compact ≠ .ok t := by
  constructor
  · intro s
    have hread : (readReal (real s.elapsed)).toOption.map Float.toBits = some 0x4059155555555554 := by
      decide +kernel
    cases hy : readReal (real s.elapsed) with
    | error fault =>
      rw [hy] at hread
      cases hread
    | ok y =>
      rw [hy] at hread
      refine ⟨y, ?_, by decide +kernel, Option.some.inj hread⟩
      rw [s.decode_written.1, ofJson_toJson hy]
  · intro s
    refine ⟨by decide +kernel, ?_⟩
    intro t ht
    have hnone : (ofJson s.toJson).toOption.isNone = true := by decide +kernel
    rw [s.decode_written.1] at ht
    rw [ht] at hnone
    cases hnone

end PlayerWatch.Status
