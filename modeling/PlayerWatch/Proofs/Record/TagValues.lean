import PlayerWatch.TagValues
import PlayerWatch.Proofs.Text.Encoding

/-!
# The values in a reply to a list query

A line holds a value of a tag if it is some head with the value behind it, where the head is the tag with
the separator up to the case of ASCII letters (`HoldsValue`). The reader does not look for such a head: it
cuts the line behind as many octets as the head has to have, and compares then. Heads that are the same up
to case have the same number of octets, so there is at most one place for the cut and the reader finds it,
if it lies between two characters at all (`tagValue?_eq_some_iff`). The values of a list of lines are then
those of its lines in their order (`tagValues_eq_iff`).
-/

namespace PlayerWatch

namespace Text

/-! ### Cutting at an octet -/

theorem octets_eq (cs : List Char) : octets cs = (cs.map Char.utf8Size).sum := by
  have hall (n : Nat) : cs.foldl (fun n c => n + c.utf8Size) n = n + (cs.map Char.utf8Size).sum := by
    induction cs generalizing n with
    | nil => rfl
    | cons c cs ih => rw [List.foldl_cons, ih, List.map_cons, List.sum_cons, Nat.add_assoc]
  rw [octets, hall, Nat.zero_add]

theorem octets_cons (c : Char) (cs : List Char) : octets (c :: cs) = c.utf8Size + octets cs := by
  rw [octets_eq, octets_eq, List.map_cons, List.sum_cons]

theorem octets_append (cs cs' : List Char) : octets (cs ++ cs') = octets cs + octets cs' := by
  rw [octets_eq, octets_eq, octets_eq, List.map_append, List.sum_append]

end Text

open Text

/-- A text is cut behind the octets of its beginning. -/
theorem splitAtOctet_append (front back : List Char) :
    splitAtOctet (octets front) (front ++ back) = some (front, back) := by
  induction front with
  | nil => cases back <;> rfl
  | cons c front ih =>
    have hsize : 0 < c.utf8Size := c.utf8Size_pos
    obtain ⟨n, hn⟩ : ∃ n, octets (c :: front) = n + 1 :=
      ⟨octets (c :: front) - 1, by rw [octets_cons]; omega⟩
    have hrest : n + 1 - c.utf8Size = octets front := by
      rw [← hn, octets_cons]
      omega
    have hfits : c.utf8Size ≤ n + 1 := by
      rw [← hn, octets_cons]
      omega
    rw [hn, List.cons_append, splitAtOctet, if_pos hfits, hrest, ih]
    rfl

/-- A text cannot be cut behind more octets than it has. -/
theorem splitAtOctet_of_short {n : Nat} {cs : List Char} (h : octets cs < n) :
    splitAtOctet n cs = none := by
  induction cs generalizing n with
  | nil =>
    obtain ⟨m, rfl⟩ : ∃ m, n = m + 1 := ⟨n - 1, by omega⟩
    rfl
  | cons c cs ih =>
    rw [octets_cons] at h
    obtain ⟨m, rfl⟩ : ∃ m, n = m + 1 := ⟨n - 1, by omega⟩
    have hrest : octets cs < m + 1 - c.utf8Size := by omega
    rw [splitAtOctet, ih hrest]
    simp

/-! ### Spellings of a tag -/

namespace Text

theorem lowerChar_cases (c : Char) :
    lowerChar c = c ∨ ∃ n < 26, c = Char.ofNat (65 + n) ∧ lowerChar c = Char.ofNat (97 + n) := by
  unfold lowerChar
  split
  · next hupper =>
    have hlow : 65 ≤ c.toNat := Char.le_def.1 hupper.1
    have hhigh : c.toNat ≤ 90 := Char.le_def.1 hupper.2
    have hcode : 65 + (c.toNat - 65) = c.toNat := by omega
    have hlower : 97 + (c.toNat - 65) = c.toNat + 32 := by omega
    refine .inr ⟨c.toNat - 65, by omega, ?_, ?_⟩
    · rw [hcode, Char.ofNat_toNat]
    · rw [hlower]
  · exact .inl rfl

theorem utf8Size_lowerChar (c : Char) : (lowerChar c).utf8Size = c.utf8Size := by
  have hletters : ∀ n < 26, (Char.ofNat (97 + n)).utf8Size = (Char.ofNat (65 + n)).utf8Size := by
    decide
  rcases lowerChar_cases c with h | ⟨n, hn, hc, hlower⟩
  · rw [h]
  · rw [hlower, hletters n hn, ← hc]

theorem sameLetters_iff {xs ys : List Char} :
    sameLetters xs ys = true ↔ xs.map lowerChar = ys.map lowerChar := by
  rw [sameLetters, beq_iff_eq]

theorem octets_of_sameLetters {xs ys : List Char} (h : sameLetters xs ys = true) :
    octets xs = octets ys := by
  have hsizes (cs : List Char) : octets cs = ((cs.map lowerChar).map Char.utf8Size).sum := by
    rw [octets_eq, List.map_map]
    congr 1
    exact List.map_congr_left fun c _ => (utf8Size_lowerChar c).symm
  rw [hsizes, hsizes, sameLetters_iff.1 h]

end Text

/-- A cut is made exactly where it lies between two characters. -/
theorem splitAtOctet_eq_some_iff {n : Nat} {cs before after : List Char} :
    splitAtOctet n cs = some (before, after) ↔ cs = before ++ after ∧ octets before = n := by
  constructor
  · intro h
    fun_induction splitAtOctet n cs generalizing before with
    | case1 cs =>
      obtain ⟨rfl, rfl⟩ := by simpa using h
      exact ⟨rfl, rfl⟩
    | case2 n => cases h
    | case3 n c cs hfits ih =>
      obtain ⟨⟨front, back⟩, hsplit, hparts⟩ := Option.map_eq_some_iff.1 h
      obtain ⟨rfl, rfl⟩ := by simpa using hparts
      obtain ⟨rfl, hsize⟩ := ih hsplit
      refine ⟨rfl, ?_⟩
      rw [octets_cons, hsize]
      omega
    | case4 n c cs hfits => cases h
  · rintro ⟨rfl, rfl⟩
    exact splitAtOctet_append before after

/-! ### Lines that hold a value -/

/-- A line that gives a value of a tag, as a player writes it. -/
def valueLine (tag value : String) : String := tag ++ ": " ++ value

/-- A line is a head with a value behind it, and the head is the tag with the separator, up to the case of
ASCII letters. -/
def HoldsValue (tag line value : String) : Prop :=
  ∃ head, sameLetters head.toList (tag ++ ": ").toList = true ∧ line = head ++ value

/-- The values that lines hold, line by line; lines that hold none are passed over. -/
inductive ValuesOf (tag : String) : List String → List String → Prop where
  | nil : ValuesOf tag [] []
  | value {line v : String} {lines values : List String} (holds : HoldsValue tag line v)
      (rest : ValuesOf tag lines values) : ValuesOf tag (line :: lines) (v :: values)
  | stray {line : String} {lines values : List String} (stray : ∀ v, ¬ HoldsValue tag line v)
      (rest : ValuesOf tag lines values) : ValuesOf tag (line :: lines) values

theorem tagValue?_eq_some_iff {tag line v : String} :
    tagValue? tag line = some v ↔ HoldsValue tag line v := by
  have hhead : (tag ++ ": ").toList = tag.toList ++ separator := String.toList_append
  unfold HoldsValue tagValue?
  rw [hhead]
  dsimp only
  constructor
  · intro h
    split at h
    · next before value hsplit =>
      split at h
      · next hsame =>
        obtain rfl := Option.some.inj h
        obtain ⟨hline, -⟩ := splitAtOctet_eq_some_iff.1 hsplit
        refine ⟨String.ofList before, by simpa using hsame, ?_⟩
        rw [← String.toList_inj, hline]
        simp
      · cases h
    · cases h
  · rintro ⟨head, hsame, rfl⟩
    have hsplit : splitAtOctet (octets (tag.toList ++ separator)) (head ++ v).toList =
        some (head.toList, v.toList) :=
      splitAtOctet_eq_some_iff.2 ⟨String.toList_append, octets_of_sameLetters hsame⟩
    rw [hsplit]
    simp [hsame]

theorem tagValue?_eq_none_iff {tag line : String} :
    tagValue? tag line = none ↔ ∀ v, ¬ HoldsValue tag line v := by
  simp [Option.eq_none_iff_forall_ne_some, tagValue?_eq_some_iff]

/-- The values are read in the order of the lines, and nothing else is. -/
theorem tagValues_eq_iff {tag : String} {lines values : List String} :
    tagValues tag lines = values ↔ ValuesOf tag lines values := by
  constructor
  · rintro rfl
    induction lines with
    | nil => exact .nil
    | cons line lines ih =>
      rw [tagValues, List.filterMap_cons]
      cases hline : tagValue? tag line with
      | none => exact .stray (tagValue?_eq_none_iff.1 hline) ih
      | some v => exact .value (tagValue?_eq_some_iff.1 hline) ih
  · intro h
    induction h with
    | nil => rfl
    | value holds rest ih =>
      rw [tagValues, List.filterMap_cons_some (tagValue?_eq_some_iff.2 holds)]
      exact congrArg _ ih
    | stray stray rest ih =>
      rw [tagValues, List.filterMap_cons_none (tagValue?_eq_none_iff.2 stray)]
      exact ih

theorem tagValues_append (tag : String) (lines more : List String) :
    tagValues tag (lines ++ more) = tagValues tag lines ++ tagValues tag more :=
  List.filterMap_append

theorem tagValues_of_strays {tag : String} {lines : List String}
    (h : ∀ line ∈ lines, ∀ v, ¬ HoldsValue tag line v) : tagValues tag lines = [] :=
  List.filterMap_eq_nil_iff.2 fun line hline => tagValue?_eq_none_iff.2 (h line hline)

/-- A value behind a spelling of the tag is held, whatever it is. -/
theorem holdsValue_of_spelled {tag spelling : String}
    (h : sameLetters spelling.toList tag.toList = true) (v : String) :
    HoldsValue tag (valueLine spelling v) v := by
  refine ⟨spelling ++ ": ", ?_, rfl⟩
  rw [sameLetters_iff] at h ⊢
  simp [h]

/-- Tags that are the same up to case are the same to the reader. -/
theorem holdsValue_congr {tag tag' : String} (h : sameLetters tag.toList tag'.toList = true)
    {line v : String} : HoldsValue tag line v ↔ HoldsValue tag' line v := by
  have hletters : (tag ++ ": ").toList.map lowerChar = (tag' ++ ": ").toList.map lowerChar := by
    simp [sameLetters_iff.1 h]
  unfold HoldsValue
  simp only [sameLetters_iff, hletters]

/-! ### The octets of a value -/

namespace Text

theorem length_encode (s : String) : (encode s).length = octets s.toList := by
  rw [encode_eq, octets_eq, List.length_flatMap]
  congr 1
  exact List.map_congr_left fun c _ => String.length_utf8EncodeChar c

end Text

/-- What is read as a value is the line behind its head, octet for octet. -/
theorem octets_of_holdsValue {tag line v : String} (h : HoldsValue tag line v) :
    ∃ head, line = head ++ v ∧ encode line = encode head ++ encode v ∧
      (encode head).length = (encode (tag ++ ": ")).length := by
  obtain ⟨head, hsame, rfl⟩ := h
  refine ⟨head, rfl, encode_append head v, ?_⟩
  rw [length_encode, length_encode, octets_of_sameLetters hsame]

/-- A line that cannot be cut behind the octets of a head holds no value. -/
theorem not_holdsValue_of_uncut {tag line : String}
    (h : ∀ front back, line = front ++ back →
      (encode front).length ≠ (encode (tag ++ ": ")).length) (v : String) :
    ¬ HoldsValue tag line v := by
  intro hv
  obtain ⟨head, hline, -, hlength⟩ := octets_of_holdsValue hv
  exact h head v hline hlength

/-! ### What a player may write -/

/-- A value as it may be told: behind lines that hold none, and under any spelling of the tag. -/
structure Telling (tag : String) where
  strays : List String
  spelling : String
  value : String
  no_value : ∀ line ∈ strays, ∀ v, ¬ HoldsValue tag line v
  spelled : sameLetters spelling.toList tag.toList = true

def Telling.lines {tag : String} (t : Telling tag) : List String :=
  t.strays ++ [valueLine t.spelling t.value]

theorem tagValues_telling {tag : String} (t : Telling tag) : tagValues tag t.lines = [t.value] := by
  have hvalue := tagValue?_eq_some_iff.2 (holdsValue_of_spelled t.spelled t.value)
  rw [Telling.lines, tagValues_append, tagValues_of_strays t.no_value, tagValues,
    List.filterMap_cons_some hvalue]
  rfl

theorem tagValues_tellings {tag : String} (told : List (Telling tag)) :
    tagValues tag (told.flatMap Telling.lines) = told.map Telling.value := by
  induction told with
  | nil => rfl
  | cons t told ih => rw [List.flatMap_cons, tagValues_append, tagValues_telling, ih]; rfl

/-- **The values of a tag are read as they stand.** Of each line that is a head with something behind it,
where the head is the tag, a colon and a blank up to the case of ASCII letters, what stands behind the
head is read, in the order of the lines, and nothing of any other line. A line is cut only between two of
its characters: what is read has the very octets behind those of the head, and a line that cannot be cut
there gives nothing. So the case of the tag makes no difference, the lines may come in parts, and values
that are told under any spelling of the tag, with other lines among them, are read as they were told. -/
theorem values_read_as_they_stand (tag : String) :
    (∀ lines values, tagValues tag lines = values ↔ ValuesOf tag lines values) ∧
    (∀ line v, tagValue? tag line = some v →
      ∃ head, line = head ++ v ∧ encode line = encode head ++ encode v ∧
        (encode head).length = (encode (tag ++ ": ")).length) ∧
    (∀ line, (∀ front back, line = front ++ back →
        (encode front).length ≠ (encode (tag ++ ": ")).length) → tagValue? tag line = none) ∧
    (∀ tag', sameLetters tag.toList tag'.toList = true → tagValues tag = tagValues tag') ∧
    (∀ lines more, tagValues tag (lines ++ more) = tagValues tag lines ++ tagValues tag more) ∧
    ∀ (told : List (Telling tag)) (strays : List String),
      (∀ line ∈ strays, ∀ v, ¬ HoldsValue tag line v) →
        tagValues tag (told.flatMap Telling.lines ++ strays) = told.map Telling.value := by
  refine ⟨fun _ _ => tagValues_eq_iff, ?_, ?_, ?_, tagValues_append tag, ?_⟩
  · intro line v h
    exact octets_of_holdsValue (tagValue?_eq_some_iff.1 h)
  · intro line h
    exact tagValue?_eq_none_iff.2 (not_holdsValue_of_uncut h)
  · intro tag' h
    have hline : tagValue? tag = tagValue? tag' := by
      funext line
      apply Option.ext
      intro v
      rw [tagValue?_eq_some_iff, tagValue?_eq_some_iff, holdsValue_congr h]
    funext lines
    rw [tagValues, tagValues, hline]
  · intro told strays hstrays
    rw [tagValues_append, tagValues_tellings, tagValues_of_strays hstrays, List.append_nil]

/-- Two artists, told under two spellings of the tag. Among the lines is one whose letters would have to be
cut to compare it. -/
theorem artists_read_as_told :
    ∃ told : List (Telling "artist"),
      told.flatMap Telling.lines =
        ["Album: Homework", "ARTIST: Daft Punk", "Artist:", "AlbumA€: x", "Artist: a: b"] ∧
      (∀ line ∈ ["Artist :"], ∀ v, ¬ HoldsValue "artist" line v) ∧
      tagValues "artist" (told.flatMap Telling.lines ++ ["Artist :"]) = ["Daft Punk", "a: b"] ∧
      sameLetters "artist".toList "ARTIST".toList = true ∧
      tagValues "artist" = tagValues "ARTIST" ∧
      (∀ front back, "AlbumA€: x" = front ++ back →
        (encode front).length ≠ (encode ("artist" ++ ": ")).length) ∧
      tagValue? "artist" "AlbumA€: x" = none := by
  obtain ⟨-, -, huncut, hcase, -, htold⟩ := values_read_as_they_stand "artist"
  have hstray (lines : List String) (h : lines.all (tagValue? "artist" · = none) = true) :
      ∀ line ∈ lines, ∀ v, ¬ HoldsValue "artist" line v :=
    fun line hline => tagValue?_eq_none_iff.1 (of_decide_eq_true (List.all_eq_true.1 h line hline))
  let punk : Telling "artist" :=
    ⟨["Album: Homework"], "ARTIST", "Daft Punk", hstray _ (by decide), by decide⟩
  let other : Telling "artist" :=
    ⟨["Artist:", "AlbumA€: x"], "Artist", "a: b", hstray _ (by decide), by decide⟩
  have hrest := hstray ["Artist :"] (by decide)
  have hcut : ∀ front back, "AlbumA€: x" = front ++ back →
      (encode front).length ≠ (encode ("artist" ++ ": ")).length := by
    intro front back h
    have hchars : "AlbumA€: x".toList = front.toList ++ back.toList := by
      rw [h, String.toList_append]
    have hfront : front.toList = "AlbumA€: x".toList.take front.toList.length := by
      rw [hchars, List.take_left]
    have hlength : front.toList.length < 11 := by
      have hall := congrArg List.length hchars
      rw [List.length_append, show "AlbumA€: x".toList.length = 10 by decide] at hall
      omega
    have hall : ∀ n < 11, octets ("AlbumA€: x".toList.take n) ≠ 8 := by decide
    rw [length_encode, length_encode, hfront]
    exact hall _ hlength
  have hsame : sameLetters "artist".toList "ARTIST".toList = true := by decide
  exact ⟨[punk, other], rfl, hrest, htold [punk, other] _ hrest, hsame, hcase "ARTIST" hsame, hcut,
    huncut _ hcut⟩

/-- A tag of two octets: a letter outside the ASCII range has no other case, and one of three octets leaves
no place for the cut. -/
example : tagValues "É" ["É: a: b", "é: c", "É€ d", "É:", "É: "] = ["a: b", ""] := by decide

end PlayerWatch
