import PlayerWatch.Proofs.Json.Tokens

/-!
# Trees read back

A tree that stands for a value without a fault is `Proper`. Its text is read back as that very tree,
whether it is written without blanks (`read_compact`) or with one member or item per line
(`read_indented`). Both are texts with some `Spacing`: by induction on the tree each part of such a text
is read as its part, and what follows is left. Values are followed by a comma, a blank or a bracket, which
ends every number.
-/

namespace PlayerWatch.Json

open Number

/-- A tree without a fault, whose strings are texts and whose numbers are well written. -/
inductive Proper : Json → Prop where
  | null : Proper .null
  | bool (value : Bool) : Proper (.bool value)
  | number {n : Numeral} (h : WellWritten n) : Proper (.number n)
  | string (s : String) : Proper (text s)
  | list {items : List Json} (h : ∀ j ∈ items, Proper j) : Proper (list items)
  | record {members : List (String × Json)} (h : ∀ m ∈ members, Proper m.2) :
    Proper (record members)

/-! ### Texts with blanks -/

/-- The blanks of a text: those in front of each item and of the bracket behind the last, by their depth,
and those behind a colon. -/
structure Spacing where
  line : Nat → List Char
  colon : List Char
  blank_line : ∀ depth, ∀ c ∈ line depth, isSpace c = true
  blank_colon : ∀ c ∈ colon, isSpace c = true

namespace Spacing

variable (sp : Spacing)

mutual

/-- The characters of a tree at some depth. -/
def chars (depth : Nat) : Json → List Char
  | .array (j :: rest) _ =>
    '[' :: (sp.line (depth + 1) ++ (chars (depth + 1) j ++ itemsBehind depth rest))
  | .object ((k, v) :: rest) _ =>
    '\x7b' :: (sp.line (depth + 1) ++ (k.chars ++
      (':' :: (sp.colon ++ (chars (depth + 1) v ++ membersBehind depth rest)))))
  | j => j.chars

/-- The items behind an item, up to the closing bracket. -/
def itemsBehind (depth : Nat) : List Json → List Char
  | [] => sp.line depth ++ [']']
  | j :: rest =>
    ',' :: (sp.line (depth + 1) ++ (chars (depth + 1) j ++ itemsBehind depth rest))

/-- The members behind a member, up to the closing brace. -/
def membersBehind (depth : Nat) : List (Json × Json) → List Char
  | [] => sp.line depth ++ ['\x7d']
  | (k, v) :: rest =>
    ',' :: (sp.line (depth + 1) ++ (k.chars ++
      (':' :: (sp.colon ++ (chars (depth + 1) v ++ membersBehind depth rest)))))

end

/-- No blanks at all. -/
def tight : Spacing := ⟨fun _ => [], [], nofun, nofun⟩

/-- One member or item per line. -/
def perLine : Spacing where
  line := lineStart
  colon := [' ']
  blank_line := by
    intro depth c hc
    rcases List.mem_cons.1 hc with rfl | hc
    · rfl
    · rw [List.eq_of_mem_replicate hc]
      rfl
  blank_colon := List.forall_mem_singleton.2 rfl

end Spacing

section Blanks

variable {bs : List Char}

theorem dropSpace_blanks (h : ∀ c ∈ bs, isSpace c = true) (cs : List Char) :
    dropSpace (bs ++ cs) = dropSpace cs := List.dropWhile_append_of_pos h

/-- Blanks in front of a value are passed over. -/
theorem readValue_blanks (h : ∀ c ∈ bs, isSpace c = true) (fuel : Nat) (cs : List Char) :
    readValue fuel (bs ++ cs) = readValue fuel cs := by
  cases fuel with
  | zero => rfl
  | succ fuel => rw [readValue, readValue, dropSpace_blanks h]

theorem readItem_blanks (h : ∀ c ∈ bs, isSpace c = true) (fuel : Nat) (cs : List Char) :
    readItem fuel (bs ++ cs) = readItem fuel cs := by
  cases fuel with
  | zero => rfl
  | succ fuel => simp only [readItem, readValue_blanks h]

theorem readItems_blanks (h : ∀ c ∈ bs, isSpace c = true) (fuel : Nat) (first : Bool)
    (cs : List Char) : readItems fuel first (bs ++ cs) = readItems fuel first cs := by
  cases fuel with
  | zero => rfl
  | succ fuel => rw [readItems, readItems, dropSpace_blanks h]

theorem readMembers_blanks (h : ∀ c ∈ bs, isSpace c = true) (fuel : Nat) (first : Bool)
    (cs : List Char) : readMembers fuel first (bs ++ cs) = readMembers fuel first cs := by
  cases fuel with
  | zero => rfl
  | succ fuel => rw [readMembers, readMembers, dropSpace_blanks h]

theorem readMember_blanks (h : ∀ c ∈ bs, isSpace c = true) (fuel : Nat) (cs : List Char) :
    readMember fuel (bs ++ cs) = readMember fuel cs := by
  cases fuel with
  | zero => rfl
  | succ fuel => rw [readMember, readMember, dropSpace_blanks h]

/-- A blank ends every number. -/
theorem EndsNumber.blanks {rest : List Char} (hrest : EndsNumber rest)
    (h : ∀ c ∈ bs, isSpace c = true) : EndsNumber (bs ++ rest) := by
  cases bs with
  | nil => exact hrest
  | cons b bs =>
    intro c hc
    obtain rfl := Option.some.inj hc
    have hb : b = ' ' ∨ b = '\t' ∨ b = '\n' ∨ b = '\r' := by
      simpa [isSpace, or_assoc] using h b List.mem_cons_self
    rcases hb with rfl | rfl | rfl | rfl <;> decide

end Blanks

theorem endsNumber_of_head {c : Char} (hc : c ∈ [',', ']', '\x7d']) (rest : List Char) :
    EndsNumber (c :: rest) := by
  intro c' hc'
  obtain rfl := Option.some.inj hc'
  fin_cases hc <;> decide

/-! ### Where a value begins -/

/-- The text begins a value: neither a blank nor a bracket that closes stands in front. -/
def BeginsValue (cs : List Char) : Prop :=
  ∃ c more, cs = c :: more ∧ isSpace c = false ∧ c ≠ ']'

theorem BeginsValue.append {cs : List Char} (h : BeginsValue cs) (rest : List Char) :
    BeginsValue (cs ++ rest) := by
  obtain ⟨c, more, rfl, hc⟩ := h
  exact ⟨c, more ++ rest, rfl, hc⟩

theorem BeginsValue.dropSpace {cs : List Char} (h : BeginsValue cs) : dropSpace cs = cs := by
  obtain ⟨c, more, rfl, hc, -⟩ := h
  simp [Json.dropSpace, hc]

theorem BeginsValue.length_pos {cs : List Char} (h : BeginsValue cs) : 0 < cs.length := by
  obtain ⟨c, more, rfl, -⟩ := h
  exact Nat.zero_lt_succ _

theorem beginsValue_of_digits {d : Nat} (h : d < 10) (rest : List Char) :
    BeginsValue (Nat.digitChar d :: rest) := by
  refine ⟨_, rest, rfl, ?_⟩
  revert d
  decide

theorem beginsValue_number {n : Numeral} (h : WellWritten n) : BeginsValue n.chars := by
  rw [← List.append_nil n.chars, chars_numeral]
  cases n.negative with
  | true => exact ⟨_, _, rfl, by decide⟩
  | false =>
    cases hwhole : n.whole with
    | nil => exact absurd hwhole h.begun
    | cons d ds => exact beginsValue_of_digits (h.whole d (by simp [hwhole])) _

/-! ### Reading back -/

namespace Spacing

variable {sp : Spacing}

theorem endsNumber_itemsBehind (depth : Nat) (items : List Json) (rest : List Char) :
    EndsNumber (sp.itemsBehind depth items ++ rest) := by
  cases items with
  | nil =>
    rw [itemsBehind, List.append_assoc]
    exact (endsNumber_of_head (by decide) rest).blanks (sp.blank_line depth)
  | cons j items => exact endsNumber_of_head (by decide) _

theorem endsNumber_membersBehind (depth : Nat) (members : List (Json × Json)) (rest : List Char) :
    EndsNumber (sp.membersBehind depth members ++ rest) := by
  cases members with
  | nil =>
    rw [membersBehind, List.append_assoc]
    exact (endsNumber_of_head (by decide) rest).blanks (sp.blank_line depth)
  | cons m members => exact endsNumber_of_head (by decide) _

theorem beginsValue_chars (sp : Spacing) {j : Json} (h : j.Proper) (depth : Nat) :
    BeginsValue (sp.chars depth j) := by
  cases h with
  | null => exact ⟨_, _, rfl, by decide⟩
  | bool value => cases value <;> exact ⟨_, _, rfl, by decide⟩
  | number h => exact beginsValue_number h
  | string s => exact ⟨_, _, rfl, by decide⟩
  | @list items h => cases items <;> exact ⟨_, _, rfl, by decide⟩
  | @record members h => cases members <;> exact ⟨_, _, rfl, by decide⟩

/-- Whatever follows a value and could not belong to it, the value is read and that is left. -/
def ReadBack (sp : Spacing) (j : Json) : Prop :=
  ∀ depth rest fuel, EndsNumber rest → 2 * (sp.chars depth j).length ≤ fuel →
    readValue fuel (sp.chars depth j ++ rest) = (j, some rest)

variable {depth fuel : Nat} {rest : List Char}

theorem readItem_readBack {j : Json} {items : List Json} (hj : sp.ReadBack j)
    (hfuel : 2 * (sp.chars (depth + 1) j).length ≤ fuel)
    (hrest : readItems fuel false (sp.itemsBehind depth items ++ rest) = (items, none, some rest)) :
    readItem (fuel + 1) (sp.line (depth + 1) ++
      (sp.chars (depth + 1) j ++ (sp.itemsBehind depth items ++ rest))) =
        (j :: items, none, some rest) := by
  rw [readItem, readValue_blanks (sp.blank_line _),
    hj _ _ fuel (endsNumber_itemsBehind depth items rest) hfuel]
  simp only [hrest]

theorem readItems_behind {items : List Json} (hproper : ∀ j ∈ items, j.Proper)
    (hitems : ∀ j ∈ items, sp.ReadBack j) (depth : Nat) (rest : List Char) {fuel : Nat}
    (hfuel : 2 * (sp.itemsBehind depth items).length ≤ fuel) :
    readItems fuel false (sp.itemsBehind depth items ++ rest) = (items, none, some rest) := by
  induction items generalizing fuel with
  | nil =>
    obtain ⟨fuel, rfl⟩ : ∃ less, fuel = less + 1 := ⟨fuel - 1, by simp [itemsBehind] at hfuel; omega⟩
    rw [itemsBehind, List.append_assoc, readItems_blanks (sp.blank_line depth)]
    rfl
  | cons j items ih =>
    simp only [itemsBehind, List.length_cons, List.length_append] at hfuel
    obtain ⟨fuel, rfl⟩ : ∃ less, fuel = less + 2 := ⟨fuel - 2, by omega⟩
    obtain ⟨hfirst, hproper⟩ := List.forall_mem_cons.1 hproper
    obtain ⟨hj, hitems⟩ := List.forall_mem_cons.1 hitems
    have hrest : readItems fuel false (sp.itemsBehind depth items ++ rest) =
        (items, none, some rest) := ih hproper hitems (by omega)
    -- The comma is not followed by a bracket.
    have hnext : (dropSpace (sp.line (depth + 1) ++
        (sp.chars (depth + 1) j ++ (sp.itemsBehind depth items ++ rest)))).head? ≠ some ']' := by
      have hbegins := (sp.beginsValue_chars hfirst (depth + 1)).append
        (sp.itemsBehind depth items ++ rest)
      rw [dropSpace_blanks (sp.blank_line _), hbegins.dropSpace]
      obtain ⟨c, more, hc, -, hbracket⟩ := hbegins
      rw [hc]
      simpa using hbracket
    have hcomma (cs : List Char) : dropSpace (',' :: cs) = ',' :: cs := rfl
    rw [itemsBehind, List.cons_append, List.append_assoc, List.append_assoc, readItems, hcomma]
    simp only [hnext, if_false]
    exact readItem_readBack hj (by omega) hrest

theorem readMember_readBack {m : String × Json} {members : List (Json × Json)}
    (hm : sp.ReadBack m.2) (hfuel : 2 * (sp.chars (depth + 1) m.2).length ≤ fuel)
    (hrest : readMembers fuel false (sp.membersBehind depth members ++ rest) =
      (members, none, some rest)) :
    readMember (fuel + 1) (sp.line (depth + 1) ++ (quotedChars m.1 ++ (':' :: (sp.colon ++
      (sp.chars (depth + 1) m.2 ++ (sp.membersBehind depth members ++ rest)))))) =
        ((text m.1, m.2) :: members, none, some rest) := by
  have hkey (cs : List Char) :
      quotedChars m.1 ++ cs = '"' :: (m.1.toList.flatMap escapedChar ++ '"' :: cs) := by
    simp [quotedChars]
  have hquote (cs : List Char) : dropSpace ('"' :: cs) = '"' :: cs := rfl
  have hcolon (cs : List Char) : readColon (':' :: cs) = .ok cs := rfl
  rw [readMember_blanks (sp.blank_line _), hkey, readMember, hquote]
  simp only [if_true, readString_escaped, hcolon, readValue_blanks sp.blank_colon,
    hm _ _ fuel (endsNumber_membersBehind depth members rest) hfuel, hrest]
  rfl

theorem readMembers_behind {members : List (String × Json)}
    (hmembers : ∀ m ∈ members, sp.ReadBack m.2) (depth : Nat) (rest : List Char) {fuel : Nat}
    (hfuel : 2 * (sp.membersBehind depth (members.map fun m => (text m.1, m.2))).length ≤ fuel) :
    readMembers fuel false
        (sp.membersBehind depth (members.map fun m => (text m.1, m.2)) ++ rest) =
      (members.map fun m => (text m.1, m.2), none, some rest) := by
  induction members generalizing fuel with
  | nil =>
    obtain ⟨fuel, rfl⟩ : ∃ less, fuel = less + 1 :=
      ⟨fuel - 1, by simp [membersBehind] at hfuel; omega⟩
    rw [List.map_nil, membersBehind, List.append_assoc, readMembers_blanks (sp.blank_line depth)]
    rfl
  | cons m members ih =>
    simp only [List.map_cons, membersBehind, List.length_cons, List.length_append] at hfuel
    obtain ⟨fuel, rfl⟩ : ∃ less, fuel = less + 2 := ⟨fuel - 2, by omega⟩
    obtain ⟨hm, hmembers⟩ := List.forall_mem_cons.1 hmembers
    have hrest : readMembers fuel false
          (sp.membersBehind depth (members.map fun m => (text m.1, m.2)) ++ rest) =
        (members.map fun m => (text m.1, m.2), none, some rest) := ih hmembers (by omega)
    have hcomma (cs : List Char) : dropSpace (',' :: cs) = ',' :: cs := rfl
    rw [List.map_cons, membersBehind, List.cons_append, readMembers, hcomma]
    simp only [List.append_assoc, List.cons_append]
    exact readMember_readBack hm (by omega) hrest

theorem length_itemsBehind_pos (sp : Spacing) (depth : Nat) (items : List Json) :
    0 < (sp.itemsBehind depth items).length := by
  cases items <;> simp [itemsBehind]

theorem readBack_list {items : List Json} (hproper : ∀ j ∈ items, j.Proper)
    (hitems : ∀ j ∈ items, sp.ReadBack j) : sp.ReadBack (list items) := by
  intro depth rest fuel _ hfuel
  have hbracket (cs : List Char) : dropSpace ('[' :: cs) = '[' :: cs := rfl
  cases items with
  | nil =>
    replace hfuel : 4 ≤ fuel := hfuel
    obtain ⟨fuel, rfl⟩ : ∃ less, fuel = less + 2 := ⟨fuel - 2, by omega⟩
    rfl
  | cons j items =>
    obtain ⟨hfirst, hproper⟩ := List.forall_mem_cons.1 hproper
    obtain ⟨hj, hitems⟩ := List.forall_mem_cons.1 hitems
    have hbegins := sp.beginsValue_chars hfirst (depth + 1)
    have hpos := hbegins.length_pos
    have hmore := sp.length_itemsBehind_pos depth items
    have hchars : sp.chars depth (list (j :: items)) =
        '[' :: (sp.line (depth + 1) ++ (sp.chars (depth + 1) j ++ sp.itemsBehind depth items)) := rfl
    rw [hchars] at hfuel ⊢
    simp only [List.length_cons, List.length_append] at hfuel
    obtain ⟨fuel, rfl⟩ : ∃ less, fuel = less + 3 := ⟨fuel - 3, by omega⟩
    have hrest : readItems fuel false (sp.itemsBehind depth items ++ rest) =
        (items, none, some rest) := readItems_behind hproper hitems depth rest (by omega)
    have hread := readItem_readBack hj (by omega) hrest
    have hitem : readItems (fuel + 2) true (sp.line (depth + 1) ++
        (sp.chars (depth + 1) j ++ (sp.itemsBehind depth items ++ rest))) =
          readItem (fuel + 1) (sp.line (depth + 1) ++
            (sp.chars (depth + 1) j ++ (sp.itemsBehind depth items ++ rest))) := by
      have hbegins' := hbegins.append (sp.itemsBehind depth items ++ rest)
      rw [readItems_blanks (sp.blank_line _), readItem_blanks (sp.blank_line _), readItems,
        hbegins'.dropSpace]
      obtain ⟨c, more, hc, -, hclose⟩ := hbegins'
      rw [hc]
      simp only [if_neg hclose, if_true]
    rw [List.cons_append, List.append_assoc, List.append_assoc, readValue, hbracket]
    simp only [Char.reduceEq, if_false, if_true, hitem, hread]
    rfl

theorem readBack_record {members : List (String × Json)}
    (hmembers : ∀ m ∈ members, sp.ReadBack m.2) : sp.ReadBack (record members) := by
  intro depth rest fuel _ hfuel
  have hbrace (cs : List Char) : dropSpace ('\x7b' :: cs) = '\x7b' :: cs := rfl
  cases members with
  | nil =>
    replace hfuel : 4 ≤ fuel := hfuel
    obtain ⟨fuel, rfl⟩ : ∃ less, fuel = less + 2 := ⟨fuel - 2, by omega⟩
    rfl
  | cons m members =>
    obtain ⟨hm, hmembers⟩ := List.forall_mem_cons.1 hmembers
    have hchars : sp.chars depth (record (m :: members)) =
        '\x7b' :: (sp.line (depth + 1) ++ (quotedChars m.1 ++ (':' :: (sp.colon ++
          (sp.chars (depth + 1) m.2 ++
            sp.membersBehind depth (members.map fun m => (text m.1, m.2))))))) := rfl
    have hquoted : 2 ≤ (quotedChars m.1).length := by simp [quotedChars]
    rw [hchars] at hfuel ⊢
    simp only [List.length_append, List.length_cons] at hfuel
    obtain ⟨fuel, rfl⟩ : ∃ less, fuel = less + 3 := ⟨fuel - 3, by omega⟩
    have hrest : readMembers fuel false
          (sp.membersBehind depth (members.map fun m => (text m.1, m.2)) ++ rest) =
        (members.map fun m => (text m.1, m.2), none, some rest) :=
      readMembers_behind hmembers depth rest (by omega)
    have hread := readMember_readBack hm (by omega) hrest
    have hmember (cs : List Char) : readMembers (fuel + 2) true
        (sp.line (depth + 1) ++ (quotedChars m.1 ++ cs)) =
          readMember (fuel + 1) (sp.line (depth + 1) ++ (quotedChars m.1 ++ cs)) := by
      rw [readMembers_blanks (sp.blank_line _), readMember_blanks (sp.blank_line _)]
      rfl
    rw [List.cons_append, readValue, hbrace]
    simp only [Char.reduceEq, if_false, if_true, List.append_assoc, List.cons_append, hmember,
      hread]
    rfl

/-- A digit begins a number without a sign. -/
theorem readValue_of_digit {d : Nat} (h : d < 10) (fuel : Nat) (rest : List Char) :
    readValue (fuel + 1) (Nat.digitChar d :: rest) = readNumber false (Nat.digitChar d :: rest) := by
  have hspace := (beginsValue_of_digits h rest).dropSpace
  have hdigit := isDigit_digitChar h
  obtain ⟨h1, h2, h3, h4, h5, h6, h7⟩ : Nat.digitChar d ≠ '"' ∧ Nat.digitChar d ≠ '[' ∧
      Nat.digitChar d ≠ '\x7b' ∧ Nat.digitChar d ≠ 'n' ∧ Nat.digitChar d ≠ 't' ∧
      Nat.digitChar d ≠ 'f' ∧ Nat.digitChar d ≠ '-' := by
    clear hspace hdigit
    revert d
    decide
  rw [readValue, hspace]
  simp only [h1, h2, h3, h4, h5, h6, h7, if_false, hdigit, if_true]

theorem readBack_number {n : Numeral} (h : WellWritten n) : sp.ReadBack (.number n) := by
  intro depth rest fuel hrest hfuel
  replace hfuel : 2 * n.chars.length ≤ fuel := hfuel
  have hpos := (beginsValue_number h).length_pos
  obtain ⟨fuel, rfl⟩ : ∃ less, fuel = less + 1 := ⟨fuel - 1, by omega⟩
  have hread := readNumber_written h hrest
  show readValue (fuel + 1) (n.chars ++ rest) = _
  rw [chars_numeral]
  cases hsign : n.negative with
  | true =>
    rw [hsign] at hread
    have hminus (cs : List Char) : dropSpace ('-' :: cs) = '-' :: cs := rfl
    rw [if_pos rfl, List.singleton_append, readValue, hminus]
    simp only [Char.reduceEq, if_false, if_true, hread]
  | false =>
    rw [hsign] at hread
    cases hwhole : n.whole with
    | nil => exact absurd hwhole h.begun
    | cons d ds =>
      have hd : d < 10 := h.whole d (by simp [hwhole])
      rw [hwhole] at hread
      exact (readValue_of_digit hd fuel _).trans hread

theorem readBack_string (s : String) : sp.ReadBack (text s) := by
  intro depth rest fuel _ hfuel
  replace hfuel : 2 * (quotedChars s).length ≤ fuel := hfuel
  obtain ⟨fuel, rfl⟩ : ∃ less, fuel = less + 1 := ⟨fuel - 1, by simp [quotedChars] at hfuel; omega⟩
  have hquoted : quotedChars s ++ rest = '"' :: (s.toList.flatMap escapedChar ++ '"' :: rest) := by
    simp [quotedChars]
  have hquote (cs : List Char) : dropSpace ('"' :: cs) = '"' :: cs := rfl
  show readValue (fuel + 1) (quotedChars s ++ rest) = _
  rw [hquoted, readValue, hquote]
  simp only [if_true, readString_escaped]
  rfl

theorem readBack_of_proper (sp : Spacing) {j : Json} (h : j.Proper) : sp.ReadBack j := by
  induction h with
  | null =>
    intro depth rest fuel _ hfuel
    replace hfuel : 8 ≤ fuel := hfuel
    obtain ⟨fuel, rfl⟩ : ∃ less, fuel = less + 1 := ⟨fuel - 1, by omega⟩
    rfl
  | bool value =>
    intro depth rest fuel _ hfuel
    have hpos := (sp.beginsValue_chars (.bool value) depth).length_pos
    obtain ⟨fuel, rfl⟩ : ∃ less, fuel = less + 1 := ⟨fuel - 1, by omega⟩
    cases value <;> rfl
  | number h => exact readBack_number h
  | string s => exact readBack_string s
  | list h ih => exact readBack_list h ih
  | record h ih => exact readBack_record ih

/-- Blanks may follow the text of a tree. -/
theorem read_chars (sp : Spacing) {j : Json} (h : j.Proper) {bs : List Char}
    (hbs : ∀ c ∈ bs, isSpace c = true) :
    Json.read (String.ofList (sp.chars 0 j ++ bs)) = ⟨j, false⟩ := by
  have hnone : EndsNumber [] := nofun
  have hends := hnone.blanks hbs
  rw [List.append_nil] at hends
  have hfuel : 2 * (sp.chars 0 j).length ≤ 4 * (sp.chars 0 j ++ bs).length + 4 := by
    rw [List.length_append]
    omega
  have hread := sp.readBack_of_proper h 0 bs _ hends hfuel
  have hblank : dropSpace bs = [] := by
    have hdropped := dropSpace_blanks hbs []
    rwa [List.append_nil] at hdropped
  rw [Json.read, String.toList_ofList, hread]
  dsimp only
  rw [hblank]
  rfl

/-! ### How a tree is written -/

theorem itemChars_cons {j : Json} {items : List Json}
    (h : ∀ i ∈ j :: items, tight.chars (depth + 1) i = i.chars) :
    itemChars (j :: items) = tight.chars (depth + 1) j ++ tight.itemsBehind depth items := by
  induction items generalizing j with
  | nil =>
    rw [h j List.mem_cons_self]
    rfl
  | cons i items ih =>
    show j.chars ++ ',' :: itemChars (i :: items) = _
    rw [ih fun i hi => h i (List.mem_cons_of_mem _ hi), h j List.mem_cons_self]
    rfl

theorem memberChars_cons {m : String × Json} {members : List (String × Json)}
    (h : ∀ n ∈ m :: members, tight.chars (depth + 1) n.2 = n.2.chars) :
    memberChars ((m :: members).map fun m => (text m.1, m.2)) =
      quotedChars m.1 ++ (':' :: (tight.chars (depth + 1) m.2 ++
        tight.membersBehind depth (members.map fun m => (text m.1, m.2)))) := by
  induction members generalizing m with
  | nil =>
    rw [h m List.mem_cons_self]
    show quotedChars m.1 ++ ':' :: m.2.chars ++ ['\x7d'] = _
    rw [List.append_assoc]
    rfl
  | cons n members ih =>
    show quotedChars m.1 ++ ':' :: m.2.chars ++ ',' :: memberChars ((n :: members).map _) = _
    rw [ih fun i hi => h i (List.mem_cons_of_mem _ hi), h m List.mem_cons_self, List.append_assoc]
    rfl

theorem chars_tight {j : Json} (h : j.Proper) (depth : Nat) : tight.chars depth j = j.chars := by
  induction h generalizing depth with
  | null | bool | number | string => rfl
  | @list items h ih =>
    cases items with
    | nil => rfl
    | cons i items => exact congrArg ('[' :: ·) (itemChars_cons fun i hi => ih i hi _).symm
  | @record members h ih =>
    cases members with
    | nil => rfl
    | cons m members => exact congrArg ('\x7b' :: ·) (memberChars_cons fun m hm => ih m hm _).symm

theorem indentedItems_false {items : List Json}
    (h : ∀ i ∈ items, perLine.chars (depth + 1) i = i.indentedChars (depth + 1)) :
    indentedItems depth false items = perLine.itemsBehind depth items := by
  induction items with
  | nil => rfl
  | cons i items ih =>
    obtain ⟨hi, hitems⟩ := List.forall_mem_cons.1 h
    rw [indentedItems, itemsBehind, ← hi, ih hitems]
    simp [perLine]

theorem indentedMembers_false {members : List (String × Json)}
    (h : ∀ m ∈ members, perLine.chars (depth + 1) m.2 = m.2.indentedChars (depth + 1)) :
    indentedMembers depth false (members.map fun m => (text m.1, m.2)) =
      perLine.membersBehind depth (members.map fun m => (text m.1, m.2)) := by
  induction members with
  | nil => rfl
  | cons m members ih =>
    obtain ⟨hm, hmembers⟩ := List.forall_mem_cons.1 h
    rw [List.map_cons, indentedMembers, membersBehind, ← hm, ih hmembers]
    simp [perLine]

theorem chars_perLine {j : Json} (h : j.Proper) (depth : Nat) :
    perLine.chars depth j = j.indentedChars depth := by
  induction h generalizing depth with
  | null | bool | number | string => rfl
  | @list items h ih =>
    cases items with
    | nil => rfl
    | cons i items =>
      have hrest := indentedItems_false fun i hi => ih i (List.mem_cons_of_mem _ hi) (depth + 1)
      have hfirst := ih i List.mem_cons_self (depth + 1)
      show '[' :: (lineStart (depth + 1) ++ (perLine.chars (depth + 1) i ++ _)) =
        '[' :: ([] ++ lineStart (depth + 1) ++ i.indentedChars (depth + 1) ++
          indentedItems depth false items)
      rw [hrest, hfirst, List.nil_append, List.append_assoc]
  | @record members h ih =>
    cases members with
    | nil => rfl
    | cons m members =>
      have hrest := indentedMembers_false fun m hm => ih m (List.mem_cons_of_mem _ hm) (depth + 1)
      have hfirst := ih m List.mem_cons_self (depth + 1)
      show '\x7b' :: (lineStart (depth + 1) ++ (quotedChars m.1 ++
          (':' :: ([' '] ++ (perLine.chars (depth + 1) m.2 ++ _))))) =
        '\x7b' :: ([] ++ lineStart (depth + 1) ++ quotedChars m.1 ++ [':', ' '] ++
          m.2.indentedChars (depth + 1) ++
            indentedMembers depth false (members.map fun m => (text m.1, m.2)))
      rw [hrest, hfirst]
      simp

end Spacing

/-- **The text of a tree is read back as the tree.** -/
theorem read_compact {j : Json} (h : j.Proper) : Json.read j.compact = ⟨j, false⟩ := by
  have hread := Spacing.tight.read_chars h (List.forall_mem_nil _)
  rwa [List.append_nil, Spacing.chars_tight h] at hread

/-- **So is the text with one member or item per line**, also if blanks follow it. -/
theorem read_indented {j : Json} (h : j.Proper) {bs : List Char} (hbs : ∀ c ∈ bs, isSpace c = true) :
    Json.read (j.indented ++ String.ofList bs) = ⟨j, false⟩ := by
  have hread := Spacing.perLine.read_chars h hbs
  rwa [Spacing.chars_perLine h, String.ofList_append] at hread

/-- A text is decoded as the tree that it stands for is read. -/
theorem decode_eq {α : Type} (read : Read α) {j : Json} {s : String} (hs : Json.read s = ⟨j, false⟩) :
    decode read s = read j := by
  rw [decode, hs]
  cases read j <;> simp [bind, Except.bind, pure, Except.pure]

theorem decode_of_read {α : Type} {read : Read α} {a : α} {j : Json} {s : String}
    (hs : Json.read s = ⟨j, false⟩) (h : read j = .ok a) : decode read s = .ok a :=
  (decode_eq read hs).trans h

end PlayerWatch.Json
