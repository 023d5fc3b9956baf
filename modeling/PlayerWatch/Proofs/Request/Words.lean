import PlayerWatch.Request

/-!
# The words of a request

A player splits a line into words at the blanks outside double quotes. Quotes are dropped, and only
between them a backslash stands for the character behind it. The line of a request is split into its
name and the values of its arguments, if they are such that quotes can keep them together
(`words_line`): an argument is read as one word whatever stands behind it (`wordsFrom_written`), and
since a space comes next, the word ends there.
-/

namespace PlayerWatch

open Text

/-! ### Splitting a line into words -/

/-- Where in a line a player is. -/
inductive Position where
  | outside
  /-- Between double quotes. -/
  | within
  /-- Between double quotes, behind a backslash. -/
  | escaped

/-- The word that has been read, unless it is empty. -/
def wordOf (word : List Char) : List String := if word = [] then [] else [String.ofList word]

/-- The words of the rest of a line, of the first of which a part has been read. -/
def wordsFrom : Position → (word rest : List Char) → List String
  | _, word, [] => wordOf word
  | .outside, word, c :: cs =>
    if c = '"' then wordsFrom .within word cs
    else if isBlank c then wordOf word ++ wordsFrom .outside [] cs
    else wordsFrom .outside (word ++ [c]) cs
  | .within, word, c :: cs =>
    if c = '"' then wordsFrom .outside word cs
    else if c = '\\' then wordsFrom .escaped word cs
    else wordsFrom .within (word ++ [c]) cs
  | .escaped, word, c :: cs => wordsFrom .within (word ++ [c]) cs

/-- The words of a line. -/
def words (line : String) : List String := wordsFrom .outside [] line.toList

/-- Outside quotes a text without blanks and quotes is part of one word. -/
theorem wordsFrom_bare {cs : List Char} (h : ∀ c ∈ cs, isBlank c = false ∧ c ≠ '"')
    (word rest : List Char) :
    wordsFrom .outside word (cs ++ rest) = wordsFrom .outside (word ++ cs) rest := by
  induction cs generalizing word with
  | nil => rw [List.nil_append, List.append_nil]
  | cons c cs ih =>
    obtain ⟨⟨hblank, hquote⟩, hcs⟩ := List.forall_mem_cons.1 h
    rw [List.cons_append, wordsFrom, if_neg hquote, if_neg (ne_true_of_eq_false hblank), ih hcs,
      List.append_assoc, List.singleton_append]

/-- Between quotes so is a text without quotes and backslashes. -/
theorem wordsFrom_within {cs : List Char} (hquote : '"' ∉ cs) (hescape : '\\' ∉ cs)
    (word rest : List Char) :
    wordsFrom .within word (cs ++ rest) = wordsFrom .within (word ++ cs) rest := by
  induction cs generalizing word with
  | nil => rw [List.nil_append, List.append_nil]
  | cons c cs ih =>
    simp only [List.mem_cons, not_or] at hquote hescape
    rw [List.cons_append, wordsFrom, if_neg (Ne.symm hquote.1), if_neg (Ne.symm hescape.1),
      ih hquote.2 hescape.2, List.append_assoc, List.singleton_append]

/-! ### Requests whose words can be told apart -/

/-- An argument that is read as it is: it is not empty, it has no quotes, and no backslashes if it is
written between quotes. -/
structure Argument.Readable (a : Argument) : Prop where
  nonempty : a.value ≠ ""
  unquoted : '"' ∉ a.value.toList
  unescaped : a.isQuoted = true → '\\' ∉ a.value.toList

/-- A request that is read as it is: its name is a word without quotes, and its arguments are read as
they are. -/
structure Request.Readable (r : Request) : Prop where
  nonempty : r.name ≠ ""
  bare : ∀ c ∈ r.name.toList, isBlank c = false ∧ c ≠ '"'
  arguments : ∀ a ∈ r.arguments, a.Readable

instance (a : Argument) : Decidable a.Readable :=
  decidable_of_iff
    (a.value ≠ "" ∧ '"' ∉ a.value.toList ∧ (a.isQuoted = true → '\\' ∉ a.value.toList))
    ⟨fun h => ⟨h.1, h.2.1, h.2.2⟩, fun h => ⟨h.nonempty, h.unquoted, h.unescaped⟩⟩

theorem all_bare_iff {cs : List Char} :
    cs.all (fun c => !isBlank c && c != '"') = true ↔ ∀ c ∈ cs, isBlank c = false ∧ c ≠ '"' := by
  simp

instance (r : Request) : Decidable r.Readable :=
  decidable_of_iff
    (r.name ≠ "" ∧ r.name.toList.all (fun c => !isBlank c && c != '"') = true ∧
      ∀ a ∈ r.arguments, a.Readable)
    ⟨fun h => ⟨h.1, all_bare_iff.1 h.2.1, h.2.2⟩,
      fun h => ⟨h.nonempty, all_bare_iff.2 h.bare, h.arguments⟩⟩

/-- What is written of an argument is read as its value, and behind it the player is outside quotes. -/
theorem wordsFrom_written {a : Argument} (h : a.Readable) (rest : List Char) :
    wordsFrom .outside [] (a.written.toList ++ rest) = wordsFrom .outside a.value.toList rest := by
  unfold Argument.written
  split
  · next hquoted =>
    have hchars : ("\"" ++ a.value ++ "\"").toList ++ rest =
        '"' :: (a.value.toList ++ '"' :: rest) := by simp
    rw [hchars, wordsFrom, if_pos rfl, wordsFrom_within h.unquoted (h.unescaped hquoted),
      List.nil_append, wordsFrom, if_pos rfl]
  · next hbare =>
    cases a with
    | quoted text => exact absurd rfl hbare
    | bare text =>
      have hblank : ∀ c ∈ text.toList, isBlank c = false := by
        simpa [Argument.isQuoted] using hbare
      have hplain : ∀ c ∈ text.toList, isBlank c = false ∧ c ≠ '"' := by
        intro c hc
        refine ⟨hblank c hc, ?_⟩
        rintro rfl
        exact h.unquoted hc
      exact wordsFrom_bare hplain [] rest

/-- Behind a word each further argument is a word of its own. -/
theorem wordsFrom_arguments {arguments : List Argument} (h : ∀ a ∈ arguments, a.Readable)
    {word : List Char} (hword : word ≠ []) :
    wordsFrom .outside word (arguments.flatMap fun a => ' ' :: a.written.toList) =
      String.ofList word :: arguments.map Argument.value := by
  induction arguments generalizing word with
  | nil => simp [wordsFrom, wordOf, hword]
  | cons a arguments ih =>
    obtain ⟨ha, harguments⟩ := List.forall_mem_cons.1 h
    have hvalue : a.value.toList ≠ [] := by
      rw [ne_eq, String.toList_eq_nil_iff]
      exact ha.nonempty
    rw [List.flatMap_cons, List.cons_append, wordsFrom, if_neg (by decide), if_pos (by decide),
      wordsFrom_written ha, ih harguments hvalue, wordOf, if_neg hword, String.ofList_toList]
    rfl

namespace Request

theorem toList_foldl_written (arguments : List Argument) (text : String) :
    (arguments.foldl (fun text a => text ++ " " ++ a.written) text).toList =
      text.toList ++ arguments.flatMap fun a => ' ' :: a.written.toList := by
  induction arguments generalizing text with
  | nil => simp
  | cons a arguments ih => rw [List.foldl_cons, ih, List.flatMap_cons]; simp

theorem words_line {r : Request} (h : r.Readable) :
    words r.line = r.name :: r.arguments.map Argument.value := by
  have hname : r.name.toList ≠ [] := by
    rw [ne_eq, String.toList_eq_nil_iff]
    exact h.nonempty
  rw [words, line, toList_foldl_written, wordsFrom_bare h.bare, List.nil_append,
    wordsFrom_arguments h.arguments hname, String.ofList_toList]

/-- A list query is read as it is if the tag and all the words of the filters are. -/
theorem readable_list {tag : String} {filters : List (String × String)}
    (htag : (Argument.bare tag).Readable)
    (hfilters : ∀ f ∈ filters, (Argument.bare f.1).Readable ∧ (Argument.quoted f.2).Readable) :
    (list tag filters).Readable where
  nonempty := show "list" ≠ "" by decide
  bare := all_bare_iff.1 (show "list".toList.all (fun c => !isBlank c && c != '"') = true by decide)
  arguments := by
    intro a ha
    rcases List.mem_cons.1 ha with rfl | ha
    · exact htag
    · obtain ⟨f, hf, ha⟩ := List.mem_flatMap.1 ha
      simp only [List.mem_cons, List.not_mem_nil, or_false] at ha
      rcases ha with rfl | rfl
      · exact (hfilters f hf).1
      · exact (hfilters f hf).2

/-- **The line of a request is split into its name and the values of its arguments.** This holds of every
request with a name that is not empty and has neither blanks nor quotes, if no argument is empty or has
quotes and none that is written between quotes has a backslash. So two such requests have the same line
only if they have the same name and the same values, and the line of a list query is split into `list`,
the tag, and the tag and the value of each filter one after the other. -/
theorem line_split_into_words :
    (∀ r : Request, r.Readable → words r.line = r.name :: r.arguments.map Argument.value) ∧
    (∀ r r' : Request, r.Readable → r'.Readable → r.line = r'.line →
      r.name = r'.name ∧ r.arguments.map Argument.value = r'.arguments.map Argument.value) ∧
    ∀ (tag : String) (filters : List (String × String)), (Argument.bare tag).Readable →
      (∀ f ∈ filters, (Argument.bare f.1).Readable ∧ (Argument.quoted f.2).Readable) →
      words (list tag filters).line = "list" :: tag :: filters.flatMap fun f => [f.1, f.2] := by
  refine ⟨fun r => words_line, ?_, ?_⟩
  · intro r r' hr hr' hline
    have hwords : r.name :: r.arguments.map Argument.value =
        r'.name :: r'.arguments.map Argument.value := by
      rw [← words_line hr, ← words_line hr', hline]
    exact List.cons.inj hwords
  · intro tag filters htag hfilters
    rw [words_line (readable_list htag hfilters), list, List.map_cons, List.map_flatMap]
    rfl

/-- Blanks that are no spaces, a backslash outside quotes and an argument of one blank. -/
theorem spaced_find_split :
    let r : Request :=
      { name := "find", arguments := [.bare "any", .bare "two\u3000words", .quoted " ", .bare "a\\b"] }
    r.Readable ∧ r.line = "find any \"two\u3000words\" \" \" a\\b" ∧
      words r.line = ["find", "any", "two\u3000words", " ", "a\\b"] := by
  intro r
  have hr : r.Readable := by decide
  exact ⟨hr, by decide, line_split_into_words.1 r hr⟩

/-- A backslash between quotes is lost. -/
example : words (list "album" [("artist", "AC\\DC")]).line = ["list", "album", "artist", "ACDC"] := by
  decide

end Request

end PlayerWatch
