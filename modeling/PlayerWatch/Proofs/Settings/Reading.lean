import PlayerWatch.Proofs.Settings.Keys

/-!
# Reading settings from a tree

A setting is read from what stands under its name in its section (`readIn_content`), and a number
that was written as a whole number is read as that number. So a tree whose player section holds a text
and a port has that player, whatever else it holds (`ofNode_of_player`).
-/

namespace PlayerWatch.Settings

open Number Text

variable {root : Node}

/-! ### Files -/

/-- A file in the working directory, where settings are looked for without any variables. -/
theorem locate_here (files : Files) : files.locate "." = [] := by
  -- Splitting goes on by well-founded recursion, so it is opened once for each character.
  have hsplit : ".".splitOn "/" = ["."] := by
    rw [String.splitOn, if_neg (by decide)]
    unfold String.splitOnAux
    rw [if_neg (by decide +kernel), if_neg (by decide +kernel)]
    unfold String.splitOnAux
    decide +kernel
  have hnames : names "." = [] := by
    rw [names, hsplit]
    decide
  rw [Files.locate, if_neg (by decide), hnames]

/-- What is loaded can be tested where it cannot be written out. -/
theorem exists_of_any {α : Type} {loaded : Except LoadError α} {test : α → Bool}
    (h : loaded.toOption.any test = true) : ∃ a, loaded = .ok a ∧ test a = true := by
  cases loaded with
  | error _ => cases h
  | ok a => exact ⟨a, rfl, h⟩

/-! ### Numbers -/

theorem readNatural_integer (key : String) (origin : Option String) (n : Nat) :
    readNatural key (.scalar origin (.integer n)) = .ok (UInt64.ofNat n) := by
  rw [readNatural, if_pos (Int.natCast_nonneg n), Int.toNat_natCast]

theorem readPort_integer (key : String) (origin : Option String) {n : Nat} (h : n < twoTo 16) :
    readPort key (.scalar origin (.integer n)) = .ok (UInt16.ofNat n) := by
  have hword : n < 2 ^ 64 := Nat.lt_trans h (by decide)
  have hn : (UInt64.ofNat n).toNat = n := UInt64.toNat_ofNat_of_lt' hword
  show (readNatural key (.scalar origin (.integer n)) >>= _) = _
  rw [readNatural_integer]
  show (if (UInt64.ofNat n).toNat < twoTo 16 then _ else _) = _
  rw [hn, if_pos h]

/-! ### Sections -/

/-- The content of a section; nothing is in one that is missing. -/
def Node.content (root : Node) (part : Section) : Node := (root.child? part.key).getD .empty

/-- **A setting is read from what stands under its name in its section**, and it is the default if
nothing stands there. -/
theorem readIn_content {α : Type} {part : Section} (hsection : root.IsSection part.key)
    (name : String) (place : Nat) (read : ReadSetting α) (default : α) :
    readIn part (root.content part) name place read default =
      (root.setting? part.key name).elim (.ok default) (read (part.key ++ "." ++ name)) := by
  rw [Node.content, Node.setting?]
  cases hpart : root.child? part.key with
  | none => rfl
  | some content =>
    obtain ⟨origin, entries, rfl⟩ := hsection content hpart
    rw [Option.getD_some, readIn]
    cases hname : entries.lookup name <;> simp [Node.child?, hname]

/-- The player of a tree that holds a host and a port. -/
theorem ofNode_of_player {host : String} {port : UInt16} {origin origin' : Option String}
    (hsection : root.IsSection Section.player.key)
    (hhost : root.setting? Section.player.key "host" = some (.scalar origin (.text host)))
    (hport : root.setting? Section.player.key "port" = some (.scalar origin' (.integer port.toNat))) :
    ofNode root = (WatchSettings.ofNode (root.content .watch)).map fun watch => ⟨⟨host, port⟩, watch⟩ := by
  have hreads : PlayerSettings.ofNode (root.content .player) = .ok ⟨host, port⟩ := by
    rw [PlayerSettings.ofNode, readIn_content hsection, readIn_content hsection, hhost, hport,
      Option.elim_some, Option.elim_some, readPort_integer _ _ port.toNat_lt, UInt16.ofNat_toNat]
    rfl
  show (PlayerSettings.ofNode (root.content .player) >>= _) = _
  rw [hreads]
  cases hwatch : WatchSettings.ofNode (root.content .watch) with
  | error m => show (WatchSettings.ofNode (root.content .watch) >>= _) = _; rw [hwatch]; rfl
  | ok watch => show (WatchSettings.ofNode (root.content .watch) >>= _) = _; rw [hwatch]; rfl

/-! ### Loads -/

theorem load_of_ofFiles {files : Files} {env : Variables} {file : Source}
    (hfile : ofFiles files env = .ok file) (overrides : Overrides) :
    load files env overrides =
      match ofNode (layered file env overrides) with
      | .error m => .error (.misfit m)
      | .ok s => checked s := by
  rw [load, hfile]
  rfl

theorem checked_eq_ok {s t : Settings} (h : checked s = .ok t) : s = t ∧ s.defect? = none := by
  unfold checked at h
  split at h
  · cases h
  · next hdefect => exact ⟨Except.ok.inj h, hdefect⟩

end PlayerWatch.Settings
