import Mathlib.Data.List.Pairwise
import PlayerWatch.Proofs.Settings.Ways

/-!
# The order in which entries are laid

Nobody says in which order the entries of a table are laid over a tree, nor those of the tables among
them (`Rearranged`). A source is taken apart into its pieces, single values with their whole way
(`overlay_eq_layAll`), and the same entries in another order have the same pieces in another order
(`Rearranged.perm_pieces`). So a source whose ways below a key all part leaves the same there in every
order (`child?_overlay`).
-/

namespace PlayerWatch.Settings

open Text

namespace Node

/-! ### The pieces of a value -/

/-- A value that is laid as a whole, with the way to it. -/
abbrev Piece := List Step × Node

namespace Piece

def behind (path : List Step) (p : Piece) : Piece := (path ++ p.1, p.2)

/-- Whether the way of a piece begins at a key. -/
def leadsTo (key : String) (p : Piece) : Bool := p.1.head? = some (.child key)

end Piece

mutual

/-- What a value consists of: single values and tables without entries. -/
def pieces : Node → List Piece
  | .table origin entries =>
    if entries.isEmpty then [([], .table origin [])] else entryPieces entries
  | value => [([], value)]

def entryPieces : List (String × Node) → List Piece
  | [] => []
  | (key, value) :: rest =>
    (pieces value).map (Piece.behind [.child (lower key)]) ++ entryPieces rest

end

/-- Lays pieces over a tree, the first of them first. -/
def layAll (root : Node) (pieces : List Piece) : Node :=
  pieces.foldl (fun root p => root.putPath p.1 p.2) root

/-- What pieces make of what was there. -/
def graftAll (old : Option Node) (pieces : List Piece) : Option Node :=
  pieces.foldl (fun old p => some (grafted p.1 p.2 old)) old

theorem pieces_ne_nil : ∀ value : Node, pieces value ≠ []
  | .scalar .. => by simp [pieces]
  | .list .. => by simp [pieces]
  | .table _ [] => by simp [pieces]
  | .table _ ((_, value) :: _) => by simp [pieces, entryPieces, pieces_ne_nil value]

theorem layAll_append (root : Node) (pieces more : List Piece) :
    root.layAll (pieces ++ more) = (root.layAll pieces).layAll more := List.foldl_append

/-- Parts below a name change what is under it. -/
theorem layAll_behind_child (root : Node) (key : String) {pieces : List Piece} (h : pieces ≠ []) :
    root.layAll (pieces.map (Piece.behind [.child key])) =
      root.adjust key fun old => (graftAll old pieces).getD nil := by
  induction pieces generalizing root with
  | nil => exact absurd rfl h
  | cons p rest ih =>
    have hfirst : root.putPath (Piece.behind [.child key] p).1 (Piece.behind [.child key] p).2 =
        root.adjust key (grafted p.1 p.2) := putPath_child root key p.1 p.2
    rw [List.map_cons, layAll, List.foldl_cons, hfirst]
    cases rest with
    | nil => rfl
    | cons q rest =>
      refine (ih _ (List.cons_ne_nil q rest)).trans ?_
      rw [adjust_adjust]
      rfl

/-- Parts below an item change that item. -/
theorem layAll_behind_item (root : Node) (i : Int) {pieces : List Piece} (h : pieces ≠ [])
    (hbelow : ∀ p ∈ pieces, p.1 ≠ []) :
    root.layAll (pieces.map (Piece.behind [.item i])) =
      root.adjustItem i fun old => old.layAll pieces := by
  induction pieces generalizing root with
  | nil => exact absurd rfl h
  | cons p rest ih =>
    have hfirst : root.putPath (Piece.behind [.item i] p).1 (Piece.behind [.item i] p).2 =
        root.adjustItem i fun old => old.putPath p.1 p.2 :=
      putPath_item root i (hbelow p List.mem_cons_self) p.2
    rw [List.map_cons, layAll, List.foldl_cons, hfirst]
    cases rest with
    | nil => rfl
    | cons q rest =>
      refine (ih _ (List.cons_ne_nil q rest) fun p' hp' => hbelow p' (List.mem_cons_of_mem p hp')).trans ?_
      rw [adjustItem_adjustItem]
      rfl

/-- Parts with ways of their own are laid over what was there. -/
theorem graftAll_of_below {pieces : List Piece} (h : pieces ≠ []) (hbelow : ∀ p ∈ pieces, p.1 ≠ [])
    (old : Option Node) : graftAll old pieces = some ((old.getD nil).layAll pieces) := by
  induction pieces generalizing old with
  | nil => exact absurd rfl h
  | cons p rest ih =>
    have hfirst := grafted_of_ne_nil (hbelow p List.mem_cons_self) p.2 old
    rw [graftAll, List.foldl_cons, hfirst, layAll, List.foldl_cons]
    cases rest with
    | nil => rfl
    | cons q rest =>
      exact ih (List.cons_ne_nil q rest) (fun p' hp' => hbelow p' (List.mem_cons_of_mem p hp')) _

theorem entryPieces_below : ∀ {entries : List (String × Node)}, ∀ p ∈ entryPieces entries, p.1 ≠ []
  | (key, value) :: rest, p, hp => by
    rw [entryPieces, List.mem_append] at hp
    rcases hp with hp | hp
    · obtain ⟨q, -, rfl⟩ := List.mem_map.1 hp
      exact List.cons_ne_nil _ _
    · exact entryPieces_below p hp

theorem putAll_getD {entries : List (String × Node)} (h : entries ≠ []) (old : Option Node) :
    putAll entries (old.getD nil) = putAll entries (old.getD empty) := by
  cases old with
  | some root => rfl
  | none =>
    obtain ⟨⟨key, value⟩, rest, rfl⟩ := List.exists_cons_of_ne_nil h
    show putAll _ nil = putAll _ empty
    rw [putAll, putAll, put_eq_adjust, put_eq_adjust]
    rfl

mutual

/-- **A value makes of what was there what its pieces make of it**, one after the other. -/
theorem graftAll_pieces : ∀ (value : Node) (old : Option Node),
    graftAll old (pieces value) = some (merged value old)
  | .scalar .., _ => rfl
  | .list .., _ => rfl
  | .table _ [], old => by
    rw [pieces]
    rfl
  | .table origin (e :: rest), old => by
    have hne : entryPieces (e :: rest) ≠ [] := by
      simp [entryPieces, pieces_ne_nil]
    have hpieces : pieces (.table origin (e :: rest)) = entryPieces (e :: rest) := by
      rw [pieces]
      rfl
    rw [hpieces, graftAll_of_below hne entryPieces_below, layAll_entryPieces (e :: rest), merged,
      putAll_getD (List.cons_ne_nil e rest)]

theorem layAll_entryPieces : ∀ (entries : List (String × Node)) (root : Node),
    root.layAll (entryPieces entries) = putAll entries root
  | [], root => by
    rw [entryPieces, putAll]
    rfl
  | (key, value) :: rest, root => by
    rw [entryPieces, layAll_append, layAll_behind_child root _ (pieces_ne_nil value),
      layAll_entryPieces rest, putAll, put_eq_adjust]
    congr 2
    funext old
    rw [graftAll_pieces value old, Option.getD_some]

end

/-! ### The pieces of a source -/

/-- Whether a path ends in a name. A table at its end is laid entry by entry then, and as a whole in the
place of an item. -/
def endsInName : List Step → Bool
  | [] => false
  | [.child _] => true
  | [.item _] => false
  | _ :: step :: path => endsInName (step :: path)

/-- What a value at the end of a path consists of. -/
def piecesAt (path : List Step) (value : Node) : List Piece :=
  if endsInName path then (pieces value).map (Piece.behind path) else [(path, value)]

theorem layAll_piecesAt (path : List Step) (value root : Node) :
    root.layAll (piecesAt path value) = root.putPath path value := by
  unfold piecesAt
  split
  · next hends =>
    -- Along the path, since two changes at one place are one.
    induction path using endsInName.induct generalizing root with
    | case1 => cases hends
    | case2 key =>
      rw [layAll_behind_child root key (pieces_ne_nil value), putPath_child]
      congr 1
      funext old
      rw [graftAll_pieces, Option.getD_some]
      rfl
    | case3 i => cases hends
    | case4 first step path ih =>
      rw [endsInName] at hends
      have hne : (pieces value).map (Piece.behind (step :: path)) ≠ [] := by simp [pieces_ne_nil]
      have hbelow : ∀ p ∈ (pieces value).map (Piece.behind (step :: path)), p.1 ≠ [] := by
        intro p hp
        obtain ⟨q, -, rfl⟩ := List.mem_map.1 hp
        exact List.cons_ne_nil _ _
      have hpieces : (pieces value).map (Piece.behind (first :: step :: path)) =
          ((pieces value).map (Piece.behind (step :: path))).map (Piece.behind [first]) := by
        rw [List.map_map]
        rfl
      rw [hpieces]
      cases first with
      | child key =>
        rw [layAll_behind_child root key hne, putPath_child]
        congr 1
        funext old
        rw [graftAll_of_below hne hbelow, Option.getD_some, ih _ hends,
          grafted_of_ne_nil (List.cons_ne_nil step path)]
      | item i =>
        rw [layAll_behind_item root i hne hbelow, putPath_item root i (List.cons_ne_nil step path)]
        congr 1
        funext old
        exact ih old hends
  · rfl

/-- The pieces of a value lie on its way. -/
theorem head?_of_mem_piecesAt {path : List Step} (hpath : path ≠ []) {value : Node} {p : Piece}
    (hp : p ∈ piecesAt path value) : p.1.head? = path.head? := by
  unfold piecesAt at hp
  split at hp
  · obtain ⟨q, -, rfl⟩ := List.mem_map.1 hp
    obtain ⟨step, rest, rfl⟩ := List.exists_cons_of_ne_nil hpath
    rfl
  · obtain rfl := List.mem_singleton.1 hp
    rfl

theorem entryPieces_eq (entries : List (String × Node)) :
    entryPieces entries = entries.flatMap fun e => piecesAt [.child (lower e.1)] e.2 := by
  induction entries with
  | nil => rw [entryPieces, List.flatMap_nil]
  | cons e rest ih =>
    rw [entryPieces, List.flatMap_cons, ih]
    rfl

end Node

namespace Source

open Node

/-- What a source consists of. -/
def pieces (source : Source) : List Piece :=
  source.flatMap fun e => piecesAt (Path.ofKey (lower e.1)) e.2

/-- **A source is laid piece by piece.** -/
theorem overlay_eq_layAll (root : Node) (source : Source) :
    root.overlay source = root.layAll source.pieces := by
  induction source generalizing root with
  | nil => rw [overlay_nil]; rfl
  | cons e rest ih =>
    have hpieces : pieces (e :: rest) = piecesAt (Path.ofKey (lower e.1)) e.2 ++ pieces rest := rfl
    rw [overlay_cons, hpieces, layAll_append, layAll_piecesAt, ih]

theorem exists_child_of_mem_pieces {source : Source} {p : Piece} (hp : p ∈ source.pieces) :
    ∃ name path, p.1 = .child name :: path := by
  obtain ⟨e, -, hp⟩ := List.mem_flatMap.1 hp
  obtain ⟨name, path, hpath⟩ := Path.ofKey_eq_child (lower e.1)
  have hhead := head?_of_mem_piecesAt (Path.ofKey_ne_nil _) hp
  rw [hpath, List.head?_cons] at hhead
  exact ⟨name, List.head?_eq_some_iff.1 hhead⟩

/-- What is under a key depends on the pieces that lead there. -/
theorem child?_layAll {key : String} {pieces : List Piece}
    (hpieces : ∀ p ∈ pieces, ∃ name path, p.1 = .child name :: path) {r s : Node}
    (h : r.child? key = s.child? key) :
    (r.layAll pieces).child? key = (s.layAll (pieces.filter (Piece.leadsTo key))).child? key := by
  induction pieces generalizing r s with
  | nil => exact h
  | cons p rest ih =>
    obtain ⟨⟨way, value⟩, rfl⟩ : ∃ q, q = p := ⟨p, rfl⟩
    obtain ⟨name, path, hway⟩ := hpieces _ List.mem_cons_self
    obtain rfl : way = .child name :: path := hway
    have hrest : ∀ p ∈ rest, ∃ name path, p.1 = .child name :: path :=
      fun p hp => hpieces p (List.mem_cons_of_mem _ hp)
    rw [layAll, List.foldl_cons]
    by_cases hname : name = key
    · subst hname
      rw [List.filter_cons_of_pos (by simp [Piece.leadsTo]), layAll, List.foldl_cons]
      apply ih hrest
      rw [child?_putPath, child?_putPath, if_pos rfl, if_pos rfl, h]
    · rw [List.filter_cons_of_neg (by simpa [Piece.leadsTo] using hname)]
      apply ih hrest
      rw [child?_putPath, if_neg (Ne.symm hname), h]

end Source

/-! ### Entries in another order -/

/-- The same entries in another order. A table among them may have its own in another order, if it is laid
entry by entry. -/
inductive Rearranged : (String → Bool) → Source → Source → Prop
  | nil {byEntry : String → Bool} : Rearranged byEntry [] []
  | cons {byEntry : String → Bool} {source other : Source} (e : String × Node)
      (rest : Rearranged byEntry source other) : Rearranged byEntry (e :: source) (e :: other)
  | swap {byEntry : String → Bool} (e e' : String × Node) (source : Source) :
      Rearranged byEntry (e :: e' :: source) (e' :: e :: source)
  | within {byEntry : String → Bool} {key : String} {entries others : List (String × Node)}
      (origin : Option String) (source : Source) (merged : byEntry key = true)
      (inner : Rearranged (fun _ => true) entries others) :
      Rearranged byEntry ((key, .table origin entries) :: source)
        ((key, .table origin others) :: source)
  | trans {byEntry : String → Bool} {source middle other : Source}
      (first : Rearranged byEntry source middle) (second : Rearranged byEntry middle other) :
      Rearranged byEntry source other

/-- Whether a table under a key is laid entry by entry. -/
def Source.laysEntries (key : String) : Bool := Node.endsInName (Path.ofKey (lower key))

namespace Rearranged

variable {byEntry : String → Bool} {source other : Source}

theorem refl (source : Source) : Rearranged byEntry source source := by
  induction source with
  | nil => exact .nil
  | cons e rest ih => exact .cons e ih

theorem symm (h : Rearranged byEntry source other) : Rearranged byEntry other source := by
  induction h with
  | nil => exact .nil
  | cons e _ ih => exact .cons e ih
  | swap e e' source => exact .swap e' e source
  | within origin source merged _ ih => exact .within origin source merged ih
  | trans _ _ ih ih' => exact .trans ih' ih

theorem of_perm (h : source.Perm other) : Rearranged byEntry source other := by
  induction h with
  | nil => exact .nil
  | cons e _ ih => exact .cons e ih
  | swap e e' source => exact .swap e' e source
  | trans _ _ ih ih' => exact .trans ih ih'

theorem append_left (more : Source) (h : Rearranged byEntry source other) :
    Rearranged byEntry (more ++ source) (more ++ other) := by
  induction more with
  | nil => exact h
  | cons e more ih => exact .cons e ih

/-- Entries are left out by their keys from both. -/
theorem filter (h : Rearranged byEntry source other) (p : String → Bool) :
    Rearranged byEntry (source.filter fun e => p e.1) (other.filter fun e => p e.1) := by
  induction h with
  | nil => exact .nil
  | cons e _ ih =>
    rw [List.filter_cons, List.filter_cons]
    split
    · exact .cons e ih
    · exact ih
  | swap e e' source =>
    exact of_perm ((List.Perm.swap e' e source).filter _)
  | @within _ key _ _ origin source merged inner _ =>
    rw [List.filter_cons, List.filter_cons]
    cases p key with
    | true => exact .within origin _ merged inner
    | false => exact refl _
  | trans _ _ ih ih' => exact .trans ih ih'

/-- **The same entries in another order have the same pieces in another order.** -/
theorem perm_flatMap (h : Rearranged byEntry source other) (way : String → List Node.Step)
    (hway : ∀ key, byEntry key = true → Node.endsInName (way key) = true) :
    (source.flatMap fun e => Node.piecesAt (way e.1) e.2).Perm
      (other.flatMap fun e => Node.piecesAt (way e.1) e.2) := by
  induction h generalizing way with
  | nil => exact .refl _
  | cons e _ ih =>
    rw [List.flatMap_cons, List.flatMap_cons]
    exact (ih way hway).append_left _
  | swap e e' source =>
    simp only [List.flatMap_cons]
    exact List.perm_append_comm_assoc _ _ _
  | @within _ key entries others origin source merged _ ih =>
    rw [List.flatMap_cons, List.flatMap_cons]
    refine List.Perm.append_right _ ?_
    have hentries : (Node.entryPieces entries).Perm (Node.entryPieces others) := by
      rw [Node.entryPieces_eq, Node.entryPieces_eq]
      exact ih (fun key => [.child (lower key)]) fun _ _ => rfl
    simp only [Node.piecesAt, hway key merged, if_true]
    refine List.Perm.map _ ?_
    -- One of the two tables is empty only if the other is.
    have hempty (entries : List (String × Node)) :
        (Node.entryPieces entries).isEmpty = entries.isEmpty := by
      cases entries <;> simp [Node.entryPieces, Node.pieces_ne_nil]
    rw [Node.pieces, Node.pieces, ← hempty entries, ← hempty others, hentries.isEmpty_eq]
    split
    · exact .refl _
    · exact hentries
  | trans _ _ ih ih' => exact (ih way hway).trans (ih' way hway)

theorem perm_pieces (h : Rearranged Source.laysEntries source other) :
    source.pieces.Perm other.pieces :=
  h.perm_flatMap (fun key => Path.ofKey (lower key)) fun _ hkey => hkey

end Rearranged

/-! ### Sources without contradictions -/

/-- No two values of a source are at odds below a key: their ways part. -/
def Source.Coherent (key : String) (source : Source) : Prop :=
  (source.pieces.filter (Node.Piece.leadsTo key)).Pairwise fun p q => Node.apart p.1 q.1 = true

instance (key : String) (source : Source) : Decidable (source.Coherent key) :=
  inferInstanceAs (Decidable (List.Pairwise _ _))

/-- **A source without contradictions leaves the same in every order.** -/
theorem Node.child?_overlay {key : String} {r s : Node} {source other : Source}
    (hc : source.Coherent key) (hother : Rearranged Source.laysEntries source other)
    (h : r.child? key = s.child? key) :
    (r.overlay source).child? key = (s.overlay other).child? key := by
  have hall (source : Source) {r : Node} (h : r.child? key = s.child? key) :
      (r.layAll source.pieces).child? key =
        (s.layAll (source.pieces.filter (Piece.leadsTo key))).child? key :=
    Source.child?_layAll (fun p hp => Source.exists_child_of_mem_pieces hp) h
  rw [Source.overlay_eq_layAll, Source.overlay_eq_layAll, hall source h, hall other rfl]
  congr 1
  refine (hother.perm_pieces.filter _).foldl_eq' ?_ s
  intro p hp q hq root
  by_cases hpq : p = q
  · rw [hpq]
  · have hsymm : Std.Symm fun p q : Piece => apart p.1 q.1 = true :=
      ⟨fun p q h => by rwa [apart_comm]⟩
    exact putPath_comm (hc.forall hp hq hpq) root p.2 q.2

end PlayerWatch.Settings
