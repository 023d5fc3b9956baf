import Mathlib.Algebra.Group.Nat.Defs
import PlayerWatch.Proofs.Slots.Holding

/-!
# A slot is a register that counts

Calls on handles come one after another, in any order, and each is answered by what the calls before
it published on the slot of its handle (`answers_tell_history`). A reader does not get a status but the
cell where it stands (`Backs`). Cells are never written again, so a status that was read stays as it was
(`Remembers`).
-/

namespace PlayerWatch

namespace Slots

/-- Slots with the memory behind them. -/
structure Store where
  slots : Slots := {}
  /-- Every status that is published gets a cell of its own. -/
  cells : List Status := []
  /-- The cell of the status that a slot holds. -/
  held : Nat → Option Nat := fun _ => none
  /-- The cell that each call so far has read. -/
  brought : List (Option Nat) := []

namespace Store

/-- The cell of the status that the slot of a handle holds. -/
def cell? (s : Store) (handle : Nat) : Option Nat := s.slots.handles[handle]?.bind s.held

def look (s : Store) (cell : Option Nat) : Option Status := cell.bind fun i => s.cells[i]?

/-- The cell that a call reads. -/
def reads (s : Store) : Call → Option Nat
  | .read handle | .snapshot handle => s.cell? handle
  | _ => none

def act (s : Store) : Call → Store
  | .publish handle status =>
    { s with
      slots := s.slots.publish handle status
      cells := s.cells ++ [status]
      held := fun i =>
        if s.slots.handles[handle]? = some i then some s.cells.length else s.held i }
  | .share handle => { s with slots := s.slots.share handle }
  | .fresh => { s with slots := s.slots.fresh }
  | _ => s

def perform (s : Store) (c : Call) : Store := { s.act c with brought := s.brought ++ [s.reads c] }

def answer (s : Store) : Call → Answer
  | .publish handle status =>
    .generation ((s.slots.publish handle status).slot handle).generation.toNat
  | .read handle => .status (s.slots.slot handle).read
  | .snapshot handle =>
    .snapshot ((s.slots.slot handle).current.map fun c => (c.status, c.generation.toNat))
  | .generation handle => .generation (s.slots.slot handle).generation.toNat
  | .share _ | .fresh => .handle s.slots.handles.length
  | .revisit call => .status (s.look (s.brought.getD call none))

def answers (s : Store) : List Call → List Answer
  | [] => []
  | c :: rest => s.answer c :: (s.perform c).answers rest

theorem getElem?_answers (s : Store) (calls : List Call) (i : Nat) :
    (s.answers calls)[i]? =
      calls[i]?.map fun c => ((calls.take i).foldl perform s).answer c := by
  induction calls generalizing s i with
  | nil => rfl
  | cons c rest ih =>
    cases i with
    | zero => rfl
    | succ i => exact ih (s.perform c) i

end Store

def after (past : List Call) : Store := past.foldl Store.perform {}

theorem after_append (past : List Call) (c : Call) : after (past ++ [c]) = (after past).perform c :=
  List.foldl_append

variable {past : List Call} {c : Call} {h : Nat} {s : Store}

theorem Tells.perform (ht : Tells s.slots past) (hwell : WellMade (past ++ [c])) :
    Tells (s.perform c).slots (past ++ [c]) := by
  cases c with
  | publish h status => exact ht.publish hwell
  | share h => exact ht.share hwell
  | fresh => exact ht.fresh hwell
  | _ => exact ht.keep hwell rfl rfl

/-! ### What was read -/

/-- The cell that a slot holds has the status of the slot. A cell in use is one of those so far, so it
is not written again. -/
structure Backs (s : Store) : Prop where
  held : ∀ i slot, s.slots.slots[i]? = some slot → s.look (s.held i) = slot.read
  unheld : ∀ i, s.slots.slots.length ≤ i → s.held i = none
  held_lt : ∀ i cell, s.held i = some cell → cell < s.cells.length

/-- The cells that were read still have what was read. -/
structure Remembers (s : Store) (past : List Call) : Prop where
  length : s.brought.length = past.length
  recalls : ∀ i, s.look (s.brought.getD i none) = recalled past i
  brought_lt : ∀ cell, some cell ∈ s.brought → cell < s.cells.length

/-- A call leaves the cells as they are that there were before it. -/
theorem look_act (c : Call) {cell : Option Nat} (hcell : ∀ i, cell = some i → i < s.cells.length) :
    (s.act c).look cell = s.look cell := by
  cases cell with
  | none => rfl
  | some i =>
    cases c with
    | publish h status => exact List.getElem?_append_left (hcell i rfl)
    | _ => rfl

theorem Backs.start : Backs {} where
  held i slot hi := by
    have hlt : i < 1 := (List.getElem?_eq_some_iff.1 hi).1
    obtain rfl : i = 0 := Nat.lt_one_iff.1 hlt
    obtain rfl : {} = slot := Option.some.inj hi
    rfl
  unheld _ _ := rfl
  held_lt _ _ h := nomatch h

theorem getElem?_publish (s : Slots) (h : Nat) (status : Status) (i : Nat) :
    (s.publish h status).slots[i]? =
      if s.handles[h]? = some i then s.slots[i]?.map (Slot.publish · status) else s.slots[i]? := by
  rw [Slots.publish]
  cases hh : s.handles[h]? with
  | none => rfl
  | some j =>
    show (s.slots.modify j _)[i]? = _
    rw [List.getElem?_modify]
    by_cases hj : j = i
    · simp [hj]
    · simp [hj]

theorem length_publish (s : Slots) (h : Nat) (status : Status) :
    (s.publish h status).slots.length = s.slots.length := by
  rw [Slots.publish]
  cases s.handles[h]? with
  | none => rfl
  | some j => exact List.length_modify ..

theorem Backs.publish (hb : Backs s) (ht : Tells s.slots past) (h : Nat) (status : Status) :
    Backs (s.act (.publish h status)) := by
  have hlength : (s.act (.publish h status)).cells.length = s.cells.length + 1 :=
    List.length_append
  have hheld (i : Nat) : (s.act (.publish h status)).held i =
      if s.slots.handles[h]? = some i then some s.cells.length else s.held i := rfl
  constructor
  case held =>
    intro i slot hi
    replace hi : (s.slots.publish h status).slots[i]? = some slot := hi
    rw [getElem?_publish] at hi
    rw [hheld]
    by_cases hslot : s.slots.handles[h]? = some i
    · rw [if_pos hslot] at hi ⊢
      obtain ⟨old, -, rfl⟩ := Option.map_eq_some_iff.1 hi
      exact List.getElem?_concat_length
    · rw [if_neg hslot] at hi ⊢
      rw [look_act _ (hb.held_lt i)]
      exact hb.held i slot hi
  case unheld =>
    intro i hi
    replace hi : (s.slots.publish h status).slots.length ≤ i := hi
    rw [length_publish] at hi
    have hslot : s.slots.handles[h]? ≠ some i := by
      intro hslot
      have hlt := (List.getElem?_eq_some_iff.1 (ht.holds h i hslot)).1
      exact Nat.not_lt.2 hi hlt
    rw [hheld, if_neg hslot]
    exact hb.unheld i hi
  case held_lt =>
    intro i cell hcell
    rw [hheld] at hcell
    rw [hlength]
    split at hcell
    · obtain rfl := Option.some.inj hcell
      exact Nat.lt_succ_self _
    · exact Nat.lt_succ_of_lt (hb.held_lt i cell hcell)

theorem Backs.fresh (hb : Backs s) : Backs (s.act .fresh) := by
  constructor
  case held =>
    intro i slot hi
    replace hi : (s.slots.slots ++ [_])[i]? = some slot := hi
    have hlt : i < s.slots.slots.length + 1 := by
      simpa using (List.getElem?_eq_some_iff.1 hi).1
    rcases Nat.lt_succ_iff_lt_or_eq.1 hlt with hlt | rfl
    · rw [List.getElem?_append_left hlt] at hi
      exact hb.held i slot hi
    · rw [List.getElem?_concat_length] at hi
      obtain rfl := Option.some.inj hi
      show s.look (s.held s.slots.slots.length) = none
      rw [hb.unheld _ (Nat.le_refl _)]
      rfl
  case unheld =>
    intro i hi
    replace hi : (s.slots.slots ++ [_]).length ≤ i := hi
    rw [List.length_append] at hi
    exact hb.unheld i (Nat.le_of_add_right_le hi)
  case held_lt => exact hb.held_lt

theorem Backs.perform (hb : Backs s) (ht : Tells s.slots past) (c : Call) :
    Backs (s.perform c) := by
  have hact : Backs (s.act c) := by
    cases c with
    | publish h status => exact hb.publish ht h status
    | fresh => exact hb.fresh
    | _ => exact ⟨hb.held, hb.unheld, hb.held_lt⟩
  exact ⟨hact.held, hact.unheld, hact.held_lt⟩

theorem length_le_act (c : Call) : s.cells.length ≤ (s.act c).cells.length := by
  cases c with
  | publish h status =>
    show _ ≤ (s.cells ++ [status]).length
    simp
  | _ => exact Nat.le_refl _

theorem look_cell? (hb : Backs s) (ht : Tells s.slots past) (hh : h < made past) :
    s.look (s.cell? h) = (published past h).getLast? := by
  rw [← ht.leads.length] at hh
  have hi := List.getElem?_eq_getElem hh
  rw [Store.cell?, hi, Option.bind_some, hb.held _ _ (ht.holds h _ hi), Slot.read_holding]

/-- The status that a call has read is not altered by a call after it. -/
theorem recalled_append (hi : h < past.length) (c : Call) :
    recalled (past ++ [c]) h = recalled past h := by
  rw [recalled, recalled, List.getElem?_append_left hi,
    List.take_append_of_le_length (Nat.le_of_lt hi)]

theorem lt_of_reads (hb : Backs s) {cell : Nat} (hcell : s.reads c = some cell) :
    cell < s.cells.length := by
  have hhandle {h : Nat} (hcell : s.cell? h = some cell) : cell < s.cells.length := by
    obtain ⟨i, -, hi⟩ := Option.bind_eq_some_iff.1 hcell
    exact hb.held_lt i cell hi
  cases c with
  | read h => exact hhandle hcell
  | snapshot h => exact hhandle hcell
  | _ => cases hcell

theorem look_reads (hb : Backs s) (ht : Tells s.slots past) (hwell : WellMade (past ++ [c])) :
    s.look (s.reads c) = recalled (past ++ [c]) past.length := by
  have hhandle := (wellMade_append.1 hwell).2
  rw [recalled, List.getElem?_concat_length, List.take_left]
  cases c with
  | read h => exact look_cell? hb ht (hhandle h rfl)
  | snapshot h => exact look_cell? hb ht (hhandle h rfl)
  | _ => rfl

theorem Remembers.perform (hr : Remembers s past) (hb : Backs s) (ht : Tells s.slots past)
    (hwell : WellMade (past ++ [c])) : Remembers (s.perform c) (past ++ [c]) := by
  constructor
  case length =>
    show (s.brought ++ [_]).length = _
    rw [List.length_append, List.length_append, hr.length]
    rfl
  case recalls =>
    intro i
    show (s.act c).look ((s.brought ++ [s.reads c]).getD i none) = _
    rw [List.getD_eq_getElem?_getD]
    rcases Nat.lt_trichotomy i past.length with hi | rfl | hi
    · have hi' : i < s.brought.length := hr.length ▸ hi
      rw [List.getElem?_append_left hi', recalled_append hi, ← hr.recalls i,
        List.getD_eq_getElem?_getD]
      apply look_act
      intro cell hcell
      rw [List.getElem?_eq_getElem hi', Option.getD_some] at hcell
      exact hr.brought_lt cell (hcell ▸ List.getElem_mem hi')
    · rw [← hr.length, List.getElem?_concat_length, Option.getD_some, hr.length,
        look_act c fun _ => lt_of_reads hb]
      exact look_reads hb ht hwell
    · have hlate : (past ++ [c])[i]? = none := List.getElem?_eq_none (by simp; omega)
      have hlate' : (s.brought ++ [s.reads c])[i]? = none :=
        List.getElem?_eq_none (by simp [hr.length]; omega)
      rw [hlate', recalled, hlate]
      rfl
  case brought_lt =>
    intro cell hcell
    have hcells : s.cells.length ≤ (s.perform c).cells.length := length_le_act c
    rcases List.mem_append.1 hcell with hcell | hcell
    · exact Nat.lt_of_lt_of_le (hr.brought_lt cell hcell) hcells
    · exact Nat.lt_of_lt_of_le (lt_of_reads hb (List.mem_singleton.1 hcell).symm) hcells

/-! ### Histories -/

theorem invariants (hwell : WellMade past) :
    Tells (after past).slots past ∧ Backs (after past) ∧ Remembers (after past) past := by
  induction past using List.reverseRecOn with
  | nil => exact ⟨.start, .start, ⟨rfl, fun _ => rfl, nofun⟩⟩
  | append_singleton past c ih =>
    obtain ⟨ht, hb, hr⟩ := ih hwell.left
    rw [after_append]
    exact ⟨ht.perform hwell, hb.perform ht c, hr.perform hb ht hwell⟩

theorem length_published_le (past : List Call) (h : Nat) :
    (published past h).length ≤ past.countP Call.publishes := by
  have hle (calls : List Call) : (calls.filterMap (publishedBy past h)).length ≤
      calls.countP Call.publishes := by
    induction calls with
    | nil => exact Nat.le_refl 0
    | cons c rest ih =>
      rw [List.filterMap_cons, List.countP_cons]
      cases c with
      | publish other status =>
        simp only [publishedBy, Call.publishes, if_true]
        split
        · exact Nat.le_succ_of_le ih
        · exact Nat.succ_le_succ ih
      | _ => exact ih
  exact hle past

/-- **A call is answered as the calls before it say.** -/
theorem answer_eq_expected (hwell : WellMade (past ++ [c]))
    (hfew : (past ++ [c]).countP Call.publishes < 2 ^ 64) :
    (after past).answer c = expected past c := by
  obtain ⟨hbefore, hlast⟩ := wellMade_append.1 hwell
  obtain ⟨ht, -, hr⟩ := invariants hbefore
  have hcount {calls : List Call} (hle : calls.countP Call.publishes < 2 ^ 64) (h : Nat) :
      (UInt64.ofNat (published calls h).length).toNat = (published calls h).length :=
    UInt64.toNat_ofNat_of_lt' (Nat.lt_of_le_of_lt (length_published_le calls h) hle)
  have hpast : past.countP Call.publishes < 2 ^ 64 := by
    rw [List.countP_append] at hfew
    exact Nat.lt_of_le_of_lt (Nat.le_add_right _ _) hfew
  cases c with
  | publish h status =>
    have hh : h < made past := hlast h rfl
    have hslot := (ht.publish hwell).slot_eq (Nat.lt_of_lt_of_le hh (made_le_append past _))
    rw [Store.answer, hslot, Slot.generation_holding, hcount hfew, published_append hwell hh,
      publishedBy, if_pos rfl, List.length_append]
    rfl
  | read h => rw [Store.answer, ht.slot_eq (hlast h rfl), Slot.read_holding, expected]
  | snapshot h =>
    rw [Store.answer, ht.slot_eq (hlast h rfl), expected, Slot.holding, Option.map_map]
    simp only [Function.comp_def, hcount hpast]
  | generation h =>
    rw [Store.answer, ht.slot_eq (hlast h rfl), Slot.generation_holding, hcount hpast, expected]
  | share h => rw [Store.answer, ht.leads.length, expected]
  | fresh => rw [Store.answer, ht.leads.length, expected]
  | revisit call => rw [Store.answer, hr.recalls, expected]

section Runs

variable {calls : List Call} {i : Nat}

theorem take_succ_of_getElem? (hc : calls[i]? = some c) :
    calls.take (i + 1) = calls.take i ++ [c] := by
  rw [List.take_add_one, hc]
  rfl

theorem WellMade.take (hwell : WellMade calls) (i : Nat) : WellMade (calls.take i) := by
  rw [← List.take_append_drop i calls] at hwell
  exact hwell.left

theorem getElem?_answers_eq (hwell : WellMade calls) (hfew : calls.countP Call.publishes < 2 ^ 64)
    (hc : calls[i]? = some c) :
    (Store.answers {} calls)[i]? = some (expected (calls.take i) c) := by
  have hcount : (calls.take (i + 1)).countP Call.publishes < 2 ^ 64 :=
    Nat.lt_of_le_of_lt (List.Sublist.countP_le (List.take_sublist _ _)) hfew
  have hmade : WellMade (calls.take (i + 1)) := hwell.take (i + 1)
  rw [take_succ_of_getElem? hc] at hcount hmade
  rw [Store.getElem?_answers, hc, Option.map_some]
  exact congrArg some (answer_eq_expected hmade hcount)

/-! ### Observers -/

/-- The number of published statuses that an answer tells. -/
def Answer.seen? : Answer → Option Nat
  | .generation n => some n
  | .snapshot pair => some ((pair.map Prod.snd).getD 0)
  | _ => none

/-- An answer tells a number that was right when the call was made or that the call made right. -/
theorem seen_range (hwell : WellMade (past ++ [c])) (hh : c.handle? = some h) {n : Nat}
    (hn : (expected past c).seen? = some n) :
    (published past h).length ≤ n ∧ n ≤ (published (past ++ [c]) h).length := by
  rw [published_append hwell ((wellMade_append.1 hwell).2 h hh), List.length_append]
  cases c with
  | publish other status =>
    obtain rfl : other = h := Option.some.inj hh
    obtain rfl := Option.some.inj hn
    rw [publishedBy, if_pos rfl]
    exact ⟨Nat.le_succ _, Nat.le_refl _⟩
  | snapshot other =>
    obtain rfl : other = h := Option.some.inj hh
    obtain rfl : (published past other).length = n := by
      rw [← Option.some.inj hn]
      cases hlast : (published past other).getLast? with
      | none =>
        rw [List.getLast?_eq_none_iff.1 hlast]
        rfl
      | some status => rfl
    exact ⟨Nat.le_refl _, Nat.le_add_right _ _⟩
  | generation other =>
    obtain rfl : other = h := Option.some.inj hh
    obtain rfl := Option.some.inj hn
    exact ⟨Nat.le_refl _, Nat.le_add_right _ _⟩
  | _ => cases hn

/-- The answer to a call tells a number for the slot of a handle. -/
def Sees (calls : List Call) (i handle n : Nat) : Prop :=
  ∃ c a, calls[i]? = some c ∧ c.handle? = some handle ∧
    (Store.answers {} calls)[i]? = some a ∧ a.seen? = some n

theorem Sees.le (hwell : WellMade calls) (hfew : calls.countP Call.publishes < 2 ^ 64)
    {j h h' n n' : Nat} (hij : i < j) (hrelated : Relation.EqvGen (Shared calls) h h')
    (hsees : Sees calls i h n) (hsees' : Sees calls j h' n') : n ≤ n' := by
  obtain ⟨c, a, hc, hh, ha, hn⟩ := hsees
  obtain ⟨c', a', hc', hh', ha', hn'⟩ := hsees'
  obtain rfl := Option.some.inj (ha.symm.trans (getElem?_answers_eq hwell hfew hc))
  obtain rfl := Option.some.inj (ha'.symm.trans (getElem?_answers_eq hwell hfew hc'))
  have hfirst : WellMade (calls.take i ++ [c]) := take_succ_of_getElem? hc ▸ hwell.take (i + 1)
  have hlast : WellMade (calls.take j ++ [c']) := take_succ_of_getElem? hc' ▸ hwell.take (j + 1)
  have hbetween : calls.take i ++ [c] ++ (calls.take j).drop (i + 1) = calls.take j := by
    have hsplit := List.take_append_drop (i + 1) (calls.take j)
    rwa [List.take_take, Nat.min_eq_left hij, take_succ_of_getElem? hc] at hsplit
  have hthen : h < made (calls.take i ++ [c]) :=
    Nat.lt_of_lt_of_le ((wellMade_append.1 hfirst).2 h hh) (made_le_append _ _)
  have hnow : h < made (calls.take j) := hbetween ▸ Nat.lt_of_lt_of_le hthen (made_le_append _ _)
  have hnow' : h' < made (calls.take j) := (wellMade_append.1 hlast).2 h' hh'
  have hstays {x : Nat} (hx : x < made (calls.take j)) : x < made calls ∧
      origin calls x = origin (calls.take j) x := by
    have hmade := made_le_append (calls.take j) (calls.drop j)
    have horigin := origin_append_all hx (calls.drop j)
    rw [List.take_append_drop] at hmade horigin
    exact ⟨Nat.lt_of_lt_of_le hx hmade, horigin⟩
  -- By the time of the later call both handles have been made.
  have horigin : origin (calls.take j) h = origin (calls.take j) h' := by
    rw [← (hstays hnow).2, ← (hstays hnow').2]
    exact (origin_eq_iff hwell (hstays hnow).1 (hstays hnow').1).2 hrelated
  have hgrows : (published (calls.take i ++ [c]) h).length ≤ (published (calls.take j) h).length := by
    have hmade := hwell.take j
    rw [← hbetween] at hmade
    have hprefix := published_prefix hmade hthen
    rw [hbetween] at hprefix
    exact hprefix.length_le
  calc n ≤ (published (calls.take i ++ [c]) h).length := (seen_range hfirst hh hn).2
    _ ≤ (published (calls.take j) h).length := hgrows
    _ = (published (calls.take j) h').length := by rw [published_congr horigin]
    _ ≤ n' := (seen_range hlast hh' hn').1

/-- **A slot is a register that counts what is published**, whichever handles are used in whichever
order. Handles lead to the same slot just when they are related by sharing; each call is answered by
what was published before on the slot of its handle; the numbers that are seen of a slot never
decrease; and what was read stays as it was. -/
theorem answers_tell_history {calls : List Call} (hwell : WellMade calls)
    (hfew : calls.countP Call.publishes < 2 ^ 64) :
    (∀ h < made calls, ∀ h' < made calls,
      ((after calls).slots.handles[h]? = (after calls).slots.handles[h']? ↔
        Relation.EqvGen (Shared calls) h h') ∧
      (origin calls h = origin calls h' ↔ Relation.EqvGen (Shared calls) h h')) ∧
    (∀ i c, calls[i]? = some c →
      (Store.answers {} calls)[i]? = some (expected (calls.take i) c)) ∧
    (∀ i j h h' n n', i < j → Relation.EqvGen (Shared calls) h h' →
      Sees calls i h n → Sees calls j h' n' → n ≤ n') ∧
    ∀ i j h, i < j → calls[i]? = some (Call.read h) → calls[j]? = some (Call.revisit i) →
      (Store.answers {} calls)[j]? = (Store.answers {} calls)[i]? := by
  refine ⟨?handles, ?answers, ?order, ?kept⟩
  case handles =>
    intro h hh h' hh'
    obtain ⟨ht, -⟩ := invariants hwell
    have horigin := origin_eq_iff hwell hh hh'
    exact ⟨(ht.leads.same h h' hh hh').trans horigin, horigin⟩
  case answers =>
    intro i c hc
    exact getElem?_answers_eq hwell hfew hc
  case order =>
    intro i j h h' n n' hij hrelated hsees hsees'
    exact hsees.le hwell hfew hij hrelated hsees'
  case kept =>
    intro i j h hij hread hrevisit
    have hearlier : (calls.take j)[i]? = some (Call.read h) := by
      rw [List.getElem?_take, if_pos hij, hread]
    rw [getElem?_answers_eq hwell hfew hread, getElem?_answers_eq hwell hfew hrevisit, expected,
      expected, recalled, hearlier, List.take_take, Nat.min_eq_left (Nat.le_of_lt hij)]

/-- Two handles to one slot and one to another, with a status that is looked at again. -/
theorem shared_slot_counts :
    let first : Status := { volume := 1 }
    let second : Status := { volume := 2 }
    let calls : List Call :=
      [.publish 0 first, .share 0, .fresh, .read 1, .publish 1 second, .snapshot 0, .revisit 3,
        .generation 2]
    WellMade calls ∧ calls.countP Call.publishes < 2 ^ 64 ∧
      (Store.answers {} calls)[4]? = some (.generation 2) ∧
      (Store.answers {} calls)[5]? = some (.snapshot (some (second, 2))) ∧
      (Store.answers {} calls)[6]? = some (.status (some first)) ∧
      (Store.answers {} calls)[7]? = some (.generation 0) := by
  intro first second calls
  have hwell : WellMade calls := by
    unfold WellMade
    decide
  have hfew : calls.countP Call.publishes < 2 ^ 64 := by decide
  obtain ⟨-, hanswers, -⟩ := answers_tell_history hwell hfew
  exact ⟨hwell, hfew, hanswers 4 _ rfl, hanswers 5 _ rfl, hanswers 6 _ rfl, hanswers 7 _ rfl⟩

end Runs

end Slots

end PlayerWatch
