import Mathlib.Data.List.Induction
import Mathlib.Order.Bounds.Basic
import PlayerWatch.Bus

/-!
# Every event is accounted for

Whatever is done on a bus, the events it keeps are the latest that were published (`Keeps`), and what a
subscriber has not yet been told is what was published from its place on (`Follows`). So a subscriber
receives what it would receive alone (`Inbox`), and what it receives accounts for every event that was
published since it came (`every_event_accounted`).
-/

namespace PlayerWatch.Bus

/-! ### What is done on a bus -/

inductive Act where
  | subscribe
  | publish (e : Event)
  | receive (subscriber : Nat)
  /-- A subscriber is dropped. -/
  | leave (subscriber : Nat)

def act (b : Bus) : Act → Bus
  | .subscribe => b.subscribe.1
  | .publish e => b.publish e
  | .receive i => (b.receive i).1
  | .leave i => b.leave i

def after (b : Bus) (acts : List Act) : Bus := acts.foldl act b

namespace Act

def event? : Act → Option Event
  | publish e => some e
  | _ => none

/-- What others do to receive, to come or to go does not concern a subscriber. -/
def concerns (subscriber : Nat) : Act → Bool
  | publish _ => true
  | receive i | leave i => i = subscriber
  | subscribe => false

end Act

/-- The events that are published. -/
def events (acts : List Act) : List Event := acts.filterMap Act.event?

/-- What an act brings a subscriber. -/
def brings (b : Bus) (subscriber : Nat) : Act → List Delivery
  | .receive i => if i = subscriber then [(b.receive i).2] else []
  | _ => []

/-- All that a subscriber receives. -/
def heard (b : Bus) (subscriber : Nat) : List Act → List Delivery
  | [] => []
  | a :: rest => b.brings subscriber a ++ (b.act a).heard subscriber rest

/-! ### A subscriber alone -/

/-- What is received next if these events are pending, and what is pending then. The oldest of more
events than there is room for are missed. -/
def next (room : Nat) (pending : List Event) : Delivery × List Event :=
  if room < pending.length then
    (.missed (pending.length - room), pending.drop (pending.length - room))
  else
    match pending with
    | [] => (.empty, [])
    | e :: rest => (.event e, rest)

/-- All that is received if these events are pending and no other follows. -/
def due (room : Nat) (pending : List Event) : List Delivery :=
  if room < pending.length then
    .missed (pending.length - room) :: (pending.drop (pending.length - room)).map .event
  else pending.map .event

/-- What a subscriber has received and the events of which it has not been told. -/
structure Inbox where
  heard : List Delivery := []
  pending : List Event := []

namespace Inbox

def receive (box : Inbox) (room : Nat) : Inbox :=
  ⟨box.heard ++ [(next room box.pending).1], (next room box.pending).2⟩

def act (room subscriber : Nat) (box : Inbox) : Act → Inbox
  | .publish e => { box with pending := box.pending ++ [e] }
  | .receive i => if i = subscriber then box.receive room else box
  | _ => box

def after (room subscriber : Nat) (acts : List Act) : Inbox := acts.foldl (act room subscriber) {}

theorem act_of_not_concerns {room i : Nat} {a : Act} (ha : a.concerns i = false) (box : Inbox) :
    box.act room i a = box := by
  cases a with
  | publish e => cases ha
  | receive j => exact if_neg (of_decide_eq_false ha)
  | _ => rfl

theorem after_filter (room i : Nat) (acts : List Act) :
    after room i (acts.filter (Act.concerns i)) = after room i acts := by
  rw [after, after]
  generalize ({} : Inbox) = box
  induction acts generalizing box with
  | nil => rfl
  | cons a rest ih =>
    rw [List.filter_cons, List.foldl_cons]
    split
    · exact ih _
    · next ha => rw [act_of_not_concerns (Bool.eq_false_iff.2 ha), ih]

end Inbox

/-! ### Accounts -/

/-- What was received accounts for events, each exactly once and in their order. -/
inductive Accounts : List Delivery → List Event → Prop
  | nil : Accounts [] []
  | event {ds es} (e : Event) : Accounts ds es → Accounts (.event e :: ds) (e :: es)
  | empty {ds es} : Accounts ds es → Accounts (.empty :: ds) es
  /-- The count is that of the events that are left out here. -/
  | missed {ds es} {lost : List Event} :
      lost ≠ [] → Accounts ds es → Accounts (.missed lost.length :: ds) (lost ++ es)

variable {ds ds' : List Delivery} {es es' all pending : List Event} {room i place : Nat} {b : Bus}

theorem Accounts.append (h : Accounts ds es) (h' : Accounts ds' es') :
    Accounts (ds ++ ds') (es ++ es') := by
  induction h with
  | nil => exact h'
  | event e _ ih => exact ih.event e
  | empty _ ih => exact ih.empty
  | missed hlost _ ih =>
    rw [List.append_assoc]
    exact ih.missed hlost

/-- What is received next accounts for the events that are pending no longer. -/
theorem accounts_next (room : Nat) (pending : List Event) :
    ∃ told, Accounts [(next room pending).1] told ∧ pending = told ++ (next room pending).2 := by
  unfold next
  split
  · next hroom =>
    have hlength : (pending.take (pending.length - room)).length = pending.length - room :=
      List.length_take_of_le (Nat.sub_le _ _)
    have hlost : pending.take (pending.length - room) ≠ [] := by
      rw [← List.length_pos_iff, hlength]
      exact Nat.sub_pos_of_lt hroom
    have hmissed := Accounts.missed hlost .nil
    rw [hlength, List.append_nil] at hmissed
    exact ⟨_, hmissed, (List.take_append_drop _ _).symm⟩
  · cases pending with
    | nil => exact ⟨[], .empty .nil, rfl⟩
    | cons e rest => exact ⟨[e], .event e .nil, rfl⟩

theorem accounts_due (room : Nat) (pending : List Event) : Accounts (due room pending) pending := by
  have hevents (es : List Event) : Accounts (es.map .event) es := by
    induction es with
    | nil => exact .nil
    | cons e rest ih => exact ih.event e
  rw [due]
  split
  · next hmany =>
    have hmissed : next room pending =
        (.missed (pending.length - room), pending.drop (pending.length - room)) := if_pos hmany
    obtain ⟨told, htold, hpending⟩ := accounts_next room pending
    rw [hmissed] at htold hpending
    have hall := htold.append (hevents (pending.drop (pending.length - room)))
    rwa [← hpending] at hall
  · exact hevents pending

theorem Inbox.accounts_after (room i : Nat) (acts : List Act) :
    ∃ told, Accounts (Inbox.after room i acts).heard told ∧
      events acts = told ++ (Inbox.after room i acts).pending := by
  induction acts using List.reverseRecOn with
  | nil => exact ⟨[], .nil, rfl⟩
  | append_singleton acts a ih =>
    obtain ⟨told, haccounts, hevents⟩ := ih
    have hlast : Inbox.after room i (acts ++ [a]) = (Inbox.after room i acts).act room i a :=
      List.foldl_append
    rw [hlast, events, List.filterMap_append, ← events, hevents]
    generalize Inbox.after room i acts = box at haccounts
    cases a with
    | publish e => exact ⟨told, haccounts, List.append_assoc ..⟩
    | receive j =>
      rw [Inbox.act]
      split
      · obtain ⟨more, hmore, hpending⟩ := accounts_next room box.pending
        refine ⟨told ++ more, haccounts.append hmore, ?_⟩
        rw [List.append_assoc, List.append_assoc]
        exact congrArg (told ++ ·) ((List.append_nil _).trans hpending)
      · exact ⟨told, haccounts, List.append_nil _⟩
    | _ => exact ⟨told, haccounts, List.append_nil _⟩

/-! ### What a bus keeps -/

/-- Of all events a bus keeps the latest for which it has room, and it counts the others. -/
structure Keeps (b : Bus) (all : List Event) : Prop where
  kept : b.kept = all.drop (all.length - b.room)
  dropped : b.dropped = all.length - b.room

namespace Keeps

theorem length (hk : Keeps b all) : b.kept.length = min all.length b.room := by
  rw [hk.kept, List.length_drop]
  omega

theorem published (hk : Keeps b all) : b.published = all.length := by
  rw [Bus.published, hk.length, hk.dropped]
  omega

theorem publish (hk : Keeps b all) (hroom : 0 < b.room) (e : Event) :
    Keeps (b.publish e) (all ++ [e]) := by
  have hlength := hk.length
  rw [Bus.publish]
  split
  · next hfree =>
    have hall : all.length < b.room := by omega
    constructor
    · simp only [List.length_append, List.length_singleton, Nat.sub_eq_zero_of_le hall, hk.kept,
        Nat.sub_eq_zero_of_le (Nat.le_of_lt hall), List.drop_zero]
    · simp only [List.length_append, List.length_singleton, hk.dropped]
      omega
  · next hfull =>
    have hall : b.room ≤ all.length := by omega
    have hshift : all.length + 1 - b.room = all.length - b.room + 1 := by omega
    constructor
    · simp only [List.length_append, List.length_singleton, hshift, hk.kept, List.drop_drop]
      exact (List.drop_append_of_le_length (by omega)).symm
    · simp only [List.length_append, List.length_singleton, hshift, hk.dropped]

theorem keep {b' : Bus} (hk : Keeps b all) (hroom : b'.room = b.room) (hkept : b'.kept = b.kept)
    (hdropped : b'.dropped = b.dropped) : Keeps b' all :=
  ⟨by rw [hkept, hroom, hk.kept], by rw [hdropped, hroom, hk.dropped]⟩

end Keeps

theorem receive_keeps (b : Bus) (i : Nat) :
    (b.receive i).1.room = b.room ∧ (b.receive i).1.kept = b.kept ∧
      (b.receive i).1.dropped = b.dropped := by
  rw [receive]
  split
  · exact ⟨rfl, rfl, rfl⟩
  · exact ⟨rfl, rfl, rfl⟩

theorem room_act (b : Bus) (a : Act) : (b.act a).room = b.room := by
  cases a with
  | publish e =>
    rw [act, publish]
    split
    · rfl
    · rfl
  | receive j => exact (receive_keeps b j).1
  | _ => rfl

/-- Only publishing changes what is kept. -/
theorem Keeps.act (hk : Keeps b all) (hroom : 0 < b.room) (a : Act) :
    Keeps (b.act a) (all ++ events [a]) := by
  cases a with
  | publish e => exact hk.publish hroom e
  | receive j =>
    obtain ⟨hsame, hkept, hdropped⟩ := receive_keeps b j
    rw [show events [.receive j] = [] from rfl, List.append_nil]
    exact hk.keep hsame hkept hdropped
  | subscribe =>
    rw [show events [.subscribe] = [] from rfl, List.append_nil]
    exact hk.keep rfl rfl rfl
  | leave j =>
    rw [show events [.leave j] = [] from rfl, List.append_nil]
    exact hk.keep rfl rfl rfl

theorem events_cons (a : Act) (rest : List Act) : events (a :: rest) = events [a] ++ events rest :=
  List.filterMap_append (l := [a])

theorem Keeps.after (hk : Keeps b all) (hroom : 0 < b.room) (acts : List Act) :
    Keeps (b.after acts) (all ++ events acts) ∧ (b.after acts).room = b.room := by
  induction acts generalizing b all with
  | nil =>
    rw [show events [] = [] from rfl, List.append_nil]
    exact ⟨hk, rfl⟩
  | cons a rest ih =>
    have hsame := room_act b a
    rw [events_cons, ← List.append_assoc, ← hsame]
    exact ih (hk.act hroom a) (hsame ▸ hroom)

/-! ### Where a subscriber stands -/

/-- Of all events the subscriber has yet to be told those from its place on. -/
structure Follows (b : Bus) (subscriber : Nat) (all pending : List Event) : Prop where
  keeps : Keeps b all
  place : ∃ place ≤ all.length, b.places[subscriber]? = some (some place) ∧ all.drop place = pending

/-- A bus delivers what is next in the events from a place on, and moves the place past it. -/
theorem Keeps.deliver (hk : Keeps b all) (hplace : place ≤ all.length) :
    (b.deliver place).1 = (next b.room (all.drop place)).1 ∧
      (b.deliver place).2 ≤ all.length ∧
      all.drop (b.deliver place).2 = (next b.room (all.drop place)).2 := by
  unfold next
  rw [Bus.deliver, List.length_drop, hk.dropped]
  by_cases hlate : place < all.length - b.room
  · rw [if_pos hlate, if_pos (show b.room < all.length - place by omega), List.drop_drop]
    refine ⟨congrArg Delivery.missed (by omega), Nat.sub_le _ _, congrArg all.drop (by omega)⟩
  · have hkept : b.kept[place - (all.length - b.room)]? = all[place]? := by
      rw [hk.kept, List.getElem?_drop]
      exact congrArg (all[·]?) (by omega)
    rw [if_neg hlate, if_neg (show ¬b.room < all.length - place by omega), hkept]
    rcases Nat.lt_or_eq_of_le hplace with hlt | rfl
    · rw [List.getElem?_eq_getElem hlt, List.drop_eq_getElem_cons hlt]
      exact ⟨rfl, hlt, rfl⟩
    · rw [List.getElem?_eq_none (Nat.le_refl _), List.drop_length]
      exact ⟨rfl, hplace, rfl⟩

namespace Follows

theorem receive (hf : Follows b i all pending) :
    (b.receive i).2 = (next b.room pending).1 ∧
      Follows (b.receive i).1 i all (next b.room pending).2 := by
  obtain ⟨hk, place, hle, hplace, rfl⟩ := hf
  obtain ⟨hdelivery, hle', hpending⟩ := hk.deliver hle
  have hi : i < b.places.length := (List.getElem?_eq_some_iff.1 hplace).1
  rw [Bus.receive, hplace]
  refine ⟨hdelivery, hk.keep rfl rfl rfl, _, hle', ?_, hpending⟩
  exact List.getElem?_set_self hi

/-- What others receive does not move a subscriber. -/
theorem receive_other (hf : Follows b i all pending) {j : Nat} (hj : j ≠ i) :
    Follows (b.receive j).1 i all pending := by
  obtain ⟨hk, place, hle, hplace, hpending⟩ := hf
  obtain ⟨hsame, hkept, hdropped⟩ := receive_keeps b j
  refine ⟨hk.keep hsame hkept hdropped, place, hle, ?_, hpending⟩
  rw [Bus.receive]
  split
  · rw [← hplace]
    exact List.getElem?_set_ne hj
  · exact hplace

theorem act {box : Inbox} (hf : Follows b i all box.pending) (hroom : 0 < b.room) {a : Act}
    (ha : a ≠ .leave i) :
    Follows (b.act a) i (all ++ events [a]) (box.act b.room i a).pending ∧
      (box.act b.room i a).heard = box.heard ++ b.brings i a := by
  have hk := hf.keeps.act hroom a
  have hnone {es : List Event} (hes : Follows (b.act a) i all es) (hempty : events [a] = []) :
      Follows (b.act a) i (all ++ events [a]) es := by
    rwa [hempty, List.append_nil]
  cases a with
  | publish e =>
    obtain ⟨-, place, hle, hplace, hpending⟩ := hf
    refine ⟨⟨hk, place, ?_, ?_, ?_⟩, (List.append_nil _).symm⟩
    · exact Nat.le_trans hle (List.prefix_append _ _).length_le
    · rw [← hplace, Bus.act, Bus.publish]
      split
      · rfl
      · rfl
    · rw [List.drop_append_of_le_length hle, hpending]
      rfl
  | receive j =>
    rw [Inbox.act, brings]
    split
    · next hj =>
      obtain rfl := hj
      obtain ⟨hdelivery, hthen⟩ := hf.receive
      exact ⟨hnone hthen rfl, by rw [hdelivery]; rfl⟩
    · next hj => exact ⟨hnone (hf.receive_other hj) rfl, (List.append_nil _).symm⟩
  | subscribe =>
    obtain ⟨hkeeps, place, hle, hplace, hpending⟩ := hf
    refine ⟨hnone ⟨hkeeps.keep rfl rfl rfl, place, hle, ?_, hpending⟩ rfl, (List.append_nil _).symm⟩
    exact (List.getElem?_append_left (List.getElem?_eq_some_iff.1 hplace).1).trans hplace
  | leave j =>
    obtain ⟨hkeeps, place, hle, hplace, hpending⟩ := hf
    refine ⟨hnone ⟨hkeeps.keep rfl rfl rfl, place, hle, ?_, hpending⟩ rfl, (List.append_nil _).symm⟩
    exact (List.getElem?_set_ne fun hj => ha (congrArg Act.leave hj)).trans hplace

/-- As long as a subscriber listens it receives what it would receive alone. -/
theorem after {box : Inbox} (hf : Follows b i all box.pending) (hroom : 0 < b.room)
    {acts : List Act} (hacts : Act.leave i ∉ acts) :
    Follows (b.after acts) i (all ++ events acts) (acts.foldl (Inbox.act b.room i) box).pending ∧
      (acts.foldl (Inbox.act b.room i) box).heard = box.heard ++ b.heard i acts := by
  induction acts generalizing b all box with
  | nil =>
    rw [show events [] = [] from rfl, List.append_nil]
    exact ⟨hf, (List.append_nil _).symm⟩
  | cons a rest ih =>
    obtain ⟨ha, hrest⟩ := not_or.1 (mt List.mem_cons.2 hacts)
    obtain ⟨hthen, hbrings⟩ := hf.act hroom (Ne.symm ha)
    have hsame := room_act b a
    rw [← hsame] at hthen hbrings
    obtain ⟨hfollows, hheard⟩ := ih hthen (hsame ▸ hroom) hrest
    rw [hsame] at hfollows hheard hbrings
    rw [events_cons, ← List.append_assoc, List.foldl_cons, heard, ← List.append_assoc, ← hbrings]
    exact ⟨hfollows, hheard⟩

theorem subscribe (hk : Keeps b all) : Follows b.subscribe.1 b.subscribe.2 all [] :=
  ⟨hk.keep rfl rfl rfl, all.length, Nat.le_refl _,
    List.getElem?_concat_length.trans (congrArg (some ∘ some) hk.published), List.drop_length⟩

/-! ### What is still to come -/

theorem drainWithin (hf : Follows b i all pending) (hroom : pending.length ≤ b.room) {steps : Nat}
    (hsteps : pending.length < steps) :
    (b.drainWithin i steps).2 = pending.map .event ++ [.empty] := by
  induction pending generalizing b steps with
  | nil =>
    obtain ⟨steps, rfl⟩ := Nat.exists_eq_succ_of_ne_zero (Nat.ne_of_gt hsteps)
    have hnext : next b.room [] = (.empty, []) := rfl
    have hdelivery := hf.receive.1
    rw [hnext] at hdelivery
    rw [Bus.drainWithin]
    generalize b.receive i = received at hdelivery
    obtain ⟨b', delivery⟩ := received
    obtain rfl : delivery = .empty := hdelivery
    rfl
  | cons e rest ih =>
    obtain ⟨steps, rfl⟩ := Nat.exists_eq_succ_of_ne_zero (Nat.ne_of_gt (Nat.zero_lt_of_lt hsteps))
    have hnext : next b.room (e :: rest) = (.event e, rest) := if_neg (Nat.not_lt.2 hroom)
    obtain ⟨hdelivery, hthen⟩ := hf.receive
    have hsame := (receive_keeps b i).1
    rw [hnext] at hdelivery hthen
    rw [Bus.drainWithin]
    generalize b.receive i = received at hdelivery hthen hsame
    obtain ⟨b', delivery⟩ := received
    obtain rfl : delivery = .event e := hdelivery
    have hrest := ih hthen (hsame ▸ Nat.le_of_succ_le hroom) (Nat.lt_of_succ_lt_succ hsteps)
    exact congrArg (Delivery.event e :: ·) hrest

theorem drain (hf : Follows b i all pending) : (b.drain i).2 = due b.room pending ++ [.empty] := by
  have hlength := hf.keeps.length
  have hle : pending.length ≤ all.length := by
    obtain ⟨-, place, -, -, rfl⟩ := hf
    exact (List.drop_sublist _ _).length_le
  rw [Bus.drain, due]
  split
  · next hmany =>
    have hnext : next b.room pending =
        (.missed (pending.length - b.room), pending.drop (pending.length - b.room)) := if_pos hmany
    obtain ⟨hdelivery, hthen⟩ := hf.receive
    have hsame := (receive_keeps b i).1
    rw [hnext] at hdelivery hthen
    rw [Bus.drainWithin]
    generalize b.receive i = received at hdelivery hthen hsame
    obtain ⟨b', delivery⟩ := received
    obtain rfl : delivery = .missed (pending.length - b.room) := hdelivery
    replace hsame : b'.room = b.room := hsame
    have hleft : (pending.drop (pending.length - b.room)).length = b.room := by
      rw [List.length_drop]
      omega
    have hsteps : (pending.drop (pending.length - b.room)).length < b.kept.length + 1 := by omega
    have hrest := hthen.drainWithin (Nat.le_of_eq (hleft.trans hsame.symm)) hsteps
    exact congrArg (Delivery.missed (pending.length - b.room) :: ·) hrest
  · next hfew => exact hf.drainWithin (Nat.not_lt.1 hfew) (by omega)

end Follows

/-! ### Buses -/

theorem isLeast_roundUpToPower (n : Nat) :
    IsLeast {room | n ≤ room ∧ ∃ k, room = Number.twoTo k} (roundUpToPower n) := by
  rw [roundUpToPower]
  split
  · next hn =>
    refine ⟨⟨hn, 0, rfl⟩, ?_⟩
    rintro room ⟨-, k, rfl⟩
    exact Nat.two_pow_pos k
  · next hn =>
    refine ⟨⟨Nat.le_of_pred_lt Nat.lt_log2_self, _, rfl⟩, ?_⟩
    rintro room ⟨hle, k, rfl⟩
    have hlog : Nat.log2 (n - 1) < k := (Nat.log2_lt (by omega)).2 (Nat.sub_one_lt_of_le (by omega) hle)
    exact Nat.pow_le_pow_right (by decide) hlog

theorem create_of_le {capacity : Nat} (hpos : 0 < capacity) (hle : capacity ≤ Number.twoTo 63 - 1) :
    create capacity = .ok { room := roundUpToPower capacity } := by
  rw [create, if_neg (Nat.ne_of_gt hpos), if_neg (Nat.not_lt.2 hle)]

/-- **Every event is accounted for.** What a bus keeps and counts depends on what is published alone.
From when it came and as long as it listens, a subscriber receives what it would receive alone. What it
has received accounts for every event up to those that are pending, and what it can receive now accounts
for these. It makes no difference to it what others do besides publishing. -/
theorem every_event_accounted {capacity : Nat} (hpos : 0 < capacity)
    (hle : capacity ≤ Number.twoTo 63 - 1) :
    ∃ b, create capacity = .ok b ∧
      IsLeast {room | capacity ≤ room ∧ ∃ k, room = Number.twoTo k} b.room ∧
      (∀ acts, Keeps (b.after acts) (events acts) ∧ (b.after acts).room = b.room) ∧
      ∀ before rest b' i, (b.after before).subscribe = (b', i) → Act.leave i ∉ rest →
        let box := Inbox.after b.room i rest
        b'.heard i rest = box.heard ∧
        ((b'.after rest).drain i).2 = due b.room box.pending ++ [.empty] ∧
        (∃ told, Accounts box.heard told ∧ events rest = told ++ box.pending) ∧
        Accounts (due b.room box.pending) box.pending ∧
        b'.heard i (rest.filter (Act.concerns i)) = b'.heard i rest := by
  refine ⟨_, create_of_le hpos hle, isLeast_roundUpToPower capacity, ?_⟩
  generalize hb : ({ room := roundUpToPower capacity } : Bus) = b
  have hroom : 0 < b.room := by
    rw [← hb]
    exact Nat.lt_of_lt_of_le hpos (isLeast_roundUpToPower capacity).1.1
  have hstart : Keeps b [] := by
    rw [← hb]
    exact ⟨List.drop_nil.symm, (Nat.zero_sub _).symm⟩
  have hkeeps (acts : List Act) := hstart.after hroom acts
  refine ⟨hkeeps, ?_⟩
  intro before rest b' i hsubscribe hlisten
  obtain ⟨hk, hsame⟩ := hkeeps before
  have hf := Follows.subscribe hk
  rw [hsubscribe, List.nil_append] at hf
  replace hf : Follows b' i (events before) (Inbox.pending {}) := hf
  have hsame' : b'.room = b.room := (congrArg (·.1.room) hsubscribe).symm.trans hsame
  have halone {acts : List Act} (hacts : Act.leave i ∉ acts) :
      Follows (b'.after acts) i (events before ++ events acts) (Inbox.after b.room i acts).pending ∧
        b'.heard i acts = (Inbox.after b.room i acts).heard := by
    obtain ⟨hfollows, hheard⟩ := hf.after (hsame' ▸ hroom) hacts
    rw [hsame'] at hfollows hheard
    exact ⟨hfollows, hheard.symm⟩
  have hfilter : Act.leave i ∉ rest.filter (Act.concerns i) := mt (fun h => (List.mem_filter.1 h).1) hlisten
  obtain ⟨hfollows, hheard⟩ := halone hlisten
  refine ⟨hheard, ?drain, Inbox.accounts_after b.room i rest, accounts_due _ _, ?others⟩
  case drain =>
    have hafter : (b'.after rest).room = b.room := (hf.keeps.after (hsame' ▸ hroom) rest).2.trans hsame'
    have hdrain := hfollows.drain
    rwa [hafter] at hdrain
  case others => rw [hheard, (halone hfilter).2, Inbox.after_filter]

/-- One subscriber falls behind, is told so and goes on, another leaves; a third comes too late for all
of it. -/
theorem lag_is_told_once :
    let song (n : Nat) : Event := .connected "player" (toString n)
    let rest : List Act :=
      [.publish (song 1), .receive 1, .publish (song 2), .publish (song 3), .leave 0,
        .publish (song 4), .publish (song 5), .publish (song 6), .subscribe, .receive 2,
        .receive 1, .receive 1, .publish (song 7)]
    let b : Bus := { room := 4 }
    let b' := (b.after [.publish (song 0), .subscribe]).subscribe.1
    create 3 = .ok b ∧ Act.leave 1 ∉ rest ∧
      b'.heard 1 rest = [.event (song 1), .missed 1, .event (song 3)] ∧
      ((b'.after rest).drain 1).2 =
        [.event (song 4), .event (song 5), .event (song 6), .event (song 7), .empty] := by
  intro song rest b b'
  obtain ⟨made, hmade, -, -, htold⟩ := every_event_accounted (show 0 < 3 by decide) (by decide)
  obtain rfl : b = made := Except.ok.inj hmade
  have hlisten : Act.leave 1 ∉ rest := by simp [rest]
  obtain ⟨hheard, hdrain, -⟩ := htold [.publish (song 0), .subscribe] rest b' 1 rfl hlisten
  have hbox : Inbox.after b.room 1 rest =
      ⟨[.event (song 1), .missed 1, .event (song 3)], [song 4, song 5, song 6, song 7]⟩ := rfl
  rw [hbox] at hheard hdrain
  exact ⟨rfl, hlisten, hheard, hdrain⟩

end PlayerWatch.Bus
