import PlayerWatch.Network

/-!
# What a network keeps

A network remembers what arrived over each connection that came about. Text arrives over the latest one
only, so what arrived over those before stays as it is; a dial uses up one turn and begins anew if a
connection comes about.
-/

namespace PlayerWatch

/-- Only a connection that came about can bring a greeting. -/
theorem Reception.accepted_of_greet {reception : Reception} {addr : String} {limit : Option Nat}
    {t : Nat} {c : Connection} (h : reception.greet addr limit = .after t (.ok c)) :
    ∃ peer, reception = .accepted peer ∧ Connection.handshake addr limit peer = .after t (.ok c) := by
  cases reception with
  | failed error => cases h
  | unanswered =>
    obtain ⟨_, -, hnone⟩ := Wait.map_eq_after_iff.1 h
    cases hnone
  | accepted peer => exact ⟨peer, rfl, h⟩

/-! ### Lines of a text -/

/-- A whole line in front of a text gives its lines first. -/
theorem linesOf_append (s t : String) :
    linesOf (s ++ "\n" ++ t) = linesOf (s ++ "\n") ++ linesOf t := by
  have hall : (s ++ "\n" ++ t).toList = s.toList ++ '\n' :: t.toList := by simp
  have hline : (s ++ "\n").toList = s.toList ++ '\n' :: [] := by simp
  rw [linesOf, linesOf, linesOf, hall, hline, List.splitOn_append_cons_self,
    List.splitOn_append_cons_self, List.dropLast_append_of_ne_nil (List.splitOn_ne_nil _ _),
    List.dropLast_append_of_ne_nil (List.splitOn_ne_nil _ _), List.splitOn_nil]
  simp

theorem linesOf_line {s : String} (h : '\n' ∉ s.toList) : linesOf (s ++ "\n") = [s] := by
  have hline : (s ++ "\n").toList = s.toList ++ '\n' :: [] := by simp
  rw [linesOf, hline, List.splitOn_append_cons_self, List.splitOn_eq_singleton h, List.splitOn_nil]
  simp

theorem modifyLast_concat {α : Type} (f : α → α) (l : List α) (a : α) :
    modifyLast f (l ++ [a]) = l ++ [f a] := by
  have hlength : (l ++ [a]).length - 1 = l.length := by simp
  rw [modifyLast, hlength]
  induction l with
  | nil => rfl
  | cons b l ih => exact congrArg (b :: ·) (ih (by simp))

namespace Network

/-- Nothing arrives of nothing. -/
theorem deliver_empty (n : Network) : n.deliver "" = n := by
  have hid : (fun lines : List String => lines ++ linesOf "") = id := by
    funext lines
    exact List.append_nil lines
  unfold deliver modifyLast
  rw [hid, List.modify_id]

/-- A whole line arrives before what is sent behind it. -/
theorem deliver_append (n : Network) (s t : String) :
    n.deliver (s ++ "\n" ++ t) = (n.deliver (s ++ "\n")).deliver t := by
  have hboth : (fun lines => lines ++ linesOf (s ++ "\n" ++ t)) =
      (· ++ linesOf t) ∘ (· ++ linesOf (s ++ "\n")) := by
    funext lines
    simp [linesOf_append]
  unfold deliver modifyLast
  rw [hboth, ← List.modify_modify_eq, List.length_modify]

/-- What arrives comes behind all that has arrived, if there is a connection that it can come over. -/
theorem flatten_deliver {n : Network} (h : n.received ≠ []) (text : String) :
    (n.deliver text).received.flatten = n.received.flatten ++ linesOf text := by
  rw [deliver, ← List.dropLast_concat_getLast h, modifyLast_concat]
  simp

theorem deliver_ne_nil {n : Network} (h : n.received ≠ []) (text : String) :
    (n.deliver text).received ≠ [] := by
  have hlength := List.length_pos_iff.2 h
  apply List.ne_nil_of_length_pos
  simpa [deliver, modifyLast] using hlength

/-- What arrives over the latest connection changes nothing about those before. -/
theorem prefix_of_deliver {before : List (List String)} {n : Network} (h : before <+: n.received)
    (hmore : before.length < n.received.length) (text : String) :
    before <+: (n.deliver text).received ∧
      before.length < (n.deliver text).received.length := by
  refine ⟨List.prefix_iff_getElem?.2 fun i hi => ?_, by simpa [deliver, modifyLast] using hmore⟩
  have hne : n.received.length - 1 ≠ i := by omega
  rw [deliver, modifyLast, List.getElem?_modify_ne _ _ hne]
  exact List.prefix_iff_getElem?.1 h i hi

/-- A dial keeps what has arrived, and begins anew if a connection comes about. -/
theorem received_of_meet (n : Network) (addr : String) :
    ((n.meet addr).2.received = n.received ∧ ∀ peer, (n.meet addr).1 ≠ .accepted peer) ∨
      (n.meet addr).2.received = n.received ++ [[]] := by
  unfold meet
  cases addressFault? addr with
  | some error => exact .inl ⟨rfl, fun peer h => by cases h⟩
  | none =>
    cases n.turns with
    | nil => cases n.otherwise <;> simp
    | cons reception rest => cases reception <;> simp

/-- A dial leaves what has arrived, and a connection that comes about is another one. -/
theorem prefix_of_meet {before : List (List String)} {n : Network} (h : before <+: n.received)
    (addr : String) : before <+: (n.meet addr).2.received ∧
      ∀ peer, (n.meet addr).1 = .accepted peer →
        before.length < (n.meet addr).2.received.length := by
  rcases received_of_meet n addr with ⟨hsame, hnot⟩ | hmore
  · rw [hsame]
    exact ⟨h, fun peer hpeer => absurd hpeer (hnot peer)⟩
  · rw [hmore]
    refine ⟨h.trans (List.prefix_append _ _), ?_⟩
    intro _ _
    rw [List.length_append, List.length_singleton]
    exact Nat.lt_succ_of_le h.length_le

/-- A dial uses up one turn, if the address is one. -/
theorem turns_of_meet {addr : String} (haddr : addressFault? addr = none) (n : Network) :
    (n.meet addr).2.turns = n.turns.drop 1 := by
  unfold meet
  rw [haddr]
  cases n.turns with
  | nil => cases n.otherwise <;> rfl
  | cons reception rest => cases reception <;> rfl

end Network

end PlayerWatch
