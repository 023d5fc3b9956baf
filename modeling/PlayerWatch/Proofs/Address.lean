import PlayerWatch.Network
import PlayerWatch.Proofs.Number.Decimals

/-!
# Hosts and ports told apart

An address is split at its last colon (`addressParts?`). No digit is a colon, so the port stands behind it
and the host, as it is shown, in front of it, whatever colons and brackets the host has
(`addressParts?_address`). In particular every host and port make an address that can be dialled
(`addressFault?_address`). Hosts are shown alike only if they are the same, or if one is the other in the
brackets that it is given anyway (`shownHost_eq_iff`); so one address is written for them exactly then
(`address_eq_iff`).
-/

namespace PlayerWatch

open Number

/-! ### Splitting at the last occurrence -/

namespace Text

/-- The two parts of a text around the last occurrence of a character. -/
def splitAtLast (c : Char) : List Char → Option (List Char × List Char)
  | [] => none
  | x :: cs =>
    match splitAtLast c cs with
    | some parts => some (x :: parts.1, parts.2)
    | none => if x = c then some ([], cs) else none

variable {c : Char} {cs before after : List Char}

theorem splitAtLast_eq_none_iff : splitAtLast c cs = none ↔ c ∉ cs := by
  induction cs with
  | nil => simp [splitAtLast]
  | cons x cs ih =>
    rw [splitAtLast, List.mem_cons, not_or]
    cases hrest : splitAtLast c cs with
    | none => simp [ih.1 hrest, eq_comm]
    | some parts =>
      have hmem : c ∈ cs := by
        by_contra h
        rw [ih.2 h] at hrest
        cases hrest
      simp [hmem]

/-- **A text is split where the character last occurs.** -/
theorem splitAtLast_eq_some_iff :
    splitAtLast c cs = some (before, after) ↔ cs = before ++ c :: after ∧ c ∉ after := by
  constructor
  · intro h
    induction cs generalizing before with
    | nil => cases h
    | cons x cs ih =>
      rw [splitAtLast] at h
      split at h
      · next parts hrest =>
        obtain ⟨rfl, rfl⟩ := Prod.mk.inj (Option.some.inj h)
        obtain ⟨hcs, hafter⟩ := ih hrest
        exact ⟨congrArg (x :: ·) hcs, hafter⟩
      · next hrest =>
        split at h
        · next hx =>
          obtain ⟨rfl, rfl⟩ := Prod.mk.inj (Option.some.inj h)
          exact ⟨congrArg (· :: cs) hx, splitAtLast_eq_none_iff.1 hrest⟩
        · cases h
  · rintro ⟨rfl, hafter⟩
    -- A part in front only grows: nothing in it can be taken for the last occurrence.
    induction before with
    | nil => rw [List.nil_append, splitAtLast, splitAtLast_eq_none_iff.2 hafter, if_pos rfl]
    | cons x before ih => rw [List.cons_append, splitAtLast, ih]

end Text

/-- The two parts of an address around its last colon. -/
def addressParts? (addr : String) : Option (String × String) :=
  (Text.splitAtLast ':' addr.toList).map fun parts => (String.ofList parts.1, String.ofList parts.2)

theorem addressParts?_eq_some_iff {addr front back : String} :
    addressParts? addr = some (front, back) ↔ addr = front ++ ":" ++ back ∧ ':' ∉ back.toList := by
  have hlists : addr = front ++ ":" ++ back ↔ addr.toList = front.toList ++ ':' :: back.toList := by
    rw [← String.toList_inj]
    simp
  rw [hlists, ← Text.splitAtLast_eq_some_iff, addressParts?, Option.map_eq_some_iff]
  constructor
  · rintro ⟨⟨before, after⟩, hsplit, hparts⟩
    obtain ⟨rfl, rfl⟩ := Prod.mk.inj hparts
    rw [hsplit, String.toList_ofList, String.toList_ofList]
  · intro hsplit
    exact ⟨_, hsplit, by rw [String.ofList_toList, String.ofList_toList]⟩

/-- What is read as the text of the port is the second part. -/
theorem portText?_of_addressParts? {addr front back : String}
    (h : addressParts? addr = some (front, back)) : portText? addr = some back := by
  obtain ⟨rfl, hback⟩ := addressParts?_eq_some_iff.1 h
  have hcolon : (front ++ ":" ++ back).toList.contains ':' = true := by simp
  have hreverse : (front ++ ":" ++ back).toList.reverse =
      back.toList.reverse ++ ':' :: front.toList.reverse := by simp
  have hall : ∀ c ∈ back.toList.reverse, decide (c ≠ ':') = true := by
    intro c hc
    exact decide_eq_true fun heq => hback (heq ▸ List.mem_reverse.1 hc)
  rw [portText?, if_pos hcolon, hreverse, List.takeWhile_append_of_pos hall]
  simp

/-! ### Hosts as they are shown -/

/-- A host that has a colon and does not begin with a bracket. -/
def BareHost (host : String) : Prop := ':' ∈ host.toList ∧ ∀ rest, host ≠ "[" ++ rest

theorem isBareHost_iff {host : String} : isBareHost host = true ↔ BareHost host := by
  have hbegins : (∃ rest, host = "[" ++ rest) ↔ host.toList.head? = some '[' := by
    constructor
    · rintro ⟨rest, rfl⟩
      simp
    · intro hhead
      obtain ⟨cs, hcs⟩ := List.head?_eq_some_iff.1 hhead
      refine ⟨String.ofList cs, ?_⟩
      rw [← String.toList_inj, hcs]
      simp
  rw [isBareHost, BareHost, ← not_exists, hbegins]
  simp

instance (host : String) : Decidable (BareHost host) := decidable_of_iff _ isBareHost_iff

def bracketed (host : String) : String := "[" ++ host ++ "]"

/-- The host as it stands in an address. -/
def shownHost (host : String) : String := if isBareHost host then bracketed host else host

variable {host host' : String}

theorem bracketed_inj : bracketed host = bracketed host' ↔ host = host' := by
  constructor
  · intro h
    have hlists := congrArg String.toList h
    rw [← String.toList_inj]
    simpa [bracketed] using hlists
  · rintro rfl
    rfl

theorem bracketed_ne_self (host : String) : bracketed host ≠ host := by
  intro h
  have hlength : (bracketed host).toList.length = host.toList.length + 2 := by simp [bracketed]
  rw [h] at hlength
  omega

/-- A host in brackets is given no more of them. -/
theorem not_bareHost_bracketed (host : String) : ¬ BareHost (bracketed host) := by
  rintro ⟨-, hbegins⟩
  exact hbegins (host ++ "]") (String.append_assoc ..)

theorem shownHost_of_bare (h : BareHost host) : shownHost host = bracketed host :=
  if_pos (isBareHost_iff.2 h)

theorem shownHost_of_not_bare (h : ¬ BareHost host) : shownHost host = host :=
  if_neg (isBareHost_iff.not.2 h)

theorem shownHost_bracketed (host : String) : shownHost (bracketed host) = bracketed host :=
  shownHost_of_not_bare (not_bareHost_bracketed host)

theorem shownHost_eq_bracketed_iff : shownHost host = bracketed host ↔ BareHost host := by
  by_cases h : BareHost host
  · exact iff_of_true (shownHost_of_bare h) h
  · rw [shownHost_of_not_bare h]
    exact iff_of_false (bracketed_ne_self host).symm h

theorem shownHost_eq_iff :
    shownHost host = shownHost host' ↔
      host = host' ∨ (BareHost host ∧ host' = bracketed host) ∨
        (BareHost host' ∧ host = bracketed host') := by
  constructor
  · intro hshown
    -- Only a bare host and one that is not can differ and be shown alike.
    by_cases h : BareHost host
    · by_cases h' : BareHost host'
      · rw [shownHost_of_bare h, shownHost_of_bare h', bracketed_inj] at hshown
        exact .inl hshown
      · rw [shownHost_of_bare h, shownHost_of_not_bare h'] at hshown
        exact .inr (.inl ⟨h, hshown.symm⟩)
    · by_cases h' : BareHost host'
      · rw [shownHost_of_not_bare h, shownHost_of_bare h'] at hshown
        exact .inr (.inr ⟨h', hshown⟩)
      · rw [shownHost_of_not_bare h, shownHost_of_not_bare h'] at hshown
        exact .inl hshown
  · rintro (rfl | ⟨h, rfl⟩ | ⟨h', rfl⟩)
    · rfl
    · rw [shownHost_of_bare h, shownHost_bracketed]
    · rw [shownHost_of_bare h', shownHost_bracketed]

/-! ### Addresses -/

theorem colon_not_mem_decimal (n : Nat) : ':' ∉ (decimal n).toList := by
  rw [decimal, String.toList_ofList]
  exact not_mem_toDigits (by decide) n

theorem addressParts?_address (host : String) (port : UInt16) :
    addressParts? (address host port) = some (shownHost host, decimal port.toNat) :=
  addressParts?_eq_some_iff.2 ⟨rfl, colon_not_mem_decimal port.toNat⟩

/-- **Every host and port make an address that can be dialled.** -/
theorem Network.addressFault?_address (host : String) (port : UInt16) :
    addressFault? (address host port) = none := by
  rw [addressFault?, portText?_of_addressParts? (addressParts?_address host port)]
  simp only [readUInt16?_decimal]

theorem address_eq_iff {port port' : UInt16} :
    address host port = address host' port' ↔ port = port' ∧ shownHost host = shownHost host' := by
  constructor
  · intro h
    have hparts : (shownHost host, decimal port.toNat) = (shownHost host', decimal port'.toNat) := by
      rw [← Option.some_inj, ← addressParts?_address, ← addressParts?_address, h]
    obtain ⟨hshown, hdecimal⟩ := Prod.mk.inj hparts
    refine ⟨?_, hshown⟩
    rw [← Option.some_inj, ← readUInt16?_decimal, ← readUInt16?_decimal, hdecimal]
  · rintro ⟨rfl, hshown⟩
    exact congrArg (· ++ ":" ++ decimal port.toNat) hshown

/-- **Addresses tell hosts and ports apart.** Split at its last colon, an address gives the digits of its
port and either its host as it is or, exactly if the host has a colon and no bracket in front, the host in
brackets. So two hosts and ports have one address exactly if the ports are the same and so are the hosts,
or if one of the hosts is such a bare one and the other is that host in brackets. Whether a bare host is put
into brackets beforehand makes no difference. -/
theorem address_tells_host_and_port :
    (∀ (host : String) (port : UInt16), ∃ shown,
      addressParts? (address host port) = some (shown, decimal port.toNat) ∧
        (shown = host ∨ shown = bracketed host) ∧ (shown = bracketed host ↔ BareHost host)) ∧
    (∀ (host host' : String) (port port' : UInt16),
      address host port = address host' port' ↔
        port = port' ∧ (host = host' ∨ (BareHost host ∧ host' = bracketed host) ∨
          (BareHost host' ∧ host = bracketed host'))) ∧
    ∀ (host : String) (port : UInt16), BareHost host →
      address (bracketed host) port = address host port := by
  refine ⟨?_, ?_, ?_⟩
  · intro host port
    refine ⟨shownHost host, addressParts?_address host port, ?_, shownHost_eq_bracketed_iff⟩
    by_cases h : BareHost host
    · exact .inr (shownHost_of_bare h)
    · exact .inl (shownHost_of_not_bare h)
  · intro host host' port port'
    rw [address_eq_iff, shownHost_eq_iff]
  · intro host port h
    rw [address_eq_iff]
    exact ⟨rfl, shownHost_eq_iff.2 (.inr (.inr ⟨h, rfl⟩))⟩

/-- A host with brackets inside and something that looks like a port at its end. -/
theorem bracketed_inside_told_apart :
    BareHost "a[::1]:6600" ∧ address (bracketed "a[::1]:6600") 1 = address "a[::1]:6600" 1 ∧
      addressParts? (address "a[::1]:6600" 1) = some ("[a[::1]:6600]", "1") := by
  have hbare : BareHost "a[::1]:6600" := by decide
  exact ⟨hbare, address_tells_host_and_port.2.2 _ 1 hbare, by decide⟩

/-- A host that begins with a bracket is shown as it is, whether the bracket is closed or not. -/
example : address "[::1" 6600 = "[::1:6600" ∧ address "[::1]" 6600 = address "::1" 6600 := by decide

end PlayerWatch
