import Mathlib.Data.List.TakeWhile
import Mathlib.Data.Nat.Digits.Lemmas
import PlayerWatch.Number.Shortest
import PlayerWatch.Proofs.Json.Tokens

/-!
# Digits and what they denote

The digits of a number denote it and bound it by a power of ten (`length_digits`); without the zeros at
their end they are those of a number that is smaller by a power of ten (`digits_eq_significant`).
-/

namespace PlayerWatch.Number

open Text Json

variable {ds es : List Nat} {n : Nat}

theorem ofDigits_eq (base : Nat) (ds : List Nat) : ofDigits base ds = Nat.ofDigits base ds.reverse := by
  induction ds using List.reverseRecOn with
  | nil => rfl
  | append_singleton ds d ih =>
    rw [ofDigits, List.foldl_append, ← ofDigits, ih, List.reverse_append, List.reverse_singleton,
      List.singleton_append, Nat.ofDigits_cons, Nat.add_comm]
    rfl

theorem ofDigits_append (base : Nat) (ds es : List Nat) :
    ofDigits base (ds ++ es) = ofDigits base ds * base ^ es.length + ofDigits base es := by
  rw [ofDigits_eq, ofDigits_eq, ofDigits_eq, List.reverse_append, Nat.ofDigits_append,
    List.length_reverse, Nat.mul_comm, Nat.add_comm]

theorem ofDigits_zeros (base k : Nat) : ofDigits base (List.replicate k 0) = 0 := by
  rw [ofDigits_eq, List.reverse_replicate, Nat.ofDigits_replicate_zero]

theorem ofDigits_lt (h : ∀ d ∈ ds, d < 10) : ofDigits 10 ds < 10 ^ ds.length := by
  rw [ofDigits_eq, ← List.length_reverse]
  exact Nat.ofDigits_lt_base_pow_length (by decide) fun d hd => h d (List.mem_reverse.1 hd)

theorem le_ofDigits {d : Nat} (hd : d ≠ 0) (ds : List Nat) : 10 ^ ds.length ≤ ofDigits 10 (d :: ds) := by
  rw [← List.singleton_append, ofDigits_append]
  have hone : ofDigits 10 [d] = d := by simp [ofDigits]
  have hle : 10 ^ ds.length ≤ d * 10 ^ ds.length := Nat.le_mul_of_pos_left _ (Nat.pos_of_ne_zero hd)
  rw [hone]
  omega

theorem ofDigits_digits (n : Nat) : ofDigits 10 (Numeral.digits n) = n := ofDigits_toDigits n

/-- The digits of a number above zero begin with another digit than zero. -/
theorem digits_eq_cons (hn : 0 < n) : ∃ d rest, Numeral.digits n = d :: rest ∧ d ≠ 0 := by
  obtain ⟨d, rest, hcons⟩ := List.exists_cons_of_ne_nil (digits_ne_nil n)
  refine ⟨d, rest, hcons, ?_⟩
  rintro rfl
  have hzero := (digits_eq_zero_cons hcons).1
  omega

/-- A number has as many digits as say between which powers of ten it is. -/
theorem length_digits (hn : 0 < n) :
    10 ^ ((Numeral.digits n).length - 1) ≤ n ∧ n < 10 ^ (Numeral.digits n).length := by
  obtain ⟨d, rest, hcons, hd⟩ := digits_eq_cons hn
  have hlow := le_ofDigits hd rest
  have hhigh := ofDigits_lt fun d => lt_of_mem_digits (n := n) (d := d)
  rw [← hcons, ofDigits_digits] at hlow
  rw [ofDigits_digits] at hhigh
  rw [hcons] at hhigh ⊢
  exact ⟨hlow, hhigh⟩

theorem significantDigits_eq (n : Nat) : significantDigits n =
    ((Numeral.digits n).reverse.dropWhile (· = 0)).reverse := rfl

/-- All digits are the significant ones and zeros. -/
theorem digits_eq_significant (n : Nat) :
    ∃ k, Numeral.digits n = significantDigits n ++ List.replicate k 0 := by
  refine ⟨((Numeral.digits n).reverse.takeWhile (· = 0)).length, ?_⟩
  have hzeros : (Numeral.digits n).reverse.takeWhile (· = 0) =
      List.replicate ((Numeral.digits n).reverse.takeWhile (· = 0)).length 0 := by
    refine List.eq_replicate_of_mem fun d hd => ?_
    simpa using List.mem_takeWhile_imp hd
  have hsplit := List.takeWhile_append_dropWhile (p := (· = 0)) (l := (Numeral.digits n).reverse)
  rw [significantDigits_eq, ← List.reverse_replicate, ← hzeros, ← List.reverse_append, hsplit,
    List.reverse_reverse]

end PlayerWatch.Number
