/-!
# Powers

The powers of two and ten, in which the ranges of words and the places of digits are counted.
-/

namespace PlayerWatch.Number

def twoTo (n : Nat) : Nat := Nat.pow 2 n

def tenTo (n : Nat) : Nat := Nat.pow 10 n

theorem twoTo_succ (n : Nat) : twoTo (n + 1) = 2 * twoTo n := Nat.mul_comm (Nat.pow 2 n) 2

end PlayerWatch.Number
