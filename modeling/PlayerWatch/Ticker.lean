/-!
# Tickers

A ticker is due at once and then once in every period. A tick that comes a little late does not move
the next one; a tick that comes more than `tolerance` late starts a new period.
-/

namespace PlayerWatch

/-- How late a tick may come without moving the next one, in milliseconds. -/
def Ticker.tolerance : Nat := 5

/-- A ticker: when it is due next, and how long a period is. -/
structure Ticker where
  due : Nat
  period : Nat
  deriving DecidableEq, Repr

namespace Ticker

def start (now period : Nat) : Ticker := ⟨now, period⟩

/-- When the next tick comes if it is waited for from now on. -/
def tickTime (t : Ticker) (now : Nat) : Nat := max now t.due

/-- The ticker after that tick. -/
def tick (t : Ticker) (now : Nat) : Ticker :=
  let time := t.tickTime now
  { t with due := (if t.due + tolerance < time then time else t.due) + t.period }

end Ticker

end PlayerWatch
