import SqlTidy.Number.Word

/-! The numbers that count tokens. The service counts in IEEE doubles; the laws of the
limiter are about exact rationals. Both are instances of one class, so that the same
definitions run and are reasoned about. -/
namespace SqlTidy

class Tokens (α : Type) where
  ofInt : Int → α
  one : α
  add : α → α → α
  sub : α → α → α
  mul : α → α → α
  le : α → α → Bool
  seconds : Nat → α
  perMinute : Int → α
  whole : α → Int

namespace Tokens

def least {α : Type} [Tokens α] (a b : α) : α := if le a b then a else b

end Tokens

instance : Tokens Float where
  ofInt n := Float.ofInt n
  one := 1.0
  add a b := a + b
  sub a b := a - b
  mul a b := a * b
  le a b := a ≤ b
  seconds ns := Float.ofNat (ns / 1000000000) + Float.ofNat (ns % 1000000000) / 1e9
  perMinute n := Float.ofInt n / 60.0
  whole := wholePart

instance : Tokens Rat where
  ofInt n := n
  one := 1
  add a b := a + b
  sub a b := a - b
  mul a b := a * b
  le a b := a ≤ b
  seconds ns := (ns : Rat) / 1000000000
  perMinute n := (n : Rat) / 60
  whole x := Int.tdiv x.num x.den

end SqlTidy
