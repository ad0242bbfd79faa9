/-! Integers of 64 bits with sign. -/
namespace SqlTidy

def wordCount : Nat := 0x10000000000000000

def signedLimit : Nat := 0x8000000000000000

def wrap64 (n : Int) : Int := Int.bmod n wordCount

/-- The integer part of a double, toward zero; doubles outside the range of 64 bits give
the least integer of that range. -/
def wholePart (x : Float) : Int :=
  if -9223372036854775808.0 ≤ x && x < 9223372036854775808.0 then x.toInt64.toInt else -9223372036854775808

end SqlTidy
