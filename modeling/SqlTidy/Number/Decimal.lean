import SqlTidy.Number.Word
import SqlTidy.Text.Ascii

/-! Decimal text of doubles: the nearest double to a decimal, and the fewest digits
that read back as the same double. -/
namespace SqlTidy.Decimal
open Ascii

/-- The pieces of an unsigned decimal: the digits with the point left out, how many of
them stand after the point, and the power of ten behind the mark of an exponent. -/
structure Spelling where
  digits : Bytes
  places : Nat
  power : Int

def natOf (digits : Bytes) : Nat := digits.foldl (fun n b => 10 * n + (b.toNat - zero.toNat)) 0

def power? (text : Bytes) : Option Int :=
  let (negative, digits) : Bool × Bytes := match text with
    | 0x2D :: rest => (true, rest)
    | 0x2B :: rest => (false, rest)
    | rest => (false, rest)
  if digits.isEmpty || !digits.all isDigit then none
  else some (if negative then -(natOf digits : Int) else natOf digits)

def spelling? (text : Bytes) : Option Spelling := do
  let whole := text.takeWhile isDigit
  let rest := text.dropWhile isDigit
  let (fraction, tail) : Bytes × Bytes := match rest with
    | 0x2E :: rest => (rest.takeWhile isDigit, rest.dropWhile isDigit)
    | rest => ([], rest)
  if whole.isEmpty && fraction.isEmpty then none
  else match tail with
    | [] => some ⟨whole ++ fraction, fraction.length, 0⟩
    | mark :: exponent =>
      if toLower mark == 0x65 then (power? exponent).map (⟨whole ++ fraction, fraction.length, ·⟩) else none

def Spelling.toFloat? (spelling : Spelling) : Option Float :=
  let mantissa := natOf spelling.digits
  let exponent := spelling.power - spelling.places
  let magnitude := exponent + (Bytes.ofNat mantissa).length
  if mantissa == 0 || magnitude < -330 then some 0.0
  else if magnitude > 310 then none
  else
    let x := if exponent < 0 then Float.ofScientific mantissa true (-exponent).toNat
      else Float.ofScientific mantissa false exponent.toNat
    if x.isInf then none else some x

def toFloat? (text : Bytes) : Option Float :=
  match text with
  | 0x2D :: rest => (spelling? rest).bind fun spelling => spelling.toFloat?.map (-·)
  | 0x2B :: rest => (spelling? rest).bind Spelling.toFloat?
  | _ => (spelling? text).bind Spelling.toFloat?

/-- A positive double as a whole number of halves of half its last place: the double is
`value / unit`, and the decimals that read back as it lie from `low / unit` to
`high / unit`, the ends included if `closed`. -/
structure Interval where
  low : Nat
  value : Nat
  high : Nat
  unit : Nat
  closed : Bool

def hiddenBit : Nat := 0x10000000000000

def Interval.ofFloat (x : Float) : Interval :=
  let bits : Nat := x.toBits.toNat % signedLimit
  let fraction : Nat := bits % hiddenBit
  let field : Nat := bits / hiddenBit
  let mantissa := if field == 0 then fraction else fraction + hiddenBit
  let exponent : Int := if field == 0 then -1074 else (field : Int) - 1075
  let factor := Nat.pow 2 exponent.toNat
  let below := if fraction == 0 && field > 1 then 1 else 2
  ⟨(4 * mantissa - below) * factor, 4 * mantissa * factor, (4 * mantissa + 2) * factor,
    4 * Nat.pow 2 (-exponent).toNat, mantissa % 2 == 0⟩

def Interval.holds (interval : Interval) (count : Nat) (power : Int) : Bool :=
  let sought := count * Nat.pow 10 power.toNat * interval.unit
  let scale := Nat.pow 10 (-power).toNat
  if interval.closed then interval.low * scale ≤ sought && sought ≤ interval.high * scale
  else interval.low * scale < sought && sought < interval.high * scale

def nearestQuotient (n d : Nat) : Nat :=
  let q := n / d
  let r := 2 * (n % d)
  if r < d then q
  else if d < r then q + 1
  else q + q % 2

def Interval.nearest? (interval : Interval) (power : Int) : Option Nat :=
  let step := Nat.pow 10 power.toNat * interval.unit
  let scaled := interval.value * Nat.pow 10 (-power).toNat
  let below := scaled / step
  let lower := below != 0 && interval.holds below power
  let upper := interval.holds (below + 1) power
  if lower && upper then some (nearestQuotient scaled step)
  else if lower then some below
  else if upper then some (below + 1)
  else none

/-- Tries the powers of ten from `power` down, `count` of them. The first that gives a
result gives the fewest digits. -/
def Interval.search (interval : Interval) : (count : Nat) → (power : Int) → Nat × Int
  | 0, power => (0, power)
  | count + 1, power =>
    match interval.nearest? power with
    | some digits => (digits, power)
    | none => interval.search count (power - 1)

def positional (count : Nat) (power : Int) : Bytes :=
  let digits := Bytes.ofNat count
  let places := (-power).toNat
  if places == 0 then digits ++ List.replicate power.toNat zero
  else
    let padded := List.replicate (places + 1 - digits.length) zero ++ digits
    padded.take (padded.length - places) ++ dot :: padded.drop (padded.length - places)

def write (x : Float) : Bytes :=
  let sign := if x.toBits.toNat ≥ signedLimit then [dash] else []
  if x.isNaN then utf8 "NaN"
  else if x.isInf then (if x < 0.0 then utf8 "-Inf" else utf8 "+Inf")
  else if x == 0.0 then sign ++ [zero]
  else
    let (count, power) := (Interval.ofFloat x).search 660 310
    sign ++ positional count power

end SqlTidy.Decimal
