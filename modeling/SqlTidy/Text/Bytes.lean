/-! Byte strings. Texts are lists of bytes throughout, since input need not be
valid UTF-8, and the transforms must keep every byte they do not remove. -/
namespace SqlTidy

abbrev Bytes := List UInt8

def utf8 (s : String) : Bytes :=
  s.toUTF8.data.toList

namespace Bytes

def dropRightWhile (p : UInt8 → Bool) (text : Bytes) : Bytes :=
  (text.reverse.dropWhile p).reverse

def find? (sought : Bytes) : Bytes → Option Nat
  | [] => if sought.isEmpty then some 0 else none
  | b :: rest => if sought.isPrefixOf (b :: rest) then some 0 else (find? sought rest).map (· + 1)

def has (sought text : Bytes) : Bool :=
  (find? sought text).isSome

def split (separator : UInt8) : Bytes → List Bytes
  | [] => [[]]
  | b :: rest =>
    if b == separator then [] :: split separator rest
    else match split separator rest with
      | [] => [[b]]
      | piece :: pieces => (b :: piece) :: pieces

def join (separator : Bytes) (pieces : List Bytes) : Bytes :=
  (pieces.intersperse separator).flatten

def ofNat (n : Nat) : Bytes :=
  (Nat.toDigits 10 n).map Char.toUInt8

def ofInt : Int → Bytes
  | .ofNat n => ofNat n
  | .negSucc n => 0x2D :: ofNat (n + 1)

end Bytes
end SqlTidy
