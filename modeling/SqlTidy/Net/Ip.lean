import SqlTidy.Text.Ascii

/-! IP addresses: what counts as one, and the canonical spelling. -/
namespace SqlTidy
open Ascii

inductive Ip where
  | v4 (octets : List Nat)
  | v6 (groups : List Nat)
deriving Repr, DecidableEq

namespace Ip

def octet? (text : Bytes) : Option Nat :=
  let value := text.foldl (fun n b => 10 * n + (b.toNat - zero.toNat)) 0
  let plain := text.length == 1 || text.head? != some zero
  if !text.isEmpty && text.length ≤ 3 && text.all isDigit && plain && value ≤ 255 then some value else none

def octets? (text : Bytes) : Option (List Nat) := do
  let octets ← (Bytes.split dot text).mapM octet?
  if octets.length == 4 then some octets else none

def group? (text : Bytes) : Option Nat :=
  if text.isEmpty || text.length > 4 then none
  else text.foldlM (fun n b => (hexValue? b).map (16 * n + ·)) 0

def pack : List Nat → List Nat
  | a :: b :: rest => (256 * a + b) :: pack rest
  | _ => []

def pieces? (dotted : Bool) : List Bytes → Option (List Nat)
  | [] => some []
  | [last] =>
    match group? last with
    | some group => some [group]
    | none => if dotted then (octets? last).map pack else none
  | piece :: rest => do return (← group? piece) :: (← pieces? dotted rest)

def groups? (dotted : Bool) (text : Bytes) : Option (List Nat) :=
  if text.isEmpty then some [] else pieces? dotted (Bytes.split colon text)

def sixteen? (text : Bytes) : Option (List Nat) :=
  match Bytes.find? (utf8 "::") text with
  | none => do
    let groups ← groups? true text
    if groups.length == 8 then some groups else none
  | some start => do
    let before ← groups? false (text.take start)
    let after ← groups? true (text.drop (start + 2))
    let held := before.length + after.length
    if held < 8 then some (before ++ List.replicate (8 - held) 0 ++ after) else none

def ofGroups : List Nat → Ip
  | [0, 0, 0, 0, 0, 0xFFFF, high, low] => .v4 [high / 256, high % 256, low / 256, low % 256]
  | groups => .v6 groups

/-- The address that a text spells. A dot before any colon decides for octets. -/
def ofText? (text : Bytes) : Option Ip :=
  match List.find? (fun b => b == dot || b == colon || b == percent) text with
  | some b =>
    if b == dot then (octets? text).map .v4
    else if b == colon then (sixteen? text).map ofGroups
    else none
  | none => none

def zeroRuns : List Nat → List Nat
  | [] => []
  | group :: rest =>
    let runs := zeroRuns rest
    (if group == 0 then runs.headD 0 + 1 else 0) :: runs

def hex (n : Nat) : Bytes := (Nat.toDigits 16 n).flatMap String.utf8EncodeChar

def writeGroups (groups : List Nat) : Bytes := Bytes.join [colon] (groups.map hex)

/-- The canonical spelling: the first of the longest runs of zero groups, if longer than
one group, is written as two colons. -/
def write : Ip → Bytes
  | v4 octets => Bytes.join [dot] (octets.map Bytes.ofNat)
  | v6 groups =>
    let runs := zeroRuns groups
    let longest := runs.foldl max 0
    if longest < 2 then writeGroups groups
    else
      let start := runs.idxOf longest
      writeGroups (groups.take start) ++ utf8 "::" ++ writeGroups (groups.drop (start + longest))

end Ip
end SqlTidy
