import SqlTidy.Net.HostPort

/-! Addresses to listen on: which are refused before a socket is opened, and why. -/
namespace SqlTidy.Net
open Ascii

inductive ListenFault where
  | address (text : Bytes) (fault : HostPort.Fault)
  | unknownPort (name : Bytes)
  | invalidPort (port : Bytes)
deriving Repr, DecidableEq

def ListenFault.message (fault : ListenFault) : Bytes :=
  utf8 "listen tcp: " ++ match fault with
    | address text fault => utf8 "address " ++ text ++ utf8 ": " ++ fault.message
    | unknownPort name => utf8 "lookup tcp/" ++ name ++ utf8 ": unknown port"
    | invalidPort port => utf8 "address " ++ port ++ utf8 ": invalid port"

def namedPorts : List (String × Nat) := [
  ("domain", 53), ("ftp", 21), ("ftps", 990), ("gopher", 70), ("http", 80), ("https", 443),
  ("imap2", 143), ("imap3", 220), ("imaps", 993), ("pop3", 110), ("pop3s", 995), ("smtp", 25),
  ("submissions", 465), ("ssh", 22), ("telnet", 23)]

def portCutoff : UInt32 := 0x40000000

/-- The number that digits spell, in 32 bits; a digit after a number from the cutoff on
ends the reading with the largest number. Nothing if another byte is met. -/
def portNumber? : (n : UInt32) → Bytes → Option UInt32
  | n, [] => some n
  | n, b :: rest =>
    if !isDigit b then none
    else if portCutoff ≤ n then some 0xFFFFFFFF
    else portNumber? (10 * n + (b - zero).toUInt32) rest

def numberedPort? : Bytes → Option Int
  | 0x2D :: digits => (portNumber? 0 digits).map fun n => -(n.toNat : Int)
  | 0x2B :: digits => (portNumber? 0 digits).map fun n => (n.toNat : Int)
  | digits => (portNumber? 0 digits).map fun n => (n.toNat : Int)

def port (text : Bytes) : Except ListenFault Nat :=
  match numberedPort? text with
  | some n => if 0 ≤ n && n ≤ 65535 then .ok n.toNat else .error (.invalidPort text)
  | none =>
    match namedPorts.find? fun entry => sameFold (utf8 entry.1) text with
    | some (_, n) => .ok n
    | none => .error (.unknownPort text)

def listen (text : Bytes) : Except ListenFault (Bytes × Nat) :=
  let full := if text.isEmpty then utf8 ":http" else text
  match HostPort.ofText full with
  | .error fault => .error (.address full fault)
  | .ok address => (port address.port).map fun n => (address.host, n)

end SqlTidy.Net
