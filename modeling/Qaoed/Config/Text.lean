import Qaoed.Device.State
import Qaoed.Library.BlockTree

/-!
# Statements and the values in them

The tree that the configuration parser hands on, and the conversions of the C
library that its values go through.
-/

namespace Qaoed.Config

open Qaoed.Device
open Qaoed.Frame
open Qaoed.Library

/-- `struct cfg`. -/
abbrev Cfg := BlockTree CString CString

/-- The bytes of a keyword. -/
def text (keyword : String) : CString := keyword.toList.map fun char => UInt8.ofNat char.toNat

/-- `strcmp` as the difference of the first bytes that differ. -/
def strcmp : CString → CString → Int
  | [], [] => 0
  | first :: _, [] => first.toNat
  | [], second :: _ => -second.toNat
  | first :: rest, second :: rest' =>
      if first = second then strcmp rest rest' else (first.toNat : Int) - second.toNat

/-! ## Numbers -/

def isSpace (byte : UInt8) : Bool := byte == 0x20 || (0x09 ≤ byte && byte ≤ 0x0d)

def decDigit (byte : UInt8) : Option Nat :=
  if 0x30 ≤ byte ∧ byte ≤ 0x39 then some (byte.toNat - 0x30) else none

def hexDigit (byte : UInt8) : Option Nat :=
  if 0x30 ≤ byte ∧ byte ≤ 0x39 then some (byte.toNat - 0x30)
  else if 0x41 ≤ byte ∧ byte ≤ 0x46 then some (byte.toNat - 0x41 + 10)
  else if 0x61 ≤ byte ∧ byte ≤ 0x66 then some (byte.toNat - 0x61 + 10)
  else none

/-- The number that the leading digits continue, and what follows them. -/
def scanDigits (digit : UInt8 → Option Nat) (base : Nat) : Nat → CString → Nat × CString
  | value, [] => (value, [])
  | value, byte :: rest =>
      match digit byte with
      | some units => scanDigits digit base (value * base + units) rest
      | none => (value, byte :: rest)

/-- White space and a sign, and whether it is a minus. -/
def scanSign (input : CString) : Bool × CString :=
  match input.dropWhile isSpace with
  | 0x2d :: rest => (true, rest)
  | 0x2b :: rest => (false, rest)
  | rest => (false, rest)

/-- At least one digit. -/
def scanNat (digit : UInt8 → Option Nat) (base : Nat) (input : CString) : Option (Nat × CString) :=
  match input with
  | [] => none
  | byte :: _ => if (digit byte).isSome then some (scanDigits digit base 0 input) else none

/-- The `%d` of `sscanf`: a `long`, cut to the range of its type, kept in an `int`. -/
def scanInt (input : CString) : Option Int :=
  let (minus, input) := scanSign input
  (scanNat decDigit 10 input).map fun (value, _) =>
    let long : Int := if minus then max (-(value : Int)) (-2 ^ 63) else min value (2 ^ 63 - 1)
    long.bmod (2 ^ 32)

def atoi (input : CString) : Int := (scanInt input).getD 0

/-- The prefix that a hexadecimal number may have. -/
def skipHexMark : CString → CString
  | 0x30 :: 0x78 :: rest => rest
  | 0x30 :: 0x58 :: rest => rest
  | rest => rest

/-- The `%X` of `sscanf`, kept in a byte. -/
def scanHexByte (input : CString) : Option (UInt8 × CString) :=
  let (minus, input) := scanSign input
  (scanNat hexDigit 16 (skipHexMark input)).map fun (value, rest) =>
    let unsigned : Int :=
      if value < 2 ^ 64 then (if minus then -value else value) else 2 ^ 64 - 1
    (UInt8.ofNat (unsigned % 256).toNat, rest)

/-- `count` hexadecimal bytes with a colon between each two. -/
def scanHexBytes : Nat → CString → Option (List UInt8)
  | 0, _ => some []
  | 1, input => (scanHexByte input).map fun (byte, _) => [byte]
  | count + 2, input =>
      match scanHexByte input with
      | some (byte, 0x3a :: rest) => (scanHexBytes (count + 1) rest).map (byte :: ·)
      | _ => none

/-- `aclmac`; `none` if it returns -1. -/
def aclmac (mac : CString) : Option SixBytes :=
  match scanHexBytes 6 mac with
  | some [b0, b1, b2, b3, b4, b5] => some ⟨b0, b1, b2, b3, b4, b5⟩
  | _ => none

example : aclmac (text "00:1A:0x2b:3c:4d:5E") = some ⟨0x00, 0x1a, 0x2b, 0x3c, 0x4d, 0x5e⟩ := by
  decide

end Qaoed.Config
