/-
  UTF-8: characters as one to four octets, and the reading of octets with the place and the cause of
  the first fault. Overlong forms, surrogates and values above the last code point are faults.
-/
import Drydock.Text.Digit

namespace Drydock.Text

/-- A file's content, octet by octet. -/
abbrev Octets := List UInt8

namespace Utf8

/-! ## Writing -/

/-- The continuation octet that holds the lowest six bits of a number. -/
def continuation (n : Nat) : UInt8 := UInt8.ofNat (0x80 + n % 0x40)

/-- The octets of one character. -/
def encodeChar (c : Char) : Octets :=
  let n := c.toNat
  if n < 0x80 then [UInt8.ofNat n]
  else if n < 0x800 then [UInt8.ofNat (0xC0 + n / 0x40), continuation n]
  else if n < 0x10000 then
    [UInt8.ofNat (0xE0 + n / 0x1000), continuation (n / 0x40), continuation n]
  else
    [UInt8.ofNat (0xF0 + n / 0x40000), continuation (n / 0x1000), continuation (n / 0x40),
      continuation n]

/-- The octets of a text. -/
def encode (t : Text) : Octets := t.flatMap encodeChar

/-! ## Reading -/

/-- What is wrong with octets that are no UTF-8. -/
inductive Cause where
  | invalidStart
  | invalidContinuation
  | truncated
deriving DecidableEq, Repr

/-- The wording of a cause. -/
def Cause.reason : Cause → Text
  | .invalidStart => "invalid start byte"
  | .invalidContinuation => "invalid continuation byte"
  | .truncated => "unexpected end of data"

/-- The first fault: where the faulty octets begin, how many they are, and the first of them. -/
structure Fault where
  position : Nat
  size : Nat
  octet : UInt8
  cause : Cause
deriving DecidableEq, Repr

/-- A fault with its place, as it is reported. -/
def Fault.message (fault : Fault) : Text :=
  if fault.size = 1 then
    concat ["'utf-8' codec can't decode byte 0x", hex 2 fault.octet.toNat, " in position ",
      ofNat fault.position, ": ", fault.cause.reason]
  else
    concat ["'utf-8' codec can't decode bytes in position ", ofNat fault.position, "-",
      ofNat (fault.position + fault.size - 1), ": ", fault.cause.reason]

/-- Whether an octet continues a character. -/
def isContinuation (octet : UInt8) : Bool := 0x80 ≤ octet && octet < 0xC0

/-- How many octets a character has that starts with this one. -/
def width? (octet : UInt8) : Option Nat :=
  if octet < 0x80 then some 1
  else if octet < 0xC2 then none
  else if octet < 0xE0 then some 2
  else if octet < 0xF0 then some 3
  else if octet < 0xF5 then some 4
  else none

/-- Whether the second octet keeps the character in its range and out of the surrogates. -/
def secondFits (first second : UInt8) : Bool :=
  isContinuation second &&
    (if first = 0xE0 then 0xA0 ≤ second
     else if first = 0xED then second < 0xA0
     else if first = 0xF0 then 0x90 ≤ second
     else if first = 0xF4 then second < 0x90
     else true)

/-- The number that a first octet and its continuations spell. -/
def assemble (first : UInt8) (rest : Octets) : Nat :=
  let lead := match rest.length with
    | 0 => first.toNat
    | 1 => first.toNat - 0xC0
    | 2 => first.toNat - 0xE0
    | _ => first.toNat - 0xF0
  rest.foldl (fun value octet => value * 0x40 + (octet.toNat - 0x80)) lead

/--
The continuations of a character that `first` starts and that has `width` octets; otherwise the
number of faulty octets and the cause.
-/
def readContinuations (first : UInt8) (width : Nat) (rest : Octets) :
    Except (Nat × Cause) Octets :=
  let available := rest.take (width - 1)
  let good := match available with
    | [] => []
    | second :: others =>
      if secondFits first second then second :: others.takeWhile isContinuation else []
  if good.length < available.length then .error (good.length + 1, .invalidContinuation)
  else if available.length < width - 1 then .error (available.length + 1, .truncated)
  else .ok available

/-- Reads octets that start at a position; `skip` of them belong to the character before. -/
def decodeFrom (position skip : Nat) : Octets → Except Fault Text
  | [] => .ok []
  | octet :: rest =>
    match skip with
    | skip + 1 => decodeFrom (position + 1) skip rest
    | 0 =>
      match width? octet with
      | none => .error ⟨position, 1, octet, .invalidStart⟩
      | some width =>
        match readContinuations octet width rest with
        | .error (size, cause) => .error ⟨position, size, octet, cause⟩
        | .ok continuations =>
          (decodeFrom (position + 1) (width - 1) rest).map
            (Char.ofNat (assemble octet continuations) :: ·)

/-- Reads octets as text. -/
def decode (octets : Octets) : Except Fault Text := decodeFrom 0 0 octets

end Utf8

end Drydock.Text
