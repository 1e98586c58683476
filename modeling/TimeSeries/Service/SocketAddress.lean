import TimeSeries.Bytes
import TimeSeries.Text.Blank
import TimeSeries.Text.Numeral

/-!
# Socket addresses

The address at which a service listens: an IP address of version 4 or 6, and behind a colon the
number by which the services at one IP address are told apart.

The four numbers of a version 4 address are decimal without leading zeros.  A version 6 address
stands in brackets.  It has eight groups of hexadecimal digits, the last two of which may be written
as a version 4 address; `::` stands for one or more groups of zeros, once.  A scope may follow it
behind a percent sign.

Written out, the longest run of zero groups is left out if it has at least two groups, the first
one among equals, and an address that embeds one of version 4 shows it as such.
-/

set_option autoImplicit false

namespace TimeSeries

/-- An IP address of version 4. -/
structure Ipv4Address where
  first : UInt8
  second : UInt8
  third : UInt8
  fourth : UInt8
  deriving DecidableEq, Repr, Inhabited

/-- An IP address of version 6, as its eight groups. -/
structure Ipv6Address where
  groups : List UInt16
  deriving DecidableEq, Repr, Inhabited

/-- An IP address and the number of a service there. -/
inductive SocketAddress where
  | version4 (address : Ipv4Address) (service : UInt16)
  | version6 (address : Ipv6Address) (scope : UInt32) (service : UInt16)
  deriving DecidableEq, Repr, Inhabited

/-! ## Reading -/

/-- A reader takes something off the front of a text and leaves the rest, if it finds it there. -/
abbrev Taking (α : Type) := List Char → Option (α × List Char)

/-- Takes a character off the front. -/
def takeChar (wanted : Char) : List Char → Option (List Char)
  | char :: rest => if char = wanted then some rest else none
  | [] => none

/-- Takes a decimal number with any number of digits. -/
def takeDecimal? (greatest : Nat) : Taking Nat := fun chars =>
  let digits := chars.takeWhile Text.isDigit
  let number := Text.natOfDigits digits 0
  if digits.isEmpty || greatest < number then none
  else some (number, chars.drop digits.length)

/-- Takes an item of a sequence: each but the first stands behind a separator. -/
def takeItem {α : Type} (separator : Char) (isFirst : Bool) (take : Taking α) : Taking α :=
  fun chars => if isFirst then take chars else (takeChar separator chars).bind take

namespace Ipv4Address

/-- The two groups of a version 6 address that embed the address. -/
def groups (address : Ipv4Address) : List UInt16 :=
  [address.first.toUInt16 * 256 + address.second.toUInt16,
    address.third.toUInt16 * 256 + address.fourth.toUInt16]

/-- The address that two groups embed. -/
def ofGroups (high low : UInt16) : Ipv4Address :=
  ⟨(high / 256).toUInt8, high.toUInt8, (low / 256).toUInt8, low.toUInt8⟩

/-- Takes a number below 256 in at most three digits, without leading zeros. -/
def takeByte : Taking UInt8 := fun chars => do
  let (number, rest) ← takeDecimal? 255 chars
  let length := chars.length - rest.length
  if 3 < length ∨ (1 < length ∧ chars.head? = some '0') then none
  else some (UInt8.ofNat number, rest)

/-- Takes an address. -/
def take : Taking Ipv4Address := fun chars => do
  let (first, chars) ← takeItem '.' true takeByte chars
  let (second, chars) ← takeItem '.' false takeByte chars
  let (third, chars) ← takeItem '.' false takeByte chars
  let (fourth, chars) ← takeItem '.' false takeByte chars
  return (⟨first, second, third, fourth⟩, chars)

def text (address : Ipv4Address) : String :=
  let number (byte : UInt8) := toString byte.toNat
  number address.first ++ "." ++ number address.second ++ "." ++ number address.third ++ "."
    ++ number address.fourth

end Ipv4Address

namespace Ipv6Address

/-- Takes a group of one to four hexadecimal digits. -/
def takeGroup : Taking UInt16 := fun chars =>
  let digits := chars.takeWhile fun char => (Bytes.hexValue? char).isSome
  if digits.isEmpty || 4 < digits.length then none
  else
    let values := digits.filterMap Bytes.hexValue?
    some (UInt16.ofNat (values.foldl (fun number value => 16 * number + value) 0),
      chars.drop digits.length)

/-- Takes as many groups as there are, up to a number.  A version 4 address counts as two groups
and ends the sequence, which the second result says. -/
def takeGroups (isFirst : Bool) : Nat → List Char → List UInt16 × Bool × List Char
  | 0, chars => ([], false, chars)
  | left + 1, chars =>
      let embedded :=
        if 0 < left then takeItem ':' isFirst Ipv4Address.take chars else none
      match embedded with
      | some (address, rest) => (address.groups, true, rest)
      | none =>
          match takeItem ':' isFirst takeGroup chars with
          | some (group, rest) =>
              let (groups, embeds, rest) := takeGroups false left rest
              (group :: groups, embeds, rest)
          | none => ([], false, chars)

/-- Takes an address. -/
def take : Taking Ipv6Address := fun chars => do
  let (head, embeds, chars) := takeGroups true 8 chars
  if head.length = 8 then
    return (⟨head⟩, chars)
  if embeds then none
  let chars ← takeChar ':' chars
  let chars ← takeChar ':' chars
  let (tail, _, chars) := takeGroups true (7 - head.length) chars
  return (⟨head ++ List.replicate (8 - head.length - tail.length) 0 ++ tail⟩, chars)

/-- The place and the length of the longest run of zero groups, the first one among equals. -/
def longestZeros (groups : List UInt16) : Nat × Nat :=
  (List.range groups.length).foldl (fun best start =>
    let length := ((groups.drop start).takeWhile (· == 0)).length
    if best.2 < length then (start, length) else best) (0, 0)

/-- Groups in hexadecimal, with colons between them. -/
def groupsText (groups : List UInt16) : String :=
  String.ofList (Text.join ':' (groups.map fun group => Nat.toDigits 16 group.toNat))

def text (address : Ipv6Address) : String :=
  match address.groups with
  | [0, 0, 0, 0, 0, 0xffff, high, low] => "::ffff:" ++ (Ipv4Address.ofGroups high low).text
  | groups =>
      let (start, length) := longestZeros groups
      if 1 < length then
        groupsText (groups.take start) ++ "::" ++ groupsText (groups.drop (start + length))
      else
        groupsText groups

end Ipv6Address

namespace SocketAddress

/-- Takes the number of a service behind a colon. -/
def takeService : Taking UInt16 := fun chars => do
  let (service, rest) ← takeDecimal? 65535 (← takeChar ':' chars)
  return (UInt16.ofNat service, rest)

/-- Takes a version 4 address and the number of a service. -/
def take4 : Taking SocketAddress := fun chars => do
  let (address, chars) ← Ipv4Address.take chars
  let (service, chars) ← takeService chars
  return (.version4 address service, chars)

/-- Takes a scope behind a percent sign; zero is none. -/
def takeScope (chars : List Char) : UInt32 × List Char :=
  match (takeChar '%' chars).bind (takeDecimal? (UInt32.size - 1)) with
  | some (scope, rest) => (UInt32.ofNat scope, rest)
  | none => (0, chars)

/-- Takes a version 6 address in brackets and the number of a service. -/
def take6 : Taking SocketAddress := fun chars => do
  let (address, chars) ← Ipv6Address.take (← takeChar '[' chars)
  let (scope, chars) := takeScope chars
  let (service, chars) ← takeService (← takeChar ']' chars)
  return (.version6 address scope service, chars)

/-- The address that a whole text denotes. -/
def ofText? (text : String) : Option SocketAddress :=
  match (take4 text.toList).or (take6 text.toList) with
  | some (address, []) => some address
  | _ => none

def text : SocketAddress → String
  | version4 address service => address.text ++ ":" ++ toString service.toNat
  | version6 address scope service =>
      let scopeText := if scope = 0 then "" else "%" ++ toString scope.toNat
      "[" ++ address.text ++ scopeText ++ "]:" ++ toString service.toNat

end SocketAddress

end TimeSeries
