/-
  `ipaddress`: addresses and networks of both versions, from their texts.

  An IPv4 address has four decimal octets, an IPv6 address eight hexadecimal groups, of which `::`
  stands for one or more zero groups and an IPv4 address for the last two. A network has an
  address and the length of its prefix, which may also be written as a netmask or a hostmask; the
  host bits of the address are cleared (`strict=False`). Every failure is a `ValueError`, and the
  functions here return `none` for it.

  * `Network`: its address has no host bits, by construction.
  * `Network.contains_ofAddress`: the address that a network is made of is in it.
-/
import Mathlib.Algebra.Group.Int.Defs
import Mathlib.Data.List.Basic

namespace AgentCorp.Python

/-! ## Numbers -/

/-- The digits of a number, in some base. -/
def digitsValue (base : Nat) (digit : Char → Nat) (text : List Char) : Nat :=
  text.foldl (fun n c => n * base + digit c) 0

def decimalValue : List Char → Nat :=
  digitsValue 10 fun c => c.toNat - '0'.toNat

def hexDigit (c : Char) : Nat :=
  if c.isDigit then c.toNat - '0'.toNat
  else if 'a' ≤ c ∧ c ≤ 'f' then c.toNat - 'a'.toNat + 10
  else c.toNat - 'A'.toNat + 10

def isHexDigit (c : Char) : Bool :=
  c.isDigit || decide ('a' ≤ c ∧ c ≤ 'f') || decide ('A' ≤ c ∧ c ≤ 'F')

/-- `text.isascii() and text.isdigit()`. -/
def isDecimal (text : List Char) : Bool :=
  !text.isEmpty && text.all Char.isDigit

/-! ## Addresses -/

/-- `IPv4Address._parse_octet`. -/
def parseOctet (text : List Char) : Option Nat :=
  if isDecimal text && decide (text.length ≤ 3) &&
      (text == ['0'] || text.head? != some '0') && decide (decimalValue text ≤ 255) then
    some (decimalValue text)
  else none

/-- `IPv4Address(text)`. -/
def ipv4Address (text : List Char) : Option (BitVec 32) :=
  match (text.splitOn '.').mapM parseOctet with
  | some [a, b, c, d] => some (BitVec.ofNat 32 (((a * 256 + b) * 256 + c) * 256 + d))
  | _ => none

/-- `IPv6Address._parse_hextet`. -/
def parseHextet (text : List Char) : Option Nat :=
  if !text.isEmpty && text.all isHexDigit && decide (text.length ≤ 4) then
    some (digitsValue 16 hexDigit text)
  else none

/-- The parts of an address, with an IPv4 address at the end as two groups. -/
def expandSuffix (parts : List (List Char)) : Option (List (List Char)) :=
  let last := parts.getLastD []
  if '.' ∈ last then do
    let suffix ← ipv4Address last
    return parts.dropLast ++ [Nat.toDigits 16 (suffix.toNat / 65536),
      Nat.toDigits 16 (suffix.toNat % 65536)]
  else some parts

/-- Where the parts are empty, their ends aside. -/
def skips (parts : List (List Char)) : List Nat :=
  (List.range (parts.length - 1)).filter fun i => i ≠ 0 ∧ parts[i]? = some []

/-- The groups of an address. -/
def hextets (parts : List (List Char)) : Option (List Nat) :=
  match skips parts with
  | [] => if parts.length = 8 then parts.mapM parseHextet else none
  | [skip] => do
      -- A `::` at an end leaves an empty part there, too.
      let hi := if parts.head? = some [] then skip - 1 else skip
      let lo := if parts.getLast? = some [] then parts.length - skip - 2 else parts.length - skip - 1
      if parts.head? = some [] ∧ hi ≠ 0 ∨ parts.getLast? = some [] ∧ lo ≠ 0 ∨ 7 < hi + lo then none
      else
        let high ← (parts.take hi).mapM parseHextet
        let low ← (parts.drop (parts.length - lo)).mapM parseHextet
        return high ++ List.replicate (8 - (hi + lo)) 0 ++ low
  | _ => none

/-- `IPv6Address._ip_int_from_string`. -/
def ipv6Value (text : List Char) : Option (BitVec 128) :=
  let parts := text.splitOn ':'
  if parts.length < 3 then none
  else do
    let parts ← expandSuffix parts
    if 9 < parts.length then none
    else
      let groups ← hextets parts
      return BitVec.ofNat 128 (groups.foldl (fun n group => n * 65536 + group) 0)

/-- `IPv6Address(text)`; what follows a `%` names the scope. -/
def ipv6Address (text : List Char) : Option (BitVec 128) :=
  if '/' ∈ text then none
  else
    match text.span (· ≠ '%') with
    | (address, []) => ipv6Value address
    | (address, _ :: scopeId) =>
        if scopeId = [] ∨ '%' ∈ scopeId then none else ipv6Value address

inductive IpAddress where
  | v4 (value : BitVec 32)
  | v6 (value : BitVec 128)
  deriving DecidableEq, Repr

/-- `ipaddress.ip_address(text)`. -/
def ipAddress (text : List Char) : Option IpAddress :=
  (ipv4Address text).map .v4 <|> (ipv6Address text).map .v6

/-! ## Networks -/

/-- The first `prefixLength` of `w` bits. -/
def netmask (w prefixLength : Nat) : BitVec w :=
  BitVec.allOnes w ^^^ (BitVec.allOnes w >>> prefixLength)

/-- A network of one version. -/
structure Network (w : Nat) where
  address : BitVec w
  prefixLength : Nat
  prefixLength_le : prefixLength ≤ w
  masked : address &&& netmask w prefixLength = address
  deriving DecidableEq

/-- The network of an address, with its host bits cleared. -/
def Network.ofAddress {w : Nat} (address : BitVec w) (prefixLength : Nat)
    (h : prefixLength ≤ w) : Network w where
  address := address &&& netmask w prefixLength
  prefixLength := prefixLength
  prefixLength_le := h
  masked := by rw [BitVec.and_assoc, BitVec.and_self]

/-- `address in network`. -/
def Network.contains {w : Nat} (network : Network w) (address : BitVec w) : Bool :=
  address &&& netmask w network.prefixLength == network.address

theorem Network.contains_ofAddress {w : Nat} (address : BitVec w) {prefixLength : Nat}
    (h : prefixLength ≤ w) : (Network.ofAddress address prefixLength h).contains address := by
  simp [Network.contains, Network.ofAddress]

/-- `_prefix_from_prefix_string`. -/
def prefixFromText (w : Nat) (text : List Char) : Option Nat :=
  if isDecimal text && decide (decimalValue text ≤ w) then some (decimalValue text) else none

/-- `_prefix_from_ip_int`: ones, and then zeros. -/
def prefixFromMask (mask : BitVec 32) : Option Nat :=
  let trailing := ((List.range 32).find? mask.getLsbD).getD 32
  if mask = netmask 32 (32 - trailing) then some (32 - trailing) else none

/-- `_prefix_from_ip_string`: a netmask, or a hostmask. -/
def prefixFromAddress (text : List Char) : Option Nat := do
  let mask ← ipv4Address text
  prefixFromMask mask <|> prefixFromMask (~~~mask)

inductive IpNetwork where
  | v4 (network : Network 32)
  | v6 (network : Network 128)
  deriving DecidableEq

/-- The network of an address, if the prefix is not too long. -/
def networkOf {w : Nat} (address : Option (BitVec w)) (prefixLength : Option Nat) :
    Option (Network w) := do
  let address ← address
  let prefixLength ← prefixLength
  if h : prefixLength ≤ w then return Network.ofAddress address prefixLength h else none

/-- `ipaddress.ip_network(text, strict=False)`. -/
def ipNetwork (text : List Char) : Option IpNetwork :=
  match text.splitOn '/' with
  | [address] =>
      (networkOf (ipv4Address address) (some 32)).map .v4 <|>
        (networkOf (ipv6Address address) (some 128)).map .v6
  | [address, mask] =>
      (networkOf (ipv4Address address) (prefixFromText 32 mask <|> prefixFromAddress mask)).map .v4
        <|> (networkOf (ipv6Address address) (prefixFromText 128 mask)).map .v6
  | _ => none

/-- `ipaddress.ip_network(number)`: the network of one address. -/
def ipNetworkOfInt (number : Int) : Option IpNetwork :=
  if number < 0 then none
  else if number < 2 ^ 32 then
    some (.v4 (Network.ofAddress (BitVec.ofInt 32 number) 32 (Nat.le_refl 32)))
  else if number < 2 ^ 128 then
    some (.v6 (Network.ofAddress (BitVec.ofInt 128 number) 128 (Nat.le_refl 128)))
  else none

/-- `address in network`; the versions have to agree. -/
def IpNetwork.contains : IpNetwork → IpAddress → Bool
  | .v4 network, .v4 address => network.contains address
  | .v6 network, .v6 address => network.contains address
  | _, _ => false

end AgentCorp.Python
