import Mathlib.Data.List.Basic

/-!
# Internet addresses

Addresses of both families and the reader of their texts: four decimal numbers
without leading zeros, or eight hexadecimal groups of which one run may be left
out behind `::` and the last two be written as an IPv4 address.
-/

namespace TurboMcp.Lib

/-! ## Addresses -/

structure Ipv4Addr where
  octets : List UInt8
  length_eq : octets.length = 4
  deriving DecidableEq

structure Ipv6Addr where
  segments : List UInt16
  length_eq : segments.length = 8
  deriving DecidableEq

inductive IpAddr
  | v4 (addr : Ipv4Addr)
  | v6 (addr : Ipv6Addr)
  deriving DecidableEq

/-! ## Reading -/

/-- Reads at the front of a text; where it reads nothing the text is left as it is. -/
abbrev Reader (α : Type) := List Char → Option (α × List Char)

/-- `char::to_digit`. -/
def toDigit (radix : Nat) (c : Char) : Option Nat :=
  let digit :=
    if '0'.toNat ≤ c.toNat ∧ c.toNat ≤ '9'.toNat then some (c.toNat - '0'.toNat)
    else if 'a'.toNat ≤ c.toNat ∧ c.toNat ≤ 'z'.toNat then some (c.toNat - 'a'.toNat + 10)
    else if 'A'.toNat ≤ c.toNat ∧ c.toNat ≤ 'Z'.toNat then some (c.toNat - 'A'.toNat + 10)
    else none
  digit.filter (· < radix)

def readGivenChar (target : Char) : Reader Unit
  | [] => none
  | c :: rest => if c = target then some ((), rest) else none

/-- What stands at an index of a separated list. -/
def readSeparator {α : Type} (sep : Char) (index : Nat) (inner : Reader α) : Reader α := fun text =>
  if 0 < index then do
    let ((), rest) ← readGivenChar sep text
    inner rest
  else inner text

/-- The digits at the front, their number and their count; one too many is none. -/
def readDigits (radix maxDigits : Nat) : Nat → Nat → List Char → Option (Nat × Nat × List Char)
  | result, count, [] => some (result, count, [])
  | result, count, c :: rest =>
      match toDigit radix c with
      | none => some (result, count, c :: rest)
      | some digit =>
          if maxDigits < count + 1 then none
          else readDigits radix maxDigits (result * radix + digit) (count + 1) rest

/-- A number below `bound`; the accumulator never runs over. -/
def readNumber (radix maxDigits : Nat) (allowZeroPrefix : Bool) (bound : Nat) : Reader Nat :=
  fun text => do
    let (result, count, rest) ← readDigits radix maxDigits 0 0 text
    if count = 0 then none
    else if !allowZeroPrefix ∧ text.head? = some '0' ∧ 1 < count then none
    else if result < bound then some (result, rest)
    else none

def readOctet : Reader UInt8 := fun text =>
  (readNumber 10 3 false 256 text).map fun (n, rest) => (UInt8.ofNat n, rest)

def readGroup : Reader UInt16 := fun text =>
  (readNumber 16 4 true 65536 text).map fun (n, rest) => (UInt16.ofNat n, rest)

def readIpv4Addr : Reader Ipv4Addr := fun text => do
  let (a, rest) ← readSeparator '.' 0 readOctet text
  let (b, rest) ← readSeparator '.' 1 readOctet rest
  let (c, rest) ← readSeparator '.' 2 readOctet rest
  let (d, rest) ← readSeparator '.' 3 readOctet rest
  some (⟨[a, b, c, d], rfl⟩, rest)

/-- The two groups an IPv4 address makes. -/
def Ipv4Addr.groups (addr : Ipv4Addr) : List UInt16 :=
  let octet i := (addr.octets.getD i 0).toUInt16
  [octet 0 * 256 + octet 1, octet 2 * 256 + octet 3]

/-- The groups at the front, `left` of `limit` to come, and whether they end in an IPv4
address. -/
def readGroups (limit : Nat) : Nat → List Char → List UInt16 × Bool × List Char
  | 0, text => ([], false, text)
  | left + 1, text =>
      let i := limit - (left + 1)
      -- a trailing IPv4 address takes the place of two groups
      let trailing := if 0 < left then readSeparator ':' i readIpv4Addr text else none
      match trailing with
      | some (addr, rest) => (addr.groups, true, rest)
      | none =>
          match readSeparator ':' i readGroup text with
          | some (group, rest) =>
              let (groups, trailed, rest) := readGroups limit left rest
              (group :: groups, trailed, rest)
          | none => ([], false, text)

theorem length_readGroups (limit : Nat) : ∀ (left : Nat) (text : List Char),
    (readGroups limit left text).1.length ≤ left := by
  intro left
  induction left with
  | zero =>
      intro text
      exact Nat.le_refl 0
  | succ left ih =>
      intro text
      unfold readGroups
      simp only
      split
      · rename_i addr rest htrailing
        have hleft : 0 < left := by
          by_contra hnone
          rw [if_neg hnone] at htrailing
          cases htrailing
        show 2 ≤ left + 1
        omega
      · split
        · rename_i group rest hgroup
          exact Nat.succ_le_succ (ih rest)
        · exact Nat.zero_le _

/-- The groups before and after the `::`, with zeros between them. -/
def Ipv6Addr.ofParts (head tail : List UInt16) (h : head.length + tail.length ≤ 8) : Ipv6Addr :=
  ⟨head ++ List.replicate (8 - tail.length - head.length) 0 ++ tail, by
    rw [List.length_append, List.length_append, List.length_replicate]
    omega⟩

theorem length_parts (head : List UInt16) (hlt : head.length < 8) (text : List Char) :
    head.length +
      (readGroups (8 - (head.length + 1)) (8 - (head.length + 1)) text).1.length ≤ 8 := by
  have htail := length_readGroups (8 - (head.length + 1)) (8 - (head.length + 1)) text
  omega

def readIpv6Addr : Reader Ipv6Addr := fun text =>
  let front := readGroups 8 8 text
  if hfull : front.1.length = 8 then some (⟨front.1, hfull⟩, front.2.2)
  -- an IPv4 address may not stand before the `::`
  else if front.2.1 then none
  else do
    let ((), rest) ← readGivenChar ':' front.2.2
    let ((), rest) ← readGivenChar ':' rest
    -- the `::` stands for at least one group
    let limit := 8 - (front.1.length + 1)
    let back := readGroups limit limit rest
    have hlt : front.1.length < 8 := Nat.lt_of_le_of_ne (length_readGroups 8 8 text) hfull
    some (.ofParts front.1 back.1 (length_parts front.1 hlt rest), back.2.2)

def readIpAddr : Reader IpAddr := fun text =>
  ((readIpv4Addr text).map fun (addr, rest) => (.v4 addr, rest)).or
    ((readIpv6Addr text).map fun (addr, rest) => (.v6 addr, rest))

/-- `IpAddr::from_str`: the whole text is one address. -/
def IpAddr.parse (text : List Char) : Option IpAddr := do
  let (addr, rest) ← readIpAddr text
  if rest.isEmpty then some addr else none

end TurboMcp.Lib
