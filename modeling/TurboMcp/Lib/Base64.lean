import Mathlib.Data.List.Basic

/-!
# Base64

The engine `STANDARD` of the `base64` crate: the standard alphabet with padding,
three bytes to four digits.  Decoding is as strict as that engine's: it requires
the canonical padding (`DecodePaddingMode::RequireCanonical`) and allows no
trailing bits, so the padding and the bits it stands for must be the ones `encode`
writes.
-/

namespace TurboMcp.Lib.Base64

/-! ## Digits -/

def digit (n : Nat) : Char :=
  if n < 26 then Char.ofNat (n + 65)
  else if n < 52 then Char.ofNat (n + 71)
  else if n < 62 then Char.ofNat (n - 4)
  else if n = 62 then '+'
  else '/'

def value (c : Char) : Option Nat :=
  if 65 ≤ c.toNat ∧ c.toNat ≤ 90 then some (c.toNat - 65)
  else if 97 ≤ c.toNat ∧ c.toNat ≤ 122 then some (c.toNat - 71)
  else if 48 ≤ c.toNat ∧ c.toNat ≤ 57 then some (c.toNat + 4)
  else if c = '+' then some 62
  else if c = '/' then some 63
  else none

/-- A digit or the padding. -/
def isBase64Char (c : Char) : Bool := c = '=' || (value c).isSome

theorem value_digit {n : Nat} (h : n < 64) : value (digit n) = some n := by
  revert n
  decide

theorem digit_ne_pad {n : Nat} (h : n < 64) : digit n ≠ '=' := by
  intro hpad
  have hvalue := value_digit h
  rw [hpad, show value '=' = none by decide] at hvalue
  cases hvalue

theorem isBase64Char_digit {n : Nat} (h : n < 64) : isBase64Char (digit n) = true := by
  simp [isBase64Char, value_digit h]

/-! ## Coding -/

def encode : List UInt8 → List Char
  | [] => []
  | [a] => [digit (a.toNat / 4), digit (a.toNat % 4 * 16), '=', '=']
  | [a, b] =>
      [digit (a.toNat / 4), digit (a.toNat % 4 * 16 + b.toNat / 16), digit (b.toNat % 16 * 4), '=']
  | a :: b :: c :: bytes =>
      digit (a.toNat / 4) :: digit (a.toNat % 4 * 16 + b.toNat / 16) ::
        digit (b.toNat % 16 * 4 + c.toNat / 64) :: digit (c.toNat % 64) :: encode bytes

/-! The bytes of a group, from its digits. -/

def firstByte (w x : Nat) : UInt8 := UInt8.ofNat (w * 4 + x / 16)

def secondByte (x y : Nat) : UInt8 := UInt8.ofNat (x % 16 * 16 + y / 4)

def thirdByte (y z : Nat) : UInt8 := UInt8.ofNat (y % 4 * 64 + z)

/-- The last four characters, of which up to two are padding. -/
def decodeLast (w x y z : Char) : Option (List UInt8) := do
  let w ← value w
  let x ← value x
  if y = '=' then
    if z = '=' ∧ x % 16 = 0 then some [firstByte w x] else none
  else do
    let y ← value y
    if z = '=' then
      if y % 4 = 0 then some [firstByte w x, secondByte x y] else none
    else do
      let z ← value z
      some [firstByte w x, secondByte x y, thirdByte y z]

/-- Four characters that are followed by more: no padding. -/
def decodeGroup (w x y z : Char) : Option (List UInt8) := do
  let w ← value w
  let x ← value x
  let y ← value y
  let z ← value z
  some [firstByte w x, secondByte x y, thirdByte y z]

def decode : List Char → Option (List UInt8)
  | [] => some []
  | [w, x, y, z] => decodeLast w x y z
  | w :: x :: y :: z :: chars => do
      let bytes ← decodeGroup w x y z
      let rest ← decode chars
      some (bytes ++ rest)
  | _ => none

/-! ## Round trip -/

section

variable (a b c : UInt8)

theorem ofNat_toNat_of_eq {n : Nat} (h : n = a.toNat) : UInt8.ofNat n = a := by
  subst h
  exact UInt8.ofNat_toNat

theorem firstByte_eq (n : Nat) (h : n < 16) :
    firstByte (a.toNat / 4) (a.toNat % 4 * 16 + n) = a :=
  ofNat_toNat_of_eq a (by omega)

theorem secondByte_eq (m n : Nat) (h : n < 4) :
    secondByte (m * 16 + b.toNat / 16) (b.toNat % 16 * 4 + n) = b := by
  have hb : b.toNat < 256 := b.toNat_lt
  exact ofNat_toNat_of_eq b (by omega)

theorem thirdByte_eq (m : Nat) : thirdByte (m * 4 + c.toNat / 64) (c.toNat % 64) = c := by
  have hc : c.toNat < 256 := c.toNat_lt
  exact ofNat_toNat_of_eq c (by omega)

theorem decodeLast_one :
    decodeLast (digit (a.toNat / 4)) (digit (a.toNat % 4 * 16)) '=' '=' = some [a] := by
  have ha : a.toNat < 256 := a.toNat_lt
  have hfirst : firstByte (a.toNat / 4) (a.toNat % 4 * 16) = a := firstByte_eq a 0 (by omega)
  unfold decodeLast
  rw [value_digit (by omega), value_digit (by omega)]
  simp [hfirst]

theorem decodeLast_two :
    decodeLast (digit (a.toNat / 4)) (digit (a.toNat % 4 * 16 + b.toNat / 16))
      (digit (b.toNat % 16 * 4)) '=' = some [a, b] := by
  have ha : a.toNat < 256 := a.toNat_lt
  have hb : b.toNat < 256 := b.toNat_lt
  have hpad : digit (b.toNat % 16 * 4) ≠ '=' := digit_ne_pad (by omega)
  have hfirst := firstByte_eq a (b.toNat / 16) (by omega)
  have hsecond : secondByte (a.toNat % 4 * 16 + b.toNat / 16) (b.toNat % 16 * 4) = b :=
    secondByte_eq b (a.toNat % 4) 0 (by omega)
  unfold decodeLast
  rw [value_digit (by omega), value_digit (by omega), value_digit (by omega)]
  simp [hpad, hfirst, hsecond]

theorem decodeGroup_three :
    decodeGroup (digit (a.toNat / 4)) (digit (a.toNat % 4 * 16 + b.toNat / 16))
      (digit (b.toNat % 16 * 4 + c.toNat / 64)) (digit (c.toNat % 64)) = some [a, b, c] := by
  have ha : a.toNat < 256 := a.toNat_lt
  have hb : b.toNat < 256 := b.toNat_lt
  have hc : c.toNat < 256 := c.toNat_lt
  have hfirst := firstByte_eq a (b.toNat / 16) (by omega)
  have hsecond := secondByte_eq b (a.toNat % 4) (c.toNat / 64) (by omega)
  have hthird := thirdByte_eq c (b.toNat % 16)
  unfold decodeGroup
  rw [value_digit (by omega), value_digit (by omega), value_digit (by omega),
    value_digit (by omega)]
  simp [hfirst, hsecond, hthird]

/-- A last group without padding is like any other. -/
theorem decodeLast_eq_decodeGroup {w x y z : Char} (hy : y ≠ '=') (hz : z ≠ '=') :
    decodeLast w x y z = decodeGroup w x y z := by
  simp [decodeLast, decodeGroup, hy, hz]

end

theorem encode_ne_nil {bytes : List UInt8} (h : bytes ≠ []) : encode bytes ≠ [] := by
  match bytes with
  | [] => exact absurd rfl h
  | [_] => simp [encode]
  | [_, _] => simp [encode]
  | _ :: _ :: _ :: _ => simp [encode]

theorem decode_group {w x y z : Char} {chars : List Char} (h : chars ≠ []) :
    decode (w :: x :: y :: z :: chars) =
      (decodeGroup w x y z).bind fun bytes => (decode chars).map (bytes ++ ·) := by
  cases chars with
  | nil => exact absurd rfl h
  | cons c chars =>
      show (decodeGroup w x y z).bind (fun bytes => (decode (c :: chars)).bind _) = _
      cases decode (c :: chars) <;> rfl

/-- **Round trip**: what was encoded is decoded. -/
theorem decode_encode (bytes : List UInt8) : decode (encode bytes) = some bytes := by
  induction bytes using encode.induct with
  | case1 => rfl
  | case2 a => exact decodeLast_one a
  | case3 a b => exact decodeLast_two a b
  | case4 a b c bytes ih =>
      rcases eq_or_ne bytes [] with rfl | hne
      · have hb : b.toNat < 256 := b.toNat_lt
        have hc : c.toNat < 256 := c.toNat_lt
        rw [encode, encode, decode, decodeLast_eq_decodeGroup (digit_ne_pad (by omega))
          (digit_ne_pad (by omega)), decodeGroup_three]
      · rw [encode, decode_group (encode_ne_nil hne), decodeGroup_three, ih]
        rfl

theorem isBase64Char_encode {bytes : List UInt8} {c : Char} (h : c ∈ encode bytes) :
    isBase64Char c = true := by
  induction bytes using encode.induct with
  | case1 => cases h
  | case2 a =>
      have ha : a.toNat < 256 := a.toNat_lt
      simp only [encode, List.mem_cons, List.not_mem_nil, or_false] at h
      rcases h with rfl | rfl | rfl | rfl
      · exact isBase64Char_digit (by omega)
      · exact isBase64Char_digit (by omega)
      · rfl
      · rfl
  | case3 a b =>
      have ha : a.toNat < 256 := a.toNat_lt
      have hb : b.toNat < 256 := b.toNat_lt
      simp only [encode, List.mem_cons, List.not_mem_nil, or_false] at h
      rcases h with rfl | rfl | rfl | rfl
      · exact isBase64Char_digit (by omega)
      · exact isBase64Char_digit (by omega)
      · exact isBase64Char_digit (by omega)
      · rfl
  | case4 a b c bytes ih =>
      have ha : a.toNat < 256 := a.toNat_lt
      have hb : b.toNat < 256 := b.toNat_lt
      have hc : c.toNat < 256 := c.toNat_lt
      simp only [encode, List.mem_cons] at h
      rcases h with rfl | rfl | rfl | rfl | h
      · exact isBase64Char_digit (by omega)
      · exact isBase64Char_digit (by omega)
      · exact isBase64Char_digit (by omega)
      · exact isBase64Char_digit (by omega)
      · exact ih h

end TurboMcp.Lib.Base64
