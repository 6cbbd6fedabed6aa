import TurboMcp.Lib.Base64

/-!
# Base64 for URLs

The engine `URL_SAFE_NO_PAD` of the `base64` crate: the alphabet with `-` and `_`,
where a last group of one or two bytes is two or three digits.  Decoding is as
strict as that engine's: it refuses padding (`DecodePaddingMode::RequireNone`) and
allows no trailing bits.
-/

namespace TurboMcp.Lib.Base64Url

open Base64 (firstByte secondByte thirdByte firstByte_eq secondByte_eq thirdByte_eq)

def digit (n : Nat) : Char :=
  if n = 62 then '-' else if n = 63 then '_' else Base64.digit n

def value (c : Char) : Option Nat :=
  if c = '-' then some 62
  else if c = '_' then some 63
  else if c = '+' ∨ c = '/' then none
  else Base64.value c

theorem value_digit {n : Nat} (h : n < 64) : value (digit n) = some n := by
  revert n
  decide

/-- A digit is a letter, a decimal digit, `-` or `_`. -/
theorem digit_plain {n : Nat} (h : n < 64) : (digit n).toNat < 128 ∧ digit n ≠ '.' := by
  revert n
  decide

/-! ## Coding -/

def encode : List UInt8 → List Char
  | [] => []
  | [a] => [digit (a.toNat / 4), digit (a.toNat % 4 * 16)]
  | [a, b] =>
      [digit (a.toNat / 4), digit (a.toNat % 4 * 16 + b.toNat / 16), digit (b.toNat % 16 * 4)]
  | a :: b :: c :: bytes =>
      digit (a.toNat / 4) :: digit (a.toNat % 4 * 16 + b.toNat / 16) ::
        digit (b.toNat % 16 * 4 + c.toNat / 64) :: digit (c.toNat % 64) :: encode bytes

def decode : List Char → Option (List UInt8)
  | [] => some []
  | [_] => none
  | [w, x] => do
      let w ← value w
      let x ← value x
      if x % 16 = 0 then some [firstByte w x] else none
  | [w, x, y] => do
      let w ← value w
      let x ← value x
      let y ← value y
      if y % 4 = 0 then some [firstByte w x, secondByte x y] else none
  | w :: x :: y :: z :: chars => do
      let w ← value w
      let x ← value x
      let y ← value y
      let z ← value z
      let rest ← decode chars
      some (firstByte w x :: secondByte x y :: thirdByte y z :: rest)

/-- **Round trip**: what was encoded is decoded. -/
theorem decode_encode (bytes : List UInt8) : decode (encode bytes) = some bytes := by
  induction bytes using encode.induct with
  | case1 => rfl
  | case2 a =>
      have ha : a.toNat < 256 := a.toNat_lt
      have hfirst : firstByte (a.toNat / 4) (a.toNat % 4 * 16) = a := firstByte_eq a 0 (by omega)
      unfold encode decode
      rw [value_digit (by omega), value_digit (by omega)]
      simp [hfirst]
  | case3 a b =>
      have ha : a.toNat < 256 := a.toNat_lt
      have hb : b.toNat < 256 := b.toNat_lt
      have hfirst := firstByte_eq a (b.toNat / 16) (by omega)
      have hsecond : secondByte (a.toNat % 4 * 16 + b.toNat / 16) (b.toNat % 16 * 4) = b :=
        secondByte_eq b (a.toNat % 4) 0 (by omega)
      unfold encode decode
      rw [value_digit (by omega), value_digit (by omega), value_digit (by omega)]
      simp [hfirst, hsecond]
  | case4 a b c bytes ih =>
      have ha : a.toNat < 256 := a.toNat_lt
      have hb : b.toNat < 256 := b.toNat_lt
      have hc : c.toNat < 256 := c.toNat_lt
      have hfirst := firstByte_eq a (b.toNat / 16) (by omega)
      have hsecond := secondByte_eq b (a.toNat % 4) (c.toNat / 64) (by omega)
      have hthird := thirdByte_eq c (b.toNat % 16)
      rw [encode, decode, value_digit (by omega), value_digit (by omega), value_digit (by omega),
        value_digit (by omega), ih]
      simp [hfirst, hsecond, hthird]

/-- Three bytes are four digits, rounded up. -/
theorem length_encode (bytes : List UInt8) : (encode bytes).length = (4 * bytes.length + 2) / 3 := by
  induction bytes using encode.induct with
  | case1 => rfl
  | case2 a => simp [encode]
  | case3 a b => simp [encode]
  | case4 a b c bytes ih =>
      rw [encode, List.length_cons, List.length_cons, List.length_cons, List.length_cons, ih,
        List.length_cons, List.length_cons, List.length_cons]
      omega

theorem plain_of_mem_encode {bytes : List UInt8} {c : Char} (h : c ∈ encode bytes) :
    c.toNat < 128 ∧ c ≠ '.' := by
  induction bytes using encode.induct with
  | case1 => cases h
  | case2 a =>
      have ha : a.toNat < 256 := a.toNat_lt
      simp only [encode, List.mem_cons, List.not_mem_nil, or_false] at h
      rcases h with rfl | rfl
      · exact digit_plain (by omega)
      · exact digit_plain (by omega)
  | case3 a b =>
      have ha : a.toNat < 256 := a.toNat_lt
      have hb : b.toNat < 256 := b.toNat_lt
      simp only [encode, List.mem_cons, List.not_mem_nil, or_false] at h
      rcases h with rfl | rfl | rfl
      · exact digit_plain (by omega)
      · exact digit_plain (by omega)
      · exact digit_plain (by omega)
  | case4 a b c bytes ih =>
      have ha : a.toNat < 256 := a.toNat_lt
      have hb : b.toNat < 256 := b.toNat_lt
      have hc : c.toNat < 256 := c.toNat_lt
      simp only [encode, List.mem_cons] at h
      rcases h with rfl | rfl | rfl | rfl | h
      · exact digit_plain (by omega)
      · exact digit_plain (by omega)
      · exact digit_plain (by omega)
      · exact digit_plain (by omega)
      · exact ih h

end TurboMcp.Lib.Base64Url
