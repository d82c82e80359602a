import FaceTracking.Lib.Bytes

/-!
# Base64

The padded encoding in the standard alphabet, and its decoder. Three bytes are
a 24-bit group, read as four digits of six bits; a group that is short of bytes
is filled up with zero bits, and the digits that hold none of its bits are
written as padding. The decoder takes nothing but what an encoder writes: whole
groups, padding only at the end, and zero bits behind the last byte.

`decode_encode` is the round trip, and `length_encode` the length.
-/

namespace Lib.Base64

/-- The character of a six-bit value. -/
def symbol (v : Nat) : UInt8 :=
  if v < 26 then UInt8.ofNat (0x41 + v)
  else if v < 52 then UInt8.ofNat (0x61 + (v - 26))
  else if v < 62 then UInt8.ofNat (0x30 + (v - 52))
  else if v = 62 then 0x2B
  else 0x2F

/-- The padding character. -/
def padding : UInt8 := 0x3D

/-- The value of a character. -/
def value? (c : UInt8) : Option Nat :=
  let n := c.toNat
  if 0x41 ≤ n ∧ n ≤ 0x5A then some (n - 0x41)
  else if 0x61 ≤ n ∧ n ≤ 0x7A then some (n - 0x61 + 26)
  else if 0x30 ≤ n ∧ n ≤ 0x39 then some (n - 0x30 + 52)
  else if n = 0x2B then some 62
  else if n = 0x2F then some 63
  else none

/-! ## Encoding -/

/-- The four digits of a 24-bit number. -/
def sextets (n : Nat) : List Nat := [n / 64 ^ 3 % 64, n / 64 ^ 2 % 64, n / 64 % 64, n % 64]

/-- A group of one, two or three bytes. -/
def encodeGroup (g : Bytes) : Bytes :=
  ((sextets (beNat (g ++ List.replicate (3 - g.length) 0))).take (g.length + 1)).map symbol ++
    List.replicate (3 - g.length) padding

def encode : Bytes → Bytes
  | x :: y :: z :: b => encodeGroup [x, y, z] ++ encode b
  | [x, y] => encodeGroup [x, y]
  | [x] => encodeGroup [x]
  | [] => []

/-! ## Decoding -/

/-- The bytes of four characters. -/
def decodeGroup (a b c d : UInt8) : Option Bytes := do
  let n := (← value? a) * 64 + (← value? b)
  if c = padding ∧ d = padding then
    if n % 16 = 0 then some (beBytes 1 (n / 16)) else none
  else
    let n := n * 64 + (← value? c)
    if d = padding then
      if n % 4 = 0 then some (beBytes 2 (n / 4)) else none
    else
      let n := n * 64 + (← value? d)
      some (beBytes 3 n)

/-- Only the last group may have padding. -/
def decode : Bytes → Option Bytes
  | [] => some []
  | a :: b :: c :: d :: s => do
    let g ← decodeGroup a b c d
    if d = padding then
      if s = [] then some g else none
    else
      some (g ++ (← decode s))
  | _ => none

/-! ## Round trip -/

theorem value?_symbol {v : Nat} (h : v < 64) : value? (symbol v) = some v := by
  revert v
  decide +kernel

theorem symbol_ne_padding {v : Nat} (h : v < 64) : symbol v ≠ padding := by
  revert v
  decide +kernel

theorem length_encodeGroup {g : Bytes} (h : g.length ≤ 3) : (encodeGroup g).length = 4 := by
  simp only [encodeGroup, sextets, List.length_append, List.length_map, List.length_take,
    List.length_cons, List.length_nil, List.length_replicate]
  omega

/-- Each group of three bytes, the last one rounded up, is four characters. -/
theorem length_encode (b : Bytes) : (encode b).length = 4 * ((b.length + 2) / 3) := by
  induction b using encode.induct with
  | case1 x y z b ih =>
    rw [encode, List.length_append, ih, length_encodeGroup (by simp)]
    simp only [List.length_cons]
    omega
  | case2 x y => simp [encode, length_encodeGroup]
  | case3 x => simp [encode, length_encodeGroup]
  | case4 => rfl

section Group

variable {i j k l : Nat} (hi : i < 64) (hj : j < 64) (hk : k < 64) (hl : l < 64)
include hi hj

theorem decodeGroup_two :
    decodeGroup (symbol i) (symbol j) padding padding =
      if (i * 64 + j) % 16 = 0 then some (beBytes 1 ((i * 64 + j) / 16)) else none := by
  simp [decodeGroup, value?_symbol hi, value?_symbol hj]

include hk

theorem decodeGroup_three :
    decodeGroup (symbol i) (symbol j) (symbol k) padding =
      if ((i * 64 + j) * 64 + k) % 4 = 0 then some (beBytes 2 (((i * 64 + j) * 64 + k) / 4))
      else none := by
  simp [decodeGroup, value?_symbol hi, value?_symbol hj, value?_symbol hk, symbol_ne_padding hk]

include hl

theorem decodeGroup_four :
    decodeGroup (symbol i) (symbol j) (symbol k) (symbol l) =
      some (beBytes 3 (((i * 64 + j) * 64 + k) * 64 + l)) := by
  simp [decodeGroup, value?_symbol hi, value?_symbol hj, value?_symbol hk, value?_symbol hl,
    symbol_ne_padding hk, symbol_ne_padding hl]

end Group

/-- A 24-bit number is the sum of its base-64 digits. -/
theorem sextets_sum {n : Nat} (h : n < 64 ^ 4) :
    ((n / 64 ^ 3 % 64 * 64 + n / 64 ^ 2 % 64) * 64 + n / 64 % 64) * 64 + n % 64 = n := by
  omega

theorem mod_lt_64 (n : Nat) : n % 64 < 64 := Nat.mod_lt _ (by omega)

/-- A whole group is decoded to its three bytes, whatever follows. -/
theorem decode_three (x y z : UInt8) (s : Bytes) :
    decode (encodeGroup [x, y, z] ++ s) = (decode s).map ([x, y, z] ++ ·) := by
  have hlt : beNat [x, y, z] < 256 ^ 3 := beNat_lt _
  have hback : beBytes 3 (beNat [x, y, z]) = [x, y, z] := beBytes_beNat [x, y, z]
  have hgroup := decodeGroup_four (mod_lt_64 (beNat [x, y, z] / 64 ^ 3))
    (mod_lt_64 (beNat [x, y, z] / 64 ^ 2)) (mod_lt_64 (beNat [x, y, z] / 64))
    (mod_lt_64 (beNat [x, y, z]))
  rw [sextets_sum (by omega), hback] at hgroup
  have hpad := symbol_ne_padding (mod_lt_64 (beNat [x, y, z]))
  rw [show encodeGroup [x, y, z] = (sextets (beNat [x, y, z])).map symbol from rfl]
  simp only [sextets, List.map_cons, List.map_nil, List.cons_append, List.nil_append, decode,
    hgroup]
  cases decode s <;> simp [hpad]

/-- Three digits are 18 bits: the two bytes and two zero bits. -/
theorem decode_two (x y : UInt8) : decode (encodeGroup [x, y]) = some [x, y] := by
  have hlt : beNat [x, y] < 256 ^ 2 := beNat_lt _
  have hback : beBytes 2 (beNat [x, y]) = [x, y] := beBytes_beNat [x, y]
  have hfill : beNat [x, y, 0] = beNat [x, y] * 256 := by simp [beNat]
  have hgroup := decodeGroup_three (mod_lt_64 (beNat [x, y] * 256 / 64 ^ 3))
    (mod_lt_64 (beNat [x, y] * 256 / 64 ^ 2)) (mod_lt_64 (beNat [x, y] * 256 / 64))
  have hsum : (beNat [x, y] * 256 / 64 ^ 3 % 64 * 64 + beNat [x, y] * 256 / 64 ^ 2 % 64) * 64 +
      beNat [x, y] * 256 / 64 % 64 = beNat [x, y] * 4 := by omega
  rw [hsum, if_pos (Nat.mul_mod_left _ _), Nat.mul_div_cancel _ (by omega), hback] at hgroup
  rw [show encodeGroup [x, y] =
    ((sextets (beNat [x, y, 0])).take 3).map symbol ++ [padding] from rfl, hfill]
  simp only [sextets, List.take_succ_cons, List.take_zero, List.map_cons, List.map_nil,
    List.cons_append, List.nil_append, decode, hgroup]
  simp

/-- Two digits are 12 bits: the byte and four zero bits. -/
theorem decode_one (x : UInt8) : decode (encodeGroup [x]) = some [x] := by
  have hlt : beNat [x] < 256 ^ 1 := beNat_lt _
  have hback : beBytes 1 (beNat [x]) = [x] := beBytes_beNat [x]
  have hfill : beNat [x, 0, 0] = beNat [x] * 65536 := by simp [beNat, Nat.mul_assoc]
  have hgroup := decodeGroup_two (mod_lt_64 (beNat [x] * 65536 / 64 ^ 3))
    (mod_lt_64 (beNat [x] * 65536 / 64 ^ 2))
  have hsum : beNat [x] * 65536 / 64 ^ 3 % 64 * 64 + beNat [x] * 65536 / 64 ^ 2 % 64 =
      beNat [x] * 16 := by omega
  rw [hsum, if_pos (Nat.mul_mod_left _ _), Nat.mul_div_cancel _ (by omega), hback] at hgroup
  rw [show encodeGroup [x] =
    ((sextets (beNat [x, 0, 0])).take 2).map symbol ++ [padding, padding] from rfl, hfill]
  simp only [sextets, List.take_succ_cons, List.take_zero, List.map_cons, List.map_nil,
    List.cons_append, List.nil_append, decode, hgroup]
  simp

/-- What has been encoded is decoded to itself. -/
theorem decode_encode (b : Bytes) : decode (encode b) = some b := by
  induction b using encode.induct with
  | case1 x y z b ih =>
    rw [encode, decode_three, ih]
    rfl
  | case2 x y =>
    rw [encode]
    exact decode_two x y
  | case3 x =>
    rw [encode]
    exact decode_one x
  | case4 => rfl

end Lib.Base64
