import FaceTracking.Lib.Bytes
import FaceTracking.Lib.Pieces

/-!
# SHA-1

The hash of FIPS 180 on messages of whole bytes, in the words of the standard:
functions `Ch`, `Parity` and `Maj`, constants `K`, the message schedule `W`, and
the chaining of 512-bit blocks. A message is padded with one bit, the least
number of zeros that leaves 64 bits of the last block, and its length
(`padded_pad`).
-/

namespace Lib.Fips180

abbrev Word := BitVec 32

/-! ## Functions and constants -/

def ch (x y z : Word) : Word := (x &&& y) ^^^ (~~~x &&& z)

def parity (x y z : Word) : Word := x ^^^ y ^^^ z

def maj (x y z : Word) : Word := (x &&& y) ^^^ (x &&& z) ^^^ (y &&& z)

/-- The function of round `t`. -/
def f (t : Nat) : Word → Word → Word → Word :=
  if t < 20 then ch else if t < 40 then parity else if t < 60 then maj else parity

/-- The constant of round `t`. -/
def K (t : Nat) : Word :=
  if t < 20 then 0x5A827999
  else if t < 40 then 0x6ED9EBA1
  else if t < 60 then 0x8F1BBCDC
  else 0xCA62C1D6

/-! ## Preprocessing -/

theorem exists_zeros (n : Nat) : ∃ k, (n + 1 + k) % 64 = 56 :=
  ⟨(119 - n % 64) % 64, by omega⟩

/-- The number of zero bytes behind the byte with the one bit. -/
def zeros (n : Nat) : Nat := Nat.find (exists_zeros n)

theorem zeros_spec (n : Nat) :
    (n + 1 + zeros n) % 64 = 56 ∧ ∀ k < zeros n, (n + 1 + k) % 64 ≠ 56 :=
  ⟨Nat.find_spec (exists_zeros n), fun _ hk => Nat.find_min (exists_zeros n) hk⟩

/-- Any number that is one of the solutions and less than 64 is the least. -/
theorem zeros_eq {n k : Nat} (h : (n + 1 + k) % 64 = 56) (hk : k < 64) : zeros n = k := by
  obtain ⟨hz, hleast⟩ := zeros_spec n
  have hle : zeros n ≤ k := not_lt.mp fun hlt => hleast k hlt h
  omega

def pad (data : Bytes) : Bytes :=
  data ++ 0x80 :: (List.replicate (zeros data.length) 0 ++ beBytes 8 (8 * data.length))

/-- What the standard asks of a padded message: whole blocks, with as few zeros as possible. -/
def Padded (data msg : Bytes) : Prop :=
  ∃ k, msg = data ++ 0x80 :: (List.replicate k 0 ++ beBytes 8 (8 * data.length)) ∧
    msg.length % 64 = 0 ∧ ∀ j < k, (data.length + 1 + j + 8) % 64 ≠ 0

theorem length_pad (data : Bytes) : (pad data).length % 64 = 0 := by
  have hz := (zeros_spec data.length).1
  simp only [pad, List.length_append, List.length_cons, List.length_replicate, length_beBytes]
  omega

theorem padded_pad (data : Bytes) : Padded data (pad data) := by
  refine ⟨zeros data.length, rfl, length_pad data, fun j hj => ?_⟩
  have := (zeros_spec data.length).2 j hj
  omega

/-- The last eight bytes are the length in bits, if it fits them. -/
theorem beNat_drop_pad {data : Bytes} (h : data.length < 2 ^ 61) :
    beNat ((pad data).drop ((pad data).length - 8)) = 8 * data.length := by
  have hsplit : pad data =
      (data ++ 0x80 :: List.replicate (zeros data.length) 0) ++ beBytes 8 (8 * data.length) := by
    simp [pad]
  rw [hsplit, List.length_append, length_beBytes, Nat.add_sub_cancel, List.drop_left,
    beNat_beBytes_of_lt (by omega)]

/-- The blocks of 64 bytes of a padded message. -/
def blocks (msg : Bytes) : List Bytes := (List.range (pieceCount 64 msg)).map (piece 64 msg)

/-- The big-endian words of a block. -/
def word (M : Bytes) (t : Nat) : Word := BitVec.ofNat 32 (beNat (piece 4 M t))

/-! ## Hash computation -/

/-- The working variables, and the hash value. -/
structure Vars where
  a : Word
  b : Word
  c : Word
  d : Word
  e : Word

def initial : Vars := ⟨0x67452301, 0xEFCDAB89, 0x98BADCFE, 0x10325476, 0xC3D2E1F0⟩

/-- The message schedule. -/
def W (M : Bytes) (t : Nat) : Word :=
  if t < 16 then word M t
  else (W M (t - 3) ^^^ W M (t - 8) ^^^ W M (t - 14) ^^^ W M (t - 16)).rotateLeft 1
termination_by t

theorem W_of_lt {M : Bytes} {t : Nat} (h : t < 16) : W M t = word M t := by
  rw [W, if_pos h]

theorem W_of_ge {M : Bytes} {t : Nat} (h : 16 ≤ t) :
    W M t = (W M (t - 3) ^^^ W M (t - 8) ^^^ W M (t - 14) ^^^ W M (t - 16)).rotateLeft 1 := by
  rw [W, if_neg (by omega)]

/-- Round `t` with its word of the schedule. -/
def step (t : Nat) (w : Word) (v : Vars) : Vars :=
  let T := v.a.rotateLeft 5 + f t v.b v.c v.d + v.e + K t + w
  { a := T, b := v.a, c := v.b.rotateLeft 30, d := v.c, e := v.d }

/-- The next hash value. -/
def compress (H : Vars) (M : Bytes) : Vars :=
  let v := (List.range 80).foldl (fun v t => step t (W M t) v) H
  { a := v.a + H.a, b := v.b + H.b, c := v.c + H.c, d := v.d + H.d, e := v.e + H.e }

def digest (data : Bytes) : Bytes :=
  let H := (blocks (pad data)).foldl compress initial
  [H.a, H.b, H.c, H.d, H.e].flatMap fun h => beBytes 4 h.toNat

end Lib.Fips180
