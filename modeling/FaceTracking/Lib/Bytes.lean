import Mathlib

/-!
# Byte strings

Byte strings as lists, their big-endian reading as natural numbers, and the
first occurrence of one list inside another. Three facts carry the codecs
built on top:

* **Round trip** (`beNat_beBytes`): writing a number in `w` bytes and reading
  the bytes back returns it modulo `256 ^ w`.
* **Shifts are sums** (`or_shiftLeft`): or-ing a shifted byte onto a smaller
  number adds it, which turns shift-and-or code into the big-endian reading.
* **Stability** (`find?_append`): the first occurrence of a needle stays the
  first occurrence when the text grows on the right.
-/

namespace Lib

/-- A byte string. -/
abbrev Bytes := List UInt8

/-- The UTF-8 bytes of a string. -/
def utf8 (s : String) : Bytes := s.toList.flatMap String.utf8EncodeChar

/-- The byte at an index, for readers that have checked it is there. -/
def byteAt (p : Bytes) (i : Nat) : UInt8 := p.getD i 0

theorem byteAt_append {p : Bytes} {i : Nat} (h : i < p.length) (c : Bytes) :
    byteAt (p ++ c) i = byteAt p i := by
  simp [byteAt, List.getElem?_append_left h]

/-! ## Big-endian numbers -/

/-- The big-endian reading of a byte string. -/
def beNat (b : Bytes) : Nat := b.foldl (fun v x => v * 256 + x.toNat) 0

/-- The last `w` base-256 digits of `v`, most significant first. -/
def beBytes : Nat → Nat → Bytes
  | 0, _ => []
  | w + 1, v => UInt8.ofNat (v / 256 ^ w) :: beBytes w v

@[simp] theorem length_beBytes (w v : Nat) : (beBytes w v).length = w := by
  induction w with
  | zero => rfl
  | succ w ih => simp [beBytes, ih]

theorem beNat_foldl (b : Bytes) (v : Nat) :
    b.foldl (fun v x => v * 256 + x.toNat) v = v * 256 ^ b.length + beNat b := by
  induction b generalizing v with
  | nil => simp [beNat]
  | cons x b ih =>
    have h0 : beNat (x :: b) = (0 * 256 + x.toNat) * 256 ^ b.length + beNat b := ih _
    rw [List.foldl_cons, ih, h0, List.length_cons, pow_succ]
    ring

theorem beNat_cons (x : UInt8) (b : Bytes) :
    beNat (x :: b) = x.toNat * 256 ^ b.length + beNat b := by
  have h : beNat (x :: b) = (0 * 256 + x.toNat) * 256 ^ b.length + beNat b := beNat_foldl b _
  simpa using h

theorem beNat_lt (b : Bytes) : beNat b < 256 ^ b.length := by
  induction b with
  | nil => simp [beNat]
  | cons x b ih =>
    have hx : x.toNat < 256 := x.toNat_lt
    rw [beNat_cons, List.length_cons, pow_succ]
    calc x.toNat * 256 ^ b.length + beNat b
        < x.toNat * 256 ^ b.length + 256 ^ b.length := by omega
      _ = (x.toNat + 1) * 256 ^ b.length := by ring
      _ ≤ 256 * 256 ^ b.length := Nat.mul_le_mul_right _ (by omega)
      _ = 256 ^ b.length * 256 := by ring

/-- A number written in `w` bytes is read back modulo 256^w. -/
theorem beNat_beBytes (w v : Nat) : beNat (beBytes w v) = v % 256 ^ w := by
  induction w with
  | zero => simp [beBytes, beNat, Nat.mod_one]
  | succ w ih =>
    rw [beBytes, beNat_cons, ih, length_beBytes]
    have h := Nat.mod_mul (a := 256 ^ w) (b := 256) (x := v)
    rw [pow_succ, h, UInt8.toNat_ofNat']
    ring

theorem beNat_beBytes_of_lt {w v : Nat} (h : v < 256 ^ w) : beNat (beBytes w v) = v := by
  rw [beNat_beBytes, Nat.mod_eq_of_lt h]

/-- Digits above the written ones do not show. -/
theorem beBytes_add_mul (w a v : Nat) : beBytes w (a * 256 ^ w + v) = beBytes w v := by
  induction w generalizing a with
  | zero => rfl
  | succ w ih =>
    have hp : 0 < 256 ^ w := Nat.pow_pos (by omega)
    have he : a * 256 ^ (w + 1) + v = v + a * 256 * 256 ^ w := by rw [pow_succ]; ring
    have hd : UInt8.ofNat ((a * 256 ^ (w + 1) + v) / 256 ^ w) = UInt8.ofNat (v / 256 ^ w) := by
      apply UInt8.toNat_inj.mp
      rw [he, Nat.add_mul_div_right _ _ hp]
      simp
    rw [beBytes, beBytes, hd, he, Nat.add_comm v, ih]

/-- The high digits stand in front of the low ones. -/
theorem beBytes_add (w u v : Nat) : beBytes (w + u) v = beBytes w (v / 256 ^ u) ++ beBytes u v := by
  induction w with
  | zero => simp [beBytes]
  | succ w ih =>
    rw [Nat.succ_add, beBytes, ih, beBytes, List.cons_append, Nat.div_div_eq_div_mul, ← pow_add,
      Nat.add_comm u w]

/-- A byte string is what its number is written as. -/
theorem beBytes_beNat (b : Bytes) : beBytes b.length (beNat b) = b := by
  induction b with
  | nil => rfl
  | cons x b ih =>
    have hx := x.toNat_lt
    have hp : 0 < 256 ^ b.length := Nat.pow_pos (by omega)
    have hd : (x.toNat * 256 ^ b.length + beNat b) / 256 ^ b.length = x.toNat := by
      rw [Nat.add_comm, Nat.add_mul_div_right _ _ hp, Nat.div_eq_of_lt (beNat_lt b), Nat.zero_add]
    rw [beNat_cons, List.length_cons, beBytes, hd, beBytes_add_mul, ih, UInt8.ofNat_toNat]

/-- Or-ing a shifted value onto one that fits below the shift adds them. -/
theorem or_shiftLeft (a : Nat) {b k : Nat} (h : b < 2 ^ k) : (a <<< k) ||| b = a * 2 ^ k + b := by
  rw [← Nat.shiftLeft_add_eq_or_of_lt h, Nat.shiftLeft_eq]

/-! ## First occurrences -/

variable {α : Type} [DecidableEq α]

/-- Position of the first occurrence of `needle` in a list. -/
def find? (needle : List α) : List α → Option Nat
  | [] => if needle = [] then some 0 else none
  | x :: t => if needle <+: x :: t then some 0 else (find? needle t).map (· + 1)

theorem find?_le_length {needle : List α} {l : List α} {k : Nat} (h : find? needle l = some k) :
    k + needle.length ≤ l.length := by
  induction l generalizing k with
  | nil =>
    simp only [find?] at h
    split at h
    · rename_i hn
      cases h
      simp [hn]
    · cases h
  | cons x t ih =>
    simp only [find?] at h
    split at h
    · rename_i hp
      cases h
      simpa using hp.length_le
    · obtain ⟨j, hj, rfl⟩ := Option.map_eq_some_iff.mp h
      have := ih hj
      simp only [List.length_cons]
      omega

/-- The first occurrence stays the first one when the text grows. -/
theorem find?_append {needle : List α} {l : List α} {k : Nat} (h : find? needle l = some k)
    (r : List α) : find? needle (l ++ r) = some k := by
  induction l generalizing k with
  | nil =>
    simp only [find?] at h
    split at h
    · rename_i hn
      cases h
      subst hn
      cases r <;> simp [find?]
    · cases h
  | cons x t ih =>
    simp only [find?] at h
    split at h
    · rename_i hp
      cases h
      have : needle <+: x :: (t ++ r) := hp.trans (List.prefix_append (x :: t) r)
      simp [find?, this]
    · rename_i hp
      obtain ⟨j, hj, rfl⟩ := Option.map_eq_some_iff.mp h
      have hlen := find?_le_length hj
      -- an occurrence at the head of the longer text would already lie inside `x :: t`
      have hnot : ¬ needle <+: x :: (t ++ r) := by
        intro hq
        exact hp (List.prefix_of_prefix_length_le hq (List.prefix_append (x :: t) r)
          (by simp only [List.length_cons]; omega))
      simp [find?, hnot, ih hj]

end Lib
