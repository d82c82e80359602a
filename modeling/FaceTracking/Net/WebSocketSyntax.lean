import FaceTracking.Net.Protocol
import FaceTracking.Net.WebSocketProto

/-!
# The syntax of a WebSocket frame

`WireFrame` is a frame as RFC 6455 lays it out: a FIN bit, three reserved
bits, an opcode, a length in one of three forms (not necessarily the shortest
that fits), an optional mask and the payload. `WireFrame.bytes` writes it down.

The decoder is exact for this syntax: an admitted frame in front of any bytes
is decoded (`decodeFrame_bytes`), and whatever is decoded is the text of an
admitted frame (`exists_of_item`). The encoder writes the unmasked frame in
the shortest form (`encodeFrame_eq_bytes`).
-/

namespace FaceTracking.Ws

open Lib Proto

/-! ## Frames as written -/

/-- The three ways to write a payload length. -/
inductive LengthForm where
  | bits7
  | bits16
  | bits64
deriving DecidableEq, Repr

namespace LengthForm

/-- The lengths below the limit can be written in the form. -/
def limit : LengthForm → Nat
  | bits7 => 126
  | bits16 => 2 ^ 16
  | bits64 => 2 ^ 64

/-- What the seven length bits of the second byte hold. -/
def code (n : Nat) : LengthForm → Nat
  | bits7 => n
  | bits16 => 126
  | bits64 => 127

/-- Number of bytes behind the second one. -/
def width : LengthForm → Nat
  | bits7 => 0
  | bits16 => 2
  | bits64 => 8

/-- The form with the fewest bytes. -/
def shortest (n : Nat) : LengthForm :=
  if n < 126 then bits7 else if n ≤ 0xFFFF then bits16 else bits64

theorem shortest_fits {n : Nat} (h : n < 2 ^ 64) : n < (shortest n).limit := by
  unfold shortest
  split
  · assumption
  · split
    · exact Nat.lt_succ_of_le ‹_›
    · exact h

/-- No form that can carry the length takes fewer bytes. -/
theorem width_shortest_le {n : Nat} {f : LengthForm} (h : n < f.limit) :
    (shortest n).width ≤ f.width := by
  by_cases h7 : n < 126
  · rw [shortest, if_pos h7]
    exact Nat.zero_le _
  by_cases h16 : n ≤ 0xFFFF
  · rw [shortest, if_neg h7, if_pos h16]
    cases f with
    | bits7 => exact absurd h h7
    | bits16 => exact le_rfl
    | bits64 => exact (by decide : 2 ≤ 8)
  · rw [shortest, if_neg h7, if_neg h16]
    cases f with
    | bits7 => exact absurd h h7
    | bits16 => exact absurd (Nat.le_of_lt_succ h) h16
    | bits64 => exact le_rfl

theorem code_lt {n : Nat} {f : LengthForm} (h : n < f.limit) : f.code n < 128 := by
  cases f with
  | bits7 => exact lt_trans h (by decide)
  | bits16 => exact (by decide : 126 < 128)
  | bits64 => exact (by decide : 127 < 128)

end LengthForm

/-- A masking key. -/
abbrev Mask := { m : Bytes // m.length = 4 }

/-- A frame as RFC 6455 writes it. -/
structure WireFrame where
  fin : Bool
  rsv : Fin 8
  opcode : Fin 16
  form : LengthForm
  mask : Option Mask
  payload : Bytes
  fits : payload.length < form.limit

namespace WireFrame

def firstByte (g : WireFrame) : UInt8 :=
  UInt8.ofNat ((if g.fin then 128 else 0) + 16 * g.rsv.val + g.opcode.val)

def secondByte (g : WireFrame) : UInt8 :=
  UInt8.ofNat ((if g.mask.isSome then 128 else 0) + g.form.code g.payload.length)

/-- The masking key, if there is one. -/
def maskBytes (g : WireFrame) : Bytes :=
  match g.mask with
  | some m => m.val
  | none => []

/-- The payload as it is sent. -/
def data (g : WireFrame) : Bytes :=
  match g.mask with
  | some m => unmask m.val g.payload
  | none => g.payload

def bytes (g : WireFrame) : Bytes :=
  g.firstByte :: g.secondByte ::
    (beBytes g.form.width g.payload.length ++ (g.maskBytes ++ g.data))

/-- What the decoder reports of a frame; the reserved bits are ignored. -/
def toFrame (g : WireFrame) : Frame := ⟨UInt8.ofNat g.opcode.val, g.fin, g.payload⟩

/-- A payload within the limit, a mask where one is required, and a control
frame that is final and short. -/
structure Admitted (g : WireFrame) (maxPayload : Nat) (requireMasked : Bool) : Prop where
  payload_le : g.payload.length ≤ maxPayload
  control : 8 ≤ g.opcode.val → g.fin = true ∧ g.payload.length ≤ 125
  masked : requireMasked = true → g.mask.isSome = true

end WireFrame

/-! ## Bits of a byte -/

theorem testHigh (b : UInt8) : (b &&& 0x80 != 0) = decide (128 ≤ b.toNat) := by
  have h : ∀ n < 256, (UInt8.ofNat n &&& 0x80 != 0) = decide (128 ≤ n) := by decide +kernel
  have hb := h b.toNat b.toNat_lt
  rwa [UInt8.ofNat_toNat] at hb

theorem toNat_low4 (b : UInt8) : (b &&& 0x0F).toNat = b.toNat % 16 := by
  rw [UInt8.toNat_and]
  exact Nat.and_two_pow_sub_one_eq_mod b.toNat 4

theorem toNat_low7 (b : UInt8) : (b &&& 0x7F).toNat = b.toNat % 128 := by
  rw [UInt8.toNat_and]
  exact Nat.and_two_pow_sub_one_eq_mod b.toNat 7

/-- The decoder's test for a control opcode is its high bit. -/
theorem testControl (b : UInt8) :
    (b &&& 0x0F &&& 0x8 != 0) = decide (8 ≤ b.toNat % 16) := by
  have h : ∀ n < 256, (UInt8.ofNat n &&& 0x0F &&& 0x8 != 0) = decide (8 ≤ n % 16) := by
    decide +kernel
  have hb := h b.toNat b.toNat_lt
  rwa [UInt8.ofNat_toNat] at hb

namespace WireFrame

theorem toNat_firstByte (g : WireFrame) :
    g.firstByte.toNat = (if g.fin then 128 else 0) + 16 * g.rsv.val + g.opcode.val := by
  have hr := g.rsv.isLt
  have ho := g.opcode.isLt
  rw [firstByte, UInt8.toNat_ofNat', Nat.mod_eq_of_lt]
  split <;> omega

theorem toNat_secondByte (g : WireFrame) :
    g.secondByte.toNat =
      (if g.mask.isSome then 128 else 0) + g.form.code g.payload.length := by
  have hc := LengthForm.code_lt g.fits
  rw [secondByte, UInt8.toNat_ofNat', Nat.mod_eq_of_lt]
  split <;> omega

theorem fin_of_firstByte (g : WireFrame) : (g.firstByte &&& 0x80 != 0) = g.fin := by
  have hr := g.rsv.isLt
  have ho := g.opcode.isLt
  rw [testHigh, toNat_firstByte]
  cases g.fin with
  | true => exact decide_eq_true (by simp only [if_true]; omega)
  | false => exact decide_eq_false (by simp only [Bool.false_eq_true, if_false]; omega)

theorem opcode_of_firstByte (g : WireFrame) :
    g.firstByte &&& 0x0F = UInt8.ofNat g.opcode.val := by
  have hr := g.rsv.isLt
  have ho := g.opcode.isLt
  apply UInt8.toNat_inj.mp
  rw [toNat_low4, toNat_firstByte, UInt8.toNat_ofNat']
  split <;> omega

theorem control_of_firstByte (g : WireFrame) :
    (g.firstByte &&& 0x0F &&& 0x8 != 0) = decide (8 ≤ g.opcode.val) := by
  have hr := g.rsv.isLt
  have ho := g.opcode.isLt
  rw [testControl, toNat_firstByte]
  congr 1
  split <;> exact propext ⟨fun h => by omega, fun h => by omega⟩

theorem masked_of_secondByte (g : WireFrame) : (g.secondByte &&& 0x80 != 0) = g.mask.isSome := by
  have hc := LengthForm.code_lt g.fits
  rw [testHigh, toNat_secondByte]
  cases g.mask.isSome with
  | true => exact decide_eq_true (by simp only [if_true]; omega)
  | false => exact decide_eq_false (by simp only [Bool.false_eq_true, if_false]; omega)

theorem code_of_secondByte (g : WireFrame) :
    (g.secondByte &&& 0x7F).toNat = g.form.code g.payload.length := by
  have hc := LengthForm.code_lt g.fits
  rw [toNat_low7, toNat_secondByte]
  split <;> omega

end WireFrame

/-! ## The length field -/

theorem toNat_extended16 (x y : UInt8) :
    ((x.toUInt64 <<< 8) ||| y.toUInt64).toNat = beNat [x, y] := by
  have hx := x.toNat_lt
  rw [toNat_shiftLeft_or (by rw [UInt8.toNat_toUInt64]; omega), UInt8.toNat_toUInt64]
  simp [beNat]

/-- The loop over the eight extended length bytes computes their number. -/
theorem toNat_extended64 (b0 b1 : UInt8) (b r : Bytes) (h : b.length = 8) :
    ((List.range 8).foldl
      (fun (len : UInt64) k => (len <<< 8) ||| (byteAt (b0 :: b1 :: (b ++ r)) (2 + k)).toUInt64)
      0).toNat = beNat b := by
  have hb : (List.range 8).foldl
      (fun (len : UInt64) k => (len <<< 8) ||| (byteAt (b0 :: b1 :: (b ++ r)) (2 + k)).toUInt64)
      0 = b.foldl (fun (v : UInt64) x => (v <<< 8) ||| x.toUInt64) 0 := by
    match b, h with
    | [x0, x1, x2, x3, x4, x5, x6, x7], _ => rfl
  rw [hb, toNat_foldl_shiftLeft_or b 0 (by rw [h]; norm_num)]
  simp

theorem toUInt64_eq_iff (b : UInt8) (n : UInt64) : b.toUInt64 = n ↔ b.toNat = n.toNat := by
  rw [← UInt64.toNat_inj, UInt8.toNat_toUInt64]

variable {b0 b1 : UInt8}

theorem frameLength_bits7 (h : (b1 &&& 0x7F).toNat < 126) (r : Bytes) :
    frameLength (b0 :: b1 :: r) = some ((b1 &&& 0x7F).toUInt64, 2) := by
  have h1 : byteAt (b0 :: b1 :: r) 1 = b1 := rfl
  have hne : ∀ n : UInt64, 126 ≤ n.toNat → (b1 &&& 0x7F).toUInt64 ≠ n := by
    intro n hn heq
    have := (toUInt64_eq_iff _ n).mp heq
    omega
  unfold frameLength
  simp only [h1]
  rw [if_neg (hne 126 (by decide)), if_neg (hne 127 (by decide))]

theorem frameLength_bits16 (b0 : UInt8) (h : (b1 &&& 0x7F).toNat = 126) (x y : UInt8) (r : Bytes) :
    ∃ len : UInt64, frameLength (b0 :: b1 :: x :: y :: r) = some (len, 4) ∧
      len.toNat = beNat [x, y] := by
  have h1 : byteAt (b0 :: b1 :: x :: y :: r) 1 = b1 := rfl
  refine ⟨(x.toUInt64 <<< 8) ||| y.toUInt64, ?_, toNat_extended16 x y⟩
  unfold frameLength
  simp only [h1]
  rw [if_pos ((toUInt64_eq_iff _ 126).mpr h), if_neg (by simp)]
  rfl

theorem frameLength_bits64 (b0 : UInt8) (h : (b1 &&& 0x7F).toNat = 127) (b r : Bytes)
    (hb : b.length = 8) :
    ∃ len : UInt64, frameLength (b0 :: b1 :: (b ++ r)) = some (len, 10) ∧
      len.toNat = beNat b := by
  have h1 : byteAt (b0 :: b1 :: (b ++ r)) 1 = b1 := rfl
  have h126 : ¬ (b1 &&& 0x7F).toUInt64 = 126 := by
    rw [toUInt64_eq_iff, h]
    decide
  refine ⟨_, ?_, toNat_extended64 b0 b1 b r hb⟩
  unfold frameLength
  simp only [h1]
  rw [if_neg h126, if_pos ((toUInt64_eq_iff _ 127).mpr h), if_neg (by simp [hb])]

/-- An extended length that is cut short gives no length. -/
theorem frameLength_short (r : Bytes)
    (h : (b1 &&& 0x7F).toNat = 126 ∧ r.length < 2 ∨ (b1 &&& 0x7F).toNat = 127 ∧ r.length < 8) :
    frameLength (b0 :: b1 :: r) = none := by
  have h1 : byteAt (b0 :: b1 :: r) 1 = b1 := rfl
  unfold frameLength
  simp only [h1, List.length_cons]
  rcases h with ⟨hcode, hlen⟩ | ⟨hcode, hlen⟩
  · rw [if_pos ((toUInt64_eq_iff _ 126).mpr hcode), if_pos (by omega)]
  · have h126 : ¬ (b1 &&& 0x7F).toUInt64 = 126 := by
      rw [toUInt64_eq_iff, hcode]
      decide
    rw [if_neg h126, if_pos ((toUInt64_eq_iff _ 127).mpr hcode), if_pos (by omega)]

/-- The length field of a written frame is read as its payload's length. -/
theorem frameLength_bytes (g : WireFrame) (q : Bytes) :
    ∃ len : UInt64, frameLength (g.bytes ++ q) = some (len, 2 + g.form.width) ∧
      len.toNat = g.payload.length := by
  have hcode := g.code_of_secondByte
  have hfits := g.fits
  have hbytes : g.bytes ++ q = g.firstByte :: g.secondByte ::
      (beBytes g.form.width g.payload.length ++ (g.maskBytes ++ g.data ++ q)) := by
    simp [WireFrame.bytes]
  rw [hbytes]
  cases hform : g.form with
  | bits7 =>
    rw [hform] at hcode hfits
    refine ⟨_, frameLength_bits7 (by rw [hcode]; exact hfits) _, ?_⟩
    rw [UInt8.toNat_toUInt64, hcode]
    rfl
  | bits16 =>
    rw [hform] at hcode hfits
    obtain ⟨len, hlen, hval⟩ := frameLength_bits16 g.firstByte hcode
      (UInt8.ofNat (g.payload.length / 256 ^ 1)) (UInt8.ofNat (g.payload.length / 256 ^ 0))
      (g.maskBytes ++ g.data ++ q)
    refine ⟨len, hlen, ?_⟩
    rw [hval]
    exact beNat_beBytes_of_lt (w := 2) hfits
  | bits64 =>
    rw [hform] at hcode hfits
    obtain ⟨len, hlen, hval⟩ := frameLength_bits64 g.firstByte hcode
      (beBytes 8 g.payload.length) (g.maskBytes ++ g.data ++ q) (length_beBytes 8 _)
    refine ⟨len, hlen, ?_⟩
    rw [hval]
    exact beNat_beBytes_of_lt (w := 8) hfits

/-- A length field that has been read is written in the form of its size. -/
theorem form_of_frameLength {p : Bytes} {len : UInt64} {i : Nat} (h2 : 2 ≤ p.length)
    (h : frameLength p = some (len, i)) :
    ∃ f : LengthForm, i = 2 + f.width ∧ (byteAt p 1).toNat % 128 = f.code len.toNat ∧
      len.toNat < f.limit ∧ (p.drop 2).take f.width = beBytes f.width len.toNat := by
  obtain ⟨b0, b1, r, rfl⟩ : ∃ b0 b1 r, p = b0 :: b1 :: r := by
    match p, h2 with
    | b0 :: b1 :: r, _ => exact ⟨b0, b1, r, rfl⟩
  have h1 : (byteAt (b0 :: b1 :: r) 1).toNat % 128 = (b1 &&& 0x7F).toNat := (toNat_low7 b1).symm
  have hlow : (b1 &&& 0x7F).toNat < 128 := by
    rw [toNat_low7]
    omega
  rw [h1]
  by_cases h7 : (b1 &&& 0x7F).toNat < 126
  · rw [frameLength_bits7 h7] at h
    cases h
    exact ⟨.bits7, rfl, by rw [UInt8.toNat_toUInt64]; rfl, by rw [UInt8.toNat_toUInt64]; exact h7,
      rfl⟩
  by_cases h16 : (b1 &&& 0x7F).toNat = 126
  · -- two more bytes, or the field is cut short
    by_cases hr : r.length < 2
    · rw [frameLength_short r (.inl ⟨h16, hr⟩)] at h
      cases h
    obtain ⟨x, y, r, rfl⟩ : ∃ x y r', r = x :: y :: r' := by
      match r, hr with
      | x :: y :: r', _ => exact ⟨x, y, r', rfl⟩
      | [_], hr | [], hr => simp at hr
    obtain ⟨len', hlen, hval⟩ := frameLength_bits16 b0 h16 x y r
    rw [hlen] at h
    cases h
    refine ⟨.bits16, rfl, h16, ?_, ?_⟩
    · rw [hval]
      exact lt_of_lt_of_eq (beNat_lt [x, y]) (by norm_num [LengthForm.limit])
    · rw [hval]
      exact (beBytes_beNat [x, y]).symm
  · have h127 : (b1 &&& 0x7F).toNat = 127 := by omega
    -- eight more bytes, in the same way
    by_cases hr : r.length < 8
    · rw [frameLength_short r (.inr ⟨h127, hr⟩)] at h
      cases h
    have htake : (r.take 8).length = 8 := by
      rw [List.length_take]
      omega
    obtain ⟨len', hlen, hval⟩ := frameLength_bits64 b0 h127 (r.take 8) (r.drop 8) htake
    rw [List.take_append_drop, h] at hlen
    cases hlen
    refine ⟨.bits64, rfl, h127, ?_, ?_⟩
    · rw [hval]
      exact lt_of_lt_of_eq (beNat_lt _) (by rw [htake]; norm_num [LengthForm.limit])
    · rw [hval]
      have h := beBytes_beNat (r.take 8)
      rw [htake] at h
      exact h.symm

/-! ## Masking -/

@[simp] theorem length_unmask (mask data : Bytes) : (unmask mask data).length = data.length := by
  simp [unmask]

/-- Masking twice with one key is the identity. -/
theorem unmask_unmask (mask data : Bytes) : unmask mask (unmask mask data) = data := by
  unfold unmask
  apply List.ext_getElem
  · simp
  · intro k h₁ h₂
    simp

namespace WireFrame

@[simp] theorem length_data (g : WireFrame) : g.data.length = g.payload.length := by
  unfold data
  cases g.mask with
  | none => rfl
  | some m => exact length_unmask _ _

theorem length_maskBytes (g : WireFrame) :
    g.maskBytes.length = if g.mask.isSome then 4 else 0 := by
  unfold maskBytes
  cases g.mask with
  | none => rfl
  | some m => exact m.property

theorem length_bytes (g : WireFrame) :
    g.bytes.length = 2 + g.form.width + (if g.mask.isSome then 4 else 0) + g.payload.length := by
  simp only [bytes, List.length_cons, List.length_append, length_beBytes, length_maskBytes,
    length_data]
  omega

end WireFrame

/-! ## Decoding what is written -/

section Decode

variable {maxPayload : Nat} {requireMasked : Bool}

theorem masked_bytes (g : WireFrame) (q : Bytes) : masked (g.bytes ++ q) = g.mask.isSome :=
  g.masked_of_secondByte

theorem dataStart_bytes (g : WireFrame) (q : Bytes) :
    dataStart (g.bytes ++ q) (2 + g.form.width) + g.payload.length = g.bytes.length := by
  rw [dataStart, masked_bytes, g.length_bytes]
  split <;> omega

/-- The mask and the data stand behind the length field. -/
theorem drop_bytes (g : WireFrame) (q : Bytes) :
    (g.bytes ++ q).drop (2 + g.form.width) = g.maskBytes ++ (g.data ++ q) := by
  have h : g.bytes ++ q = (g.firstByte :: g.secondByte :: beBytes g.form.width g.payload.length) ++
      (g.maskBytes ++ (g.data ++ q)) := by
    simp [WireFrame.bytes]
  rw [h]
  exact List.drop_left' (by simp; omega)

theorem frameAt_bytes (g : WireFrame) (q : Bytes) {len : UInt64}
    (hlen : len.toNat = g.payload.length) :
    frameAt (g.bytes ++ q) len (2 + g.form.width) = g.toFrame := by
  have hdata : ∀ r : Bytes, (g.data ++ r).take g.payload.length = g.data := by
    intro r
    exact List.take_left' g.length_data
  have hop : byteAt (g.bytes ++ q) 0 &&& 0x0F = UInt8.ofNat g.opcode.val := g.opcode_of_firstByte
  have hfin : (byteAt (g.bytes ++ q) 0 &&& 0x80 != 0) = g.fin := g.fin_of_firstByte
  unfold frameAt WireFrame.toFrame dataStart
  simp only [hop, hfin, masked_bytes, hlen]
  congr 1
  cases hm : g.mask with
  | none =>
    have hbytes : g.maskBytes = [] := by rw [WireFrame.maskBytes, hm]
    simp only [Option.isSome_none, Bool.false_eq_true, if_false]
    rw [drop_bytes, hbytes, List.nil_append, hdata, WireFrame.data, hm]
  | some m =>
    have hbytes : g.maskBytes = m.val := by rw [WireFrame.maskBytes, hm]
    -- the payload was masked with the key in front of it
    have hdrop : (g.bytes ++ q).drop (2 + g.form.width + 4) = g.data ++ q := by
      rw [← List.drop_drop, drop_bytes, hbytes]
      exact List.drop_left' m.property
    simp only [Option.isSome_some, if_true]
    rw [hdrop, hdata, drop_bytes, hbytes, List.take_left' m.property, WireFrame.data, hm]
    exact unmask_unmask _ _

theorem admissible_bytes {g : WireFrame} (h : g.Admitted maxPayload requireMasked) (q : Bytes)
    {len : UInt64} (hl : frameLength (g.bytes ++ q) = some (len, 2 + g.form.width))
    (hlen : len.toNat = g.payload.length) :
    Admissible (g.bytes ++ q) maxPayload requireMasked len (2 + g.form.width) where
  two_le := by
    rw [List.length_append, g.length_bytes]
    omega
  length := hl
  len_le := hlen.trans_le h.payload_le
  control := by
    have hc : (byteAt (g.bytes ++ q) 0 &&& 0x0F &&& 0x8 != 0) = decide (8 ≤ g.opcode.val) :=
      g.control_of_firstByte
    have hfin : (byteAt (g.bytes ++ q) 0 &&& 0x80 != 0) = g.fin := g.fin_of_firstByte
    rw [hc, hfin]
    by_cases h8 : 8 ≤ g.opcode.val
    · obtain ⟨hf, hp⟩ := h.control h8
      have hle : ¬ len > 125 := by
        intro hgt
        have : 125 < len.toNat := UInt64.lt_iff_toNat_lt.mp hgt
        omega
      simp [hf, hle]
    · simp [h8]
  is_masked := by
    rw [masked_bytes]
    cases hr : requireMasked with
    | false => simp
    | true => simp [h.masked hr]

/-- **Written frames are decoded**, whatever follows them. -/
theorem decodeFrame_bytes {g : WireFrame} (hM : maxPayload < 2 ^ 63)
    (h : g.Admitted maxPayload requireMasked) (q : Bytes) :
    decodeFrame (g.bytes ++ q) maxPayload requireMasked = .item g.toFrame g.bytes.length := by
  obtain ⟨len, hl, hlen⟩ := frameLength_bytes g q
  have had := admissible_bytes h q hl hlen
  rw [decodeFrame_of_admissible hM had, frameAt_bytes g q hlen, hlen, dataStart_bytes, if_neg]
  rw [List.length_append]
  omega

end Decode

/-! ## What is decoded was written -/

theorem take_split {p : Bytes} (h2 : 2 ≤ p.length) (w k : Nat) :
    p.take (2 + w + k) =
      byteAt p 0 :: byteAt p 1 :: ((p.drop 2).take w ++ (p.drop (2 + w)).take k) := by
  obtain ⟨b0, b1, r, rfl⟩ : ∃ b0 b1 r, p = b0 :: b1 :: r := by
    match p, h2 with
    | b0 :: b1 :: r, _ => exact ⟨b0, b1, r, rfl⟩
  rw [Nat.add_assoc, List.take_add, List.take_add, List.drop_drop]
  rfl

/-- The payload of a frame whose text is complete has the announced length. -/
theorem length_frameAt {p : Bytes} {len : UInt64} {i : Nat}
    (hle : dataStart p i + len.toNat ≤ p.length) : (frameAt p len i).payload.length = len.toNat := by
  have hslice : ((p.drop (dataStart p i)).take len.toNat).length = len.toNat := by
    rw [List.length_take, List.length_drop]
    omega
  unfold frameAt
  simp only
  split
  · rw [length_unmask, hslice]
  · exact hslice

/-- The masking key behind a length field that ends at `i`. -/
def keyAt (p : Bytes) (i : Nat) : Option Mask :=
  if h : masked p = true ∧ i + 4 ≤ p.length then
    some ⟨(p.drop i).take 4, by rw [List.length_take, List.length_drop]; omega⟩
  else none

/-- A complete text in fields. -/
def wireFrame (p : Bytes) (form : LengthForm) (len : UInt64) (hlt : len.toNat < form.limit)
    (hle : dataStart p (2 + form.width) + len.toNat ≤ p.length) : WireFrame where
  fin := byteAt p 0 &&& 0x80 != 0
  rsv := ⟨(byteAt p 0).toNat / 16 % 8, Nat.mod_lt _ (by decide)⟩
  opcode := ⟨(byteAt p 0).toNat % 16, Nat.mod_lt _ (by decide)⟩
  form := form
  mask := keyAt p (2 + form.width)
  payload := (frameAt p len (2 + form.width)).payload
  fits := by rw [length_frameAt hle]; exact hlt

section Read

variable {p : Bytes} {form : LengthForm} {len : UInt64} (hlt : len.toNat < form.limit)
  (hle : dataStart p (2 + form.width) + len.toNat ≤ p.length)

theorem firstByte_wireFrame : (wireFrame p form len hlt hle).firstByte = byteAt p 0 := by
  have hb0 := (byteAt p 0).toNat_lt
  apply UInt8.toNat_inj.mp
  rw [WireFrame.toNat_firstByte]
  change (if (byteAt p 0 &&& 0x80 != 0) = true then 128 else 0) +
    16 * ((byteAt p 0).toNat / 16 % 8) + (byteAt p 0).toNat % 16 = _
  rw [testHigh]
  split <;> simp only [decide_eq_true_eq] at * <;> omega

include hle in
theorem isSome_keyAt : (keyAt p (2 + form.width)).isSome = masked p := by
  unfold keyAt
  by_cases hm : masked p = true
  · have hds : dataStart p (2 + form.width) = 2 + form.width + 4 := by rw [dataStart, if_pos hm]
    rw [dif_pos ⟨hm, by omega⟩]
    exact hm.symm
  · rw [dif_neg fun h => hm h.1]
    exact (Bool.eq_false_iff.mpr hm).symm

theorem secondByte_wireFrame (hcode : (byteAt p 1).toNat % 128 = form.code len.toNat) :
    (wireFrame p form len hlt hle).secondByte = byteAt p 1 := by
  have hb1 := (byteAt p 1).toNat_lt
  apply UInt8.toNat_inj.mp
  rw [WireFrame.toNat_secondByte]
  change (if (keyAt p (2 + form.width)).isSome then 128 else 0) +
    form.code (frameAt p len (2 + form.width)).payload.length = _
  rw [isSome_keyAt hle, length_frameAt hle, ← hcode, masked, testHigh]
  split <;> simp only [decide_eq_true_eq] at * <;> omega

/-- The key and the masked payload are what stands behind the length field. -/
theorem body_wireFrame :
    (wireFrame p form len hlt hle).maskBytes ++ (wireFrame p form len hlt hle).data =
      (p.drop (2 + form.width)).take
        (dataStart p (2 + form.width) - (2 + form.width) + len.toNat) := by
  have hpayload : (wireFrame p form len hlt hle).payload =
      (frameAt p len (2 + form.width)).payload := rfl
  by_cases hm : masked p = true
  · have hds : dataStart p (2 + form.width) = 2 + form.width + 4 := by rw [dataStart, if_pos hm]
    have hsome : (wireFrame p form len hlt hle).mask = some _ := dif_pos ⟨hm, by omega⟩
    have hdata : (frameAt p len (2 + form.width)).payload =
        unmask ((p.drop (2 + form.width)).take 4)
          ((p.drop (2 + form.width + 4)).take len.toNat) := by
      unfold frameAt
      simp only [hm, if_true, hds]
    rw [WireFrame.maskBytes, WireFrame.data, hsome, hpayload, hdata, hds, Nat.add_sub_cancel_left,
      List.take_add, List.drop_drop]
    -- masking the unmasked payload gives back what was read
    simp only [unmask_unmask]
  · have hds : dataStart p (2 + form.width) = 2 + form.width := by rw [dataStart, if_neg hm]
    have hnone : (wireFrame p form len hlt hle).mask = none := dif_neg fun h => hm h.1
    have hdata : (frameAt p len (2 + form.width)).payload =
        (p.drop (2 + form.width)).take len.toNat := by
      unfold frameAt
      simp only [hm, Bool.false_eq_true, if_false, hds]
    rw [WireFrame.maskBytes, WireFrame.data, hnone, hpayload, hdata, hds, Nat.sub_self,
      Nat.zero_add]
    rfl

theorem toFrame_wireFrame :
    (wireFrame p form len hlt hle).toFrame = frameAt p len (2 + form.width) := by
  refine Frame.ext ?_ rfl rfl
  apply UInt8.toNat_inj.mp
  change (UInt8.ofNat ((byteAt p 0).toNat % 16)).toNat = (byteAt p 0 &&& 0x0F).toNat
  rw [toNat_low4, UInt8.toNat_ofNat', Nat.mod_eq_of_lt (by omega)]

/-- A frame that passes the decoder's checks is admitted. -/
theorem admitted_wireFrame {maxPayload : Nat} {requireMasked : Bool}
    (had : Admissible p maxPayload requireMasked len (2 + form.width)) :
    (wireFrame p form len hlt hle).Admitted maxPayload requireMasked := by
  have hpayload : (wireFrame p form len hlt hle).payload.length = len.toNat := length_frameAt hle
  refine ⟨hpayload.trans_le had.len_le, ?_, ?_⟩
  · intro h8
    have hc := had.control
    rw [testControl, decide_eq_true (show 8 ≤ (byteAt p 0).toNat % 16 from h8)] at hc
    simp only [Bool.true_and, Bool.not_eq_true, Bool.or_eq_false_iff, Bool.not_eq_false',
      decide_eq_false_iff_not] at hc
    refine ⟨hc.1, hpayload.trans_le ?_⟩
    exact UInt64.le_iff_toNat_le.mp (UInt64.not_lt.mp hc.2)
  · intro hr
    have hm := had.is_masked
    rw [hr, Bool.true_and] at hm
    change (keyAt p (2 + form.width)).isSome = true
    rw [isSome_keyAt hle]
    simpa using hm

end Read

/-- A decoded frame was read from the bytes of an admitted one. -/
theorem exists_of_item {p : Bytes} {maxPayload : Nat} {requireMasked : Bool} {f : Frame} {n : Nat}
    (hM : maxPayload < 2 ^ 63) (h : decodeFrame p maxPayload requireMasked = .item f n) :
    ∃ g : WireFrame, g.Admitted maxPayload requireMasked ∧ g.toFrame = f ∧
      g.bytes = p.take n ∧ n ≤ p.length := by
  obtain ⟨len, i, had, rfl, rfl, hle⟩ := decodeFrame_item hM h
  obtain ⟨form, rfl, hcode, hlt, hext⟩ := form_of_frameLength had.two_le had.length
  refine ⟨wireFrame p form len hlt hle, admitted_wireFrame hlt hle had, toFrame_wireFrame hlt hle,
    ?_, hle⟩
  have hstart := le_dataStart p (2 + form.width)
  have hn : dataStart p (2 + form.width) + len.toNat = 2 + form.width +
      (dataStart p (2 + form.width) - (2 + form.width) + len.toNat) := by
    omega
  have hlength : beBytes (wireFrame p form len hlt hle).form.width
      (wireFrame p form len hlt hle).payload.length = (p.drop 2).take form.width := by
    rw [hext]
    exact congrArg _ (length_frameAt hle)
  rw [WireFrame.bytes, firstByte_wireFrame, secondByte_wireFrame hlt hle hcode, body_wireFrame,
    hlength, hn, take_split had.two_le]

/-! ## What the encoder writes -/

theorem lengthField_eq {n : Nat} (h : n < 2 ^ 64) :
    lengthField n =
      UInt8.ofNat ((LengthForm.shortest n).code n) :: beBytes (LengthForm.shortest n).width n := by
  unfold lengthField LengthForm.shortest
  by_cases h7 : n < 126
  · rw [if_pos h7, if_pos h7]
    rfl
  by_cases h16 : n ≤ 0xFFFF
  · have hand : ∀ k : Nat, k &&& 0xFF = k % 256 := fun k => Nat.and_two_pow_sub_one_eq_mod k 8
    have hmod : ∀ k : Nat, UInt8.ofNat (k % 256) = UInt8.ofNat k := by
      intro k
      apply UInt8.toNat_inj.mp
      simp
    rw [if_neg h7, if_pos h16, if_neg h7, if_pos h16, hand, hand, hmod, hmod,
      Nat.shiftRight_eq_div_pow]
    simp [LengthForm.code, LengthForm.width, beBytes]
  · have hn : (UInt64.ofNat n).toNat = n := by rw [UInt64.toNat_ofNat', Nat.mod_eq_of_lt h]
    have hput := putU64_eq [] (UInt64.ofNat n)
    rw [hn, List.nil_append] at hput
    rw [if_neg h7, if_neg h16, if_neg h7, if_neg h16]
    exact congrArg (127 :: ·) hput

/-- A frame of the server: final, not masked, its length in the shortest form. -/
def serverFrame (opcode : Fin 16) (data : Bytes) (h : data.length < 2 ^ 64) : WireFrame where
  fin := true
  rsv := 0
  opcode := opcode
  form := .shortest data.length
  mask := none
  payload := data
  fits := LengthForm.shortest_fits h

/-- **The encoder** writes the server's frame. -/
theorem encodeFrame_eq_bytes (opcode : Fin 16) (data : Bytes) (h : data.length < 2 ^ 64) :
    encodeFrame [] (UInt8.ofNat opcode.val) data = (serverFrame opcode data h).bytes := by
  have hfirst : 0x80 ||| (UInt8.ofNat opcode.val &&& 0x0F) = (serverFrame opcode data h).firstByte := by
    have hall : ∀ o < 16, (0x80 ||| (UInt8.ofNat o &&& 0x0F) : UInt8) =
        UInt8.ofNat (128 + 16 * 0 + o) := by
      decide
    exact hall opcode.val opcode.isLt
  have hsecond : UInt8.ofNat ((LengthForm.shortest data.length).code data.length) =
      (serverFrame opcode data h).secondByte := by
    rw [WireFrame.secondByte, serverFrame]
    simp
  rw [encodeFrame_eq, lengthField_eq h, hfirst, hsecond]
  rfl

end FaceTracking.Ws
