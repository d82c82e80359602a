import FaceTracking.Lib.Scan

/-!
# WebSocket framing

The pure RFC 6455 helpers of the terminal's server side: the accept hash with
its SHA-1 and base64, the encoder of unmasked server frames and the decoder of
masked client frames. Lengths on the wire are 64-bit numbers as in the source.

`frames` packages the decoder, with the default limits, as an incremental
decoder; what its users need about partial and coalesced frames then comes from
the library.
-/

namespace FaceTracking.Ws

open Lib

/-- Appended to the client key before hashing. -/
def kGuid : String := "258EAFA5-E914-47DA-95CA-C5AB0DC85B11"

/-! ## SHA-1 -/

namespace Sha1

def rol (v b : UInt32) : UInt32 := (v <<< b) ||| (v >>> (32 - b))

/-- The message with 0x80, zeros up to 56 modulo 64 and the 64-bit bit length. -/
def pad (data : Bytes) : Bytes :=
  let bitLen : UInt64 := UInt64.ofNat data.length * 8
  let msg := data ++ [0x80]
  let msg := msg ++ List.replicate ((120 - msg.length % 64) % 64) 0
  ([56, 48, 40, 32, 24, 16, 8, 0] : List UInt64).foldl
    (fun msg s => msg ++ [((bitLen >>> s) &&& 0xFF).toUInt8]) msg

/-- The 80 words of the block at an offset. -/
def words (msg : Bytes) (off : Nat) : List UInt32 :=
  let w := (List.range 16).map fun i =>
    ((byteAt msg (off + i * 4)).toUInt32 <<< 24) |||
      ((byteAt msg (off + i * 4 + 1)).toUInt32 <<< 16) |||
      ((byteAt msg (off + i * 4 + 2)).toUInt32 <<< 8) |||
      (byteAt msg (off + i * 4 + 3)).toUInt32
  (List.range' 16 64).foldl
    (fun w i =>
      w ++ [rol (w.getD (i - 3) 0 ^^^ w.getD (i - 8) 0 ^^^ w.getD (i - 14) 0 ^^^ w.getD (i - 16) 0)
        1]) w

structure Chain where
  a : UInt32
  b : UInt32
  c : UInt32
  d : UInt32
  e : UInt32
deriving DecidableEq, Repr

def Chain.initial : Chain := ⟨0x67452301, 0xEFCDAB89, 0x98BADCFE, 0x10325476, 0xC3D2E1F0⟩

/-- One of the 80 rounds, with the word it consumes. -/
def round (h : Chain) (i : Nat) (w : UInt32) : Chain :=
  let (f, k) : UInt32 × UInt32 :=
    if i < 20 then ((h.b &&& h.c) ||| (~~~h.b &&& h.d), 0x5A827999)
    else if i < 40 then (h.b ^^^ h.c ^^^ h.d, 0x6ED9EBA1)
    else if i < 60 then ((h.b &&& h.c) ||| (h.b &&& h.d) ||| (h.c &&& h.d), 0x8F1BBCDC)
    else (h.b ^^^ h.c ^^^ h.d, 0xCA62C1D6)
  let tmp := rol h.a 5 + f + h.e + k + w
  ⟨tmp, h.a, rol h.b 30, h.c, h.d⟩

def block (msg : Bytes) (h : Chain) (off : Nat) : Chain :=
  let w := words msg off
  let r := (List.range 80).foldl (fun s i => round s i (w.getD i 0)) h
  ⟨h.a + r.a, h.b + r.b, h.c + r.c, h.d + r.d, h.e + r.e⟩

end Sha1

open Sha1 in
def sha1 (data : Bytes) : Bytes :=
  let msg := pad data
  let h := (List.range (msg.length / 64)).foldl (fun h i => block msg h (64 * i)) Chain.initial
  [h.a, h.b, h.c, h.d, h.e].flatMap fun (x : UInt32) =>
    [((x >>> 24) &&& 0xFF).toUInt8, ((x >>> 16) &&& 0xFF).toUInt8, ((x >>> 8) &&& 0xFF).toUInt8,
      (x &&& 0xFF).toUInt8]

/-! ## Base64 -/

def base64Table : Bytes := utf8 "ABCDEFGHIJKLMNOPQRSTUVWXYZabcdefghijklmnopqrstuvwxyz0123456789+/"

/-- The table character of six bits of a 24-bit group. -/
def base64Char (n : UInt32) (shift : UInt32) : UInt8 :=
  base64Table.getD ((n >>> shift) &&& 0x3F).toNat 0

def base64 : Bytes → Bytes
  | x :: y :: z :: data =>
    let n := (x.toUInt32 <<< 16) ||| (y.toUInt32 <<< 8) ||| z.toUInt32
    base64Char n 18 :: base64Char n 12 :: base64Char n 6 :: base64Char n 0 :: base64 data
  | [x, y] =>
    let n := (x.toUInt32 <<< 16) ||| (y.toUInt32 <<< 8)
    [base64Char n 18, base64Char n 12, base64Char n 6, 0x3D]
  | [x] =>
    let n := x.toUInt32 <<< 16
    [base64Char n 18, base64Char n 12, 0x3D, 0x3D]
  | [] => []

/-- Sec-WebSocket-Accept for a given Sec-WebSocket-Key. -/
def acceptKey (clientKey : Bytes) : Bytes := base64 (sha1 (clientKey ++ utf8 kGuid))

/-! ## Framing -/

def kOpContinuation : UInt8 := 0x0
def kOpText : UInt8 := 0x1
def kOpBinary : UInt8 := 0x2
def kOpClose : UInt8 := 0x8
def kOpPing : UInt8 := 0x9
def kOpPong : UInt8 := 0xA

/-- Encode one server frame (FIN set, never masked) and append it to `out`. -/
def encodeFrame (out : Bytes) (opcode : UInt8) (data : Bytes) : Bytes :=
  let len := data.length
  let out := out ++ [0x80 ||| (opcode &&& 0x0F)]
  let out :=
    if len < 126 then out ++ [UInt8.ofNat len]
    else if len ≤ 0xFFFF then
      out ++ [126, UInt8.ofNat ((len >>> 8) &&& 0xFF), UInt8.ofNat (len &&& 0xFF)]
    else
      ([56, 48, 40, 32, 24, 16, 8, 0] : List UInt64).foldl
        (fun out s => out ++ [((UInt64.ofNat len >>> s) &&& 0xFF).toUInt8]) (out ++ [127])
  out ++ data

/-- The bytes between the first byte of a frame and its data. -/
def lengthField (len : Nat) : Bytes :=
  if len < 126 then [UInt8.ofNat len]
  else if len ≤ 0xFFFF then [126, UInt8.ofNat ((len >>> 8) &&& 0xFF), UInt8.ofNat (len &&& 0xFF)]
  else
    127 :: ([56, 48, 40, 32, 24, 16, 8, 0] : List UInt64).map
      (fun s => ((UInt64.ofNat len >>> s) &&& 0xFF).toUInt8)

theorem encodeFrame_eq (opcode : UInt8) (data : Bytes) :
    encodeFrame [] opcode data =
      (0x80 ||| (opcode &&& 0x0F)) :: (lengthField data.length ++ data) := by
  unfold encodeFrame lengthField
  simp only
  split
  · rfl
  · split
    · rfl
    · rfl

theorem length_lengthField (len : Nat) :
    (lengthField len).length = if len < 126 then 1 else if len ≤ 0xFFFF then 3 else 9 := by
  unfold lengthField
  split
  · rfl
  · split <;> rfl

/-- A frame tells its opcode and its data. -/
theorem encodeFrame_inj {opcode opcode' : UInt8} {data data' : Bytes}
    (h : encodeFrame [] opcode data = encodeFrame [] opcode' data') :
    0x80 ||| (opcode &&& 0x0F) = 0x80 ||| (opcode' &&& 0x0F) ∧ data = data' := by
  rw [encodeFrame_eq, encodeFrame_eq, List.cons.injEq] at h
  refine ⟨h.1, ?_⟩
  -- a longer payload never has a shorter length field
  have hlen : data.length = data'.length := by
    have hl := congrArg List.length h.2
    rw [List.length_append, List.length_append, length_lengthField, length_lengthField] at hl
    split_ifs at hl <;> omega
  rw [hlen] at h
  exact List.append_cancel_left h.2

/-- One decoded frame. -/
@[ext] structure Frame where
  opcode : UInt8
  fin : Bool
  payload : Bytes
deriving DecidableEq, Repr

/-- The payload length a frame announces and the index behind its length field;
`none` if the field is cut short. -/
def frameLength (p : Bytes) : Option (UInt64 × Nat) :=
  let len : UInt64 := (byteAt p 1 &&& 0x7F).toUInt64
  if len = 126 then
    if p.length < 4 then none
    else some (((byteAt p 2).toUInt64 <<< 8) ||| (byteAt p 3).toUInt64, 4)
  else if len = 127 then
    if p.length < 10 then none
    else some
      ((List.range 8).foldl (fun len k => (len <<< 8) ||| (byteAt p (2 + k)).toUInt64) 0, 10)
  else some (len, 2)

/-- The payload under its four-byte mask. -/
def unmask (mask data : Bytes) : Bytes :=
  data.mapIdx fun k x => x ^^^ byteAt mask (k &&& 3)

def kMaxPayload : Nat := 16 * 1024 * 1024

/-- Try to decode one client frame. `more` asks to buffer the rest and retry,
`bad` is a protocol violation or a payload above the limit. -/
def decodeFrame (p : Bytes) (maxPayload : Nat) (requireMasked : Bool) : Step Frame :=
  if p.length < 2 then .more
  else
    let fin := byteAt p 0 &&& 0x80 != 0
    let opcode := byteAt p 0 &&& 0x0F
    let masked := byteAt p 1 &&& 0x80 != 0
    match frameLength p with
    | none => .more
    | some (len, i) =>
      if len.toNat > maxPayload then .bad
      -- control frames are final and short
      else if opcode &&& 0x8 != 0 && (!fin || len > 125) then .bad
      else if requireMasked && !masked then .bad
      else if masked && p.length < i + 4 then .more
      else
        let mask := (p.drop i).take 4
        let i := if masked then i + 4 else i
        if p.length < (UInt64.ofNat i + len).toNat then .more
        else
          let data := (p.drop i).take len.toNat
          .item ⟨opcode, fin, if masked then unmask mask data else data⟩ (i + len.toNat)

/-! ## The decoder as an incremental decoder -/

theorem byteAt_of_take_eq {p q : Bytes} {n j : Nat} (h : q.take n = p.take n) (hj : j < n) :
    byteAt q j = byteAt p j := by
  have hq : (q.take n)[j]? = (p.take n)[j]? := by rw [h]
  rw [List.getElem?_take_of_lt hj, List.getElem?_take_of_lt hj] at hq
  simp [byteAt, hq]

theorem slice_of_take_eq {p q : Bytes} {n i k : Nat} (h : q.take n = p.take n) (hik : i + k ≤ n) :
    (q.drop i).take k = (p.drop i).take k := by
  have hd : ∀ r : Bytes, (r.drop i).take k = ((r.take n).drop i).take k := by
    intro r
    rw [List.drop_take, List.take_take, Nat.min_eq_left (by omega)]
  rw [hd q, hd p, h]

theorem frameLength_le {p : Bytes} {len : UInt64} {i : Nat} (h : frameLength p = some (len, i)) :
    2 ≤ i ∧ i ≤ 10 ∧ (2 ≤ p.length → i ≤ p.length) := by
  unfold frameLength at h
  simp only at h
  split at h
  · split at h
    · cases h
    · cases h
      omega
  · split at h
    · split at h
      · cases h
      · cases h
        omega
    · cases h
      omega

/-- The length field is decided by the bytes in front of the index it reports. -/
theorem frameLength_local {p q : Bytes} {len : UInt64} {i n : Nat}
    (h : frameLength p = some (len, i)) (hi : i ≤ n) (hq : n ≤ q.length)
    (ht : q.take n = p.take n) : frameLength q = some (len, i) := by
  have hb := frameLength_le h
  have h1 : byteAt q 1 = byteAt p 1 := byteAt_of_take_eq ht (by omega)
  unfold frameLength at h ⊢
  simp only [h1] at h ⊢
  split at h
  · rename_i h126
    split at h
    · cases h
    · cases h
      rw [if_pos h126, if_neg (by omega), byteAt_of_take_eq ht (show 2 < n by omega),
        byteAt_of_take_eq ht (show 3 < n by omega)]
  · rename_i h126
    rw [if_neg h126]
    split at h
    · rename_i h127
      split at h
      · cases h
      · cases h
        rw [if_pos h127, if_neg (by omega)]
        have hf : ∀ k ∈ List.range 8, byteAt q (2 + k) = byteAt p (2 + k) := by
          intro k hk
          exact byteAt_of_take_eq ht (by have := List.mem_range.mp hk; omega)
        rw [List.foldl_ext _ _ _ (fun len k hk => by rw [hf k hk])]
    · rename_i h127
      cases h
      rw [if_neg h127]

theorem frameLength_append {p : Bytes} {len : UInt64} {i : Nat} (h2 : 2 ≤ p.length)
    (h : frameLength p = some (len, i)) (c : Bytes) : frameLength (p ++ c) = some (len, i) := by
  have hi := (frameLength_le h).2.2 h2
  exact frameLength_local (n := i) h le_rfl (by rw [List.length_append]; omega)
    (List.take_append_of_le_length hi)

/-- Is the mask bit set? -/
def masked (p : Bytes) : Bool := byteAt p 1 &&& 0x80 != 0

/-- A frame whose header is complete and admissible. -/
structure Admissible (p : Bytes) (maxPayload : Nat) (requireMasked : Bool) (len : UInt64) (i : Nat) :
    Prop where
  two_le : 2 ≤ p.length
  length : frameLength p = some (len, i)
  len_le : len.toNat ≤ maxPayload
  control : ¬ (byteAt p 0 &&& 0x0F &&& 0x8 != 0 &&
    (!(byteAt p 0 &&& 0x80 != 0) || decide (len > 125))) = true
  is_masked : ¬ (requireMasked && !masked p) = true

/-- The index of the payload behind a length field that ends at `i`. -/
def dataStart (p : Bytes) (i : Nat) : Nat := if masked p then i + 4 else i

theorem le_dataStart (p : Bytes) (i : Nat) : i ≤ dataStart p i := by
  unfold dataStart
  split <;> omega

/-- The frame whose length field ends at `i`. -/
def frameAt (p : Bytes) (len : UInt64) (i : Nat) : Frame :=
  let data := (p.drop (dataStart p i)).take len.toNat
  ⟨byteAt p 0 &&& 0x0F, byteAt p 0 &&& 0x80 != 0,
    if masked p then unmask ((p.drop i).take 4) data else data⟩

variable {p : Bytes} {maxPayload : Nat} {requireMasked : Bool}

/-- Behind an admissible header only the arrival of the payload is left to decide. -/
theorem decodeFrame_of_admissible {len : UInt64} {i : Nat} (hM : maxPayload < 2 ^ 63)
    (h : Admissible p maxPayload requireMasked len i) :
    decodeFrame p maxPayload requireMasked =
      if p.length < dataStart p i + len.toNat then .more
      else .item (frameAt p len i) (dataStart p i + len.toNat) := by
  have h2 := h.two_le
  have hle := h.len_le
  have hi := (frameLength_le h.length).2.1
  -- the 64-bit sum of the source does not wrap below the payload limit
  have hadd : ∀ k ≤ 14, (UInt64.ofNat k + len).toNat = k + len.toNat := by
    intro k hk
    rw [UInt64.toNat_add, UInt64.toNat_ofNat', Nat.mod_eq_of_lt (show k < 2 ^ 64 by omega),
      Nat.mod_eq_of_lt (by omega)]
  have hmasked : (byteAt p 1 &&& 0x80 != 0) = masked p := rfl
  unfold decodeFrame dataStart frameAt dataStart
  simp only [hmasked]
  rw [if_neg (by omega), h.length]
  simp only
  rw [if_neg (by omega), if_neg h.control, if_neg h.is_masked]
  by_cases hm : masked p = true
  · simp only [hm, Bool.true_and, decide_eq_true_eq, if_true, hadd _ (show i + 4 ≤ 14 by omega)]
    by_cases hlen : p.length < i + 4
    · rw [if_pos hlen, if_pos (by omega)]
    · rw [if_neg hlen]
  · simp only [hm, Bool.false_and, Bool.false_eq_true, if_false, hadd _ (show i ≤ 14 by omega)]

theorem admissible_of_item {f : Frame} {n : Nat}
    (h : decodeFrame p maxPayload requireMasked = .item f n) :
    ∃ len i, Admissible p maxPayload requireMasked len i := by
  unfold decodeFrame at h
  split at h
  · cases h
  · rename_i h2
    simp only at h
    split at h
    · cases h
    · rename_i len i hl
      split at h
      · cases h
      · rename_i hle
        split at h
        · cases h
        · rename_i hc
          split at h
          · cases h
          · rename_i hm
            exact ⟨len, i, by omega, hl, by omega, hc, hm⟩

/-- A decoded frame, its header and its extent. -/
theorem decodeFrame_item {f : Frame} {n : Nat} (hM : maxPayload < 2 ^ 63)
    (h : decodeFrame p maxPayload requireMasked = .item f n) :
    ∃ len i, Admissible p maxPayload requireMasked len i ∧ f = frameAt p len i ∧
      n = dataStart p i + len.toNat ∧ n ≤ p.length := by
  obtain ⟨len, i, had⟩ := admissible_of_item h
  rw [decodeFrame_of_admissible hM had] at h
  split at h
  · cases h
  · rename_i hlen
    cases h
    exact ⟨len, i, had, rfl, rfl, by omega⟩

theorem decodeFrame_local {f : Frame} {n : Nat} (hM : maxPayload < 2 ^ 63)
    (h : decodeFrame p maxPayload requireMasked = .item f n) (q : Bytes)
    (ht : q.take n = p.take n) : decodeFrame q maxPayload requireMasked = .item f n := by
  obtain ⟨len, i, had, hf, hn, hle⟩ := decodeFrame_item hM h
  have hi := frameLength_le had.length
  have hds := le_dataStart p i
  have hq : n ≤ q.length := by
    have hlen := congrArg List.length ht
    simp only [List.length_take] at hlen
    omega
  have h0 : byteAt q 0 = byteAt p 0 := byteAt_of_take_eq ht (by omega)
  have h1 : masked q = masked p := by
    rw [masked, masked, byteAt_of_take_eq ht (show 1 < n by omega)]
  have hstart : dataStart q i = dataStart p i := by rw [dataStart, dataStart, h1]
  have had' : Admissible q maxPayload requireMasked len i :=
    ⟨by omega, frameLength_local had.length (by omega) hq ht, had.len_le,
      by rw [h0]; exact had.control, by rw [h1]; exact had.is_masked⟩
  have hframe : frameAt q len i = frameAt p len i := by
    unfold frameAt
    rw [h0, h1, hstart, slice_of_take_eq ht (show dataStart p i + len.toNat ≤ n by omega)]
    by_cases hm : masked p = true
    · have hds4 : dataStart p i = i + 4 := by rw [dataStart, if_pos hm]
      simp only [hm, if_true, slice_of_take_eq ht (show i + 4 ≤ n by omega)]
    · simp only [hm, Bool.false_eq_true, if_false]
  rw [decodeFrame_of_admissible hM had', hstart, hframe, if_neg (by omega), hf, hn]

/-- What a rejection rests on: a complete length field and one of three violations. -/
theorem decodeFrame_bad_iff (hM : maxPayload < 2 ^ 63) :
    decodeFrame p maxPayload requireMasked = .bad ↔
      2 ≤ p.length ∧ ∃ len i, frameLength p = some (len, i) ∧
        ¬ Admissible p maxPayload requireMasked len i := by
  constructor
  · intro h
    have h2 : 2 ≤ p.length := by
      by_contra hlt
      rw [decodeFrame, if_pos (by omega)] at h
      cases h
    cases hl : frameLength p with
    | none =>
      rw [decodeFrame, if_neg (by omega), hl] at h
      cases h
    | some li =>
      refine ⟨h2, li.1, li.2, rfl, ?_⟩
      intro had
      rw [decodeFrame_of_admissible hM had] at h
      split at h <;> cases h
  · rintro ⟨h2, len, i, hl, had⟩
    unfold decodeFrame
    rw [if_neg (by omega), hl]
    simp only
    by_cases hle : len.toNat > maxPayload
    · rw [if_pos hle]
    · rw [if_neg hle]
      split
      · rfl
      · rename_i hc
        split
        · rfl
        · rename_i hm
          exact absurd ⟨h2, hl, by omega, hc, hm⟩ had

theorem decodeFrame_bad_append (hM : maxPayload < 2 ^ 63)
    (h : decodeFrame p maxPayload requireMasked = .bad) (c : Bytes) :
    decodeFrame (p ++ c) maxPayload requireMasked = .bad := by
  obtain ⟨h2, len, i, hl, had⟩ := (decodeFrame_bad_iff hM).mp h
  have h0 : byteAt (p ++ c) 0 = byteAt p 0 := byteAt_append (by omega) c
  have h1 : masked (p ++ c) = masked p := by rw [masked, masked, byteAt_append (by omega) c]
  refine (decodeFrame_bad_iff hM).mpr
    ⟨by rw [List.length_append]; omega, len, i, frameLength_append h2 hl c, ?_⟩
  intro had'
  exact had ⟨h2, hl, had'.len_le, by rw [← h0]; exact had'.control,
    by rw [← h1]; exact had'.is_masked⟩

/-- Client frames under the default limits. -/
def frames : Decoder UInt8 Frame where
  step b := decodeFrame b kMaxPayload true
  step_nil := rfl
  item_pos h := by
    obtain ⟨len, i, had, -, hn, -⟩ := decodeFrame_item (by decide) h
    have hi := frameLength_le had.length
    rw [hn]
    exact Nat.add_pos_left (lt_of_lt_of_le (by omega) (le_dataStart _ i)) _
  item_le h := by
    obtain ⟨-, -, -, -, -, hle⟩ := decodeFrame_item (by decide) h
    exact hle
  item_local h := decodeFrame_local (by decide) h
  bad_append h := decodeFrame_bad_append (by decide) h

@[simp] theorem frames_step (b : Bytes) : frames.step b = decodeFrame b kMaxPayload true := rfl

/-- Does a frame end the conversation? -/
def isClose (f : Frame) : Bool := f.opcode == kOpClose

/-- Does a frame carry application data? -/
def isData (f : Frame) : Bool :=
  f.opcode == kOpContinuation || f.opcode == kOpText || f.opcode == kOpBinary

/-- The concatenated payloads of the data frames. -/
def dataOf (fs : List Frame) : Bytes := fs.flatMap fun f => if isData f then f.payload else []

@[simp] theorem dataOf_append (fs gs : List Frame) : dataOf (fs ++ gs) = dataOf fs ++ dataOf gs := by
  simp [dataOf]

@[simp] theorem dataOf_nil : dataOf [] = [] := rfl

/-- What a byte string holds: its frames up to the first Close, the first
violation or the first incomplete frame. -/
def content (b : Bytes) : Scan UInt8 Frame := frames.scan isClose b

/-- The application data of a byte string. -/
def deframe (b : Bytes) : Bytes := dataOf (content b).items

end FaceTracking.Ws
