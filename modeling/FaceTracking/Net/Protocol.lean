import FaceTracking.Lib.Scan

/-!
# The SEC1 wire protocol

Framing shared by the terminal and its clients: a 12-byte big-endian header
(magic, type, flags, length) and `length` payload bytes. The put and get
helpers are written with the shifts and masks of the source; their meaning as
big-endian numbers is proved once (`putU32_eq`, `toNat_getU32`, ...) and every
later proof goes through it.
-/

namespace FaceTracking.Proto

open Lib

def kMagic : UInt32 := 0x53454331
def kHeaderSize : Nat := 12
def kVideoSubheaderSize : Nat := 20

/-- The named message types. On the wire a type is any 16-bit number. -/
inductive MsgType where
  | Hello
  | VideoFrame
  | ServoCmd
  | ModeCmd
  | FileListReq
  | FileListResp
  | FileGetReq
  | FileData
  | FileDeleteReq
  | FileDeleteResp
  | SnapshotReq
  | Heartbeat
deriving DecidableEq, Repr

def MsgType.code : MsgType → UInt16
  | .Hello => 0x0001
  | .VideoFrame => 0x0010
  | .ServoCmd => 0x0020
  | .ModeCmd => 0x0021
  | .FileListReq => 0x0030
  | .FileListResp => 0x0031
  | .FileGetReq => 0x0032
  | .FileData => 0x0033
  | .FileDeleteReq => 0x0034
  | .FileDeleteResp => 0x0035
  | .SnapshotReq => 0x0040
  | .Heartbeat => 0x00F0

def MsgType.all : List MsgType :=
  [.Hello, .VideoFrame, .ServoCmd, .ModeCmd, .FileListReq, .FileListResp, .FileGetReq, .FileData,
    .FileDeleteReq, .FileDeleteResp, .SnapshotReq, .Heartbeat]

/-- The enumerator a received type names, if any (`static_cast<MsgType>`). -/
def MsgType.ofCode (c : UInt16) : Option MsgType := MsgType.all.find? (fun t => t.code == c)

@[simp] theorem MsgType.ofCode_code (t : MsgType) : MsgType.ofCode t.code = some t := by
  cases t <;> decide

theorem MsgType.code_of_ofCode {c : UInt16} {t : MsgType} (h : MsgType.ofCode c = some t) :
    t.code = c := by
  simpa using List.find?_some h

structure Header where
  magic : UInt32
  type : UInt16
  flags : UInt16
  length : UInt32
deriving DecidableEq, Repr

/-! ## Put helpers -/

def putU16 (b : Bytes) (v : UInt16) : Bytes :=
  b ++ [((v >>> 8) &&& 0xFF).toUInt8, (v &&& 0xFF).toUInt8]

def putU32 (b : Bytes) (v : UInt32) : Bytes :=
  b ++ [((v >>> 24) &&& 0xFF).toUInt8, ((v >>> 16) &&& 0xFF).toUInt8,
    ((v >>> 8) &&& 0xFF).toUInt8, (v &&& 0xFF).toUInt8]

def putU64 (b : Bytes) (v : UInt64) : Bytes :=
  ([56, 48, 40, 32, 24, 16, 8, 0] : List UInt64).foldl
    (fun b s => b ++ [((v >>> s) &&& 0xFF).toUInt8]) b

theorem putU16_eq (b : Bytes) (v : UInt16) : putU16 b v = b ++ beBytes 2 v.toNat := by
  have h : ∀ n : Nat, n &&& 255 = n % 256 := fun n => Nat.and_two_pow_sub_one_eq_mod n 8
  have e1 : ((v >>> 8) &&& 0xFF).toUInt8 = UInt8.ofNat (v.toNat / 256 ^ 1) := by
    apply UInt8.toNat_inj.mp
    simp [h, Nat.shiftRight_eq_div_pow]
  have e0 : (v &&& 0xFF).toUInt8 = UInt8.ofNat (v.toNat / 256 ^ 0) := by
    apply UInt8.toNat_inj.mp
    simp [h]
  rw [putU16, e1, e0]
  rfl

/-- `putU32` extracts the base-256 digits of its value. -/
theorem toUInt8_shiftRight32 (v : UInt32) {s : UInt32} {k : Nat} (hs : s.toNat = 8 * k)
    (hk : k < 4) : ((v >>> s) &&& 0xFF).toUInt8 = UInt8.ofNat (v.toNat / 256 ^ k) := by
  have h : ∀ n : Nat, n &&& 255 = n % 256 := fun n => Nat.and_two_pow_sub_one_eq_mod n 8
  have hp : (256 : Nat) ^ k = 2 ^ (8 * k) := by rw [pow_mul]; norm_num
  apply UInt8.toNat_inj.mp
  simp [h, Nat.shiftRight_eq_div_pow, hs, hp, Nat.mod_eq_of_lt (show 8 * k < 32 by omega)]

theorem putU32_eq (b : Bytes) (v : UInt32) : putU32 b v = b ++ beBytes 4 v.toNat := by
  have e0 : (v &&& 0xFF).toUInt8 = UInt8.ofNat (v.toNat / 256 ^ 0) := by
    simpa using toUInt8_shiftRight32 v (s := 0) (k := 0) rfl (by omega)
  rw [putU32, toUInt8_shiftRight32 v (s := 24) (k := 3) rfl (by omega),
    toUInt8_shiftRight32 v (s := 16) (k := 2) rfl (by omega),
    toUInt8_shiftRight32 v (s := 8) (k := 1) rfl (by omega), e0]
  rfl

/-- `putU64` extracts the base-256 digits of its value. -/
theorem toUInt8_shiftRight64 (v : UInt64) {s : UInt64} {k : Nat} (hs : s.toNat = 8 * k)
    (hk : k < 8) : ((v >>> s) &&& 0xFF).toUInt8 = UInt8.ofNat (v.toNat / 256 ^ k) := by
  have h : ∀ n : Nat, n &&& 255 = n % 256 := fun n => Nat.and_two_pow_sub_one_eq_mod n 8
  have hp : (256 : Nat) ^ k = 2 ^ (8 * k) := by rw [pow_mul]; norm_num
  apply UInt8.toNat_inj.mp
  simp [h, Nat.shiftRight_eq_div_pow, hs, hp, Nat.mod_eq_of_lt (show 8 * k < 64 by omega)]

theorem putU64_eq (b : Bytes) (v : UInt64) : putU64 b v = b ++ beBytes 8 v.toNat := by
  simp only [putU64, List.foldl_cons, List.foldl_nil, List.append_assoc, List.cons_append,
    List.nil_append,
    toUInt8_shiftRight64 v (s := 56) (k := 7) rfl (by omega),
    toUInt8_shiftRight64 v (s := 48) (k := 6) rfl (by omega),
    toUInt8_shiftRight64 v (s := 40) (k := 5) rfl (by omega),
    toUInt8_shiftRight64 v (s := 32) (k := 4) rfl (by omega),
    toUInt8_shiftRight64 v (s := 24) (k := 3) rfl (by omega),
    toUInt8_shiftRight64 v (s := 16) (k := 2) rfl (by omega),
    toUInt8_shiftRight64 v (s := 8) (k := 1) rfl (by omega),
    toUInt8_shiftRight64 v (s := 0) (k := 0) rfl (by omega)]
  rfl

/-! ## Get helpers -/

def getU16 (p : Bytes) : UInt16 :=
  ((byteAt p 0).toUInt16 <<< 8) ||| (byteAt p 1).toUInt16

def getU32 (p : Bytes) : UInt32 :=
  ((byteAt p 0).toUInt32 <<< 24) ||| ((byteAt p 1).toUInt32 <<< 16) |||
    ((byteAt p 2).toUInt32 <<< 8) ||| (byteAt p 3).toUInt32

def getU64 (p : Bytes) : UInt64 :=
  (List.range 8).foldl (fun v i => (v <<< 8) ||| (byteAt p i).toUInt64) 0

theorem getU16_ofNat (a b : UInt8) (r : Bytes) :
    (getU16 (a :: b :: r)).toNat = beNat [a, b] := by
  have ha := a.toNat_lt
  have hb := b.toNat_lt
  have hsh : a.toNat <<< 8 % 2 ^ 16 = a.toNat <<< 8 := by
    rw [Nat.shiftLeft_eq, Nat.mod_eq_of_lt (by omega)]
  simp only [getU16, byteAt, List.getD_cons_zero, List.getD_cons_succ, UInt16.toNat_or,
    UInt16.toNat_shiftLeft, UInt8.toNat_toUInt16, beNat, List.foldl_cons, List.foldl_nil]
  simp only [show (8 : UInt16).toNat % 16 = 8 from rfl, hsh]
  rw [or_shiftLeft _ (show b.toNat < 2 ^ 8 by omega)]
  omega

theorem getU32_ofNat (a b c d : UInt8) (r : Bytes) :
    (getU32 (a :: b :: c :: d :: r)).toNat = beNat [a, b, c, d] := by
  have ha := a.toNat_lt
  have hb := b.toNat_lt
  have hc := c.toNat_lt
  have hd := d.toNat_lt
  have h24 : a.toNat <<< 24 % 2 ^ 32 = a.toNat <<< 24 := by
    rw [Nat.shiftLeft_eq, Nat.mod_eq_of_lt (by omega)]
  have h16 : b.toNat <<< 16 % 2 ^ 32 = b.toNat <<< 16 := by
    rw [Nat.shiftLeft_eq, Nat.mod_eq_of_lt (by omega)]
  have h8 : c.toNat <<< 8 % 2 ^ 32 = c.toNat <<< 8 := by
    rw [Nat.shiftLeft_eq, Nat.mod_eq_of_lt (by omega)]
  simp only [getU32, byteAt, List.getD_cons_zero, List.getD_cons_succ, UInt32.toNat_or,
    UInt32.toNat_shiftLeft, UInt8.toNat_toUInt32, beNat, List.foldl_cons, List.foldl_nil]
  simp only [show (24 : UInt32).toNat % 32 = 24 from rfl,
    show (16 : UInt32).toNat % 32 = 16 from rfl, show (8 : UInt32).toNat % 32 = 8 from rfl,
    h24, h16, h8]
  -- the three ors, innermost byte first
  rw [Nat.or_assoc, Nat.or_assoc, or_shiftLeft c.toNat (show d.toNat < 2 ^ 8 by omega),
    or_shiftLeft b.toNat (show c.toNat * 2 ^ 8 + d.toNat < 2 ^ 16 by omega),
    or_shiftLeft a.toNat (show b.toNat * 2 ^ 16 + (c.toNat * 2 ^ 8 + d.toNat) < 2 ^ 24 by omega)]
  omega

/-- One round of the `getU64` loop appends a base-256 digit. -/
theorem toNat_shiftLeft_or {v : UInt64} {x : UInt8} (h : v.toNat < 2 ^ 56) :
    ((v <<< 8) ||| x.toUInt64).toNat = v.toNat * 256 + x.toNat := by
  have hx := x.toNat_lt
  have hsh : v.toNat <<< 8 % 2 ^ 64 = v.toNat <<< 8 := by
    rw [Nat.shiftLeft_eq, Nat.mod_eq_of_lt (by omega)]
  simp only [UInt64.toNat_or, UInt64.toNat_shiftLeft, UInt8.toNat_toUInt64,
    show (8 : UInt64).toNat % 64 = 8 from rfl, hsh]
  rw [or_shiftLeft _ (show x.toNat < 2 ^ 8 by omega)]
  norm_num

theorem toNat_foldl_shiftLeft_or (b : Bytes) (v : UInt64)
    (h : v.toNat * 256 ^ b.length + 256 ^ b.length ≤ 2 ^ 64) :
    (b.foldl (fun (v : UInt64) x => (v <<< 8) ||| x.toUInt64) v).toNat =
      v.toNat * 256 ^ b.length + beNat b := by
  induction b generalizing v with
  | nil => simp [beNat]
  | cons x b ih =>
    have hx := x.toNat_lt
    have hp : 0 < 256 ^ b.length := Nat.pow_pos (by omega)
    rw [List.length_cons, pow_succ] at h
    have hv : v.toNat < 2 ^ 56 := by nlinarith
    have hstep := toNat_shiftLeft_or (x := x) hv
    rw [List.foldl_cons, ih _ (by rw [hstep]; nlinarith), hstep, beNat_cons, List.length_cons,
      pow_succ]
    ring

theorem getU64_ofNat (b r : Bytes) (h : b.length = 8) : (getU64 (b ++ r)).toNat = beNat b := by
  have hb : getU64 (b ++ r) = b.foldl (fun (v : UInt64) x => (v <<< 8) ||| x.toUInt64) 0 := by
    match b, h with
    | [x0, x1, x2, x3, x4, x5, x6, x7], _ => rfl
  rw [hb, toNat_foldl_shiftLeft_or b 0 (by rw [h]; norm_num)]
  simp

@[simp] theorem getU16_beBytes (v : UInt16) (r : Bytes) : getU16 (beBytes 2 v.toNat ++ r) = v := by
  apply UInt16.toNat_inj.mp
  rw [show beBytes 2 v.toNat ++ r = UInt8.ofNat (v.toNat / 256 ^ 1) ::
    UInt8.ofNat (v.toNat / 256 ^ 0) :: r from rfl, getU16_ofNat]
  exact beNat_beBytes_of_lt (w := 2) v.toNat_lt

@[simp] theorem getU32_beBytes (v : UInt32) (r : Bytes) : getU32 (beBytes 4 v.toNat ++ r) = v := by
  apply UInt32.toNat_inj.mp
  rw [show beBytes 4 v.toNat ++ r = UInt8.ofNat (v.toNat / 256 ^ 3) ::
    UInt8.ofNat (v.toNat / 256 ^ 2) :: UInt8.ofNat (v.toNat / 256 ^ 1) ::
    UInt8.ofNat (v.toNat / 256 ^ 0) :: r from rfl, getU32_ofNat]
  exact beNat_beBytes_of_lt (w := 4) v.toNat_lt

@[simp] theorem getU64_beBytes (v : UInt64) (r : Bytes) : getU64 (beBytes 8 v.toNat ++ r) = v := by
  apply UInt64.toNat_inj.mp
  rw [getU64_ofNat _ r (length_beBytes 8 _)]
  exact beNat_beBytes_of_lt (w := 8) v.toNat_lt

/-! ## Messages -/

/-- Parse a 12-byte header. `none` if too short or bad magic. -/
def decodeHeader (p : Bytes) : Option Header :=
  if p.length < kHeaderSize then none
  else if getU32 p ≠ kMagic then none
  else some
    { magic := getU32 p
      type := getU16 (p.drop 4)
      flags := getU16 (p.drop 6)
      length := getU32 (p.drop 8) }

/-- Build a complete message (header and payload). -/
def buildMessage (type : UInt16) (payload : Bytes) (flags : UInt16) : Bytes :=
  let b := putU32 [] kMagic
  let b := putU16 b type
  let b := putU16 b flags
  let b := putU32 b (UInt32.ofNat payload.length)
  b ++ payload

/-- The sub-header and JPEG bytes of a VIDEO_FRAME message. -/
def videoPayload (seq w h : UInt32) (tsMs : UInt64) (jpeg : Bytes) : Bytes :=
  let sub := putU32 [] seq
  let sub := putU32 sub w
  let sub := putU32 sub h
  let sub := putU64 sub tsMs
  sub ++ jpeg

/-- Build a VIDEO_FRAME message. -/
def buildVideoFrame (seq w h : UInt32) (tsMs : UInt64) (jpeg : Bytes) : Bytes :=
  buildMessage MsgType.VideoFrame.code (videoPayload seq w h tsMs jpeg) 0

theorem buildMessage_eq (type : UInt16) (payload : Bytes) (flags : UInt16) :
    buildMessage type payload flags =
      beBytes 4 kMagic.toNat ++ (beBytes 2 type.toNat ++ (beBytes 2 flags.toNat ++
        (beBytes 4 (UInt32.ofNat payload.length).toNat ++ payload))) := by
  simp [buildMessage, putU32_eq, putU16_eq]

theorem videoPayload_eq (seq w h : UInt32) (tsMs : UInt64) (jpeg : Bytes) :
    videoPayload seq w h tsMs jpeg =
      beBytes 4 seq.toNat ++ (beBytes 4 w.toNat ++ (beBytes 4 h.toNat ++
        (beBytes 8 tsMs.toNat ++ jpeg))) := by
  simp [videoPayload, putU32_eq, putU64_eq]

@[simp] theorem length_buildMessage (type : UInt16) (payload : Bytes) (flags : UInt16) :
    (buildMessage type payload flags).length = kHeaderSize + payload.length := by
  simp [buildMessage_eq, kHeaderSize]
  omega

@[simp] theorem length_videoPayload (seq w h : UInt32) (tsMs : UInt64) (jpeg : Bytes) :
    (videoPayload seq w h tsMs jpeg).length = kVideoSubheaderSize + jpeg.length := by
  simp [videoPayload_eq, kVideoSubheaderSize]
  omega

/-! ## Looking inside -/

section Message

variable (type : UInt16) (payload : Bytes) (flags : UInt16)

theorem buildMessage_drop4 : (buildMessage type payload flags).drop 4 =
    beBytes 2 type.toNat ++ (beBytes 2 flags.toNat ++
      (beBytes 4 (UInt32.ofNat payload.length).toNat ++ payload)) := by
  rw [buildMessage_eq]
  exact List.drop_left' (length_beBytes 4 _)

theorem buildMessage_drop6 : (buildMessage type payload flags).drop 6 =
    beBytes 2 flags.toNat ++ (beBytes 4 (UInt32.ofNat payload.length).toNat ++ payload) := by
  rw [show (6 : Nat) = 4 + 2 from rfl, ← List.drop_drop, buildMessage_drop4]
  exact List.drop_left' (length_beBytes 2 _)

theorem buildMessage_drop8 : (buildMessage type payload flags).drop 8 =
    beBytes 4 (UInt32.ofNat payload.length).toNat ++ payload := by
  rw [show (8 : Nat) = 6 + 2 from rfl, ← List.drop_drop, buildMessage_drop6]
  exact List.drop_left' (length_beBytes 2 _)

theorem buildMessage_drop12 : (buildMessage type payload flags).drop kHeaderSize = payload := by
  rw [show kHeaderSize = 8 + 4 from rfl, ← List.drop_drop, buildMessage_drop8]
  exact List.drop_left' (length_beBytes 4 _)

end Message

section Video

variable (seq w h : UInt32) (tsMs : UInt64) (jpeg : Bytes)

theorem videoPayload_drop4 : (videoPayload seq w h tsMs jpeg).drop 4 =
    beBytes 4 w.toNat ++ (beBytes 4 h.toNat ++ (beBytes 8 tsMs.toNat ++ jpeg)) := by
  rw [videoPayload_eq]
  exact List.drop_left' (length_beBytes 4 _)

theorem videoPayload_drop8 : (videoPayload seq w h tsMs jpeg).drop 8 =
    beBytes 4 h.toNat ++ (beBytes 8 tsMs.toNat ++ jpeg) := by
  rw [show (8 : Nat) = 4 + 4 from rfl, ← List.drop_drop, videoPayload_drop4]
  exact List.drop_left' (length_beBytes 4 _)

theorem videoPayload_drop12 : (videoPayload seq w h tsMs jpeg).drop 12 =
    beBytes 8 tsMs.toNat ++ jpeg := by
  rw [show (12 : Nat) = 8 + 4 from rfl, ← List.drop_drop, videoPayload_drop8]
  exact List.drop_left' (length_beBytes 4 _)

theorem videoPayload_drop20 : (videoPayload seq w h tsMs jpeg).drop kVideoSubheaderSize = jpeg := by
  rw [show kVideoSubheaderSize = 12 + 8 from rfl, ← List.drop_drop, videoPayload_drop12]
  exact List.drop_left' (length_beBytes 8 _)

end Video

/-- The header in front of a built message decodes to what was written. -/
theorem decodeHeader_buildMessage (type : UInt16) (payload : Bytes) (flags : UInt16) (r : Bytes) :
    decodeHeader (buildMessage type payload flags ++ r) =
      some ⟨kMagic, type, flags, UInt32.ofNat payload.length⟩ := by
  have hl : (buildMessage type payload flags).length = 12 + payload.length :=
    length_buildMessage type payload flags
  have hlen : ¬ (buildMessage type payload flags ++ r).length < kHeaderSize := by
    rw [List.length_append, length_buildMessage]
    omega
  have h0 : getU32 (buildMessage type payload flags ++ r) = kMagic := by
    rw [buildMessage_eq, List.append_assoc, getU32_beBytes]
  rw [decodeHeader, if_neg hlen, h0, List.drop_append_of_le_length (by omega),
    List.drop_append_of_le_length (by omega), List.drop_append_of_le_length (by omega),
    buildMessage_drop4, buildMessage_drop6, buildMessage_drop8, List.append_assoc,
    List.append_assoc, List.append_assoc, getU16_beBytes, getU16_beBytes, getU32_beBytes]
  rfl

end FaceTracking.Proto
