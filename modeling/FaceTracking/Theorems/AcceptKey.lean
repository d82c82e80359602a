import FaceTracking.Lib.Base64
import FaceTracking.Lib.Fips180
import FaceTracking.Net.Protocol
import FaceTracking.Net.WebSocketProto

/-!
# The accept key

The hand-written SHA-1 and base64 compute what their standards say, for inputs
of every length: the padding loop (`pad_eq`), the message schedule
(`words_getD`), a round (`round_eq`), a block (`block_eq`) and the digest
(`sha1_eq`), and the groups of three bytes (`base64_eq`).
-/

namespace FaceTracking.Ws

open Lib Proto

namespace Sha1

/-! ## Padding -/

/-- The loop that appends zeros, as the source has it. -/
def zeroFill (msg : Bytes) : Bytes :=
  if msg.length % 64 ≠ 56 then zeroFill (msg ++ [0]) else msg
termination_by (120 - msg.length % 64) % 64
decreasing_by
  rw [List.length_append, List.length_singleton]
  omega

/-- The loop appends as many zeros as are missing. -/
theorem zeroFill_eq (msg : Bytes) :
    zeroFill msg = msg ++ List.replicate ((120 - msg.length % 64) % 64) 0 := by
  induction msg using zeroFill.induct with
  | case1 msg h ih =>
    have hcount : (120 - msg.length % 64) % 64 = (120 - (msg ++ [0]).length % 64) % 64 + 1 := by
      rw [List.length_append, List.length_singleton]
      omega
    rw [zeroFill, if_pos h, ih, hcount, List.replicate_succ, List.append_assoc]
    rfl
  | case2 msg h =>
    have hcount : (120 - msg.length % 64) % 64 = 0 := by omega
    rw [zeroFill, if_neg h, hcount, List.replicate_zero, List.append_nil]

theorem toNat_bitLen (n : Nat) : (UInt64.ofNat n * 8).toNat = 8 * n % 256 ^ 8 := by
  rw [UInt64.toNat_mul, UInt64.toNat_ofNat']
  simp only [show (8 : UInt64).toNat = 8 from rfl]
  omega

theorem beBytes_mod (w v : Nat) : beBytes w (v % 256 ^ w) = beBytes w v := by
  conv => rhs; rw [← Nat.div_add_mod v (256 ^ w), Nat.mul_comm, beBytes_add_mul]

/-- **Padding** is the standard's. -/
theorem pad_eq (data : Bytes) : pad data = Fips180.pad data := by
  have hzeros : Fips180.zeros data.length =
      (120 - (data ++ [0x80]).length % 64) % 64 := by
    rw [List.length_append, List.length_singleton]
    exact Fips180.zeros_eq (by omega) (by omega)
  calc pad data
      = putU64 (data ++ [0x80] ++
          List.replicate ((120 - (data ++ [0x80]).length % 64) % 64) 0)
          (UInt64.ofNat data.length * 8) := by unfold pad putU64; rfl
    _ = data ++ [0x80] ++ List.replicate (Fips180.zeros data.length) 0 ++
          beBytes 8 (8 * data.length) := by
      rw [putU64_eq, toNat_bitLen, beBytes_mod, hzeros]
    _ = Fips180.pad data := by simp [Fips180.pad]

/-- The zeros are those of the source's loop. -/
theorem pad_eq_zeroFill (data : Bytes) :
    pad data = putU64 (zeroFill (data ++ [0x80])) (UInt64.ofNat data.length * 8) := by
  rw [zeroFill_eq]
  unfold pad putU64
  rfl

/-! ## Rounds -/

/-- The chaining value in the standard's words. -/
def Chain.vars (h : Chain) : Fips180.Vars :=
  ⟨h.a.toBitVec, h.b.toBitVec, h.c.toBitVec, h.d.toBitVec, h.e.toBitVec⟩

theorem rol_one (v : UInt32) : (rol v 1).toBitVec = v.toBitVec.rotateLeft 1 := by
  simp [rol, BitVec.rotateLeft_def]

theorem rol_five (v : UInt32) : (rol v 5).toBitVec = v.toBitVec.rotateLeft 5 := by
  simp [rol, BitVec.rotateLeft_def]

theorem rol_thirty (v : UInt32) : (rol v 30).toBitVec = v.toBitVec.rotateLeft 30 := by
  simp [rol, BitVec.rotateLeft_def]

/-- No bit is chosen twice, so the `or` of the source is the standard's exclusive one. -/
theorem or_eq_ch (x y z : Fips180.Word) : (x &&& y) ||| (~~~x &&& z) = Fips180.ch x y z := by
  ext i hi
  simp only [Fips180.ch, BitVec.getElem_or, BitVec.getElem_xor, BitVec.getElem_and,
    BitVec.getElem_not]
  cases x[i] <;> simp

theorem or_eq_maj (x y z : Fips180.Word) :
    (x &&& y) ||| (x &&& z) ||| (y &&& z) = Fips180.maj x y z := by
  ext i hi
  simp only [Fips180.maj, BitVec.getElem_or, BitVec.getElem_xor, BitVec.getElem_and]
  cases x[i] <;> cases y[i] <;> simp

/-- A round of the loop is a step of the standard. -/
theorem round_eq (h : Chain) (t : Nat) (w : UInt32) :
    (round h t w).vars = Fips180.step t w.toBitVec h.vars := by
  unfold round Fips180.step Fips180.f Fips180.K Chain.vars
  by_cases h20 : t < 20
  · simp [h20, rol_five, rol_thirty, or_eq_ch]
  by_cases h40 : t < 40
  · simp [h20, h40, rol_five, rol_thirty, Fips180.parity]
  by_cases h60 : t < 60
  · simp [h20, h40, h60, rol_five, rol_thirty, or_eq_maj]
  · simp [h20, h40, h60, rol_five, rol_thirty, Fips180.parity]

/-! ## Schedule -/

theorem exists_four_of_length {l : Bytes} (h : 4 ≤ l.length) :
    ∃ a b c d r, l = a :: b :: c :: d :: r := by
  rcases l with _ | ⟨a, _ | ⟨b, _ | ⟨c, _ | ⟨d, r⟩⟩⟩⟩
  · exact absurd h (by simp)
  · exact absurd h (by simp)
  · exact absurd h (by simp)
  · exact absurd h (by simp)
  · exact ⟨a, b, c, d, r, rfl⟩

/-- A word is read from four bytes of its block. -/
theorem word_eq {msg : Bytes} {k i : Nat} (hi : i < 16) (hk : 64 * k + 64 ≤ msg.length) :
    (getU32 (msg.drop (64 * k + i * 4))).toBitVec = Fips180.word (piece 64 msg k) i := by
  have hpiece : piece 4 (piece 64 msg k) i = (msg.drop (64 * k + i * 4)).take 4 := by
    rw [piece, piece, List.drop_take, List.take_take, List.drop_drop, Nat.mul_comm k,
      Nat.min_eq_left (by omega)]
  have hlen : 4 ≤ (msg.drop (64 * k + i * 4)).length := by
    rw [List.length_drop]
    omega
  obtain ⟨a, b, c, d, r, hbytes⟩ := exists_four_of_length hlen
  rw [Fips180.word, hpiece, hbytes, List.take_succ_cons, List.take_succ_cons, List.take_succ_cons,
    List.take_succ_cons, List.take_zero, ← getU32_ofNat a b c d r, UInt32.toNat,
    BitVec.ofNat_toNat, BitVec.setWidth_eq]

/-- The loop that extends the schedule appends what the standard's recurrence
gives. -/
theorem extend {M : Bytes} {w : List UInt32} (hlen : w.length = 16)
    (hw : ∀ t < 16, (w.getD t 0).toBitVec = Fips180.word M t) (n : Nat) :
    let w' := (List.range' 16 n).foldl (fun w i =>
      w ++ [rol (w.getD (i - 3) 0 ^^^ w.getD (i - 8) 0 ^^^ w.getD (i - 14) 0 ^^^
        w.getD (i - 16) 0) 1]) w
    w'.length = 16 + n ∧ ∀ t < 16 + n, (w'.getD t 0).toBitVec = Fips180.W M t := by
  induction n with
  | zero => exact ⟨hlen, fun t ht => by rw [Fips180.W_of_lt ht]; exact hw t ht⟩
  | succ n ih =>
    obtain ⟨ihlen, ih⟩ := ih
    simp only [List.range'_concat, List.foldl_append, List.foldl_cons, List.foldl_nil,
      List.length_append, List.length_singleton, Nat.one_mul]
    refine ⟨by omega, fun t ht => ?_⟩
    by_cases hlast : t = 16 + n
    · subst hlast
      rw [List.getD_append_right _ _ _ _ (by omega), ihlen, Nat.sub_self,
        Fips180.W_of_ge (by omega), ← ih (16 + n - 3) (by omega), ← ih (16 + n - 8) (by omega),
        ← ih (16 + n - 14) (by omega), ← ih (16 + n - 16) (by omega)]
      simp only [List.getD_cons_zero, rol_one, UInt32.toBitVec_xor]
    · rw [List.getD_append _ _ _ _ (by omega)]
      exact ih t (by omega)

/-- The words of a block are the standard's message schedule. -/
theorem words_getD {msg : Bytes} {k t : Nat} (ht : t < 80) (hk : 64 * k + 64 ≤ msg.length) :
    ((words msg (64 * k)).getD t 0).toBitVec = Fips180.W (piece 64 msg k) t := by
  unfold words
  generalize hw : ((List.range 16).map fun i => _ : List UInt32) = w
  refine (extend (w := w) ?_ ?_ 64).2 t (by omega)
  · rw [← hw, List.length_map, List.length_range]
  · intro i hi
    rw [← word_eq hi hk, ← hw, List.getD_eq_getElem?_getD, List.getElem?_map,
      List.getElem?_range hi]
    simp [getU32, byteAt, Nat.add_assoc]

/-! ## Blocks -/

/-- A pass over a block is the standard's compression. -/
theorem block_eq {msg : Bytes} {k : Nat} (hk : 64 * k + 64 ≤ msg.length) (h : Chain) :
    (block msg h (64 * k)).vars = Fips180.compress h.vars (piece 64 msg k) := by
  -- the rounds up to any of the eighty
  have hrounds (n : Nat) (hn : n ≤ 80) :
      ((List.range n).foldl (fun s i => round s i ((words msg (64 * k)).getD i 0)) h).vars =
        (List.range n).foldl
          (fun v t => Fips180.step t (Fips180.W (piece 64 msg k) t) v) h.vars := by
    induction n with
    | zero => rfl
    | succ n ih =>
      rw [List.range_succ, List.foldl_append, List.foldl_append, List.foldl_cons, List.foldl_cons,
        List.foldl_nil, List.foldl_nil, round_eq, ih (by omega), words_getD (by omega) hk]
  have h80 := hrounds 80 le_rfl
  unfold block Fips180.compress
  simp only
  rw [← h80]
  simp [Chain.vars, BitVec.add_comm]

end Sha1

/-! ## Digest -/

open Sha1 in
/-- `sha1` computes the digest of FIPS 180. -/
theorem sha1_eq (data : Bytes) : sha1 data = Fips180.digest data := by
  have hlen := Fips180.length_pad data
  have hcount : pieceCount 64 (Fips180.pad data) = (Fips180.pad data).length / 64 := by
    rw [pieceCount]
    omega
  have hblocks (n : Nat) (hn : n ≤ (Fips180.pad data).length / 64) :
      ((List.range n).foldl (fun h i => block (Fips180.pad data) h (64 * i)) Chain.initial).vars =
        ((List.range n).map (piece 64 (Fips180.pad data))).foldl Fips180.compress
          Fips180.initial := by
    induction n with
    | zero => rfl
    | succ n ih =>
      rw [List.range_succ, List.map_append, List.foldl_append, List.foldl_append]
      simp only [List.map_cons, List.map_nil, List.foldl_cons, List.foldl_nil]
      rw [block_eq (by omega), ih (by omega)]
  have hword (x : UInt32) :
      [((x >>> 24) &&& 0xFF).toUInt8, ((x >>> 16) &&& 0xFF).toUInt8, ((x >>> 8) &&& 0xFF).toUInt8,
        (x &&& 0xFF).toUInt8] = beBytes 4 x.toBitVec.toNat :=
    putU32_eq [] x
  unfold sha1 Fips180.digest Fips180.blocks
  simp only [pad_eq, hword]
  rw [hcount, ← hblocks _ le_rfl]
  rfl

/-! ## Base64 -/

theorem base64Table_getD {v : Nat} (h : v < 64) : base64Table.getD v 0 = Base64.symbol v := by
  revert v
  decide +kernel

/-- Six bits of a group are looked up as the digit they make. -/
theorem base64Char_eq (n : UInt32) {s : UInt32} {k : Nat} (hs : s.toNat = 6 * k) (hk : k < 4) :
    base64Char n s = Base64.symbol (n.toNat / 64 ^ k % 64) := by
  have hand : ∀ n : Nat, n &&& 63 = n % 64 := fun n => Nat.and_two_pow_sub_one_eq_mod n 6
  have hp : (64 : Nat) ^ k = 2 ^ (6 * k) := by rw [pow_mul]; norm_num
  have hbits : ((n >>> s) &&& 0x3F).toNat = n.toNat / 64 ^ k % 64 := by
    simp [hand, Nat.shiftRight_eq_div_pow, hs, hp, Nat.mod_eq_of_lt (show 6 * k < 32 by omega)]
  rw [base64Char, hbits, base64Table_getD (Nat.mod_lt _ (by omega))]

/-- A group of three bytes is written in its four digits. -/
theorem base64Char_group (x y z : UInt8) :
    let n := (x.toUInt32 <<< 16) ||| (y.toUInt32 <<< 8) ||| z.toUInt32
    [base64Char n 18, base64Char n 12, base64Char n 6, base64Char n 0] =
      (Base64.sextets (beNat [x, y, z])).map Base64.symbol := by
  intro n
  have hn : n.toNat = beNat [x, y, z] := by
    have hzero : getU32 [0, x, y, z] = n := by simp [getU32, byteAt, n]
    rw [← hzero, getU32_ofNat, beNat_cons]
    simp
  rw [base64Char_eq n (k := 3) rfl (by omega), base64Char_eq n (k := 2) rfl (by omega),
    base64Char_eq n (k := 1) rfl (by omega), base64Char_eq n (k := 0) rfl (by omega), hn]
  simp [Base64.sextets]

/-- `base64` writes the encoding of RFC 4648. -/
theorem base64_eq (data : Bytes) : base64 data = Base64.encode data := by
  induction data using base64.induct with
  | case1 x y z data ih =>
    have hgroup : Base64.encodeGroup [x, y, z] =
        (Base64.sextets (beNat [x, y, z])).map Base64.symbol := rfl
    rw [base64, Base64.encode, ih, hgroup, ← base64Char_group]
    rfl
  | case2 x y =>
    -- the group is filled up with a zero byte, which the source leaves out
    have hgroup : Base64.encodeGroup [x, y] =
        ((Base64.sextets (beNat [x, y, 0])).map Base64.symbol).take 3 ++ [0x3D] := rfl
    rw [base64, Base64.encode, hgroup, ← base64Char_group]
    simp
  | case3 x =>
    have hgroup : Base64.encodeGroup [x] =
        ((Base64.sextets (beNat [x, 0, 0])).map Base64.symbol).take 2 ++ [0x3D, 0x3D] := rfl
    rw [base64, Base64.encode, hgroup, ← base64Char_group]
    simp
  | case4 => rfl

/-! ## The key -/

/-- **Accept key.** It is the padded base64 of the SHA-1 of the key and the GUID: a message is
padded as the standard has it, and its length in bits fits the last eight bytes; every message
has the standard's digest; and a decoder gets back every input of `base64` from four characters
for each three bytes, rounded up. -/
theorem accept_key (clientKey : Bytes) (h : clientKey.length < 2 ^ 60) :
    let input := clientKey ++ utf8 "258EAFA5-E914-47DA-95CA-C5AB0DC85B11"
    acceptKey clientKey = Base64.encode (Fips180.digest input) ∧
      (∀ data, Fips180.Padded data (Sha1.pad data)) ∧
      beNat ((Sha1.pad input).drop ((Sha1.pad input).length - 8)) = 8 * input.length ∧
      (∀ data, sha1 data = Fips180.digest data) ∧
      ∀ data, Base64.decode (base64 data) = some data ∧
        (base64 data).length = 4 * (data.length ⌈/⌉ 3) := by
  intro input
  have hlen : input.length < 2 ^ 61 := by
    have hguid : (utf8 "258EAFA5-E914-47DA-95CA-C5AB0DC85B11").length = 36 := by decide +kernel
    rw [List.length_append, hguid]
    omega
  refine ⟨?_, fun data => ?_, ?_, sha1_eq, fun data => ⟨?_, ?_⟩⟩
  · rw [acceptKey, base64_eq, sha1_eq]
    rfl
  · rw [Sha1.pad_eq]
    exact Fips180.padded_pad data
  · rw [Sha1.pad_eq]
    exact Fips180.beNat_drop_pad hlen
  · rw [base64_eq]
    exact Base64.decode_encode data
  · rw [base64_eq, Base64.length_encode, Nat.ceilDiv_eq_add_pred_div]
    rfl

/-- The key and the accept key that RFC 6455 gives as an example. -/
theorem accept_key_rfc :
    Base64.encode (Fips180.digest
        (utf8 "dGhlIHNhbXBsZSBub25jZQ==" ++ utf8 "258EAFA5-E914-47DA-95CA-C5AB0DC85B11")) =
      utf8 "s3pPLMBiTxaQ9kYGzzhZRbK+xOo=" := by
  rw [← (accept_key (utf8 "dGhlIHNhbXBsZSBub25jZQ==") (by decide +kernel)).1]
  decide +kernel

end FaceTracking.Ws
