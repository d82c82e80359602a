import FaceTracking.Net.WebSocketSyntax
import FaceTracking.Theorems.StrandedData

/-!
# The frame decoder is exact

`decodeFrame` under the session's limits accepts the masked frames of the
syntax and nothing else, and an answer other than "more" is not changed by
bytes that come later (`decoder_exact`). It asks for more only below 14 bytes
more than the payload limit, which bounds the carrier's receive buffer.

`decodeChecked` is the decoder once more with every index and every sum of the
source checked: it fails where the source would read behind its input or wrap
a 32-bit `size_t`. That it never fails is `decodeChecked_eq`.
-/

namespace FaceTracking.Ws

open Lib

/-! ## The decoder with its reads and sums checked -/

/-- A sum of lengths or indices; `none` if it wraps. -/
def sum (a b : Nat) : Option Nat := if a + b < 2 ^ 32 then some (a + b) else none

/-- The length field, read with the bounds checked. -/
def lengthChecked (p : Bytes) (b1 : UInt8) : Option (Option (UInt64 × Nat)) :=
  let len : UInt64 := (b1 &&& 0x7F).toUInt64
  if len = 126 then
    if p.length < 4 then some none
    else do
      let x ← p[2]?
      let y ← p[3]?
      some (some ((x.toUInt64 <<< 8) ||| y.toUInt64, 4))
  else if len = 127 then
    if p.length < 10 then some none
    else do
      let b ← (List.range 8).mapM fun k => p[2 + k]?
      some (some (b.foldl (fun len x => (len <<< 8) ||| x.toUInt64) 0, 10))
  else some (some (len, 2))

/-- The payload from index `i`, under the mask that starts at index `mask`. -/
def unmaskChecked (p : Bytes) (mask i len : Nat) : Option Bytes :=
  (List.range len).mapM fun k => do
    let x ← p[i + k]?
    let m ← p[mask + (k &&& 3)]?
    some (x ^^^ m)

/-- The payload behind the header checks, read with the bounds checked. -/
def payloadChecked (p : Bytes) (opcode : UInt8) (fin masked : Bool) (len i : Nat) :
    Option (Step Frame) :=
  if masked then do
    let j ← sum i 4
    if p.length < j then some .more
    else do
      let stop ← sum j len
      if p.length < stop then some .more
      else do
        let payload ← unmaskChecked p i j len
        some (.item ⟨opcode, fin, payload⟩ stop)
  else do
    let stop ← sum i len
    if p.length < stop then some .more
    else do
      let payload ← (List.range len).mapM fun k => p[i + k]?
      some (.item ⟨opcode, fin, payload⟩ stop)

/-- `decodeFrame`, failing where the source would read out of bounds or wrap. -/
def decodeChecked (p : Bytes) (maxPayload : Nat) (requireMasked : Bool) : Option (Step Frame) :=
  if p.length < 2 then some .more
  else do
    let b0 ← p[0]?
    let b1 ← p[1]?
    let fin := b0 &&& 0x80 != 0
    let opcode := b0 &&& 0x0F
    let masked := b1 &&& 0x80 != 0
    match ← lengthChecked p b1 with
    | none => some .more
    | some (len, i) =>
      if len.toNat > maxPayload then some .bad
      else if opcode &&& 0x8 != 0 && (!fin || len > 125) then some .bad
      else if requireMasked && !masked then some .bad
      else payloadChecked p opcode fin masked len.toNat i

theorem getElem?_of_lt {p : Bytes} {i : Nat} (h : i < p.length) : p[i]? = some (byteAt p i) := by
  rw [byteAt, List.getD_eq_getElem?_getD, List.getElem?_eq_getElem h]
  rfl

/-- A loop none of whose reads fails returns what was read. -/
theorem mapM_some {α γ : Type} {f : α → Option γ} {g : α → γ} {l : List α}
    (h : ∀ x ∈ l, f x = some (g x)) : l.mapM f = some (l.map g) := by
  induction l with
  | nil => rfl
  | cons x l ih =>
    rw [List.mapM_cons, h x List.mem_cons_self,
      ih (fun y hy => h y (List.mem_cons_of_mem x hy))]
    rfl

theorem sum_of_lt {a b : Nat} (h : a + b < 2 ^ 32) : sum a b = some (a + b) := if_pos h

theorem lengthChecked_eq (p : Bytes) : lengthChecked p (byteAt p 1) = some (frameLength p) := by
  unfold lengthChecked frameLength
  simp only
  split
  · split
    · rfl
    · rw [getElem?_of_lt (show 2 < p.length by omega), getElem?_of_lt (show 3 < p.length by omega)]
      rfl
  · split
    · split
      · rfl
      · have hread : (List.range 8).mapM (fun k => p[2 + k]?) =
            some ((List.range 8).map fun k => byteAt p (2 + k)) := by
          apply mapM_some
          intro k hk
          have := List.mem_range.mp hk
          exact getElem?_of_lt (by omega)
        rw [hread]
        exact congrArg (fun len => some (some (len, 10))) (List.foldl_map)
    · rfl

/-- Byte by byte, a stretch of the input is read. -/
theorem map_byteAt {p : Bytes} {i len : Nat} (h : i + len ≤ p.length) :
    (List.range len).map (fun k => byteAt p (i + k)) = (p.drop i).take len := by
  apply List.ext_getElem
  · simp
    omega
  · intro k h₁ h₂
    have hk : k < len := by simpa using h₁
    simp [byteAt, List.getElem?_eq_getElem (show i + k < p.length by omega)]

theorem unmaskChecked_eq {p : Bytes} {i len : Nat} (h : i + 4 + len ≤ p.length) :
    unmaskChecked p i (i + 4) len =
      some (unmask ((p.drop i).take 4) ((p.drop (i + 4)).take len)) := by
  have hand : ∀ k : Nat, k &&& 3 < 4 := fun k => Nat.lt_succ_of_le Nat.and_le_right
  have hread : unmaskChecked p i (i + 4) len =
      some ((List.range len).map fun k => byteAt p (i + 4 + k) ^^^ byteAt p (i + (k &&& 3))) := by
    unfold unmaskChecked
    apply mapM_some
    intro k hk
    have hlt := List.mem_range.mp hk
    have hk3 := hand k
    rw [getElem?_of_lt (show i + 4 + k < p.length by omega),
      getElem?_of_lt (show i + (k &&& 3) < p.length by omega)]
    rfl
  rw [hread, ← map_byteAt h]
  congr 1
  unfold unmask
  apply List.ext_getElem
  · simp
  · intro k h₁ h₂
    have hk3 := hand k
    have hmask : byteAt ((p.drop i).take 4) (k &&& 3) = byteAt p (i + (k &&& 3)) := by
      simp [byteAt, hk3]
    simp [hmask]

/-- Behind the checks, with a length that is far from wrapping a sum. -/
theorem payloadChecked_eq {p : Bytes} {len : UInt64} {i : Nat} (h : i + 4 + len.toNat < 2 ^ 32) :
    payloadChecked p (byteAt p 0 &&& 0x0F) (byteAt p 0 &&& 0x80 != 0) (masked p) len.toNat i =
      some (if p.length < dataStart p i + len.toNat then .more
        else .item (frameAt p len i) (dataStart p i + len.toNat)) := by
  unfold payloadChecked frameAt dataStart
  by_cases hm : masked p = true
  · simp only [hm, if_true, sum_of_lt (show i + 4 < 2 ^ 32 by omega), Option.bind_eq_bind,
      Option.bind_some, sum_of_lt h]
    by_cases hkey : p.length < i + 4
    · rw [if_pos hkey, if_pos (by omega)]
    rw [if_neg hkey]
    by_cases hstop : p.length < i + 4 + len.toNat
    · rw [if_pos hstop, if_pos hstop]
    · rw [if_neg hstop, if_neg hstop, unmaskChecked_eq (by omega)]
      rfl
  · simp only [hm, Bool.false_eq_true, if_false, Option.bind_eq_bind,
      sum_of_lt (show i + len.toNat < 2 ^ 32 by omega), Option.bind_some]
    by_cases hstop : p.length < i + len.toNat
    · rw [if_pos hstop, if_pos hstop]
    · have hread : (List.range len.toNat).mapM (fun k => p[i + k]?) =
          some ((p.drop i).take len.toNat) := by
        rw [← map_byteAt (show i + len.toNat ≤ p.length by omega)]
        apply mapM_some
        intro k hk
        have := List.mem_range.mp hk
        exact getElem?_of_lt (by omega)
      rw [if_neg hstop, if_neg hstop, hread]
      rfl

/-- No read of the decoder is out of bounds, and no sum of it wraps. -/
theorem decodeChecked_eq (p : Bytes) {maxPayload : Nat} (hM : maxPayload < 2 ^ 31)
    (requireMasked : Bool) :
    decodeChecked p maxPayload requireMasked = some (decodeFrame p maxPayload requireMasked) := by
  unfold decodeChecked
  by_cases h2 : p.length < 2
  · rw [if_pos h2, decodeFrame, if_pos h2]
  rw [if_neg h2, getElem?_of_lt (show 0 < p.length by omega),
    getElem?_of_lt (show 1 < p.length by omega)]
  simp only [Option.bind_eq_bind, Option.bind_some, lengthChecked_eq]
  cases hl : frameLength p with
  | none =>
    rw [decodeFrame, if_neg h2, hl]
  | some li =>
    obtain ⟨len, i⟩ := li
    have hi := frameLength_le hl
    simp only
    -- the checks in front of the payload: one of them rejects, or all pass
    by_cases hbad : decodeFrame p maxPayload requireMasked = .bad
    · rw [hbad]
      obtain ⟨-, len', i', hl', had⟩ := (decodeFrame_bad_iff (by omega)).mp hbad
      rw [hl] at hl'
      cases hl'
      split
      · rfl
      · split
        · rfl
        · split
          · rfl
          · exact absurd ⟨by omega, hl, by omega, ‹_›, ‹_›⟩ had
    · have had : Admissible p maxPayload requireMasked len i := by
        by_contra hno
        exact hbad ((decodeFrame_bad_iff (by omega)).mpr ⟨by omega, len, i, hl, hno⟩)
      have hlen := had.len_le
      have hmasked : (byteAt p 1 &&& 0x80 != 0) = masked p := rfl
      rw [decodeFrame_of_admissible (by omega) had, if_neg (by omega), if_neg had.control, hmasked,
        if_neg had.is_masked]
      -- the length is at most `maxPayload`, so no sum comes near 2^32
      exact payloadChecked_eq (by omega)

/-! ## Asking for more -/

theorem length_of_frameLength_none {p : Bytes} (h : frameLength p = none) : p.length < 10 := by
  unfold frameLength at h
  simp only at h
  split at h
  · split at h
    · omega
    · cases h
  · split at h
    · split at h
      · omega
      · cases h
    · cases h

/-- The decoder waits only for the rest of an admissible frame. -/
theorem length_of_more {p : Bytes} {maxPayload : Nat} {requireMasked : Bool}
    (hM : maxPayload < 2 ^ 63) (h : decodeFrame p maxPayload requireMasked = .more) :
    p.length < 14 + maxPayload := by
  by_cases h2 : p.length < 2
  · omega
  cases hl : frameLength p with
  | none =>
    have := length_of_frameLength_none hl
    omega
  | some li =>
    obtain ⟨len, i⟩ := li
    have hi := frameLength_le hl
    by_cases had : Admissible p maxPayload requireMasked len i
    -- two bytes, at most 8 of length and 4 of mask in front of the payload
    · have hlen := had.len_le
      have hds : dataStart p i ≤ i + 4 := by
        unfold dataStart
        split <;> omega
      rw [decodeFrame_of_admissible hM had] at h
      split at h
      · omega
      · cases h
    · rw [(decodeFrame_bad_iff hM).mpr ⟨by omega, len, i, hl, had⟩] at h
      cases h

/-- Draining leaves an open carrier less than a whole frame. -/
theorem rx_bounded {β : Type} (S : IByteStream β) {c : WebSocketConn.State β}
    (hc : c.closed = false) (hd : (WebSocketConn.drainFrames S c).closed = false) :
    (WebSocketConn.drainFrames S c).rx.length < 14 + kMaxPayload := by
  have hstarved := (WebSocketConn.drainFrames_open S hc hd).1
  have hmore := frames.step_rest_of_starved isClose c.rx hstarved
  rw [WebSocketConn.drainFrames_eq S c hc]
  exact length_of_more (by decide) hmore

/-! ## The main result -/

/-- **The decoder accepts exactly the masked client frames.** For every byte
string: a frame is reported if and only if the bytes start with its text; an
answer is not changed by more bytes; more is asked for only below 14 bytes
more than the payload limit, so the receive buffer of an open carrier stays
below that; and no read is out of bounds, no sum wraps. -/
theorem decoder_exact (p : Bytes) :
    (∀ (f : Frame) (n : Nat), decodeFrame p kMaxPayload true = .item f n ↔
      ∃ (g : WireFrame) (q : Bytes), p = g.bytes ++ q ∧ g.bytes.length = n ∧
        g.mask.isSome = true ∧ g.payload.length ≤ kMaxPayload ∧
        (8 ≤ g.opcode.val → g.fin = true ∧ g.payload.length ≤ 125) ∧
        f = ⟨UInt8.ofNat g.opcode.val, g.fin, g.payload⟩) ∧
    (decodeFrame p kMaxPayload true ≠ .more → ∀ q,
      decodeFrame (p ++ q) kMaxPayload true = decodeFrame p kMaxPayload true) ∧
    (decodeFrame p kMaxPayload true = .more → p.length < 14 + kMaxPayload) ∧
    (∀ {β : Type} (S : IByteStream β) (c : WebSocketConn.State β), c.closed = false →
      (WebSocketConn.drainFrames S c).closed = false →
      (WebSocketConn.drainFrames S c).rx.length < 14 + kMaxPayload) ∧
    decodeChecked p kMaxPayload true = some (decodeFrame p kMaxPayload true) := by
  refine ⟨?_, ?_, length_of_more (by decide), fun S c hc hd => rx_bounded S hc hd,
    decodeChecked_eq p (by decide) true⟩
  · intro f n
    constructor
    · intro h
      obtain ⟨g, had, hf, hbytes, hle⟩ := exists_of_item (by decide) h
      refine ⟨g, p.drop n, ?_, ?_, had.masked rfl, had.payload_le, had.control, hf.symm⟩
      · rw [hbytes, List.take_append_drop]
      · rw [hbytes, List.length_take]
        omega
    · rintro ⟨g, q, rfl, rfl, hmask, hlen, hcontrol, rfl⟩
      exact decodeFrame_bytes (by decide) ⟨hlen, hcontrol, fun _ => hmask⟩ q
  · intro hmore q
    cases h : decodeFrame p kMaxPayload true with
    | more => exact absurd h hmore
    | bad => exact decodeFrame_bad_append (by decide) h q
    | item f n => exact frames.item_append h q

end FaceTracking.Ws
