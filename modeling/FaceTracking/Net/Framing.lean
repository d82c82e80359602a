import FaceTracking.Net.Protocol

/-!
# SEC1 framing as an incremental decoder

The terminal's session and the PC client both keep a receive buffer and take
complete messages off its front. `sec1 cap` is what they have in common: the
decoder that answers with the message in front of a buffer, asks for more
bytes, or rejects a wrong magic or a length above `cap`. Its stability under
further input is proved here once, so the reading loops inherit chunk
independence from the library.
-/

namespace FaceTracking.Proto

open Lib

/-- One SEC1 message: header fields and payload. -/
@[ext] structure Message where
  type : UInt16
  flags : UInt16
  payload : Bytes
deriving DecidableEq, Repr

/-- The bytes of a message. -/
def Message.wire (m : Message) : Bytes := buildMessage m.type m.payload m.flags

/-- The bytes determine the message. -/
theorem Message.wire_injective : Function.Injective Message.wire := by
  intro m m' h
  unfold Message.wire at h
  have htype := congrArg (fun b => getU16 (b.drop 4)) h
  have hflags := congrArg (fun b => getU16 (b.drop 6)) h
  have hpayload := congrArg (List.drop kHeaderSize) h
  simp only [buildMessage_drop4, buildMessage_drop6, buildMessage_drop12, getU16_beBytes]
    at htype hflags hpayload
  exact Message.ext htype hflags hpayload

/-- What the front of a receive buffer holds, for payloads of at most `cap` bytes. -/
def parse (cap : UInt32) (b : Bytes) : Step Message :=
  if b.length < kHeaderSize then .more
  else
    match decodeHeader b with
    | none => .bad
    | some h =>
      if h.length > cap then .bad
      else if b.length < kHeaderSize + h.length.toNat then .more
      else .item ⟨h.type, h.flags, (b.drop kHeaderSize).take h.length.toNat⟩
        (kHeaderSize + h.length.toNat)

/-! ## Reads inside a prefix -/

theorem getU16_append {p : Bytes} (h : 2 ≤ p.length) (c : Bytes) :
    getU16 (p ++ c) = getU16 p := by
  simp only [getU16, byteAt_append (show 0 < p.length by omega) c,
    byteAt_append (show 1 < p.length by omega) c]

theorem getU32_append {p : Bytes} (h : 4 ≤ p.length) (c : Bytes) :
    getU32 (p ++ c) = getU32 p := by
  simp only [getU32, byteAt_append (show 0 < p.length by omega) c,
    byteAt_append (show 1 < p.length by omega) c, byteAt_append (show 2 < p.length by omega) c,
    byteAt_append (show 3 < p.length by omega) c]

/-- Once the twelve bytes are there, later bytes do not change the header. -/
theorem decodeHeader_append {b : Bytes} (h : kHeaderSize ≤ b.length) (c : Bytes) :
    decodeHeader (b ++ c) = decodeHeader b := by
  have hl : 12 ≤ b.length := h
  have hd : ∀ k ≤ 8, 4 ≤ (b.drop k).length := by
    intro k hk
    rw [List.length_drop]
    omega
  have h0 : ¬ (b ++ c).length < kHeaderSize := by rw [List.length_append]; omega
  simp only [decodeHeader, if_neg h0, if_neg (Nat.not_lt.mpr h),
    List.drop_append_of_le_length (show 4 ≤ b.length by omega),
    List.drop_append_of_le_length (show 6 ≤ b.length by omega),
    List.drop_append_of_le_length (show 8 ≤ b.length by omega),
    getU32_append (show 4 ≤ b.length by omega) c,
    getU16_append (show 2 ≤ (b.drop 4).length by have := hd 4 (by omega); omega) c,
    getU16_append (show 2 ≤ (b.drop 6).length by have := hd 6 (by omega); omega) c,
    getU32_append (hd 8 (by omega)) c]

theorem beBytes_getU16 {p : Bytes} (h : 2 ≤ p.length) :
    beBytes 2 (getU16 p).toNat = p.take 2 := by
  match p, h with
  | a :: b :: r, _ =>
    rw [getU16_ofNat]
    exact beBytes_beNat [a, b]

theorem beBytes_getU32 {p : Bytes} (h : 4 ≤ p.length) :
    beBytes 4 (getU32 p).toNat = p.take 4 := by
  match p, h with
  | a :: b :: c :: d :: r, _ =>
    rw [getU32_ofNat]
    exact beBytes_beNat [a, b, c, d]

/-- A decoded header is the first twelve bytes of the buffer. -/
theorem take_header {b : Bytes} {h : Header} (hd : decodeHeader b = some h) :
    kHeaderSize ≤ b.length ∧ b.take kHeaderSize = beBytes 4 kMagic.toNat ++
      (beBytes 2 h.type.toNat ++ (beBytes 2 h.flags.toNat ++ beBytes 4 h.length.toNat)) := by
  unfold decodeHeader at hd
  split at hd
  · cases hd
  · rename_i hl
    have hl' : 12 ≤ b.length := Nat.not_lt.mp hl
    split at hd
    · cases hd
    · rename_i hm
      have hm' : getU32 b = kMagic := not_not.mp hm
      cases hd
      refine ⟨hl', ?_⟩
      have h8 : 4 ≤ (b.drop 8).length := by rw [List.length_drop]; omega
      have h6 : 2 ≤ (b.drop 6).length := by rw [List.length_drop]; omega
      have h4 : 2 ≤ (b.drop 4).length := by rw [List.length_drop]; omega
      rw [← hm', beBytes_getU32 (by omega), beBytes_getU16 h4, beBytes_getU16 h6,
        beBytes_getU32 h8]
      rw [show kHeaderSize = 4 + (2 + (2 + 4)) from rfl, List.take_add, List.take_add,
        List.take_add, List.drop_drop, List.drop_drop]

/-! ## The decoder -/

/-- Parsing the bytes of a message, whatever follows them. -/
theorem parse_wire {cap : UInt32} {m : Message} (h : m.payload.length ≤ cap.toNat) (c : Bytes) :
    parse cap (m.wire ++ c) = .item m m.wire.length := by
  have hc := cap.toNat_lt
  have hn : (UInt32.ofNat m.payload.length).toNat = m.payload.length := by
    rw [UInt32.toNat_ofNat', Nat.mod_eq_of_lt (by omega)]
  have hcap : ¬ UInt32.ofNat m.payload.length > cap := by
    rw [gt_iff_lt, UInt32.lt_iff_toNat_lt, hn]
    omega
  have hlen : (m.wire ++ c).length = kHeaderSize + m.payload.length + c.length := by
    rw [List.length_append, Message.wire, length_buildMessage]
  have hsplit : m.wire ++ c = (beBytes 4 kMagic.toNat ++ (beBytes 2 m.type.toNat ++
      (beBytes 2 m.flags.toNat ++ beBytes 4 (UInt32.ofNat m.payload.length).toNat))) ++
      (m.payload ++ c) := by
    rw [Message.wire, buildMessage_eq]
    simp only [List.append_assoc]
  have hpl : ((m.wire ++ c).drop kHeaderSize).take m.payload.length = m.payload := by
    rw [hsplit, List.drop_left' (by simp [kHeaderSize]), List.take_left]
  rw [parse, if_neg (by omega), Message.wire, decodeHeader_buildMessage]
  simp only [if_neg hcap, hn]
  rw [if_neg (by rw [← Message.wire]; omega), ← Message.wire, hpl, Message.wire,
    length_buildMessage]

/-- What a parsed message says about the buffer. -/
theorem wire_of_parse {cap : UInt32} {b : Bytes} {m : Message} {n : Nat}
    (h : parse cap b = .item m n) :
    n = m.wire.length ∧ m.payload.length ≤ cap.toNat ∧ b = m.wire ++ b.drop n := by
  unfold parse at h
  split at h
  · cases h
  · split at h
    · cases h
    · rename_i hd hdec
      split at h
      · cases h
      · rename_i hcap
        split at h
        · cases h
        · rename_i hlen
          cases h
          obtain ⟨hl, htake⟩ := take_header hdec
          have hpl : ((b.drop kHeaderSize).take hd.length.toNat).length = hd.length.toNat := by
            rw [List.length_take, List.length_drop]
            omega
          refine ⟨by simp [Message.wire, hpl], ?_, ?_⟩
          · simp only [hpl]
            exact UInt32.le_iff_toNat_le.mp (UInt32.not_lt.mp hcap)
          · have hw : Message.wire ⟨hd.type, hd.flags, (b.drop kHeaderSize).take hd.length.toNat⟩
                = b.take kHeaderSize ++ (b.drop kHeaderSize).take hd.length.toNat := by
              rw [Message.wire, buildMessage_eq, htake, hpl, UInt32.ofNat_toNat]
              simp
            rw [hw, ← List.drop_drop, List.append_assoc, List.take_append_drop,
              List.take_append_drop]

theorem parse_local {cap : UInt32} {b : Bytes} {m : Message} {n : Nat}
    (h : parse cap b = .item m n) (b' : Bytes) (hb' : b'.take n = b.take n) :
    parse cap b' = .item m n := by
  obtain ⟨hn, hle, hb⟩ := wire_of_parse h
  have htake : b.take n = m.wire := by
    rw [hb, hn, List.take_left]
  have hb'' : b' = m.wire ++ b'.drop n := by
    rw [← htake, ← hb', List.take_append_drop]
  rw [hb'', parse_wire hle, hn]

theorem parse_append_bad {cap : UInt32} {b : Bytes} (h : parse cap b = .bad) (c : Bytes) :
    parse cap (b ++ c) = .bad := by
  unfold parse at h ⊢
  split at h
  · cases h
  · rename_i hl
    have hl' : kHeaderSize ≤ b.length := Nat.not_lt.mp hl
    rw [if_neg (by rw [List.length_append]; omega), decodeHeader_append hl']
    split at h
    · rfl
    · split at h
      · rename_i hcap
        rw [if_pos hcap]
      · split at h <;> cases h

theorem parse_item_pos {cap : UInt32} {b : Bytes} {m : Message} {n : Nat}
    (h : parse cap b = .item m n) : 0 < n := by
  rw [(wire_of_parse h).1, Message.wire, length_buildMessage]
  simp [kHeaderSize]

theorem parse_item_le {cap : UInt32} {b : Bytes} {m : Message} {n : Nat}
    (h : parse cap b = .item m n) : n ≤ b.length := by
  obtain ⟨hn, -, hb⟩ := wire_of_parse h
  rw [hb, List.length_append, hn]
  omega

/-- The SEC1 decoder for payloads of at most `cap` bytes. -/
def sec1 (cap : UInt32) : Decoder UInt8 Message where
  step := parse cap
  step_nil := rfl
  item_pos := parse_item_pos
  item_le := parse_item_le
  item_local := parse_local
  bad_append := parse_append_bad

@[simp] theorem sec1_step (cap : UInt32) (b : Bytes) : (sec1 cap).step b = parse cap b := rfl

/-- A rejected buffer shows a whole header, with a wrong magic or too large a length. -/
theorem parse_bad_iff {cap : UInt32} {b : Bytes} :
    parse cap b = .bad ↔ kHeaderSize ≤ b.length ∧
      ∀ h, decodeHeader b = some h → cap < h.length := by
  unfold parse
  constructor
  · intro h
    split at h
    · cases h
    · rename_i hl
      refine ⟨Nat.not_lt.mp hl, ?_⟩
      intro hd hdec
      rw [hdec] at h
      by_contra hcap
      simp only [if_neg hcap] at h
      split at h <;> cases h
  · rintro ⟨hl, hall⟩
    rw [if_neg (by omega)]
    cases hdec : decodeHeader b with
    | none => rfl
    | some hd => simp only [if_pos (hall hd hdec)]

/-- A buffer that needs more bytes is shorter than a header and a largest payload. -/
theorem length_of_parse_more {cap : UInt32} {b : Bytes} (h : parse cap b = .more) :
    b.length < kHeaderSize + cap.toNat := by
  unfold parse at h
  split at h
  · omega
  · split at h
    · cases h
    · split at h
      · cases h
      · rename_i hcap
        split at h
        · rename_i hl
          have := UInt32.le_iff_toNat_le.mp (UInt32.not_lt.mp hcap)
          omega
        · cases h

/-! ## Whole messages of any length -/

/-- A message's type shows in its bytes. -/
theorem Message.type_eq_of_wire {m m' : Message} (h : m.wire = m'.wire) : m.type = m'.type := by
  have hd := decodeHeader_buildMessage m.type m.payload m.flags []
  have hd' := decodeHeader_buildMessage m'.type m'.payload m'.flags []
  rw [show buildMessage m.type m.payload m.flags = m'.wire from h, Message.wire, hd'] at hd
  simp only [Option.some.injEq, Header.mk.injEq, true_and] at hd
  exact hd.1.symm

/-- Bytes begin with at most one message whose length its header can tell. -/
theorem wire_append_inj {m m' : Message} {c c' : Bytes} (hm : m.payload.length < 2 ^ 32)
    (hm' : m'.payload.length < 2 ^ 32) (h : m.wire ++ c = m'.wire ++ c') : m = m' := by
  have hcap : (0xFFFFFFFF : UInt32).toNat = 2 ^ 32 - 1 := rfl
  have hp : parse 0xFFFFFFFF (m.wire ++ c) = .item m m.wire.length := parse_wire (by omega) c
  have hp' : parse 0xFFFFFFFF (m'.wire ++ c') = .item m' m'.wire.length := parse_wire (by omega) c'
  rw [h, hp'] at hp
  cases hp
  rfl

/-- A whole message is taken or rejected, whatever the cap. -/
theorem parse_wire_ne_more {cap : UInt32} {m : Message} (hm : m.payload.length < 2 ^ 32)
    (c : Bytes) : parse cap (m.wire ++ c) ≠ .more := by
  by_cases hle : m.payload.length ≤ cap.toNat
  · rw [parse_wire hle]
    simp
  · have hbad : parse cap (m.wire ++ c) = .bad := by
      refine parse_bad_iff.mpr ⟨by simp [Message.wire, Nat.add_assoc], ?_⟩
      intro h hd
      rw [Message.wire, decodeHeader_buildMessage] at hd
      cases hd
      rw [UInt32.lt_iff_toNat_lt, UInt32.toNat_ofNat', Nat.mod_eq_of_lt hm]
      omega
    rw [hbad]
    simp

/-! ## The dispatch loop -/

/-- Why a receive buffer is given up. -/
inductive Reject where
  | badMagic
  | oversize (length : UInt32)
deriving DecidableEq, Repr

section Loop

variable {σ : Type} (cap : UInt32) (handle : σ → Message → σ × Bool) (reject : σ → Reject → σ)

/-- The loop the session and the PC client share: take complete messages of a
receive buffer from an offset on and hand them to `handle`, which says whether
to go on. Returns the offset reached, `none` where the source leaves the
function from inside the loop. -/
def dispatchLoop (rx : Bytes) : Nat → Nat → σ → σ × Option Nat
  | 0, off, s => (s, some off)
  | fuel + 1, off, s =>
    if rx.length - off < kHeaderSize then (s, some off)
    else
      match decodeHeader (rx.drop off) with
      | none => (reject s .badMagic, none)
      | some h =>
        if h.length > cap then (reject s (.oversize h.length), none)
        else if rx.length - off < kHeaderSize + h.length.toNat then (s, some off)
        else
          let payload := (rx.drop (off + kHeaderSize)).take h.length.toNat
          let r := handle s ⟨h.type, h.flags, payload⟩
          if r.2 then dispatchLoop rx fuel (off + (kHeaderSize + h.length.toNat)) r.1
          else (r.1, none)

/-- Handing over a list of messages, up to the first after which `handle` stops. -/
def handleAll : σ → List Message → σ × Bool
  | s, [] => (s, true)
  | s, m :: ms => if (handle s m).2 then handleAll (handle s m).1 ms else ((handle s m).1, false)

/-- The complaint about a rejected buffer. -/
def rejection (b : Bytes) : Reject :=
  match decodeHeader b with
  | none => .badMagic
  | some h => .oversize h.length

/-- The messages in front of a buffer and what is behind them. -/
def messages (b : Bytes) : Scan UInt8 Message := (sec1 cap).scan (fun _ => false) b

/-- A round of the loop does what `parse` says of the bytes behind the offset.
-/
theorem dispatchLoop_succ (rx : Bytes) (fuel off : Nat) (s : σ) :
    dispatchLoop cap handle reject rx (fuel + 1) off s =
      match parse cap (rx.drop off) with
      | .more => (s, some off)
      | .bad => (reject s (rejection (rx.drop off)), none)
      | .item m n =>
        if (handle s m).2 then dispatchLoop cap handle reject rx fuel (off + n) (handle s m).1
        else ((handle s m).1, none) := by
  rw [dispatchLoop, parse, rejection, List.length_drop]
  by_cases hl : rx.length - off < kHeaderSize
  · rw [if_pos hl, if_pos hl]
  rw [if_neg hl, if_neg hl]
  cases decodeHeader (rx.drop off) with
  | none => rfl
  | some h =>
    simp only
    by_cases hcap : h.length > cap
    · rw [if_pos hcap, if_pos hcap]
    rw [if_neg hcap, if_neg hcap]
    by_cases hlen : rx.length - off < kHeaderSize + h.length.toNat
    · rw [if_pos hlen, if_pos hlen]
    · rw [if_neg hlen, if_neg hlen, List.drop_drop]

/-- The state and the offset a dispatch loop ends with, given the messages
behind its starting offset. -/
def dispatched (rx : Bytes) (s : σ) (sc : Scan UInt8 Message) : σ × Option Nat :=
  if (handleAll handle s sc.items).2 then
    if sc.ending = .broken then
      (reject (handleAll handle s sc.items).1 (rejection sc.rest), none)
    else ((handleAll handle s sc.items).1, some (rx.length - sc.rest.length))
  else ((handleAll handle s sc.items).1, none)

/-- **The loop.** From any offset, it hands over the complete messages behind
the offset until `handle` stops it, and then rejects or keeps what is left. -/
theorem dispatchLoop_eq (rx : Bytes) (fuel off : Nat) (s : σ) (hoff : off ≤ rx.length)
    (hfuel : rx.length - off < fuel) :
    dispatchLoop cap handle reject rx fuel off s =
      dispatched handle reject rx s (messages cap (rx.drop off)) := by
  induction fuel generalizing off s with
  | zero => omega
  | succ fuel ih =>
    rw [dispatchLoop_succ]
    unfold messages dispatched
    cases hp : parse cap (rx.drop off) with
    | more =>
      have hlen : rx.length - (rx.drop off).length = off := by rw [List.length_drop]; omega
      rw [(sec1 cap).scan_more _ hp, hlen]
      simp [handleAll]
    | bad =>
      rw [(sec1 cap).scan_bad _ hp]
      simp [handleAll]
    | item m n =>
      have hpos := (sec1 cap).item_pos hp
      have hle := (sec1 cap).item_le hp
      rw [List.length_drop] at hle
      rw [(sec1 cap).scan_item _ hp rfl]
      simp only [Scan.prepend_items, Scan.prepend_rest, Scan.prepend_ending, List.cons_append,
        List.nil_append, handleAll]
      by_cases hgo : (handle s m).2 = true
      · rw [if_pos hgo, if_pos hgo, ih (off + n) _ (by omega) (by omega), ← List.drop_drop]
        rfl
      · rw [if_neg hgo, if_neg hgo, if_neg (by simp)]

/-- What one round preserves, a whole dispatch preserves. -/
theorem handleAll_induction {P : σ → Prop} (h : ∀ s m, P s → P (handle s m).1) (s : σ)
    (ms : List Message) (hs : P s) : P (handleAll handle s ms).1 := by
  induction ms generalizing s with
  | nil => exact hs
  | cons m ms ih =>
    unfold handleAll
    split
    · exact ih _ (h s m hs)
    · exact h s m hs

theorem dispatched_induction {P : σ → Prop} (h : ∀ s m, P s → P (handle s m).1)
    (hr : ∀ s r, P s → P (reject s r)) (rx : Bytes) (s : σ) (sc : Scan UInt8 Message) (hs : P s) :
    P (dispatched handle reject rx s sc).1 := by
  have hall := handleAll_induction handle h s sc.items hs
  unfold dispatched
  split
  · split
    · exact hr _ _ hall
    · exact hall
  · exact hall

end Loop

/-! ## Decomposing a byte string -/

/-- No message of the cap stands in front of the bytes. -/
def NoMessage (cap : UInt32) (r : Bytes) : Prop :=
  ∀ (m : Message) (t : Bytes), m.payload.length ≤ cap.toNat → r ≠ m.wire ++ t

/-- A whole header with a wrong magic or too large a length. -/
def BadHeader (cap : UInt32) (r : Bytes) : Prop :=
  kHeaderSize ≤ r.length ∧ (getU32 r ≠ kMagic ∨ cap < getU32 (r.drop 8))

theorem parse_bad_iff_badHeader {cap : UInt32} {r : Bytes} :
    parse cap r = .bad ↔ BadHeader cap r := by
  rw [parse_bad_iff, BadHeader]
  refine and_congr_right ?_
  intro hl
  unfold decodeHeader
  rw [if_neg (by omega)]
  by_cases hm : getU32 r ≠ kMagic
  · simp [hm]
  · simp [hm]

/-- Messages in front of bytes that start with none are the ones that are found.
-/
theorem messages_decomposition {cap : UInt32} {ms : List Message} {r : Bytes}
    (hms : ∀ m ∈ ms, m.payload.length ≤ cap.toNat) (hr : NoMessage cap r) :
    messages cap (ms.flatMap Message.wire ++ r) =
      ⟨ms, r, if parse cap r = .bad then .broken else .starved⟩ := by
  have henc : ∀ m ∈ ms, ∀ c, (sec1 cap).step (m.wire ++ c) = .item m m.wire.length :=
    fun m hm c => parse_wire (hms m hm) c
  rw [messages, (sec1 cap).scan_encode _ Message.wire ms henc (fun _ _ => rfl)]
  cases hp : parse cap r with
  | more =>
    rw [(sec1 cap).scan_more _ hp]
    simp [Scan.prepend]
  | bad =>
    rw [(sec1 cap).scan_bad _ hp]
    simp [Scan.prepend]
  | item m n =>
    obtain ⟨-, hle, hb⟩ := wire_of_parse hp
    exact absurd hb (hr m _ hle)

/-- Every byte string is messages and then bytes that start with none. -/
theorem exists_decomposition (cap : UInt32) (b : Bytes) :
    ∃ (ms : List Message) (r : Bytes), b = ms.flatMap Message.wire ++ r ∧
      (∀ m ∈ ms, m.payload.length ≤ cap.toNat) ∧
      NoMessage cap r := by
  have hno : ∀ b, (∀ m n, parse cap b ≠ .item m n) → NoMessage cap b := by
    intro b hb m t hle he
    rw [he] at hb
    exact hb m _ (parse_wire hle t)
  induction b using (sec1 cap).scan_induction (fun _ => false) with
  | more b hp => exact ⟨[], b, by simp, by simp, hno b (fun m n he => by simp_all)⟩
  | bad b hp => exact ⟨[], b, by simp, by simp, hno b (fun m n he => by simp_all)⟩
  | halt b m n hp ha => cases ha
  | item b m n hp ha ih =>
    obtain ⟨ms, r, hb, hms, hr⟩ := ih
    obtain ⟨-, hle, hw⟩ := wire_of_parse hp
    refine ⟨m :: ms, r, ?_, ?_, hr⟩
    · rw [List.flatMap_cons, List.append_assoc, ← hb, ← hw]
    · intro x hx
      cases hx with
      | head => exact hle
      | tail _ hx => exact hms x hx

end FaceTracking.Proto
