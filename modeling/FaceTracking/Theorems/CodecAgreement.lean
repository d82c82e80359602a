import FaceTracking.MobileClient.Protocol
import FaceTracking.PcClient.TcpClient

/-!
# The terminal's encoder and both clients' decoders agree

`pc_reads`: however the terminal's messages are cut into deliveries, the PC
client handles exactly these messages and is left with an empty buffer. The
video sub-header is read back field by field by both clients
(`handleVideoFrame_videoPayload`, `parseVideoFrame_videoPayload`), and the
mobile client, which gets whole frames, reads the same header and payload.
-/

namespace FaceTracking

open Lib Proto

/-- What the terminal can put on the wire. -/
inductive TerminalMessage where
  | plain (type : UInt16) (payload : Bytes) (flags : UInt16)
  | video (seq w h : UInt32) (tsMs : UInt64) (jpeg : Bytes)

namespace TerminalMessage

/-- As the terminal's builders write it. -/
def wire : TerminalMessage → Bytes
  | plain type payload flags => buildMessage type payload flags
  | video seq w h tsMs jpeg => buildVideoFrame seq w h tsMs jpeg

def toMessage : TerminalMessage → Message
  | plain type payload flags => ⟨type, flags, payload⟩
  | video seq w h tsMs jpeg => ⟨MsgType.VideoFrame.code, 0, videoPayload seq w h tsMs jpeg⟩

theorem wire_eq (m : TerminalMessage) : m.wire = m.toMessage.wire := by
  cases m <;> rfl

end TerminalMessage

/-! ## The PC client's reader -/

namespace PcClient.TcpClient

variable {Cert Img : Type} (Q : Qt Cert Img)

/-- The message handler in the form of the dispatch loop. -/
def onMessage (s : TcpClient Cert Img) (m : Message) : TcpClient Cert Img × Bool :=
  (handleMessage Q s m.type m.payload, true)

/-- What a call does besides handling messages: nothing is aborted. -/
structure Handled (s s' : TcpClient Cert Img) (ms : List Message) : Prop where
  sock : s'.sock = s.sock
  handled : handled s'.log = handled s.log ++ ms.map (fun m => (m.type, m.payload))
  unaborted : ∃ l, s'.log = s.log ++ l ∧ Effect.abort ∉ l

theorem Handled.trans {s₁ s₂ s₃ : TcpClient Cert Img} {ms ms' : List Message}
    (h : Handled s₁ s₂ ms) (h' : Handled s₂ s₃ ms') : Handled s₁ s₃ (ms ++ ms') := by
  obtain ⟨l, hl, hn⟩ := h.unaborted
  obtain ⟨l', hl', hn'⟩ := h'.unaborted
  refine ⟨h'.sock.trans h.sock, ?_, l ++ l', ?_, ?_⟩
  · rw [h'.handled, h.handled, List.map_append, List.append_assoc]
  · rw [hl', hl, List.append_assoc]
  · simp [hn, hn']

theorem onMessage_handled (s : TcpClient Cert Img) (m : Message) :
    Handled s (onMessage Q s m).1 [m] ∧ (onMessage Q s m).1.rx = s.rx := by
  have h := handleMessage_delivered Q s m.type m.payload
  obtain ⟨l, hl, hd⟩ := h.log
  have hnone : handled l = [] := by
    refine List.filterMap_eq_nil_iff.mpr ?_
    intro e he
    cases e <;> first | rfl | cases hd _ he
  have hlog : (onMessage Q s m).1.log = s.log ++ (.handled m.type m.payload :: l) := by
    show (handleMessage Q s m.type m.payload).log = _
    rw [hl]
    show s.log ++ [.handled m.type m.payload] ++ l = _
    rw [List.append_assoc]
    rfl
  refine ⟨⟨h.sock, ?_, _, hlog, ?_⟩, h.rx⟩
  · rw [hlog]
    unfold handled at hnone ⊢
    rw [List.filterMap_append, List.filterMap_cons, hnone]
    rfl
  · intro hm
    rcases List.mem_cons.mp hm with hm | hm
    · cases hm
    · cases hd _ hm

theorem handleAll_handled (ms : List Message) (s : TcpClient Cert Img) :
    (handleAll (onMessage Q) s ms).2 = true ∧ Handled s (handleAll (onMessage Q) s ms).1 ms ∧
      (handleAll (onMessage Q) s ms).1.rx = s.rx := by
  induction ms generalizing s with
  | nil => exact ⟨rfl, ⟨rfl, by simp [handleAll], [], by simp [handleAll], by simp⟩, rfl⟩
  | cons m ms ih =>
    obtain ⟨hone, hrx⟩ := onMessage_handled Q s m
    obtain ⟨hgo, hh, hrx'⟩ := ih (onMessage Q s m).1
    unfold handleAll
    rw [if_pos (show (onMessage Q s m).2 = true from rfl)]
    exact ⟨hgo, hone.trans hh, hrx'.trans hrx⟩

/-- A delivery after which the client waits for more has handled the whole
messages and keeps the rest. -/
theorem onReadyRead_starved (s : TcpClient Cert Img) (data : Bytes)
    (h : (messages kMaxMessageBytes (s.rx ++ data)).ending = .starved) :
    Handled s (onReadyRead Q s data) (messages kMaxMessageBytes (s.rx ++ data)).items ∧
      (onReadyRead Q s data).rx = (messages kMaxMessageBytes (s.rx ++ data)).rest := by
  generalize hsc : messages kMaxMessageBytes (s.rx ++ data) = sc at h
  obtain ⟨hgo, hh, hrx⟩ := handleAll_handled Q sc.items { s with rx := s.rx ++ data }
  have hloop := dispatchLoop_eq kMaxMessageBytes (onMessage Q) onReject (s.rx ++ data)
    ((s.rx ++ data).length + 1) 0 { s with rx := s.rx ++ data } (Nat.zero_le _) (by omega)
  rw [List.drop_zero, hsc, dispatched, if_pos hgo, if_neg (by rw [h]; simp)] at hloop
  unfold onReadyRead processBuffer
  simp only
  rw [show (fun (s : TcpClient Cert Img) (m : Message) =>
    (handleMessage Q s m.type m.payload, true)) = onMessage Q from rfl, hloop]
  -- the removed prefix is everything in front of what the scan left
  obtain ⟨pre, hpre⟩ := (sec1 kMaxMessageBytes).rest_suffix (fun _ => false) (s.rx ++ data)
  rw [show (sec1 kMaxMessageBytes).scan (fun _ => false) (s.rx ++ data) = sc from hsc] at hpre
  have hlen : (s.rx ++ data).length - sc.rest.length = pre.length := by
    rw [← hpre, List.length_append]
    omega
  have hdrop : (s.rx ++ data).drop pre.length = sc.rest := by
    rw [← hpre]
    exact List.drop_left
  refine ⟨⟨hh.sock, hh.handled, hh.unaborted⟩, ?_⟩
  simp only [hlen, hrx, hdrop]

/-- As long as the reader never rejects, any deliveries are handled as their
concatenation. -/
theorem onReadyReads (cuts : List Bytes) (s : TcpClient Cert Img)
    (h : ((sec1 kMaxMessageBytes).scanChunks (fun _ => false) s.rx cuts).ending = .starved) :
    Handled s (cuts.foldl (onReadyRead Q) s)
        ((sec1 kMaxMessageBytes).scanChunks (fun _ => false) s.rx cuts).items ∧
      (cuts.foldl (onReadyRead Q) s).rx =
        ((sec1 kMaxMessageBytes).scanChunks (fun _ => false) s.rx cuts).rest := by
  induction cuts generalizing s with
  | nil => exact ⟨⟨rfl, by simp [Decoder.scanChunks], [], by simp, by simp⟩, rfl⟩
  | cons c cs ih =>
    unfold Decoder.scanChunks at h ⊢
    cases he : ((sec1 kMaxMessageBytes).scan (fun _ => false) (s.rx ++ c)).ending with
    | broken => rw [he] at h; cases h
    | halted => rw [he] at h; cases h
    | starved =>
      rw [he] at h
      simp only [Scan.prepend_ending, Scan.prepend_items, Scan.prepend_rest] at h ⊢
      obtain ⟨hone, hrx⟩ := onReadyRead_starved Q s c he
      unfold messages at hone hrx
      rw [← hrx] at h ⊢
      obtain ⟨hrest, hrx'⟩ := ih (onReadyRead Q s c) h
      exact ⟨hone.trans hrest, hrx'⟩

/-- The PC client reads the sub-header as the terminal writes it. -/
theorem handleVideoFrame_videoPayload (s : TcpClient Cert Img) (seq w h : UInt32) (tsMs : UInt64)
    (jpeg : Bytes) :
    handleVideoFrame Q s (videoPayload seq w h tsMs jpeg) =
      match Q.loadFromData jpeg with
      | none => s
      | some img => s.emit (.videoFrameReceived img seq w h tsMs) := by
  have h0 : getU32 (videoPayload seq w h tsMs jpeg) = seq := by
    rw [videoPayload_eq, getU32_beBytes]
  unfold handleVideoFrame
  rw [if_neg (by rw [length_videoPayload]; omega)]
  cases hq : Q.loadFromData jpeg with
  | none => simp only [videoPayload_drop20, hq]
  | some img =>
    simp only [h0, videoPayload_drop4, videoPayload_drop8, videoPayload_drop12, videoPayload_drop20,
      getU32_beBytes, getU64_beBytes, hq]

end PcClient.TcpClient

/-! ## The mobile client's reader -/

namespace MobileClient

/-- The mobile client reads the sub-header as the terminal writes it. -/
theorem parseVideoFrame_videoPayload (seq w h : UInt32) (tsMs : UInt64) (jpeg : Bytes) :
    parseVideoFrame (videoPayload seq w h tsMs jpeg) =
      some ⟨seq.toNat, w.toNat, h.toNat, toDouble tsMs.toNat, jpeg⟩ := by
  have hts := tsMs.toNat_lt
  have hsize : ¬ (videoPayload seq w h tsMs jpeg).length < VIDEO_SUBHEADER_SIZE := by
    rw [length_videoPayload, VIDEO_SUBHEADER_SIZE, kVideoSubheaderSize]
    omega
  have hseq : getUint32 (videoPayload seq w h tsMs jpeg) 0 = seq.toNat :=
    beNat_take (videoPayload_eq seq w h tsMs jpeg) seq.toNat_lt
  have hw : getUint32 (videoPayload seq w h tsMs jpeg) 4 = w.toNat :=
    beNat_take (videoPayload_drop4 seq w h tsMs jpeg) w.toNat_lt
  have hh : getUint32 (videoPayload seq w h tsMs jpeg) 8 = h.toNat :=
    beNat_take (videoPayload_drop8 seq w h tsMs jpeg) h.toNat_lt
  -- the time stamp is written as one 64-bit number and read as two 32-bit ones
  have h12 : (videoPayload seq w h tsMs jpeg).drop 12 =
      beBytes 4 (tsMs.toNat / 256 ^ 4) ++ (beBytes 4 tsMs.toNat ++ jpeg) := by
    rw [videoPayload_drop12, show (8 : Nat) = 4 + 4 from rfl, beBytes_add, List.append_assoc]
  have h16 : (videoPayload seq w h tsMs jpeg).drop 16 = beBytes 4 tsMs.toNat ++ jpeg := by
    rw [show (16 : Nat) = 12 + 4 from rfl, ← List.drop_drop, h12]
    exact List.drop_left' (length_beBytes 4 _)
  have hhi : getUint32 (videoPayload seq w h tsMs jpeg) 12 = tsMs.toNat / 2 ^ 32 :=
    beNat_take h12 (show tsMs.toNat / 2 ^ 32 < 2 ^ 32 by omega)
  have hlo : getUint32 (videoPayload seq w h tsMs jpeg) 16 = tsMs.toNat % 2 ^ 32 := by
    rw [getUint32, h16, List.take_left' (length_beBytes 4 _), beNat_beBytes]
    norm_num
  rw [parseVideoFrame, if_neg hsize, hseq, hw, hh, hhi, hlo,
    show (videoPayload seq w h tsMs jpeg).drop VIDEO_SUBHEADER_SIZE = jpeg from
      videoPayload_drop20 seq w h tsMs jpeg]
  simp only
  rw [show tsMs.toNat / 2 ^ 32 * 2 ^ 32 + tsMs.toNat % 2 ^ 32 = tsMs.toNat by omega]

end MobileClient

/-! ## Main result -/

theorem flatMap_wire (ms : List TerminalMessage) :
    ms.flatMap TerminalMessage.wire =
      (ms.map TerminalMessage.toMessage).flatMap Message.wire := by
  rw [List.flatMap_map]
  congr 1
  funext m
  exact m.wire_eq

theorem noMessage_nil (cap : UInt32) : NoMessage cap [] := by
  intro m t _ he
  have hl := congrArg List.length he
  rw [List.length_append, Message.wire, length_buildMessage, kHeaderSize, List.length_nil] at hl
  omega

open PcClient in
/-- A reader with an empty buffer finds the messages in any deliveries of them.
-/
theorem scanChunks_messages {ms : List TerminalMessage}
    (hms : ∀ m ∈ ms, m.toMessage.payload.length ≤ 64 * 1024 * 1024) {cuts : List Bytes}
    (hcuts : cuts.flatten = ms.flatMap TerminalMessage.wire) :
    (sec1 kMaxMessageBytes).scanChunks (fun _ => false) [] cuts =
      ⟨ms.map TerminalMessage.toMessage, [], .starved⟩ := by
  have hcap : kMaxMessageBytes.toNat = 64 * 1024 * 1024 := rfl
  have hfits : ∀ m ∈ ms.map TerminalMessage.toMessage,
      m.payload.length ≤ kMaxMessageBytes.toNat := by
    intro m hm
    obtain ⟨t, ht, rfl⟩ := List.mem_map.mp hm
    rw [hcap]
    exact hms t ht
  have hd := messages_decomposition hfits (noMessage_nil kMaxMessageBytes)
  rw [List.append_nil, ← flatMap_wire, ← hcuts] at hd
  rw [Decoder.scanChunks_eq _ _ _ _ rfl, List.nil_append]
  exact hd

open PcClient in
/-- **Codec agreement.** Messages of at most 64 MiB, in any number and cut into
any deliveries: the PC client handles them in order, each once, aborts nothing
and keeps nothing; both clients recover every field of a video frame; and the
mobile client recovers type and payload of each message on its own. -/
theorem codec_agreement {Cert Img : Type} (Q : Qt Cert Img) (s : TcpClient Cert Img)
    (hrx : s.rx = []) (ms : List TerminalMessage)
    (hms : ∀ m ∈ ms, m.toMessage.payload.length ≤ 64 * 1024 * 1024) (cuts : List Bytes)
    (hcuts : cuts.flatten = ms.flatMap TerminalMessage.wire) :
    let s' := cuts.foldl (TcpClient.onReadyRead Q) s
    (TcpClient.handled s'.log = TcpClient.handled s.log ++
        ms.map (fun m => (m.toMessage.type, m.toMessage.payload)) ∧
      (∃ l, s'.log = s.log ++ l ∧ Effect.abort ∉ l) ∧ s'.rx = []) ∧
    (∀ (seq w h : UInt32) (tsMs : UInt64) (jpeg : Bytes),
      .video seq w h tsMs jpeg ∈ ms →
      (∀ t : TcpClient Cert Img, t.handleVideoFrame Q (videoPayload seq w h tsMs jpeg) =
        match Q.loadFromData jpeg with
        | none => t
        | some img => t.emit (.videoFrameReceived img seq w h tsMs)) ∧
      (tsMs.toNat < 2 ^ 53 → MobileClient.parseVideoFrame (videoPayload seq w h tsMs jpeg) =
        some ⟨seq.toNat, w.toNat, h.toNat, tsMs.toNat, jpeg⟩)) ∧
    ∀ m ∈ ms, ∃ hd, MobileClient.decodeHeader m.wire = some hd ∧
      hd.type = m.toMessage.type.toNat ∧
      MobileClient.framePayload m.wire hd = m.toMessage.payload := by
  intro s'
  have hscan : (sec1 kMaxMessageBytes).scanChunks (fun _ => false) s.rx cuts =
      ⟨ms.map TerminalMessage.toMessage, [], .starved⟩ := by
    rw [hrx]
    exact scanChunks_messages hms hcuts
  obtain ⟨hh, hrest⟩ := TcpClient.onReadyReads Q cuts s (by rw [hscan])
  rw [hscan] at hh hrest
  refine ⟨⟨?_, hh.unaborted, hrest⟩, ?_, ?_⟩
  · have hhandled := hh.handled
    rw [List.map_map] at hhandled
    exact hhandled
  · intro seq w h tsMs jpeg _
    refine ⟨fun t => TcpClient.handleVideoFrame_videoPayload Q t seq w h tsMs jpeg, ?_⟩
    intro hts
    rw [MobileClient.parseVideoFrame_videoPayload, MobileClient.toDouble_of_lt hts]
  · intro m hm
    have hlt : m.toMessage.payload.length < 2 ^ 32 := by
      have := hms m hm
      omega
    obtain ⟨hd, hp⟩ := MobileClient.decodeHeader_wire m.toMessage hlt
    rw [m.wire_eq]
    exact ⟨_, hd, rfl, hp⟩

/-- One video frame with a two-byte picture, delivered byte by byte. -/
def oneFrame : TerminalMessage := .video 7 640 480 1000 [0xFF, 0xD8]

open PcClient in
theorem codec_agreement_bytewise :
    let Q : Qt Unit Bytes := ⟨true, fun _ => [], some, fun _ => "", fun _ => [], fun _ => ("", false)⟩
    let s : TcpClient Unit Bytes := ⟨.fresh none, "", false, none, [], [], []⟩
    (List.foldl (TcpClient.onReadyRead Q) s (oneFrame.wire.map ([·]))).rx = [] := by
  intro Q s
  exact (codec_agreement Q s rfl [oneFrame] (by decide +kernel) (oneFrame.wire.map ([·]))
    (by decide +kernel)).1.2.2

end FaceTracking
