import FaceTracking.Theorems.CodecAgreement
import FaceTracking.Theorems.FreshFrames
import FaceTracking.Theorems.PcDownload
import FaceTracking.Theorems.SessionOrders

/-!
# From the camera to the PC client

The terminal's sessions write whole messages (`wired_of_play`), the PC client
does with any deliveries what the messages in them say (`onReadyReads_feed`),
and a part of a session's messages from the front shows the first of its frames
(`shown_feed`). So what the client shows was published, in that order.
-/

namespace FaceTracking

open Lib Proto

/-! ## Whole messages -/

namespace ClientSession

variable {κ ψ : Type} (W : World κ) {Sh : Shared ψ} {cfg : SessionConfig}

/-- What a session has sent is a sequence of messages. -/
def Wired (c : ClientSession κ ψ) : Prop := ∃ ms : List Message, sends c.trace = ms.map Message.wire

theorem Wired.of_trace {c c' : ClientSession κ ψ} (h : Wired c) (ht : c'.trace = c.trace) :
    Wired c' := by
  unfold Wired
  rw [ht]
  exact h

theorem Wired.emit {c : ClientSession κ ψ} (h : Wired c) {e : Event} (he : e.isSend = false) :
    Wired (c.emit e) := by
  obtain ⟨ms, hms⟩ := h
  have hnone : sends [e] = [] := by
    cases e with
    | send => cases he
    | _ => rfl
  refine ⟨ms, ?_⟩
  show sends (c.trace ++ [e]) = _
  rw [sends_append, hnone, List.append_nil, hms]

theorem Wired.send {c : ClientSession κ ψ} (h : Wired c) (m : Message) :
    Wired (send W c m.wire).2 := by
  obtain ⟨ms, hms⟩ := h
  refine ⟨ms ++ [m], ?_⟩
  show sends (c.trace ++ [.send m.wire _]) = _
  rw [sends_append, hms, List.map_append]
  rfl

theorem Wired.acts {c c' : ClientSession κ ψ} (h : Wired c) (ha : Acts W c c') : Wired c' := by
  induction ha with
  | refl => exact h
  | tail _ hact ih =>
    cases hact with
    | reply m hm => exact ih.send W m
    | shared x e he =>
      have hsend : e.isSend = false := by
        cases e with
        | send => cases he
        | _ => rfl
      exact (ih.of_trace rfl).emit hsend

theorem Wired.conclude {r : Bool × ClientSession κ ψ} (h : Wired r.2) : Wired (conclude W r) := by
  unfold ClientSession.conclude
  split
  · exact h
  · exact (h.of_trace rfl).emit rfl

theorem Wired.onMessage {c : ClientSession κ ψ} (h : Wired c) (m : Message) :
    Wired (onMessage W Sh cfg c m).1 := by
  have hhandle : ∀ c : ClientSession κ ψ, Wired c →
      Wired (handleMessage W Sh c m.type m.payload) :=
    fun c hc => (hc.emit (e := .message m.type m.payload) rfl).acts W
      (handleMessage_acts W Sh c m.type m.payload)
  unfold ClientSession.onMessage
  split
  · exact hhandle c h
  · split
    · exact h
    · split
      · exact hhandle _ ((h.of_trace rfl).emit rfl)
      · exact h

theorem Wired.sendFrameIfNew {c : ClientSession κ ψ} (h : Wired c) :
    Wired (sendFrameIfNew W Sh c).2 := by
  have hread : Wired ({ c with shared := (Sh.latest c.shared).2 }.emit .latest) :=
    (h.of_trace rfl).emit rfl
  unfold ClientSession.sendFrameIfNew
  simp only
  split
  · exact hread
  · rename_i f hf
    split
    · exact hread
    · split
      · exact hread
      · exact Wired.send W (hread.of_trace rfl) ⟨MsgType.VideoFrame.code, 0,
          videoPayload f.seq f.width.toUInt32 f.height.toUInt32 f.tsMs f.jpeg⟩

theorem Wired.start (net : κ) (shared : ψ) : Wired (start W cfg net shared) := by
  have hnone : ∀ k, Wired ({ create cfg net shared with net := k } : ClientSession κ ψ) :=
    fun k => ⟨[], rfl⟩
  unfold ClientSession.start
  simp only
  split
  · have hgreeted := (hnone (W.conn.handshake net).2).send W
      ⟨MsgType.Hello.code, 0, helloJson cfg⟩
    exact hgreeted.of_trace (by rfl)
  · exact ((hnone (W.conn.handshake net).2).emit (e := .close) rfl).of_trace (by rfl)

end ClientSession

/-- The VIDEO_FRAME message of a frame. -/
def videoMessage (f : Frame) : Message :=
  ⟨MsgType.VideoFrame.code, 0, videoPayload f.seq f.width.toUInt32 f.height.toUInt32 f.tsMs f.jpeg⟩

namespace VideoStream

open ClientSession

variable {κ ρ : Type} (cv : OpenCv) (W : World κ) (R : Shared ρ) (cfg : SessionConfig)

/-- So is what every session has sent. -/
def AllWired (s : VideoStream κ ρ) : Prop :=
  ∀ (i : Nat) (c : ClientSession κ (FrameHub × ρ)), s.sessions[i]? = some c → Wired c

/-- A step sends nothing but whole messages. -/
theorem AllWired.step {s s' : VideoStream κ ρ} {e : Turn κ} (h : AllWired s)
    (hstep : step cv W R cfg s e = some s') : AllWired s' := by
  intro i c' hc'
  cases e with
  | vision g =>
    cases hstep
    exact h i c' hc'
  | connect net =>
    cases hstep
    rcases Nat.lt_or_ge i s.sessions.length with hlt | hge
    · rw [List.getElem?_append_left hlt] at hc'
      exact h i c' hc'
    · rw [List.getElem?_append_right hge] at hc'
      rw [List.mem_singleton.mp (List.mem_of_getElem? hc')]
      exact .start W net (s.hub, s.rest)
  | message j m =>
    unfold VideoStream.step at hstep
    rcases act_cases W hstep hc' with ⟨hsame, -⟩ | ⟨-, c, hc, rfl⟩
    · exact h i c' hsame
    · have hload : Wired ({ c with shared := (s.hub, s.rest) } : ClientSession κ (FrameHub × ρ)) :=
        (h i c hc).of_trace rfl
      exact Wired.conclude W (r := (_, _)) (hload.onMessage W m)
  | tick j =>
    unfold VideoStream.step at hstep
    simp only at hstep
    split at hstep
    · cases hstep
    · split at hstep
      · rcases act_cases W hstep hc' with ⟨hsame, -⟩ | ⟨-, c, hc, rfl⟩
        · exact h i c' hsame
        · have hload : Wired
              ({ c with shared := (s.hub, s.rest) } : ClientSession κ (FrameHub × ρ)) :=
            (h i c hc).of_trace rfl
          exact (hload.sendFrameIfNew W).conclude W
      · cases hstep

/-- In a run every session has sent whole messages. -/
theorem wired_of_play {vision : VisionThread} {rest : ρ} {es : List (Turn κ)}
    {s : VideoStream κ ρ} (hplay : play (step cv W R cfg) (initial vision rest) es = some s) :
    AllWired s :=
  invariant (step cv W R cfg) (P := fun _ _ => True)
    (fun _ _ _ h _ hstep => h.step cv W R cfg hstep) (fun _ _ hc => by cases hc)
    (.of_forall _ (fun _ _ => trivial) _ _) hplay

/-- What a session has sent is whole messages, and the frames among them are
published ones of rising numbers. -/
theorem messages_of_play {vision : VisionThread} {rest : ρ} (hseq : vision.seq = 0)
    {es : List (Turn κ)} {s : VideoStream κ ρ}
    (hplay : play (step cv W R cfg) (initial vision rest) es = some s)
    (hlen : (outputs (step cv W R cfg) (published cv) (initial vision rest) es).length < 2 ^ 32 - 1)
    {i : Nat} {c : ClientSession κ (FrameHub × ρ)} (hc : s.sessions[i]? = some c) :
    ∃ (ms : List Message) (fs : List Frame), sends c.trace = ms.map Message.wire ∧
      ms.filter (fun m => isVideo m.wire) = fs.map videoMessage ∧
      (∀ f ∈ fs, f ∈ outputs (step cv W R cfg) (published cv) (initial vision rest) es ∧
        ReadAt cv W R cfg (initial vision rest) es i f) ∧
      fs.Pairwise fun f g => f.seq < g.seq := by
  obtain ⟨fs, hfs, hread⟩ := streamed_of_play cv W R cfg hseq hplay hlen hc
  obtain ⟨ms, hms⟩ := wired_of_play cv W R cfg hplay i c hc
  refine ⟨ms, fs, hms, Message.wire_injective.list_map ?_, ?_, ?_⟩
  · have hsent : (sends c.trace).filter isVideo = fs.map frameMessage := hfs.sent
    rw [hms, List.filter_map] at hsent
    rw [List.map_map]
    exact hsent
  · exact fun f hf => ⟨hfs.sublist.mem hf, hread f hf⟩
  · have hfresh := fresh_of_play cv W R cfg hseq hplay
    exact (hfresh.numbered.pairwise (by omega)).sublist hfs.sublist

/-- The frames in the first messages are the first frames. -/
theorem frames_take {ms : List Message} {fs : List Frame}
    (hfs : ms.filter (fun m => isVideo m.wire) = fs.map videoMessage) (k : Nat) :
    ∃ j, (ms.take k).filter (fun m => isVideo m.wire) = (fs.take j).map videoMessage := by
  have hpre := (List.take_prefix k ms).filter fun m => isVideo m.wire
  rw [hfs] at hpre
  exact ⟨_, (List.prefix_iff_eq_take.mp hpre).trans (List.map_take).symm⟩

end VideoStream

/-- In a part from the front of messages nothing is rejected. -/
theorem Proto.starved_of_part {cap : UInt32} {ms : List Message}
    (hms : ∀ m ∈ ms, m.payload.length ≤ cap.toNat) {b : Bytes}
    (hb : b <+: ms.flatMap Message.wire) : (messages cap b).ending = .starved := by
  obtain ⟨c, hc⟩ := hb
  have hwhole := messages_decomposition hms (noMessage_nil cap)
  rw [List.append_nil, ← hc] at hwhole
  have hend : (messages cap (b ++ c)).ending = .starved := by
    have hnil : parse cap [] ≠ .bad := by
      rw [show parse cap [] = .more from (sec1 cap).step_nil]
      exact nofun
    rw [hwhole, if_neg hnil]
  by_contra hne
  unfold messages at hend hne
  rw [(sec1 cap).scan_append_of_ended _ _ c hne] at hend
  exact hne hend

/-! ## The client's side -/

namespace PcClient.TcpClient

variable {Cert Img : Type} (Q : Qt Cert Img)

/-- The receive buffer is nothing to the message handler. -/
theorem handleMessage_rx (s : TcpClient Cert Img) (r : Bytes) (type : UInt16) (payload : Bytes) :
    handleMessage Q { s with rx := r } type payload =
      { handleMessage Q s type payload with rx := r } := by
  unfold handleMessage
  simp only
  split
  · unfold handleVideoFrame
    simp only
    split
    · rfl
    · split <;> rfl
  · rfl
  · unfold handleFileData
    simp only
    split
    · rfl
    · split
      · rfl
      · split
        · rfl
        · have hdownloads : ({ s with rx := r }.emit (.handled type payload)).downloads =
              (s.emit (.handled type payload)).downloads := rfl
          rw [hdownloads]
          split <;> rfl
  · rfl
  · rfl

theorem feed_rx (ms : List Message) (s : TcpClient Cert Img) (r : Bytes) :
    feed Q { s with rx := r } ms = { feed Q s ms with rx := r } := by
  induction ms generalizing s with
  | nil => rfl
  | cons m ms ih =>
    show feed Q (handleMessage Q { s with rx := r } m.type m.payload) ms = _
    rw [handleMessage_rx, ih]
    rfl

theorem feed_sock (ms : List Message) (s : TcpClient Cert Img) : (feed Q s ms).sock = s.sock := by
  induction ms generalizing s with
  | nil => rfl
  | cons m ms ih =>
    exact (ih (handleMessage Q s m.type m.payload)).trans
      (handleMessage_delivered Q s m.type m.payload).sock

theorem handleAll_feed (ms : List Message) (s : TcpClient Cert Img) :
    handleAll (onMessage Q) s ms = (feed Q s ms, true) := by
  induction ms generalizing s with
  | nil => rfl
  | cons m ms ih =>
    unfold handleAll
    rw [if_pos (show (onMessage Q s m).2 = true from rfl), ih]
    rfl

/-- A delivery after which the client waits for more feeds it the whole
messages. -/
theorem onReadyRead_feed (s : TcpClient Cert Img) (data : Bytes)
    (h : (messages kMaxMessageBytes (s.rx ++ data)).ending = .starved) :
    onReadyRead Q s data =
      { feed Q s (messages kMaxMessageBytes (s.rx ++ data)).items with
        rx := (messages kMaxMessageBytes (s.rx ++ data)).rest } := by
  generalize hsc : messages kMaxMessageBytes (s.rx ++ data) = sc at h
  have hloop := dispatchLoop_eq kMaxMessageBytes (onMessage Q) onReject (s.rx ++ data)
    ((s.rx ++ data).length + 1) 0 { s with rx := s.rx ++ data } (Nat.zero_le _) (by omega)
  rw [List.drop_zero, hsc, dispatched, handleAll_feed, if_pos rfl, if_neg (by rw [h]; simp),
    feed_rx] at hloop
  have hdrop : (s.rx ++ data).drop ((s.rx ++ data).length - sc.rest.length) = sc.rest := by
    obtain ⟨pre, hpre⟩ : sc.rest <:+ s.rx ++ data :=
      hsc ▸ (sec1 kMaxMessageBytes).rest_suffix (fun _ => false) (s.rx ++ data)
    rw [← hpre, List.length_append, Nat.add_sub_cancel]
    exact List.drop_left
  unfold onReadyRead processBuffer
  simp only
  rw [show (fun (s : TcpClient Cert Img) (m : Message) =>
    (handleMessage Q s m.type m.payload, true)) = onMessage Q from rfl, hloop]
  simp only [hdrop]

/-- **Deliveries.** However the bytes are cut, the client does what the messages
in them say. -/
theorem onReadyReads_feed (cuts : List Bytes) (s : TcpClient Cert Img)
    (hmore : parse kMaxMessageBytes s.rx = .more)
    (h : (messages kMaxMessageBytes (s.rx ++ cuts.flatten)).ending = .starved) :
    cuts.foldl (onReadyRead Q) s =
      { feed Q s (messages kMaxMessageBytes (s.rx ++ cuts.flatten)).items with
        rx := (messages kMaxMessageBytes (s.rx ++ cuts.flatten)).rest } := by
  induction cuts generalizing s with
  | nil =>
    have hscan : messages kMaxMessageBytes s.rx = ⟨[], s.rx, .starved⟩ :=
      (sec1 kMaxMessageBytes).scan_more _ hmore
    rw [List.flatten_nil, List.append_nil, hscan]
    rfl
  | cons c cs ih =>
    rw [List.flatten_cons, ← List.append_assoc] at h ⊢
    have hfirst : (messages kMaxMessageBytes (s.rx ++ c)).ending = .starved := by
      by_contra hne
      unfold messages at h hne
      rw [(sec1 kMaxMessageBytes).scan_append_of_ended _ _ cs.flatten hne] at h
      exact hne h
    have hsplit : messages kMaxMessageBytes (s.rx ++ c ++ cs.flatten) =
        (messages kMaxMessageBytes
          ((messages kMaxMessageBytes (s.rx ++ c)).rest ++ cs.flatten)).prepend
            (messages kMaxMessageBytes (s.rx ++ c)).items :=
      (sec1 kMaxMessageBytes).scan_append _ _ cs.flatten hfirst
    rw [hsplit] at h ⊢
    have hrest : parse kMaxMessageBytes (messages kMaxMessageBytes (s.rx ++ c)).rest = .more :=
      (sec1 kMaxMessageBytes).step_rest_of_starved _ _ hfirst
    rw [List.foldl_cons, onReadyRead_feed Q s c hfirst,
      ih { feed Q s (messages kMaxMessageBytes (s.rx ++ c)).items with
        rx := (messages kMaxMessageBytes (s.rx ++ c)).rest } hrest h, feed_rx]
    simp only [Scan.prepend_items, Scan.prepend_rest, feed_append]

/-! ### Pictures -/

/-- The frames handed to the window. -/
def shown (l : List (Effect Img)) : List (Effect Img) :=
  l.filter fun | .videoFrameReceived _ _ _ _ _ => true | _ => false

/-- A frame as the window gets it, if it is an image. -/
def videoSignal (f : Frame) : Option (Effect Img) :=
  (Q.loadFromData f.jpeg).map fun img =>
    .videoFrameReceived img f.seq f.width.toUInt32 f.height.toUInt32 f.tsMs

theorem shown_append (l l' : List (Effect Img)) : shown (l ++ l') = shown l ++ shown l' :=
  List.filter_append l l'

/-- A message of another type shows no frame. -/
theorem shown_other (s : TcpClient Cert Img) {m : Message} (hm : isVideo m.wire = false) :
    shown (handleMessage Q s m.type m.payload).log = shown s.log := by
  have hemit : ∀ (t : TcpClient Cert Img) (e : Effect Img), shown [e] = [] →
      shown (t.emit e).log = shown t.log := by
    intro t e he
    show shown (t.log ++ [e]) = _
    rw [shown_append, he, List.append_nil]
  have hhandled : shown (s.emit (.handled m.type m.payload)).log = shown s.log := hemit _ _ rfl
  unfold handleMessage
  simp only
  split
  · rename_i hcode
    rw [isVideo_wire, beq_eq_false_iff_ne] at hm
    exact absurd (MsgType.code_of_ofCode hcode).symm hm
  · exact (hemit _ _ rfl).trans hhandled
  · unfold handleFileData
    simp only
    split
    · exact hhandled
    · split
      · exact hhandled
      · split
        · exact (hemit _ _ rfl).trans hhandled
        · split
          · exact (hemit _ _ rfl).trans hhandled
          · exact hhandled
  · exact (hemit _ _ rfl).trans hhandled
  · exact hhandled

theorem shown_video (s : TcpClient Cert Img) (f : Frame) :
    shown (handleMessage Q s (videoMessage f).type (videoMessage f).payload).log =
      shown s.log ++ (videoSignal Q f).toList := by
  show shown (handleVideoFrame Q (s.emit (.handled _ _)) (videoPayload _ _ _ _ _)).log = _
  rw [handleVideoFrame_videoPayload]
  unfold videoSignal
  cases Q.loadFromData f.jpeg with
  | none =>
    show shown (s.log ++ [_]) = _
    rw [shown_append]
    rfl
  | some img =>
    show shown (s.log ++ [_] ++ [_]) = _
    rw [shown_append, shown_append, List.append_assoc]
    rfl

/-- **Frames.** Of a sequence of messages, the client hands over the frames. -/
theorem shown_feed {ms : List Message} {fs : List Frame}
    (hfs : ms.filter (fun m => isVideo m.wire) = fs.map videoMessage) (s : TcpClient Cert Img) :
    shown (feed Q s ms).log = shown s.log ++ fs.filterMap (videoSignal Q) := by
  induction ms generalizing fs s with
  | nil =>
    have hnone : fs = [] := List.map_eq_nil_iff.mp hfs.symm
    rw [hnone, List.filterMap_nil, List.append_nil]
    rfl
  | cons m ms ih =>
    show shown (feed Q (handleMessage Q s m.type m.payload) ms).log = _
    cases hm : isVideo m.wire with
    | false =>
      rw [List.filter_cons_of_neg (by simp [hm])] at hfs
      rw [ih hfs, shown_other Q s hm]
    | true =>
      rw [List.filter_cons, if_pos hm] at hfs
      cases fs with
      | nil => cases hfs
      | cons f fs =>
        obtain ⟨rfl, hrest⟩ := List.cons.inj hfs
        rw [ih hrest, shown_video, List.append_assoc, List.filterMap_cons]
        cases videoSignal Q f with
        | none => rfl
        | some e => rfl

end PcClient.TcpClient

/-! ## Main result -/

namespace VideoStream

open ClientSession PcClient PcClient.TcpClient

variable {κ ρ : Type} (cv : OpenCv) (W : World κ) (R : Shared ρ) (cfg : SessionConfig)
variable {Cert Img : Type} (Q : Qt Cert Img)

/-- **Live view.** Publishing and ticking in any order, with sessions that start
at any time, and a client that has received a part of what its session sent, in
any deliveries: the frames it has handed to its window are, up to those that are
no images, published frames of rising numbers, each the latest one at a tick of
the session; every frame of which the whole message has come in is among them,
and the client has rejected nothing. This holds up to 2^32 - 1 published frames,
where the terminal's counter starts again, and for messages within the client's
cap. -/
theorem live_view (jpegQuality : Int32) (autoSnapshot : Bool) (autoSnapshotIntervalMs : Int32)
    (now : UInt64) (rest : ρ) (es : List (Turn κ)) (s : VideoStream κ ρ) :
    let s₀ : VideoStream κ ρ :=
      initial (.create jpegQuality autoSnapshot autoSnapshotIntervalMs now) rest
    let ps := outputs (step cv W R cfg) (published cv) s₀ es
    play (step cv W R cfg) s₀ es = some s → ps.length < 2 ^ 32 - 1 →
    ∀ (i : Nat) (c : ClientSession κ (FrameHub × ρ)), s.sessions[i]? = some c →
    (∀ b ∈ sends c.trace, b.length ≤ kHeaderSize + kMaxMessageBytes.toNat) →
    ∀ (v : TcpClient Cert Img), v.rx = [] → ∀ cuts : List Bytes,
    cuts.flatten <+: (sends c.trace).flatten →
      let v' := cuts.foldl (onReadyRead Q) v
      ∃ fs : List Frame, shown v'.log = shown v.log ++ fs.filterMap (videoSignal Q) ∧
        (∀ f ∈ fs, f ∈ ps ∧ ReadAt cv W R cfg s₀ es i f) ∧
        fs.Pairwise (fun f g => f.seq < g.seq) ∧
        (∀ bs, bs <+: sends c.trace → bs.flatten <+: cuts.flatten →
          bs.filter isVideo <+: fs.map frameMessage) ∧
        v'.sock = v.sock := by
  intro s₀ ps hplay hlen i c hc hsize v hrx cuts hcuts v'
  obtain ⟨ms, fs, hms, hframes, hread, hrising⟩ := messages_of_play cv W R cfg rfl hplay hlen hc
  have hfits : ∀ m ∈ ms, m.payload.length ≤ kMaxMessageBytes.toNat := by
    intro m hm
    have hle := hsize m.wire (hms ▸ List.mem_map_of_mem hm)
    rw [Message.wire, length_buildMessage] at hle
    omega
  have hpart : cuts.flatten <+: ms.flatMap Message.wire := by
    rwa [hms, ← List.flatMap_def] at hcuts
  obtain ⟨k, -, hitems, hwhole⟩ := messages_of_prefix hfits hpart
  have hclient : v' = { feed Q v (ms.take k) with
      rx := (messages kMaxMessageBytes cuts.flatten).rest } := by
    have hnil : parse kMaxMessageBytes v.rx = .more := by
      rw [hrx]
      exact (sec1 kMaxMessageBytes).step_nil
    have hfeed := onReadyReads_feed Q cuts v hnil
    rw [hrx, List.nil_append, hitems] at hfeed
    exact hfeed (starved_of_part hfits hpart)
  obtain ⟨j, hj⟩ := frames_take hframes k
  refine ⟨fs.take j, ?_, ?_, ?_, ?_, ?_⟩
  · rw [hclient]
    exact shown_feed Q hj v
  · exact fun f hf => hread f (List.mem_of_mem_take hf)
  · exact hrising.sublist (List.take_sublist j fs)
  · intro bs hbs hin
    rw [hms] at hbs
    have hmessages : bs = (ms.take bs.length).map Message.wire :=
      (List.prefix_iff_eq_take.mp hbs).trans (List.map_take).symm
    have hn : bs.length ≤ k := by
      refine hwhole bs.length ?_ ?_
      · have hle := hbs.length_le
        rwa [List.length_map] at hle
      · rwa [List.flatMap_def, ← hmessages]
    have hpre : (ms.take bs.length).filter (fun m => isVideo m.wire) <+:
        (ms.take k).filter fun m => isVideo m.wire :=
      (List.take_prefix_take_left hn).filter _
    rw [hj] at hpre
    rw [hmessages, List.filter_map]
    have hmap := hpre.map Message.wire
    rw [List.map_map] at hmap
    exact hmap
  · rw [hclient]
    exact feed_sock Q _ v

/-- A Qt to which every picture is its bytes. -/
def rawQt : Qt Unit Bytes := ⟨true, fun _ => [], some, fun _ => "", fun _ => [], fun _ => ("", false)⟩

/-- A client that has just connected. -/
def viewer : TcpClient Unit Bytes := ⟨.fresh none, "", false, none, [], [], []⟩

/-- Pictures that nothing is drawn on. -/
def rawCv : OpenCv := ⟨fun c _ => c.image, fun image _ => image⟩

def openWorld : World (Socket × List PollResult) := World.of (TcpConn RawByteStream) (schedule 0)

/-- Three frames, of which a session sends the first and the last. -/
def watchedTurns : List (Turn (Socket × List PollResult)) :=
  [.vision (picture 1), .connect (⟨[], .replicate 9 (.accept 500), [], false⟩, []), .tick 0,
    .vision (picture 2), .vision (picture 3), .tick 0]

def watchedSession : Option (ClientSession (Socket × List PollResult) (FrameHub × Unit)) :=
  (play (step rawCv openWorld Shared.empty ⟨15, []⟩) (initial (.create 80 false 0 0) ())
    watchedTurns).bind fun s => s.sessions[0]?

theorem watchedSession_isSome : watchedSession.isSome = true := by
  decide +kernel

theorem watchedSession_small : ∀ c ∈ watchedSession, ∀ b ∈ sends c.trace, b.length ≤ 100 := by
  decide +kernel

/-- All but the last byte has come in. -/
theorem live_view_cut : ∃ c, watchedSession = some c ∧ ∃ fs : List Frame,
    shown (onReadyRead rawQt viewer (sends c.trace).flatten.dropLast).log =
      fs.filterMap (videoSignal rawQt) ∧ fs.Pairwise fun f g => f.seq < g.seq := by
  obtain ⟨c, hrun⟩ := Option.isSome_iff_exists.mp watchedSession_isSome
  have hrun' := hrun
  unfold watchedSession at hrun'
  obtain ⟨s, hplay, hc⟩ := Option.bind_eq_some_iff.mp hrun'
  have hsize : ∀ b ∈ sends c.trace, b.length ≤ kHeaderSize + kMaxMessageBytes.toNat :=
    fun b hb => (watchedSession_small c hrun b hb).trans (by decide)
  obtain ⟨fs, hshown, -, hrising, -⟩ := live_view rawCv openWorld Shared.empty ⟨15, []⟩ rawQt 80
    false 0 0 () watchedTurns s hplay (by decide +kernel) 0 c hc hsize viewer rfl
    [(sends c.trace).flatten.dropLast]
    (by rw [List.flatten_singleton]; exact List.dropLast_prefix _)
  exact ⟨c, hrun, fs, hshown, hrising⟩

end VideoStream

end FaceTracking
