import FaceTracking.App.VisionThread
import FaceTracking.Lib.Runs
import FaceTracking.Net.ClientSession

/-!
# The video stream

One vision thread publishes frames in the hub, and any number of sessions read
the latest one at rates of their own. `VideoStream` is the machine of them all:
a session may connect at any time, it dispatches messages, and once it is
authenticated its frame timer fires. A session reads the hub in one step under
its mutex; what it does with the frame then is its own affair, so a tick is one
step.
-/

namespace FaceTracking

open Lib Proto

/-! ## Video messages -/

/-- What a VIDEO_FRAME message carries. -/
structure VideoFrame where
  seq : UInt32
  w : UInt32
  h : UInt32
  tsMs : UInt64
  jpeg : Bytes
deriving DecidableEq

/-- A whole message read as video: the header announces a video frame of the
length that follows, and behind it stand the sub-header and the JPEG. -/
def decodeVideo (msg : Bytes) : Option VideoFrame :=
  match decodeHeader msg with
  | none => none
  | some hd =>
    let p := msg.drop kHeaderSize
    if hd.type = MsgType.VideoFrame.code ∧ hd.length = UInt32.ofNat p.length ∧
        kVideoSubheaderSize ≤ p.length then
      some ⟨getU32 p, getU32 (p.drop 4), getU32 (p.drop 8), getU64 (p.drop 12),
        p.drop kVideoSubheaderSize⟩
    else none

/-- A frame as the clients are to see it. -/
def Frame.video (f : Frame) : VideoFrame :=
  ⟨f.seq, f.width.toUInt32, f.height.toUInt32, f.tsMs, f.jpeg⟩

theorem decodeHeader_message (type : UInt16) (payload : Bytes) (flags : UInt16) :
    decodeHeader (buildMessage type payload flags) =
      some ⟨kMagic, type, flags, UInt32.ofNat payload.length⟩ := by
  have h := decodeHeader_buildMessage type payload flags []
  rwa [List.append_nil] at h

/-- A frame is read back from its message. -/
theorem decodeVideo_frameMessage (f : Frame) :
    decodeVideo (ClientSession.frameMessage f) = some f.video := by
  unfold decodeVideo ClientSession.frameMessage buildVideoFrame
  rw [decodeHeader_message]
  have hseq : getU32 (videoPayload f.seq f.width.toUInt32 f.height.toUInt32 f.tsMs f.jpeg) =
      f.seq := by
    rw [videoPayload_eq, getU32_beBytes]
  simp only [buildMessage_drop12]
  rw [if_pos ⟨trivial, trivial, by rw [length_videoPayload]; omega⟩, hseq, videoPayload_drop4,
    getU32_beBytes, videoPayload_drop8, getU32_beBytes, videoPayload_drop12, getU64_beBytes,
    videoPayload_drop20]
  rfl

/-- Is a message announced as a video frame? -/
def isVideo (msg : Bytes) : Bool :=
  match decodeHeader msg with
  | none => false
  | some hd => hd.type == MsgType.VideoFrame.code

/-- The VIDEO_FRAME messages among what a session sent. -/
def videoFrames (t : List Event) : List Bytes := (sends t).filter isVideo

@[simp] theorem videoFrames_append (t t' : List Event) :
    videoFrames (t ++ t') = videoFrames t ++ videoFrames t' := by
  simp [videoFrames]

theorem isVideo_wire (m : Message) : isVideo m.wire = (m.type == MsgType.VideoFrame.code) := by
  unfold isVideo Message.wire
  rw [decodeHeader_message]

theorem isVideo_frameMessage (f : Frame) : isVideo (ClientSession.frameMessage f) = true :=
  isVideo_wire ⟨MsgType.VideoFrame.code, 0, _⟩

/-! ## What a session does to its stream -/

namespace ClientSession

variable {κ ψ : Type} (W : World κ) (Sh : Shared ψ) (cfg : SessionConfig)

/-- Nothing is added to the stream. -/
structure Silent (c c' : ClientSession κ ψ) : Prop where
  frames : videoFrames c'.trace = videoFrames c.trace
  last : c'.lastSentSeq = c.lastSentSeq

theorem Silent.refl (c : ClientSession κ ψ) : Silent c c := ⟨rfl, rfl⟩

theorem Silent.trans {c₁ c₂ c₃ : ClientSession κ ψ} (h : Silent c₁ c₂) (h' : Silent c₂ c₃) :
    Silent c₁ c₃ :=
  ⟨h'.frames.trans h.frames, h'.last.trans h.last⟩

/-- An event that is no send sends nothing. -/
theorem Silent.emit (c : ClientSession κ ψ) {e : Event} (he : e.isSend = false) :
    Silent c (c.emit e) := by
  refine ⟨?_, rfl⟩
  have hnone : videoFrames [e] = [] := by
    cases e <;> first | rfl | cases he
  show videoFrames (c.trace ++ [e]) = _
  rw [videoFrames_append, hnone, List.append_nil]

theorem Silent.act {c c' : ClientSession κ ψ} (h : Act W c c') : Silent c c' := by
  cases h with
  | reply m hm =>
    refine ⟨?_, rfl⟩
    have hnone : videoFrames [.send m.wire (W.conn.send c.net m.wire).1] = [] := by
      show [m.wire].filter isVideo = []
      rw [List.filter_singleton, isVideo_wire, beq_false_of_ne hm]
      rfl
    show videoFrames (c.trace ++ [_]) = _
    rw [videoFrames_append, hnone, List.append_nil]
  | shared x e he =>
    have hsend : e.isSend = false := by
      cases e <;> first | rfl | cases he
    exact ⟨(Silent.emit c hsend).frames, rfl⟩

theorem Silent.acts {c c' : ClientSession κ ψ} (h : Acts W c c') : Silent c c' := by
  induction h with
  | refl => exact .refl c
  | tail _ hact ih => exact ih.trans (.act W hact)

theorem Silent.conclude (r : Bool × ClientSession κ ψ) : Silent r.2 (conclude W r) := by
  unfold ClientSession.conclude
  split
  · exact .refl _
  · exact ⟨(Silent.emit r.2 (e := .close) rfl).frames, rfl⟩

/-- Dispatching a message sends no frame. -/
theorem Silent.onMessage (c : ClientSession κ ψ) (m : Message) :
    Silent c (onMessage W Sh cfg c m).1 := by
  have hhandle : ∀ c : ClientSession κ ψ, Silent c (handleMessage W Sh c m.type m.payload) :=
    fun c => (Silent.emit c (e := .message m.type m.payload) rfl).trans
      (.acts W (handleMessage_acts W Sh c m.type m.payload))
  unfold ClientSession.onMessage
  split
  · exact hhandle c
  · split
    · exact .refl c
    · split
      · have hgate : Silent c ({ c with authed := true }.emit .authenticated) :=
          ⟨(Silent.emit c (e := .authenticated) rfl).frames, rfl⟩
        exact hgate.trans (hhandle _)
      · exact .refl c

/-- A session that has just been started has sent no frame. -/
theorem start_stream (net : κ) (shared : ψ) :
    videoFrames (start W cfg net shared).trace = [] ∧
      (start W cfg net shared).lastSentSeq = 0xFFFFFFFF := by
  unfold start
  simp only
  split
  · have h := Silent.acts W (sendJson_acts W
      { create cfg net shared with net := (W.conn.handshake net).2 } .Hello (helloJson cfg)
      (by decide))
    exact ⟨h.frames, h.last⟩
  · exact ⟨rfl, rfl⟩

/-- **The frame timer.** A frame is sent unless there is none, it is empty or it
is the last one. -/
theorem sendFrameIfNew_cases (c : ClientSession κ ψ) :
    (∃ f, (Sh.latest c.shared).1 = some f ∧ f.jpeg ≠ [] ∧ f.seq ≠ c.lastSentSeq ∧
      videoFrames (sendFrameIfNew W Sh c).2.trace = videoFrames c.trace ++ [frameMessage f] ∧
      (sendFrameIfNew W Sh c).2.lastSentSeq = f.seq) ∨
    (Silent c (sendFrameIfNew W Sh c).2 ∧
      ∀ f, (Sh.latest c.shared).1 = some f → f.jpeg = [] ∨ f.seq = c.lastSentSeq) := by
  have hread : Silent c ({ c with shared := (Sh.latest c.shared).2 }.emit .latest) :=
    ⟨(Silent.emit c (e := .latest) rfl).frames, rfl⟩
  unfold sendFrameIfNew
  simp only
  cases hf : (Sh.latest c.shared).1 with
  | none => exact .inr ⟨hread, nofun⟩
  | some f =>
    simp only
    split
    · rename_i hempty
      refine .inr ⟨hread, fun g hg => ?_⟩
      cases hg
      exact .inl (List.isEmpty_iff.mp hempty)
    · rename_i hempty
      split
      · rename_i hsame
        refine .inr ⟨hread, fun g hg => ?_⟩
        cases hg
        exact .inr hsame
      · rename_i hnew
        refine .inl ⟨f, rfl, fun h => hempty (by rw [h]; rfl), hnew, ?_, rfl⟩
        have hone : ∀ ok, videoFrames [.send (frameMessage f) ok] = [frameMessage f] := by
          intro ok
          show [frameMessage f].filter isVideo = _
          rw [List.filter_singleton, isVideo_frameMessage]
          rfl
        show videoFrames (c.trace ++ [.latest] ++ [_]) = _
        rw [videoFrames_append, hone]
        exact congrArg (· ++ _) hread.frames

end ClientSession

/-! ## The machine -/

/-- What sessions share, with the frame hub in it. -/
def Shared.withHub {ρ : Type} (R : Shared ρ) : Shared (FrameHub × ρ) where
  latest x := (x.1.latest, x)
  push x c := (x.1, R.push x.2 c)
  list x := ((R.list x.2).1, x.1, (R.list x.2).2)
  read x name := ((R.read x.2 name).1, x.1, (R.read x.2 name).2)
  remove x name := ((R.remove x.2 name).1, x.1, (R.remove x.2 name).2)
  snapshot x image := (x.1, R.snapshot x.2 image)

structure VideoStream (κ ρ : Type) where
  vision : VisionThread
  hub : FrameHub
  /-- The command queue and the capture directory. -/
  rest : ρ
  sessions : List (ClientSession κ (FrameHub × ρ))

namespace VideoStream

inductive Turn (κ : Type) where
  /-- An iteration of the vision thread. -/
  | vision (g : Grab)
  /-- A session starts on a connection. -/
  | connect (net : κ)
  /-- A session dispatches a message. -/
  | message (i : Nat) (m : Message)
  /-- The frame timer of an authenticated session fires. -/
  | tick (i : Nat)

variable {κ ρ : Type} (cv : OpenCv) (W : World κ) (R : Shared ρ) (cfg : SessionConfig)

def initial (vision : VisionThread) (rest : ρ) : VideoStream κ ρ := ⟨vision, none, rest, []⟩

/-- A session that has not ended acts on what is shared. -/
def act (s : VideoStream κ ρ) (i : Nat)
    (f : ClientSession κ (FrameHub × ρ) → Bool × ClientSession κ (FrameHub × ρ)) :
    Option (VideoStream κ ρ) :=
  match s.sessions[i]? with
  | none => none
  | some c =>
    if c.finished then none
    else
      let c := ClientSession.conclude W (f { c with shared := (s.hub, s.rest) })
      some { s with rest := c.shared.2, sessions := s.sessions.set i c }

def step (s : VideoStream κ ρ) : Turn κ → Option (VideoStream κ ρ)
  | .vision g =>
    let r := s.vision.iterate cv g
    some { s with
      vision := r.1
      hub := (VisionThread.publications r.2).foldl FrameHub.publish s.hub }
  | .connect net =>
    some { s with sessions := s.sessions ++ [ClientSession.start W cfg net (s.hub, s.rest)] }
  | .message i m =>
    s.act W i fun c =>
      let r := ClientSession.onMessage W R.withHub cfg c m
      (r.2, r.1)
  | .tick i =>
    match s.sessions[i]? with
    | none => none
    | some c => if c.authed then s.act W i (ClientSession.sendFrameIfNew W R.withHub) else none

/-- The frames published by a turn. -/
def published (s : VideoStream κ ρ) : Turn κ → List Frame
  | .vision g => VisionThread.publications (s.vision.iterate cv g).2
  | _ => []

/-! ## What one step does -/

/-- A session's step is that of session `i`, or nothing has happened to this
one. -/
theorem act_cases {s s' : VideoStream κ ρ} {i j : Nat} {c' : ClientSession κ (FrameHub × ρ)}
    {f : ClientSession κ (FrameHub × ρ) → Bool × ClientSession κ (FrameHub × ρ)}
    (h : s.act W j f = some s') (hc' : s'.sessions[i]? = some c') :
    s.sessions[i]? = some c' ∧ j ≠ i ∨ j = i ∧ ∃ c, s.sessions[i]? = some c ∧
      c' = ClientSession.conclude W (f { c with shared := (s.hub, s.rest) }) := by
  unfold act at h
  cases hc : s.sessions[j]? with
  | none =>
    rw [hc] at h
    cases h
  | some c =>
    simp only [hc] at h
    split at h
    · cases h
    · cases h
      by_cases hji : j = i
      · subst hji
        rw [List.getElem?_set_self (List.getElem?_eq_some_iff.mp hc).1, Option.some.injEq] at hc'
        exact .inr ⟨rfl, c, hc, hc'.symm⟩
      · rw [List.getElem?_set_ne hji] at hc'
        exact .inl ⟨hc', hji⟩

/-- A step leaves a session's stream alone, and if it is a tick there is a
reason for that; or it is a tick that sends the latest frame; or it starts the
session. -/
inductive StreamStep (s : VideoStream κ ρ) (e : Turn κ) (i : Nat)
    (c' : ClientSession κ (FrameHub × ρ)) : Prop where
  | silent (c : ClientSession κ (FrameHub × ρ)) (hc : s.sessions[i]? = some c)
      (h : ClientSession.Silent c c')
      (hwhy : e = .tick i → ∀ f, s.hub = some f → f.jpeg = [] ∨ f.seq = c.lastSentSeq)
  | sent (c : ClientSession κ (FrameHub × ρ)) (f : Frame) (hc : s.sessions[i]? = some c)
      (he : e = .tick i) (hf : s.hub = some f) (hjpeg : f.jpeg ≠ []) (hnew : f.seq ≠ c.lastSentSeq)
      (hsent : videoFrames c'.trace = videoFrames c.trace ++ [ClientSession.frameMessage f])
      (hcounter : c'.lastSentSeq = f.seq)
  | started (hnew : s.sessions[i]? = none) (hnone : videoFrames c'.trace = [])
      (hmarker : c'.lastSentSeq = 0xFFFFFFFF)

/-- A step leaves a session silent, sends it the frame in the hub, or starts it.
-/
theorem streamStep {s s' : VideoStream κ ρ} {e : Turn κ} {i : Nat}
    {c' : ClientSession κ (FrameHub × ρ)} (hstep : step cv W R cfg s e = some s')
    (hc' : s'.sessions[i]? = some c') : StreamStep s e i c' := by
  cases e with
  | vision g =>
    unfold step at hstep
    cases hstep
    exact .silent c' hc' (.refl c') nofun
  | connect net =>
    unfold step at hstep
    cases hstep
    rcases Nat.lt_or_ge i s.sessions.length with hlt | hge
    · rw [List.getElem?_append_left hlt] at hc'
      exact .silent c' hc' (.refl c') nofun
    · rw [List.getElem?_append_right hge] at hc'
      obtain rfl := List.mem_singleton.mp (List.mem_of_getElem? hc')
      obtain ⟨hnone, hmarker⟩ := ClientSession.start_stream W cfg net (s.hub, s.rest)
      exact .started (List.getElem?_eq_none hge) hnone hmarker
  | message j m =>
    unfold step at hstep
    rcases act_cases W hstep hc' with ⟨hsame, -⟩ | ⟨-, c, hc, rfl⟩
    · exact .silent c' hsame (.refl c') nofun
    · have hload : ClientSession.Silent c { c with shared := (s.hub, s.rest) } := ⟨rfl, rfl⟩
      exact .silent c hc (hload.trans ((ClientSession.Silent.onMessage W R.withHub cfg _ m).trans
        (.conclude W (_, _)))) nofun
  | tick j =>
    unfold step at hstep
    simp only at hstep
    split at hstep
    · cases hstep
    · split at hstep
      · rcases act_cases W hstep hc' with ⟨hsame, hne⟩ | ⟨rfl, c, hc, rfl⟩
        · refine .silent c' hsame (.refl c') fun he => ?_
          cases he
          exact absurd rfl hne
        · have hload : ClientSession.Silent c { c with shared := (s.hub, s.rest) } := ⟨rfl, rfl⟩
          have hend := ClientSession.Silent.conclude W
            (ClientSession.sendFrameIfNew W R.withHub { c with shared := (s.hub, s.rest) })
          rcases ClientSession.sendFrameIfNew_cases W R.withHub
              { c with shared := (s.hub, s.rest) } with
            ⟨f, hf, hjpeg, hnew, hsent, hcounter⟩ | ⟨hsilent, hwhy⟩
          · exact .sent c f hc rfl hf hjpeg hnew (hend.frames.trans hsent)
              (hend.last.trans hcounter)
          · exact .silent c hc (hload.trans (hsilent.trans hend)) fun _ => hwhy
      · cases hstep

/-- The timer of an authenticated session can fire. -/
theorem exists_tick {s : VideoStream κ ρ} {i : Nat} {c : ClientSession κ (FrameHub × ρ)}
    (hc : s.sessions[i]? = some c) (hauthed : c.authed = true) (hopen : c.finished = false) :
    ∃ s' c', step cv W R cfg s (.tick i) = some s' ∧ s'.sessions[i]? = some c' := by
  have hlt := (List.getElem?_eq_some_iff.mp hc).1
  unfold step act
  simp only [hc, hauthed, hopen, if_true]
  exact ⟨_, _, rfl, List.getElem?_set_self hlt⟩

theorem act_hub {s s' : VideoStream κ ρ} {i : Nat}
    {f : ClientSession κ (FrameHub × ρ) → Bool × ClientSession κ (FrameHub × ρ)}
    (h : s.act W i f = some s') : s'.hub = s.hub ∧ s'.vision = s.vision := by
  unfold act at h
  split at h
  · cases h
  · split at h
    · cases h
    · cases h
      exact ⟨rfl, rfl⟩

/-- **Steps** on the hub: a frame that is published carries the thread's
sequence number and is then the latest one. -/
theorem hub_cases {s s' : VideoStream κ ρ} {e : Turn κ} (h : step cv W R cfg s e = some s') :
    published cv s e = [] ∧ s'.hub = s.hub ∧ s'.vision.seq = s.vision.seq ∨
      ∃ f : Frame, published cv s e = [f] ∧ s'.hub = some f ∧ f.seq = s.vision.seq ∧
        s'.vision.seq = s.vision.seq + 1 := by
  cases e with
  | vision g =>
    unfold step at h
    cases h
    unfold published
    simp only
    rcases VisionThread.publications_iterate cv s.vision g with ⟨hnone, hseq⟩ | ⟨f, hone, hf, hseq⟩
    · rw [hnone]
      exact .inl ⟨rfl, rfl, hseq⟩
    · rw [hone]
      exact .inr ⟨f, rfl, rfl, hf, hseq⟩
  | connect net =>
    unfold step at h
    cases h
    exact .inl ⟨rfl, rfl, rfl⟩
  | message i m =>
    unfold step at h
    obtain ⟨hhub, hvision⟩ := act_hub W h
    exact .inl ⟨rfl, hhub, by rw [hvision]⟩
  | tick i =>
    unfold step at h
    simp only at h
    split at h
    · cases h
    · split at h
      · obtain ⟨hhub, hvision⟩ := act_hub W h
        exact .inl ⟨rfl, hhub, by rw [hvision]⟩
      · cases h

end VideoStream

end FaceTracking
