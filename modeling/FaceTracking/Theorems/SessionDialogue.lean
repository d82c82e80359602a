import FaceTracking.Net.FileData
import FaceTracking.Net.SessionRuns
import FaceTracking.Net.VideoStream
import FaceTracking.Theorems.AuthGate
import FaceTracking.Theorems.InboundFraming

/-!
# The dialogue of a session

Over a whole run, whatever the connection, the clock and the terminal do. A
session has handled the messages in front of the bytes it received, all of
them once the gate is open and none before, and keeps the incomplete message
behind them (`Heard`). Apart from video frames it has sent its HELLO and then
the answers to these messages, in their order and nothing else (`Answered`).
-/

namespace FaceTracking.ClientSession

open Lib Proto

variable {κ ψ : Type} (W : World κ) (Sh : Shared ψ) (cfg : SessionConfig)

/-! ## What was heard -/

/-- With the gate shut nothing has been handled; with the gate open, the
messages in front of the bytes received. -/
structure Heard (s : ClientSession κ ψ) : Prop where
  shut : s.authed = false → handled s.trace = []
  opened : s.authed = true →
    handled s.trace = (messages kMaxMessage (received s.trace)).items.map seen

/-- What is behind the messages is in the buffer, and incomplete. -/
structure Buffered (s : ClientSession κ ψ) : Prop where
  starved : (messages kMaxMessage (received s.trace)).ending = .starved
  rx : s.rx = (messages kMaxMessage (received s.trace)).rest
  shut : s.authed = false → (messages kMaxMessage (received s.trace)).items = []

/-- A step that neither reads nor handles a message. -/
structure Deaf (s s' : ClientSession κ ψ) : Prop where
  authed : s'.authed = s.authed
  rx : s'.rx = s.rx
  received : received s'.trace = received s.trace
  handled : handled s'.trace = handled s.trace

variable {W Sh cfg}

theorem Deaf.trans {s₁ s₂ s₃ : ClientSession κ ψ} (h : Deaf s₁ s₂) (h' : Deaf s₂ s₃) :
    Deaf s₁ s₃ :=
  ⟨h'.authed.trans h.authed, h'.rx.trans h.rx, h'.received.trans h.received,
    h'.handled.trans h.handled⟩

theorem Kept.deaf {s s' : ClientSession κ ψ} (h : Kept s s') : Deaf s s' :=
  ⟨h.authed, h.rx, h.observed.1, h.observed.2⟩

theorem Heard.deaf {s s' : ClientSession κ ψ} (h : Heard s) (hs : Deaf s s') : Heard s' := by
  refine ⟨fun ha => ?_, fun ha => ?_⟩
  · rw [hs.handled]
    exact h.shut (hs.authed ▸ ha)
  · rw [hs.handled, hs.received]
    exact h.opened (hs.authed ▸ ha)

theorem Buffered.deaf {s s' : ClientSession κ ψ} (h : Buffered s) (hs : Deaf s s') :
    Buffered s' := by
  refine ⟨?_, ?_, fun ha => ?_⟩
  · rw [hs.received]
    exact h.starved
  · rw [hs.rx, hs.received]
    exact h.rx
  · rw [hs.received]
    exact h.shut (hs.authed ▸ ha)

/-- An event that neither receives nor handles hears nothing. -/
theorem Deaf.emit (s : ClientSession κ ψ) {e : Event}
    (he : FaceTracking.received [e] = [] ∧ FaceTracking.handled [e] = []) : Deaf s (s.emit e) := by
  refine ⟨rfl, rfl, ?_, ?_⟩
  · show FaceTracking.received (s.trace ++ [e]) = _
    rw [received_append, he.1, List.append_nil]
  · show FaceTracking.handled (s.trace ++ [e]) = _
    rw [handled_append, he.2, List.append_nil]

theorem sendFrameIfNew_deaf (s : ClientSession κ ψ) : Deaf s (sendFrameIfNew W Sh s).2 := by
  have hread : Deaf s ({ s with shared := (Sh.latest s.shared).2 }.emit .latest) :=
    ⟨rfl, rfl, (Deaf.emit s ⟨rfl, rfl⟩).received, (Deaf.emit s ⟨rfl, rfl⟩).handled⟩
  unfold sendFrameIfNew
  simp only
  split
  · exact hread
  · split
    · exact hread
    · split
      · exact hread
      · rename_i f _ _ _
        let u : ClientSession κ ψ :=
          { ({ s with shared := (Sh.latest s.shared).2 } : ClientSession κ ψ).emit .latest with
            lastSentSeq := f.seq }
        have hsend : Deaf u (send W u (frameMessage f)).2 :=
          ⟨rfl, rfl, (Deaf.emit u (e := .send _ _) ⟨rfl, rfl⟩).received,
            (Deaf.emit u (e := .send _ _) ⟨rfl, rfl⟩).handled⟩
        have hu : Deaf s u := ⟨hread.authed, hread.rx, hread.received, hread.handled⟩
        exact hu.trans hsend

variable (W Sh cfg) in
theorem frameTick_deaf (s : ClientSession κ ψ) : Deaf s (frameTick W Sh cfg s).2 := by
  refine frameTick_rule W Sh cfg (P := Deaf s) ?_ ?_ ?_ ⟨rfl, rfl, rfl, rfl⟩
  · exact fun t k _ h => ⟨h.authed, h.rx, h.received, h.handled⟩
  · exact fun t at' h => ⟨h.authed, h.rx, h.received, h.handled⟩
  · exact fun t _ h => h.trans (sendFrameIfNew_deaf t)

theorem onMessage_received (s : ClientSession κ ψ) (m : Message) :
    received (onMessage W Sh cfg s m).1.trace = received s.trace := by
  have hhandle : ∀ t : ClientSession κ ψ,
      received (handleMessage W Sh t m.type m.payload).trace = received t.trace := by
    intro t
    rw [((handleMessage_acts W Sh t m.type m.payload).kept W).observed.1]
    show received (t.trace ++ [_]) = _
    rw [received_append]
    exact List.append_nil _
  unfold onMessage
  split
  · exact hhandle s
  · split
    · rfl
    · split
      · rw [hhandle]
        show received (s.trace ++ [_]) = _
        rw [received_append]
        exact List.append_nil _
      · rfl

/-- What is read goes on where the buffer ends. -/
theorem Buffered.messages {s : ClientSession κ ψ} (h : Buffered s) (c : Bytes) :
    Proto.messages kMaxMessage (received s.trace ++ c) =
      (Proto.messages kMaxMessage (s.rx ++ c)).prepend
        (Proto.messages kMaxMessage (received s.trace)).items := by
  rw [h.rx]
  exact (sec1 kMaxMessage).scan_append (fun _ => false) (received s.trace) c h.starved

/-- The first message opens the gate, and the rest is as if it had been open. -/
theorem dispatch_opening {s : ClientSession κ ψ} (hs : s.authed = false) {chunk : Bytes}
    (h : Admits cfg (s.rx ++ chunk)) :
    dispatch W Sh cfg s chunk = dispatch W Sh cfg (opened s) chunk := by
  obtain ⟨m, hp, htype, htoken⟩ := h.parse
  have hone : onMessage W Sh cfg { s with rx := s.rx ++ chunk } m =
      onMessage W Sh cfg { opened s with rx := (opened s).rx ++ chunk } m := by
    unfold onMessage
    rw [if_neg (by simp [hs]), if_neg (by simp [htype]), if_pos htoken,
      if_pos (show (opened s).authed = true from rfl)]
    rfl
  have hrx : (opened s).rx = s.rx := rfl
  unfold dispatch
  simp only [hrx] at hone ⊢
  rw [dispatchLoop_succ, dispatchLoop_succ, List.drop_zero, hp]
  simp only [hone]

/-- Behind an open gate, a chunk is heard as a whole. -/
theorem Buffered.dispatch_authed {s u : ClientSession κ ψ} (hb : Buffered s)
    (hu : u.authed = true) (hrx : u.rx = s.rx)
    (hhandled : handled u.trace =
      (Proto.messages kMaxMessage (received s.trace)).items.map seen)
    {chunk : Bytes} (hreceived : received u.trace = received s.trace ++ chunk) :
    Heard (dispatch W Sh cfg u chunk).2 ∧
      ((dispatch W Sh cfg u chunk).1 = true → Buffered (dispatch W Sh cfg u chunk).2) := by
  obtain ⟨hh, ha, hbroken, hgood⟩ := ClientSession.dispatch_authed W Sh cfg hu chunk
  have hsame : received (dispatch W Sh cfg u chunk).2.trace = received u.trace := by
    refine dispatch_rule (P := fun t => received t.trace = received u.trace) (fun _ _ h => h) ?_
      chunk rfl
    intro t m ht
    exact (onMessage_received t m).trans ht
  have hscan := hb.messages chunk
  rw [hrx] at hh hbroken hgood
  refine ⟨⟨fun hshut => absurd (ha.symm.trans hshut) (by simp), fun _ => ?_⟩, fun hgo => ?_⟩
  · rw [hh, hhandled, hsame, hreceived, hscan, Scan.prepend_items, List.map_append]
  · have hne : (Proto.messages kMaxMessage (s.rx ++ chunk)).ending ≠ .broken :=
      fun he => Bool.false_ne_true ((hbroken he).symm.trans hgo)
    refine ⟨?_, ?_, fun hshut => absurd (ha.symm.trans hshut) (by simp)⟩
    · rw [hsame, hreceived, hscan, Scan.prepend_ending]
      exact (messages_ending _).resolve_right hne
    · rw [hsame, hreceived, hscan, Scan.prepend_rest]
      exact (hgood hne).2

theorem received_afterRecv (s : ClientSession κ ψ) :
    received (afterRecv W s).trace = received s.trace ++ bytesOf (W.conn.recv s.net 8192).1 := by
  show received (s.trace ++ [_]) = _
  rw [received_append]
  exact congrArg _ (List.append_nil _)

variable (W Sh cfg) in
/-- **A read.** The session has heard what it had and what it now received, and
if it goes on, the rest is in the buffer. -/
theorem readAndDispatch_heard {s : ClientSession κ ψ} (hs : Heard s) (hb : Buffered s) :
    Heard (readAndDispatch W Sh cfg s).2 ∧
      ((readAndDispatch W Sh cfg s).1 = true → Buffered (readAndDispatch W Sh cfg s).2) := by
  rw [readAndDispatch_eq]
  rcases hr : (W.conn.recv s.net 8192).1 with e | _ | ⟨x, b⟩
  · have hdeaf : Deaf s (afterRecv W s) := by
      refine ⟨rfl, rfl, ?_, handled_afterRecv W s⟩
      rw [received_afterRecv, hr]
      exact List.append_nil _
    exact ⟨hs.deaf hdeaf, fun _ => hb.deaf hdeaf⟩
  · have hdeaf : Deaf s (afterRecv W s) := by
      refine ⟨rfl, rfl, ?_, handled_afterRecv W s⟩
      rw [received_afterRecv, hr]
      exact List.append_nil _
    exact ⟨hs.deaf hdeaf, fun hgo => absurd hgo Bool.false_ne_true⟩
  · have hreceived : received (afterRecv W s).trace = received s.trace ++ (x :: b) := by
      rw [received_afterRecv, hr]
      rfl
    cases hauth : s.authed with
    | true =>
      refine hb.dispatch_authed (u := afterRecv W s) hauth rfl ?_ hreceived
      rw [handled_afterRecv, hs.opened hauth]
    | false =>
      have hshut : (afterRecv W s).authed = false := hauth
      have hrx : (afterRecv W s).rx = s.rx := rfl
      by_cases hadmits : Admits cfg ((afterRecv W s).rx ++ (x :: b))
      · -- the gate opens: nothing has been handled, and nothing was complete
        simp only
        rw [dispatch_opening hshut hadmits]
        have hemit := Deaf.emit (afterRecv W s) (e := .authenticated) ⟨rfl, rfl⟩
        refine hb.dispatch_authed (u := opened (afterRecv W s)) rfl rfl ?_ ?_
        · have hhandled : handled (opened (afterRecv W s)).trace = handled s.trace :=
            hemit.handled.trans (handled_afterRecv W s)
          rw [hhandled, hs.shut hauth, hb.shut hauth]
          rfl
        · exact hemit.received.trans hreceived
      · simp only
        rw [(dispatch_shut W Sh cfg hshut (x :: b)).2 hadmits]
        have hscan := hb.messages (x :: b)
        rw [hb.shut hauth, Scan.prepend_nil] at hscan
        refine ⟨⟨fun _ => ?_, fun ha => ?_⟩, fun hgo => ?_⟩
        · exact (handled_afterRecv W s).trans (hs.shut hauth)
        · exact absurd (hauth.symm.trans ha) (by simp)
        · have hmore : parse kMaxMessage (s.rx ++ (x :: b)) = .more := of_decide_eq_true hgo
          have hstarved := (sec1 kMaxMessage).scan_more (fun _ => false) hmore
          have hall : Proto.messages kMaxMessage (received (afterRecv W s).trace) =
              ⟨[], s.rx ++ (x :: b), .starved⟩ := by
            rw [hreceived, hscan]
            exact hstarved
          exact ⟨congrArg Scan.ending hall, (congrArg Scan.rest hall).symm,
            fun _ => congrArg Scan.items hall⟩

/-! ## The run -/

/-- What holds of a session while its loop runs. -/
def Listening (s : ClientSession κ ψ) : Prop := Heard s ∧ Buffered s

theorem finish_deaf (s : ClientSession κ ψ) : Deaf s (finish W s) :=
  ⟨rfl, rfl, (Deaf.emit s (e := .close) ⟨rfl, rfl⟩).received,
    (Deaf.emit s (e := .close) ⟨rfl, rfl⟩).handled⟩

variable (W cfg) in
/-- A session that has just been started has heard nothing. -/
theorem start_listening (net : κ) (shared : ψ) : Holds Listening Heard (start W cfg net shared) := by
  have hnil : Proto.messages kMaxMessage [] = ⟨[], [], .starved⟩ :=
    (sec1 kMaxMessage).scan_more (fun _ => false) rfl
  have hfresh : ∀ k, Listening ({ create cfg net shared with net := k } : ClientSession κ ψ) :=
    fun k => ⟨⟨fun _ => rfl, fun _ => congrArg (fun sc => sc.items.map seen) hnil.symm⟩,
      ⟨congrArg Scan.ending hnil, (congrArg Scan.rest hnil).symm,
        fun _ => congrArg Scan.items hnil⟩⟩
  unfold start
  simp only
  split
  · have hdeaf : ∀ s : ClientSession κ ψ, Deaf s (sendJson W s .Hello (helloJson cfg)) :=
      fun s => Kept.deaf ((sendJson_acts W s .Hello _ (by decide)).kept W)
    have hup := hfresh (W.conn.handshake (create cfg net shared).net).2
    have hheard := hup.1.deaf (hdeaf _)
    have hbuffered := hup.2.deaf (hdeaf _)
    exact ⟨⟨hheard.shut, hheard.opened⟩,
      fun _ => ⟨⟨hheard.shut, hheard.opened⟩, ⟨hbuffered.starved, hbuffered.rx, hbuffered.shut⟩⟩⟩
  · exact ⟨(hfresh _).1.deaf (finish_deaf _), fun hf => by cases hf⟩

variable (W Sh cfg) in
theorem run_listening (net : κ) (shared : ψ) (n : Nat) :
    Holds Listening Heard (run W Sh cfg net shared n) := by
  refine run_rule W Sh cfg (fun s h => h.1) ?_ ?_ ?_ (fun s h => h.deaf (finish_deaf s))
    (start_listening W cfg net shared) n
  · exact fun s k _ h => ⟨⟨h.1.shut, h.1.opened⟩, ⟨h.2.starved, h.2.rx, h.2.shut⟩⟩
  · intro s h
    obtain ⟨hheard, hbuffered⟩ := readAndDispatch_heard W Sh cfg h.1 h.2
    exact ⟨hheard, fun hgo => ⟨hheard, hbuffered hgo⟩⟩
  · intro s h
    have hdeaf := frameTick_deaf W Sh cfg s
    exact ⟨h.1.deaf hdeaf, fun _ => ⟨h.1.deaf hdeaf, h.2.deaf hdeaf⟩⟩

/-! ## What was answered -/

/-- What has been sent, the video frames left out. -/
def replies (t : List Event) : List Bytes := (sends t).filter fun b => !isVideo b

@[simp] theorem replies_append (t t' : List Event) :
    replies (t ++ t') = replies t ++ replies t' := by
  simp [replies]

/-- The FILE_DATA messages for a file. -/
def fileReply (name : Bytes) (outcome : Option Bytes) : List Bytes :=
  (fileData name outcome).map Message.wire

variable (Sh) in
/-- The answer to a message, with what the terminal says in some state of it.
A file whose sending was cut short is answered with the chunks in front. -/
def Answers (sent : Prop) (m : UInt16 × Bytes) (r : List Bytes) : Prop :=
  match MsgType.ofCode m.1 with
  | some .FileListReq | some .SnapshotReq =>
    ∃ x, r = [buildMessage MsgType.FileListResp.code (fileListJson (Sh.list x).1) 0]
  | some .FileDeleteReq =>
    match Mjson.getString m.2 (utf8 "name") with
    | none => r = [buildMessage MsgType.FileDeleteResp.code (deleteJson [] false) 0]
    | some name =>
      ∃ x, r = [buildMessage MsgType.FileDeleteResp.code (deleteJson name (Sh.remove x name).1) 0]
  | some .FileGetReq =>
    match Mjson.getString m.2 (utf8 "name") with
    | none => r = []
    | some name =>
      if name.length > 255 then r = []
      else ∃ x, r ≠ [] ∧ r <+: fileReply name (Sh.read x name).1 ∧
        (sent → r = fileReply name (Sh.read x name).1)
  | _ => r = []

/-- Fewer sends need to have succeeded. -/
theorem Answers.imp {sent sent' : Prop} (h : sent' → sent) {m : UInt16 × Bytes} {r : List Bytes}
    (ha : Answers Sh sent m r) : Answers Sh sent' m r := by
  unfold Answers at ha ⊢
  split at ha
  · exact ha
  · exact ha
  · exact ha
  · cases hname : Mjson.getString m.2 (utf8 "name") with
    | none =>
      rw [hname] at ha
      exact ha
    | some name =>
      rw [hname] at ha
      simp only at ha ⊢
      split at ha
      · rw [if_pos ‹_›]
        exact ha
      · rw [if_neg ‹_›]
        exact ha.imp fun x hx => ⟨hx.1, hx.2.1, fun hs => hx.2.2 (h hs)⟩
  · exact ha

variable (Sh) in
/-- The messages handled in a part of a trace have been answered in it. -/
def Answered (t : List Event) : Prop :=
  ∃ rs, replies t = rs.flatten ∧ List.Forall₂ (Answers Sh (AllSent t)) (handled t) rs

theorem AllSent.of_append {t t' : List Event} (h : AllSent (t ++ t')) : AllSent t ∧ AllSent t' :=
  ⟨fun e he => h e (List.mem_append_left _ he), fun e he => h e (List.mem_append_right _ he)⟩

theorem Answered.append {t t' : List Event} (h : Answered Sh t) (h' : Answered Sh t') :
    Answered Sh (t ++ t') := by
  obtain ⟨rs, hrs, hall⟩ := h
  obtain ⟨rs', hrs', hall'⟩ := h'
  refine ⟨rs ++ rs', ?_, ?_⟩
  · rw [replies_append, hrs, hrs', List.flatten_append]
  · rw [handled_append]
    refine List.rel_append ?_ ?_
    · exact hall.imp fun _ _ ha => ha.imp fun hs => (AllSent.of_append hs).1
    · exact hall'.imp fun _ _ ha => ha.imp fun hs => (AllSent.of_append hs).2

/-- Events that are neither replies nor messages are answered. -/
theorem Answered.of_nil {t : List Event} (hr : replies t = []) (hh : handled t = []) :
    Answered Sh t :=
  ⟨[], hr, by rw [hh]; exact .nil⟩

/-- A message with its answer behind it is answered. -/
theorem Answered.message {type : UInt16} {body : Bytes} {t : List Event}
    (hh : handled t = []) (h : Answers Sh (AllSent t) (type, body) (replies t)) :
    Answered Sh (.message type body :: t) := by
  refine ⟨[replies t], ?_, ?_⟩
  · rw [List.flatten_singleton]
    rfl
  · have hone : handled (.message type body :: t) = [(type, body)] := by
      show (type, body) :: handled t = _
      rw [hh]
    rw [hone]
    exact .cons (h.imp fun hs => hs.tail) .nil

variable (Sh) in
/-- What the session adds to its trace is answered. -/
def Adds (s s' : ClientSession κ ψ) : Prop := ∃ t, s'.trace = s.trace ++ t ∧ Answered Sh t

theorem Adds.refl (s : ClientSession κ ψ) : Adds Sh s s :=
  ⟨[], (List.append_nil _).symm, .of_nil rfl rfl⟩

theorem Adds.trans {s₁ s₂ s₃ : ClientSession κ ψ} (h : Adds Sh s₁ s₂) (h' : Adds Sh s₂ s₃) :
    Adds Sh s₁ s₃ := by
  obtain ⟨t, ht, ha⟩ := h
  obtain ⟨t', ht', ha'⟩ := h'
  exact ⟨t ++ t', by rw [ht', ht, List.append_assoc], ha.append ha'⟩

theorem Adds.of_trace {s s' u : ClientSession κ ψ} (h : Adds Sh s u) (ht : s'.trace = u.trace) :
    Adds Sh s s' := by
  obtain ⟨t, hu, ha⟩ := h
  exact ⟨t, ht.trans hu, ha⟩

/-- An event that is neither a reply nor a message adds nothing to answer. -/
theorem Adds.emit (s : ClientSession κ ψ) {e : Event}
    (he : replies [e] = [] ∧ FaceTracking.handled [e] = []) : Adds Sh s (s.emit e) :=
  ⟨[e], rfl, .of_nil he.1 he.2⟩

/-! ## Handling a message -/

theorem replies_send {b : Bytes} (ok : Bool) (h : isVideo b = false) :
    replies [.send b ok] = [b] := by
  show [b].filter _ = [b]
  rw [List.filter_singleton, h]
  rfl

theorem isVideo_reply (type : MsgType) (json : Bytes) (h : type ≠ .VideoFrame) :
    isVideo (buildMessage type.code json 0) = false := by
  have hcode : type.code ≠ MsgType.VideoFrame.code := by
    cases type <;> simp_all <;> decide
  exact (isVideo_wire ⟨type.code, 0, json⟩).trans (beq_false_of_ne hcode)

variable (W Sh) in
theorem sendFileList_trace (s : ClientSession κ ψ) :
    ∃ ok, (sendFileList W Sh s).trace = s.trace ++ [.list,
      .send (buildMessage MsgType.FileListResp.code (fileListJson (Sh.list s.shared).1) 0) ok] :=
  ⟨_, List.append_assoc _ _ _⟩

variable (Sh) in
theorem takeSnapshot_trace (s : ClientSession κ ψ) :
    ∃ t, (takeSnapshot Sh s).trace = s.trace ++ t ∧ handled t = [] ∧ replies t = [] := by
  unfold takeSnapshot
  simp only
  split
  · exact ⟨[.latest], rfl, rfl, rfl⟩
  · split
    · exact ⟨[.latest], rfl, rfl, rfl⟩
    · exact ⟨[.latest, .snapshot], List.append_assoc _ _ _, rfl, rfl⟩

variable (W Sh) in
theorem deleteFile_trace (s : ClientSession κ ψ) (body : Bytes) :
    ∃ t, (deleteFile W Sh s body).trace = s.trace ++ t ∧ handled t = [] ∧
      Answers Sh (AllSent t) (MsgType.FileDeleteReq.code, body) (replies t) := by
  have hcode : MsgType.ofCode MsgType.FileDeleteReq.code = some .FileDeleteReq := rfl
  unfold Answers
  simp only [hcode]
  unfold deleteFile
  cases Mjson.getString body (utf8 "name") with
  | none =>
    exact ⟨[.send _ _], rfl, rfl, replies_send _ (isVideo_reply .FileDeleteResp _ (by decide))⟩
  | some name =>
    let msg := buildMessage MsgType.FileDeleteResp.code
      (deleteJson name (Sh.remove s.shared name).1) 0
    have hone : ∀ ok, replies [.remove name, .send msg ok] = [msg] :=
      fun ok => replies_send ok (isVideo_reply .FileDeleteResp _ (by decide))
    exact ⟨[.remove name, .send msg _], List.append_assoc _ _ _, rfl, s.shared, hone _⟩

theorem isVideo_chunk (name : Bytes) (total idx : UInt32) (chunk : Bytes) :
    isVideo (buildChunk name total idx chunk) = false := by
  rw [buildChunk_eq, isVideo_wire]
  rfl

variable (W) in
/-- The chunk loop sends chunks from the front, all of them if every send
succeeds and at least one if there is one. -/
theorem sendChunks_replies (name bytes : Bytes) (total : UInt32) (l : List Nat)
    (s : ClientSession κ ψ) :
    ∃ t, (sendChunks W name bytes total l s).trace = s.trace ++ t ∧ handled t = [] ∧
      (l ≠ [] → replies t ≠ []) ∧
      replies t <+: l.map (fun i =>
        buildChunk name total (UInt32.ofNat i) (piece kChunkSize bytes i)) ∧
      (AllSent t → replies t = l.map fun i =>
        buildChunk name total (UInt32.ofNat i) (piece kChunkSize bytes i)) := by
  induction l generalizing s with
  | nil => exact ⟨[], (List.append_nil _).symm, rfl, fun h => absurd rfl h, List.prefix_refl _,
      fun _ => rfl⟩
  | cons i l ih =>
    let msg := buildChunk name total (UInt32.ofNat i) (piece kChunkSize bytes i)
    have hsend : (send W s msg).2.trace = s.trace ++ [.send msg (send W s msg).1] := rfl
    have hstep : sendChunks W name bytes total (i :: l) s =
        if (send W s msg).1 then sendChunks W name bytes total l (send W s msg).2
        else (send W s msg).2 := rfl
    have hone : ∀ ok, replies [.send msg ok] = [msg] := fun ok => replies_send ok (isVideo_chunk _ _ _ _)
    rw [hstep]
    cases hok : (send W s msg).1 with
    | true =>
      obtain ⟨t, ht, hh, -, hpre, hall⟩ := ih (send W s msg).2
      have hcons : replies (.send msg true :: t) = msg :: replies t := by
        rw [← List.singleton_append, replies_append, hone]
        rfl
      refine ⟨.send msg true :: t, ?_, hh, fun _ => ?_, ?_, fun hsent => ?_⟩
      · rw [if_pos rfl, ht, hsend, hok, List.append_assoc]
        rfl
      · rw [hcons]
        exact List.cons_ne_nil _ _
      · rw [hcons, List.map_cons]
        exact List.cons_prefix_cons.mpr ⟨rfl, hpre⟩
      · rw [hcons, hall hsent.tail]
        rfl
    | false =>
      refine ⟨[.send msg false], ?_, rfl, fun _ => ?_, ?_, fun hsent => ?_⟩
      · rw [if_neg Bool.false_ne_true, hsend, hok]
      · rw [hone]
        exact List.cons_ne_nil _ _
      · rw [hone, List.map_cons]
        exact List.cons_prefix_cons.mpr ⟨rfl, List.nil_prefix⟩
      · exact absurd hsent (not_allSent_of_mem List.mem_cons_self)

variable (W Sh) in
theorem sendFile_replies (s : ClientSession κ ψ) {name : Bytes} (hname : ¬ name.length > 255) :
    ∃ t, (sendFile W Sh s name).trace = s.trace ++ t ∧ handled t = [] ∧ replies t ≠ [] ∧
      replies t <+: fileReply name (Sh.read s.shared name).1 ∧
      (AllSent t → replies t = fileReply name (Sh.read s.shared name).1) := by
  let s' : ClientSession κ ψ := { s with shared := (Sh.read s.shared name).2 }.emit (.read name)
  have hstep : sendFile W Sh s name =
      if chunkCount (Sh.read s.shared name).1 = 0 then
        (send W s' (buildChunk name (chunkCount (Sh.read s.shared name).1) 0 [])).2
      else sendChunks W name ((Sh.read s.shared name).1.getD [])
        (chunkCount (Sh.read s.shared name).1)
        (List.range (chunkCount (Sh.read s.shared name).1).toNat) s' := by
    rw [sendFile, if_neg hname]
  unfold fileReply
  rw [hstep, fileData]
  by_cases hzero : chunkCount (Sh.read s.shared name).1 = 0
  · have hone : ∀ ok, replies [.read name, .send (buildChunk name 0 0 []) ok] =
        [fileDataMessage name 0 0 []].map Message.wire := by
      intro ok
      rw [List.map_singleton, ← buildChunk_eq]
      exact replies_send ok (isVideo_chunk _ _ _ _)
    rw [if_pos hzero, if_pos hzero, hzero]
    refine ⟨[.read name, .send (buildChunk name 0 0 []) _], List.append_assoc _ _ _, rfl, ?_, ?_,
      fun _ => hone _⟩
    · rw [hone]
      exact List.cons_ne_nil _ _
    · rw [hone]
  · rw [if_neg hzero, if_neg hzero]
    obtain ⟨t, ht, hh, hne, hpre, hall⟩ := sendChunks_replies W name
      ((Sh.read s.shared name).1.getD []) (chunkCount (Sh.read s.shared name).1)
      (List.range (chunkCount (Sh.read s.shared name).1).toNat) s'
    have hwire : (List.range (chunkCount (Sh.read s.shared name).1).toNat).map (fun i =>
        buildChunk name (chunkCount (Sh.read s.shared name).1) (UInt32.ofNat i)
          (piece kChunkSize ((Sh.read s.shared name).1.getD []) i)) =
        ((List.range (chunkCount (Sh.read s.shared name).1).toNat).map fun i =>
          fileDataMessage name (chunkCount (Sh.read s.shared name).1) (UInt32.ofNat i)
            (chunk ((Sh.read s.shared name).1.getD []) i)).map Message.wire := by
      rw [List.map_map]
      exact List.map_congr_left fun i _ => buildChunk_eq _ _ _ _
    have hrange : List.range (chunkCount (Sh.read s.shared name).1).toNat ≠ [] := by
      rw [Ne, List.range_eq_nil]
      exact fun h => hzero (UInt32.toNat_inj.mp h)
    rw [hwire] at hpre hall
    refine ⟨.read name :: t, ?_, hh, hne hrange, hpre, fun hsent => hall hsent.tail⟩
    rw [ht]
    exact List.append_assoc _ _ _

/-- **Handling a message** answers it. -/
theorem handleMessage_adds (s : ClientSession κ ψ) (type : UInt16) (body : Bytes) :
    Adds Sh s (handleMessage W Sh s type body) := by
  have hadd : ∀ {s' : ClientSession κ ψ} {t : List Event},
      s'.trace = (s.emit (.message type body)).trace ++ t → handled t = [] →
      Answers Sh (AllSent t) (type, body) (replies t) → Adds Sh s s' := by
    intro s' t ht hh ha
    exact ⟨.message type body :: t, ht.trans (List.append_assoc _ _ _), .message hh ha⟩
  let u := s.emit (.message type body)
  unfold handleMessage
  simp only
  split
  · rename_i hcode
    refine hadd (t := [.push _]) rfl rfl ?_
    unfold Answers
    rw [hcode]
    rfl
  · rename_i hcode
    refine hadd (t := [.push _]) rfl rfl ?_
    unfold Answers
    rw [hcode]
    rfl
  · rename_i hcode
    obtain ⟨ok, ht⟩ := sendFileList_trace W Sh u
    refine hadd ht rfl ?_
    unfold Answers
    rw [hcode]
    exact ⟨u.shared, replies_send ok (isVideo_reply .FileListResp _ (by decide))⟩
  · rename_i hcode
    cases hname : Mjson.getString body (utf8 "name") with
    | none =>
      refine hadd (t := []) (List.append_nil _).symm rfl ?_
      unfold Answers
      rw [hcode]
      simp only [hname]
      rfl
    | some name =>
      simp only
      by_cases hlong : name.length > 255
      · rw [sendFile, if_pos hlong]
        refine hadd (t := []) (List.append_nil _).symm rfl ?_
        unfold Answers
        rw [hcode]
        simp only [hname]
        rw [if_pos hlong]
        rfl
      · obtain ⟨t, ht, hh, hne, hpre, hall⟩ := sendFile_replies W Sh u hlong
        refine hadd ht hh ?_
        unfold Answers
        rw [hcode]
        simp only [hname]
        rw [if_neg hlong]
        exact ⟨u.shared, hne, hpre, hall⟩
  · rename_i hcode
    obtain ⟨t, ht, hh, ha⟩ := deleteFile_trace W Sh u body
    refine hadd ht hh ?_
    unfold Answers at ha ⊢
    rw [hcode]
    exact ha
  · rename_i hcode
    obtain ⟨t, ht, hh, hr⟩ := takeSnapshot_trace Sh u
    obtain ⟨ok, ht'⟩ := sendFileList_trace W Sh (takeSnapshot Sh u)
    rw [ht, List.append_assoc] at ht'
    refine hadd ht' ?_ ?_
    · rw [handled_append, hh]
      rfl
    · unfold Answers
      rw [hcode, replies_append, hr]
      exact ⟨_, replies_send ok (isVideo_reply .FileListResp _ (by decide))⟩
  · refine hadd (t := []) (List.append_nil _).symm rfl ?_
    unfold Answers
    split
    · exact absurd ‹_› ‹_›
    · exact absurd ‹_› ‹_›
    · exact absurd ‹_› ‹_›
    · exact absurd ‹_› ‹_›
    · rfl

/-! ## Over a run -/

theorem onMessage_adds (s : ClientSession κ ψ) (m : Message) :
    Adds Sh s (onMessage W Sh cfg s m).1 := by
  unfold onMessage
  split
  · exact handleMessage_adds s m.type m.payload
  · split
    · exact .refl s
    · split
      · have hgate : Adds Sh s ({ s with authed := true }.emit .authenticated) :=
          Adds.emit { s with authed := true } ⟨rfl, rfl⟩
        exact hgate.trans (handleMessage_adds _ m.type m.payload)
      · exact .refl s

theorem sendFrameIfNew_adds (s : ClientSession κ ψ) : Adds Sh s (sendFrameIfNew W Sh s).2 := by
  have hread : Adds Sh s ({ s with shared := (Sh.latest s.shared).2 }.emit .latest) :=
    Adds.emit { s with shared := (Sh.latest s.shared).2 } ⟨rfl, rfl⟩
  unfold sendFrameIfNew
  simp only
  split
  · exact hread
  · split
    · exact hread
    · split
      · exact hread
      · rename_i f _ _ _
        refine hread.trans ⟨[.send (frameMessage f) _], rfl, .of_nil ?_ rfl⟩
        show [frameMessage f].filter _ = []
        rw [List.filter_singleton, isVideo_frameMessage]
        rfl

variable (W Sh cfg) in
/-- An iteration answers what it handles. -/
theorem run_adds (net : κ) (shared : ψ) (n : Nat) :
    Adds Sh (start W cfg net shared) (run W Sh cfg net shared n) := by
  let s₀ : ClientSession κ ψ := start W cfg net shared
  refine (run_rule W Sh cfg (I := Adds Sh s₀) (F := Adds Sh s₀) (fun _ h => h)
    (fun s k _ h => h.of_trace rfl) ?_ ?_ ?_ ⟨.refl _, fun _ => .refl _⟩ n).1
  · intro s h
    have hread := readAndDispatch_rule W Sh cfg (P := Adds Sh s₀)
      (fun s h => h.trans (Adds.emit s ⟨rfl, rfl⟩)) (fun s rx h => h.of_trace rfl)
      (fun s m h => h.trans (onMessage_adds s m)) h
    exact ⟨hread, fun _ => hread⟩
  · intro s h
    have htick := frameTick_rule W Sh cfg (P := Adds Sh s₀) (fun s k _ h => h.of_trace rfl)
      (fun s at' h => h.of_trace rfl) (fun s _ h => h.trans (sendFrameIfNew_adds s)) h
    exact ⟨htick, fun _ => htick⟩
  · exact fun s h => h.trans (Adds.emit s ⟨rfl, rfl⟩)

variable (W cfg) in
/-- A session begins with its advert if the handshake succeeds, and has handled
nothing. -/
theorem start_replies (net : κ) (shared : ψ) :
    replies (start W cfg net shared : ClientSession κ ψ).trace =
      (if (W.conn.handshake net).1 then [advert cfg] else []) ∧
    handled (start W cfg net shared : ClientSession κ ψ).trace = [] := by
  have hone : ∀ ok, replies [.send (advert cfg) ok] = [advert cfg] :=
    fun ok => replies_send ok (isVideo_reply .Hello _ (by decide))
  have hnet : ∀ k, (create cfg k shared : ClientSession κ ψ).net = k := fun _ => rfl
  unfold start
  simp only [hnet]
  cases (W.conn.handshake net).1 with
  | true => exact ⟨hone _, rfl⟩
  | false => exact ⟨rfl, rfl⟩

/-- **The dialogue of a session.** At every point of a run, whatever the
connection, the clock and the terminal do: the session has handled the messages
in front of all the bytes it received, or none of them as long as the gate is
shut; and what it has sent besides video frames is its HELLO and then, in the
order of these messages, the answer to each. -/
theorem session_dialogue (net : κ) (shared : ψ) (n : Nat) :
    let s : ClientSession κ ψ := run W Sh cfg net shared n
    (s.authed = false → handled s.trace = []) ∧
    (s.authed = true →
      handled s.trace = (Proto.messages kMaxMessage (received s.trace)).items.map seen) ∧
    ∃ rs, replies s.trace =
        (if (W.conn.handshake net).1 then [advert cfg] else []) ++ rs.flatten ∧
      List.Forall₂ (Answers Sh (AllSent s.trace)) (handled s.trace) rs := by
  intro s
  have hheard : Heard s := (run_listening W Sh cfg net shared n).1
  refine ⟨hheard.shut, hheard.opened, ?_⟩
  obtain ⟨t, ht, rs, hrs, hall⟩ := run_adds W Sh cfg net shared n
  obtain ⟨hfirst, hnone⟩ := start_replies W cfg net shared
  have htrace : s.trace = (start W cfg net shared : ClientSession κ ψ).trace ++ t := ht
  refine ⟨rs, ?_, ?_⟩
  · rw [htrace, replies_append, hfirst, hrs]
  · rw [htrace, handled_append, hnone, List.nil_append]
    exact hall.imp fun _ _ ha => ha.imp fun hs => (AllSent.of_append hs).2

end FaceTracking.ClientSession
