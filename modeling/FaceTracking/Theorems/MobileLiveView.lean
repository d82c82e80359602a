import FaceTracking.Theorems.LiveView
import FaceTracking.Theorems.MobileConnection

/-!
# From the camera to the mobile client

A page shows the newest frame that has come in on the socket it uses.
`sights i` are the frames that an event brings on socket `i`, and `Showing` is
what holds of the page in every run. The terminal's end is `messages_of_play`:
a WebSocket message is one message of the session.
-/

namespace FaceTracking.MobileClient

open Lib Proto

/-! ## Frames in messages -/

/-- The frame in a message. -/
def frameIn (data : Bytes) : Option VideoFrame :=
  match decodeHeader data with
  | none => none
  | some header =>
    match MsgType.ofCode (UInt16.ofNat header.type) with
    | some .VideoFrame => parseVideoFrame (framePayload data header)
    | _ => none

/-- A frame as the page gets it. -/
def frameOf (f : Frame) : VideoFrame :=
  ⟨f.seq.toNat, f.width.toUInt32.toNat, f.height.toUInt32.toNat, toDouble f.tsMs.toNat, f.jpeg⟩

theorem frameIn_wire {m : Message} (hm : m.payload.length < 2 ^ 32) :
    frameIn m.wire = if isVideo m.wire then parseVideoFrame m.payload else none := by
  obtain ⟨hheader, hpayload⟩ := decodeHeader_wire m hm
  have htype : UInt16.ofNat m.type.toNat = m.type := UInt16.ofNat_toNat
  unfold frameIn
  rw [hheader, isVideo_wire]
  simp only [htype, hpayload]
  split
  · rename_i hcode
    rw [← MsgType.code_of_ofCode hcode, if_pos (beq_self_eq_true _)]
  · rename_i hcode
    rw [if_neg]
    intro heq
    exact hcode (by rw [beq_iff_eq.mp heq]; rfl)

/-- The frames read from messages are those that were sent. -/
theorem frames_in {ms : List Message} (hms : ∀ m ∈ ms, m.payload.length < 2 ^ 32)
    {fs : List Frame} (hfs : ms.filter (fun m => isVideo m.wire) = fs.map videoMessage) :
    (ms.map Message.wire).filterMap frameIn = fs.map frameOf := by
  induction ms generalizing fs with
  | nil =>
    have hnone : fs = [] := List.map_eq_nil_iff.mp hfs.symm
    rw [hnone]
    rfl
  | cons m ms ih =>
    have hrest := fun m' hm' => hms m' (List.mem_cons_of_mem m hm')
    have hframe := frameIn_wire (hms m List.mem_cons_self)
    rw [List.map_cons]
    cases hm : isVideo m.wire with
    | false =>
      rw [List.filter_cons_of_neg (by simp [hm])] at hfs
      rw [if_neg (by simp [hm])] at hframe
      rw [List.filterMap_cons_none hframe]
      exact ih hrest hfs
    | true =>
      rw [List.filter_cons, if_pos hm] at hfs
      rw [if_pos hm] at hframe
      cases fs with
      | nil => cases hfs
      | cons f fs =>
        obtain ⟨rfl, hrest'⟩ := List.cons.inj hfs
        have hparse : parseVideoFrame (videoMessage f).payload = some (frameOf f) :=
          parseVideoFrame_videoPayload _ _ _ _ _
        rw [List.filterMap_cons_some (hframe.trans hparse), ih hrest hrest']
        rfl

/-! ## What the page shows -/

namespace Client

variable {ν : Type} (W : Web ν)

/-- What comes in on socket `i`. -/
def delivered (i : Nat) (_ : Client) : Event ν → List Bytes
  | .message j _ (some data) => if j = i then [data] else []
  | _ => []

/-- The frames that come in on socket `i`, each with the URL made for it. -/
def sights (i : Nat) (c : Client) : Event ν → List (Url × VideoFrame)
  | .message j _ (some data) =>
    if j = i then (frameIn data).toList.map fun f => (c.browser.nextUrl, f) else []
  | _ => []

theorem sights_delivered (i : Nat) (es : List (Event ν)) (c : Client) :
    (outputs (step W) (sights i) c es).map Prod.snd =
      (outputs (step W) (delivered i) c es).filterMap frameIn := by
  induction es generalizing c with
  | nil => rfl
  | cons e es ih =>
    have hone : (sights i c e).map Prod.snd = (delivered i c e).filterMap frameIn := by
      cases e with
      | message j now data =>
        cases data with
        | none => rfl
        | some data =>
          unfold sights delivered
          simp only
          split
          · cases hframe : frameIn data with
            | none =>
              rw [List.filterMap_cons_none hframe]
              rfl
            | some f =>
              rw [List.filterMap_cons_some hframe]
              rfl
          · rfl
      | _ => rfl
    rw [outputs, outputs, List.map_append, List.filterMap_append, hone]
    cases step W c e with
    | none => rfl
    | some c' => exact congrArg (_ ++ ·) (ih c')

/-- The page that uses socket `i` shows the last of the frames `l`. -/
structure Showing (i : Nat) (l : List (Url × VideoFrame)) (c : Client) : Prop where
  unborn : c.browser.sockets.length ≤ i → l = []
  shown : c.store.ws = some i →
    c.store.frameUrl = l.getLast?.map Prod.fst ∧ c.store.lastUrl = c.store.frameUrl ∧
      ∀ x, l.getLast? = some x → c.store.resW = x.2.width ∧ c.store.resH = x.2.height

/-- The part of the client that `Showing` looks at is the same. -/
structure SameView (c c' : Client) : Prop where
  sockets : c'.browser.sockets.length = c.browser.sockets.length
  ws : c'.store.ws = c.store.ws
  frameUrl : c'.store.frameUrl = c.store.frameUrl
  lastUrl : c'.store.lastUrl = c.store.lastUrl
  resW : c'.store.resW = c.store.resW
  resH : c'.store.resH = c.store.resH

theorem SameView.refl (c : Client) : SameView c c := ⟨rfl, rfl, rfl, rfl, rfl, rfl⟩

theorem SameView.trans {c₁ c₂ c₃ : Client} (h : SameView c₁ c₂) (h' : SameView c₂ c₃) :
    SameView c₁ c₃ :=
  ⟨h'.sockets.trans h.sockets, h'.ws.trans h.ws, h'.frameUrl.trans h.frameUrl,
    h'.lastUrl.trans h.lastUrl, h'.resW.trans h.resW, h'.resH.trans h.resH⟩

theorem Showing.same {i : Nat} {l : List (Url × VideoFrame)} {c c' : Client} (h : Showing i l c)
    (hsame : SameView c c') : Showing i l c' where
  unborn hle := h.unborn (hsame.sockets ▸ hle)
  shown hws := by
    rw [hsame.ws] at hws
    rw [hsame.frameUrl, hsame.lastUrl, hsame.resW, hsame.resH]
    exact h.shown hws

/-- Without the socket there is nothing to show. -/
theorem Showing.unused {i : Nat} {l l' : List (Url × VideoFrame)} {c c' : Client}
    (h : Showing i l c) (hsockets : c.browser.sockets.length ≤ c'.browser.sockets.length)
    (hl : c.browser.sockets.length ≤ i → l' = l) (hws : c'.store.ws ≠ some i) :
    Showing i l' c' where
  unborn hle := by
    have hold := hsockets.trans hle
    rw [hl hold]
    exact h.unborn hold
  shown heq := absurd heq hws

/-! ### Slots -/

theorem sameView_modify (c : Client) (j : Nat) (f : WebSocket → WebSocket) :
    SameView c (c.modifySocket j f) :=
  ⟨List.length_modify .., rfl, rfl, rfl, rfl, rfl⟩

theorem sameView_send (c : Client) (buf : Bytes) : SameView c (c.send buf) := by
  unfold Client.send
  split
  · exact .refl c
  · split
    · exact sameView_modify c _ _
    · exact .refl c

theorem sameView_act (c : Client) (a : Action ν) : SameView c (c.act W a) := by
  cases a with
  | setMode on =>
    have hmode : SameView c { c with store := { c.store with autoTrack := on } } :=
      ⟨rfl, rfl, rfl, rfl, rfl, rfl⟩
    exact hmode.trans (sameView_send _ _)
  | _ => exact sameView_send c _

/-- A message without a frame leaves the view as it is. -/
theorem sameView_message (c : Client) (j : Nat) (now : ℚ) {data : Bytes}
    (h : frameIn data = none) : SameView c (c.onMessage W j now data) := by
  unfold frameIn at h
  unfold onMessage
  cases hheader : decodeHeader data with
  | none => exact .refl c
  | some header =>
    rw [hheader] at h
    simp only at h ⊢
    split
    · rename_i hcode
      rw [hcode] at h
      unfold onVideo
      simp only at h
      rw [h]
      exact .refl c
    · exact ⟨rfl, rfl, rfl, rfl, rfl, rfl⟩
    · unfold onFileData
      split
      · exact .refl c
      · simp only
        split
        · exact ⟨rfl, rfl, rfl, rfl, rfl, rfl⟩
        · split
          · exact ⟨rfl, rfl, rfl, rfl, rfl, rfl⟩
          · exact ⟨rfl, rfl, rfl, rfl, rfl, rfl⟩
    · unfold onFileDeleteResp
      split
      · exact sameView_send c _
      · exact .refl c
    · exact .refl c

/-- A message with a frame shows it under a new URL, with its size. -/
theorem onMessage_frame (c : Client) (j : Nat) (now : ℚ) {data : Bytes} {f : VideoFrame}
    (h : frameIn data = some f) :
    let c' := c.onMessage W j now data
    c'.browser.sockets = c.browser.sockets ∧ c'.store.ws = c.store.ws ∧
      c'.store.frameUrl = some c.browser.nextUrl ∧ c'.store.lastUrl = some c.browser.nextUrl ∧
      c'.store.resW = f.width ∧ c'.store.resH = f.height := by
  unfold frameIn at h
  unfold onMessage
  cases hheader : decodeHeader data with
  | none =>
    rw [hheader] at h
    cases h
  | some header =>
    rw [hheader] at h
    simp only at h ⊢
    split at h
    · rename_i hcode
      rw [hcode]
      unfold onVideo
      simp only
      rw [h]
      obtain ⟨urls, hforget⟩ := forgetFrame_eq (c.createObjectURL .frame)
      simp only
      rw [hforget]
      obtain ⟨fps, frameCount, fpsAnchor, hcount⟩ := countFrame_eq
        { ({ (c.createObjectURL .frame).store with lastUrl := none } : Store) with
          resW := f.width, resH := f.height, lastUrl := some c.browser.nextUrl
          frameUrl := some c.browser.nextUrl } now
      rw [hcount]
      exact ⟨rfl, rfl, rfl, rfl, rfl, rfl⟩
    · cases h

/-! ### Connecting -/

theorem disconnect_view (c : Client) :
    c.disconnect.browser.sockets.length = c.browser.sockets.length ∧
      c.disconnect.store.ws = none ∧ c.disconnect.store.frameUrl = none ∧
      c.disconnect.store.lastUrl = none := by
  have hdrop : c.dropSocket.browser.sockets.length = c.browser.sockets.length ∧
      c.dropSocket.store.ws = none := by
    unfold dropSocket
    split
    · exact ⟨rfl, ‹_›⟩
    · exact ⟨List.length_modify .., rfl⟩
  unfold Client.disconnect
  generalize c.dropSocket = d at hdrop
  obtain ⟨urls, hforget⟩ := forgetFrame_eq (Client.mk
    { d.store with
      status := .disconnected, fps := 0, frameCount := 0, fpsAnchor := 0, downloads := [] }
    d.browser)
  simp only
  rw [hforget]
  exact ⟨hdrop.1, hdrop.2, trivial, rfl⟩

/-- A new socket comes with an empty view. -/
theorem Showing.connect {i : Nat} {l : List (Url × VideoFrame)} {c : Client} (h : Showing i l c)
    (host : String) (port : Nat) (token : String) (tls : Bool) (thrown : Option String) :
    Showing i l (c.connect host port token tls thrown) := by
  obtain ⟨hsockets, hws, hframe, hlast⟩ := disconnect_view c
  unfold Client.connect
  cases thrown with
  | some e =>
    refine h.unused (Nat.le_of_eq hsockets.symm) (fun _ => rfl) ?_
    show c.disconnect.store.ws ≠ some i
    rw [hws]
    exact nofun
  | none =>
    refine ⟨fun hle => ?_, fun hi => ?_⟩
    · change (c.disconnect.browser.sockets ++ [_]).length ≤ i at hle
      rw [List.length_append, hsockets] at hle
      exact h.unborn (Nat.le_of_succ_le hle)
    · have hi : c.disconnect.browser.sockets.length = i := Option.some.inj hi
      have hl : l = [] := h.unborn (by rw [← hsockets, hi])
      subst hl
      exact ⟨hframe, hlast.trans hframe.symm, nofun⟩

/-! ### Events -/

/-- The handlers of a socket in use are called. -/
theorem call_of_ws {c : Client} (h : Inv c) {i : Nat} (hws : c.store.ws = some i)
    (handler : Client → String → Client) :
    ∃ s, c.browser.sockets[i]? = some s ∧ c.call i handler = handler c s.token := by
  obtain ⟨s, hs⟩ : ∃ s, c.browser.sockets[i]? = some s :=
    ⟨_, List.getElem?_eq_getElem (h.valid i hws)⟩
  refine ⟨s, hs, ?_⟩
  unfold call
  rw [hs, Option.bind_some, (h.sockets i s hs).ours hws]

/-- A socket that is not in use is not heard. -/
theorem call_of_ne {c : Client} (h : Inv c) {i : Nat} (hws : c.store.ws ≠ some i)
    (hlive : c.live i = true) (handler : Client → String → Client) : c.call i handler = c := by
  unfold live at hlive
  unfold call
  cases hs : c.browser.sockets[i]? with
  | none => rfl
  | some s =>
    rw [hs] at hlive
    have hnone : s.handlers = none :=
      ((h.sockets i s hs).stale hws).resolve_right (by simpa using hlive)
    rw [Option.bind_some, hnone]

/-- A message on the socket in use shows what it carries. -/
theorem Showing.message {i : Nat} {l : List (Url × VideoFrame)} {c : Client} (h : Showing i l c)
    (hi : i < c.browser.sockets.length) (now : ℚ) (data : Bytes) :
    Showing i (l ++ sights i c (.message i now (some data) : Event ν))
      (c.onMessage W i now data) := by
  unfold sights
  simp only
  rw [if_pos trivial]
  cases hframe : frameIn data with
  | none =>
    rw [Option.toList_none, List.map_nil, List.append_nil]
    exact h.same (sameView_message W c i now hframe)
  | some f =>
    obtain ⟨hsockets, -, hurl, hlast, hw, hh⟩ := onMessage_frame W c i now hframe
    refine ⟨fun hle => ?_, fun _ => ?_⟩
    · rw [hsockets] at hle
      omega
    · rw [Option.toList_some, List.map_singleton, List.getLast?_concat]
      refine ⟨hurl, hlast.trans hurl.symm, ?_⟩
      rintro x ⟨⟩
      exact ⟨hw, hh⟩

theorem sameView_call {c : Client} (j : Nat) {handler : Client → String → Client}
    (h : ∀ token, SameView c (handler c token)) : SameView c (c.call j handler) := by
  unfold call
  split
  · exact .refl c
  · exact h _

theorem sameView_onOpen (c : Client) (token : String) : SameView c (c.onOpen token) := by
  have hstatus : SameView c { c with store := { c.store with status := .connected } } :=
    ⟨rfl, rfl, rfl, rfl, rfl, rfl⟩
  exact (hstatus.trans (sameView_send _ _)).trans (sameView_send _ _)

theorem sameView_onError (c : Client) : SameView c c.onError := by
  unfold onError
  split
  · exact ⟨rfl, rfl, rfl, rfl, rfl, rfl⟩
  · exact .refl c

/-- The end of a socket leaves the view, but not the socket, in use. -/
theorem Showing.close {i : Nat} {l : List (Url × VideoFrame)} {c : Client} (h : Showing i l c)
    (j : Nat) : Showing i l (c.onClose j) := by
  refine ⟨h.unborn, fun hws => h.shown ?_⟩
  change (if c.store.ws = some j then none else c.store.ws) = some i at hws
  split at hws
  · cases hws
  · exact hws

/-- A message shows what it carries if its socket is in use, and nothing
otherwise. -/
theorem Showing.fire_message {i : Nat} {l : List (Url × VideoFrame)} {c : Client} (hinv : Inv c)
    (h : Showing i l c) {j : Nat} (hlive : c.live j = true) (now : ℚ) (data : Bytes) :
    Showing i (l ++ sights i c (.message j now (some data) : Event ν))
      (c.call j fun c _ => c.onMessage W j now data) := by
  have hj : j < c.browser.sockets.length := by
    by_contra hge
    unfold live at hlive
    rw [List.getElem?_eq_none (Nat.le_of_not_lt hge)] at hlive
    cases hlive
  have hother : ∀ c' : Client, c.browser.sockets.length ≤ c'.browser.sockets.length →
      c'.store.ws ≠ some i →
        Showing i (l ++ sights i c (.message j now (some data) : Event ν)) c' := by
    intro c' hlen hws
    refine h.unused hlen (fun hle => ?_) hws
    have hji : j ≠ i := by omega
    unfold sights
    simp only
    rw [if_neg hji, List.append_nil]
  by_cases hws : c.store.ws = some j
  · obtain ⟨s, -, hcall⟩ := call_of_ws hinv hws fun c _ => c.onMessage W j now data
    rw [hcall]
    by_cases hji : j = i
    · subst hji
      exact h.message W hj now data
    · obtain ⟨hlen, hsame⟩ : c.browser.sockets.length ≤
          (c.onMessage W j now data).browser.sockets.length ∧
            (c.onMessage W j now data).store.ws = c.store.ws := by
        cases hframe : frameIn data with
        | none =>
          have hview := sameView_message W c j now hframe
          exact ⟨Nat.le_of_eq hview.sockets.symm, hview.ws⟩
        | some f =>
          obtain ⟨hsockets, hsame, -⟩ := onMessage_frame W c j now hframe
          exact ⟨Nat.le_of_eq (congrArg List.length hsockets.symm), hsame⟩
      refine hother _ hlen ?_
      rw [hsame, hws]
      exact fun heq => hji (Option.some.inj heq)
  · rw [call_of_ne hinv hws hlive]
    by_cases hji : j = i
    · subst hji
      exact hother c (Nat.le_refl _) hws
    · unfold sights
      simp only
      rw [if_neg hji, List.append_nil]
      exact h

/-- An event adds to what is seen on the socket what it carries there. -/
theorem Showing.step {i : Nat} {l : List (Url × VideoFrame)} {c c' : Client} {e : Event ν}
    (hinv : Inv c) (h : Showing i l c) (hstep : Client.step W c e = some c') :
    Showing i (l ++ sights i c e) c' := by
  have hsilent : ∀ {u : Client}, Showing i l u → Showing i (l ++ []) u := by
    intro u hu
    rwa [List.append_nil]
  have hstate : ∀ (j : Nat) (r : ReadyState), SameView c (c.setReadyState j r) :=
    fun j r => sameView_modify c j _
  cases e with
  | connect host port token tls thrown =>
    cases hstep
    exact hsilent (h.connect host port token tls thrown)
  | disconnect =>
    cases hstep
    obtain ⟨hsockets, hws, -, -⟩ := disconnect_view c
    refine hsilent (h.unused (Nat.le_of_eq hsockets.symm) (fun _ => rfl) ?_)
    rw [hws]
    exact nofun
  | act a =>
    cases hstep
    exact hsilent (h.same (sameView_act W c a))
  | timeout url =>
    obtain ⟨-, heq⟩ := Option.ite_none_right_eq_some.mp hstep
    cases heq
    exact hsilent (h.same ⟨rfl, rfl, rfl, rfl, rfl, rfl⟩)
  | opened j =>
    obtain ⟨-, heq⟩ := Option.ite_none_right_eq_some.mp hstep
    cases heq
    exact hsilent (h.same ((hstate j .OPEN).trans (sameView_call j fun token =>
      sameView_onOpen _ token)))
  | message j now data =>
    obtain ⟨hlive, heq⟩ := Option.ite_none_right_eq_some.mp hstep
    cases heq
    cases data with
    | none => exact hsilent h
    | some data => exact h.fire_message W hinv hlive now data
  | error j =>
    obtain ⟨-, heq⟩ := Option.ite_none_right_eq_some.mp hstep
    cases heq
    have hview : SameView c (c.call j fun c _ => c.onError) :=
      sameView_call j fun _ => sameView_onError c
    exact hsilent (h.same hview)
  | closing j =>
    obtain ⟨-, heq⟩ := Option.ite_none_right_eq_some.mp hstep
    cases heq
    exact hsilent (h.same (hstate j .CLOSING))
  | closed j =>
    obtain ⟨-, heq⟩ := Option.ite_none_right_eq_some.mp hstep
    cases heq
    have hclosed : Showing i l (c.setReadyState j .CLOSED) := h.same (hstate j .CLOSED)
    refine hsilent ?_
    show Showing i l ((c.setReadyState j .CLOSED).call j fun c _ => c.onClose j)
    unfold call
    split
    · exact hclosed
    · exact hclosed.close j

/-- In a run the page shows the last frame seen on the socket it uses. -/
theorem showing_of_play (i : Nat) {c : Client} {es : List (Event ν)}
    (h : play (step W) fresh es = some c) :
    Showing i (outputs (step W) (sights i) fresh es) c := by
  have hfresh : Showing i [] fresh := ⟨fun _ => rfl, nofun⟩
  have hrun : Inv c ∧ Showing i ([] ++ outputs (step W) (sights i) fresh es) c :=
    history (step W) (I := fun c l => Inv c ∧ Showing i l c)
      (fun c l e c' hI _ hstep => ⟨hI.1.step W hstep, hI.2.step W hI.1 hstep⟩)
      ⟨inv_fresh, hfresh⟩ (.of_forall (step W) (fun _ _ => trivial) fresh es) h
  exact hrun.2

end Client

/-! ## Main result -/

open Client ClientSession

/-- **Live view on the mobile client.** In every run of the page and of the
terminal's publishing and ticking, with a page that has received the first of a
session's messages on the socket it uses: the frames that have come in on it are
the first frames that the session sent, of rising numbers, each the latest
published one at a tick of the session. The page shows the last of them, with
its size, and no frame of another connection; and no URL of a frame but the one
that is shown is left unrevoked. This holds up to 2^32 - 1 published frames,
where the terminal's counter starts again, and for messages of fewer than 2^32
bytes, the length that a header can name. -/
theorem mobile_live_view {ν : Type} (Web : Web ν) {page : Client} {us : List (Client.Event ν)}
    (hpage : play (Client.step Web) fresh us = some page) {n : Nat}
    (hn : page.store.ws = some n) {κ ρ : Type} (cv : OpenCv) (W : World κ) (R : Shared ρ)
    (cfg : SessionConfig) (jpegQuality : Int32) (autoSnapshot : Bool)
    (autoSnapshotIntervalMs : Int32) (now : UInt64) (rest : ρ) (es : List (VideoStream.Turn κ))
    (s : VideoStream κ ρ) :
    let s₀ : VideoStream κ ρ :=
      .initial (.create jpegQuality autoSnapshot autoSnapshotIntervalMs now) rest
    let ps := outputs (VideoStream.step cv W R cfg) (VideoStream.published cv) s₀ es
    let seen := outputs (Client.step Web) (sights n) fresh us
    play (VideoStream.step cv W R cfg) s₀ es = some s → ps.length < 2 ^ 32 - 1 →
    ∀ (i : Nat) (c : ClientSession κ (FrameHub × ρ)), s.sessions[i]? = some c →
    (∀ b ∈ sends c.trace, b.length < 2 ^ 32) →
    outputs (Client.step Web) (delivered n) fresh us <+: sends c.trace →
      (∃ fs : List Frame, seen.map Prod.snd = fs.map frameOf ∧
        fs.map frameMessage =
          (outputs (Client.step Web) (delivered n) fresh us).filter isVideo ∧
        (∀ f ∈ fs, f ∈ ps ∧ VideoStream.ReadAt cv W R cfg s₀ es i f) ∧
        fs.Pairwise fun f g => f.seq < g.seq) ∧
      page.store.frameUrl = seen.getLast?.map Prod.fst ∧
      (∀ x, seen.getLast? = some x →
        page.store.resW = x.2.width ∧ page.store.resH = x.2.height) ∧
      page.frameUrls = page.store.frameUrl.toList := by
  intro s₀ ps seen hplay hlen i c hc hsize hdelivered
  obtain ⟨hurl, hlast, hview⟩ := (showing_of_play Web n hpage).shown hn
  refine ⟨?_, hurl, hview, ?_⟩
  · obtain ⟨ms, fs, hms, hframes, hread, hrising⟩ :=
      VideoStream.messages_of_play cv W R cfg rfl hplay hlen hc
    rw [hms] at hdelivered
    obtain ⟨k, hk⟩ : ∃ k, outputs (Client.step Web) (delivered n) fresh us =
        (ms.take k).map Message.wire :=
      ⟨_, (List.prefix_iff_eq_take.mp hdelivered).trans (List.map_take).symm⟩
    have hfits : ∀ m ∈ ms.take k, m.payload.length < 2 ^ 32 := by
      intro m hm
      have hlt := hsize m.wire (hms ▸ List.mem_map_of_mem (List.mem_of_mem_take hm))
      rw [Message.wire, length_buildMessage] at hlt
      omega
    obtain ⟨j, hj⟩ := VideoStream.frames_take hframes k
    refine ⟨fs.take j, ?_, ?_, fun f hf => hread f (List.mem_of_mem_take hf),
      hrising.sublist (List.take_sublist j fs)⟩
    · rw [sights_delivered, hk]
      exact frames_in hfits hj
    · rw [hk, List.filter_map]
      have hmap := congrArg (List.map Message.wire) hj
      rw [List.map_map] at hmap
      exact hmap.symm
  · rw [(inv_of_play Web hpage).frames, hlast]

/-- A page that has got all that a session sent. -/
def watching : List (Client.Event Unit) :=
  [.connect "h" 9000 "" false none, .opened 0] ++
    (VideoStream.watchedSession.elim [] fun c => sends c.trace).map fun b => .message 0 1 (some b)

def watchingPage : Client := (play (Client.step Client.plainWeb) fresh watching).getD fresh

theorem mobile_live_view_two : watchingPage.store.resW = 640 ∧
    watchingPage.frameUrls = watchingPage.store.frameUrl.toList := by
  have hpage : play (Client.step Client.plainWeb) fresh watching = some watchingPage := by
    have hsome : (play (Client.step Client.plainWeb) fresh watching).isSome = true := by
      decide +kernel
    obtain ⟨c, hc⟩ := Option.isSome_iff_exists.mp hsome
    rw [watchingPage, hc]
    rfl
  have hall : ∀ c ∈ VideoStream.watchedSession,
      outputs (Client.step Client.plainWeb) (delivered 0) fresh watching = sends c.trace := by
    decide +kernel
  have hlast : (outputs (Client.step Client.plainWeb) (sights 0) fresh watching).getLast? =
      some (2, ⟨2, 640, 480, 1000, [3]⟩) := by
    decide +kernel
  obtain ⟨c, hrun⟩ := Option.isSome_iff_exists.mp VideoStream.watchedSession_isSome
  have hrun' := hrun
  unfold VideoStream.watchedSession at hrun'
  obtain ⟨s, hplay, hc⟩ := Option.bind_eq_some_iff.mp hrun'
  have hsize : ∀ b ∈ sends c.trace, b.length < 2 ^ 32 :=
    fun b hb => (VideoStream.watchedSession_small c hrun b hb).trans_lt (by decide)
  have hdelivered : outputs (Client.step Client.plainWeb) (delivered 0) fresh watching <+:
      sends c.trace := by
    rw [hall c hrun]
  obtain ⟨-, -, hview, hurls⟩ := mobile_live_view Client.plainWeb hpage (n := 0)
    (by decide +kernel) VideoStream.rawCv VideoStream.openWorld Shared.empty ⟨15, []⟩ 80 false 0 0
    () VideoStream.watchedTurns s hplay (by decide +kernel) 0 c hc hsize hdelivered
  exact ⟨(hview _ hlast).1, hurls⟩

end FaceTracking.MobileClient
