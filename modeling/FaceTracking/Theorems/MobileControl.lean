import FaceTracking.Theorems.MobileConnection
import FaceTracking.Theorems.SessionOrders

/-!
# Remote control by the mobile client

What a user asks for on the mobile client's page is what the terminal does.
`asks i` are the requests that an event makes on socket `i`, and `Speech` is
what holds of the socket in every run of the page: nothing has been sent on it,
or the HELLO of its `connect` and then every request made on it. The terminal's
end is `run_serves`.
-/

namespace FaceTracking.MobileClient

open Lib Proto

/-! ## The bytes of a request -/

/-- Both codecs write the same message. -/
theorem buildMessage_wire (type : MsgType) (payload : Bytes) :
    buildMessage type payload = Message.wire ⟨type.code, 0, payload⟩ := by
  have hmod : beBytes 4 (UInt32.ofNat payload.length).toNat = beBytes 4 payload.length := by
    have hsplit := Nat.div_add_mod payload.length (256 ^ 4)
    rw [UInt32.toNat_ofNat', ← beBytes_add_mul 4 (payload.length / 256 ^ 4) (payload.length % 2 ^ 32)]
    congr 1
    rw [Nat.mul_comm]
    exact hsplit
  rw [Message.wire, buildMessage_eq, hmod]
  rfl

theorem servoBody_printed (mode : String) (pan tilt : Json.NumberText) :
    servoBody mode pan.text tilt.text = (Json.printed (Request.servoMembers mode pan tilt)).text := by
  have hmode : utf8 "\x7B\"mode\":" = 0x7B :: (Json.quote "mode" ++ [0x3A]) := by decide +kernel
  have hpan : utf8 ",\"pan\":" = 0x2C :: (Json.quote "pan" ++ [0x3A]) := by decide +kernel
  have htilt : utf8 ",\"tilt\":" = 0x2C :: (Json.quote "tilt" ++ [0x3A]) := by decide +kernel
  have htext : (Json.printed (Request.servoMembers mode pan tilt)).text =
      0x7B :: ((Json.printedMember ("mode", .str mode)).text ++
        0x2C :: ((Json.printedMember ("pan", .num pan)).text ++
          0x2C :: (Json.printedMember ("tilt", .num tilt)).text) ++ [0x7D]) := rfl
  rw [htext, Json.printedMember_text, Json.printedMember_text, Json.printedMember_text, servoBody,
    hmode, hpan, htilt, ← Json.quotation_text mode]
  simp only [List.cons_append, List.append_assoc, List.nil_append]
  rfl

namespace Client

variable {ν : Type} (W : Web ν) (num : ν → Json.NumberText)

/-- The request of an action. -/
def Action.request : Action ν → Request
  | .nudge dPan dTilt => .servoStep (num dPan) (num dTilt)
  | .home => .servoAbs (.ofNat 90) (.ofNat 90)
  | .aim dx dy => .servoStep (num (W.timesAimMaxDeg dx)) (num (W.timesAimMaxDeg (W.neg dy)))
  | .setMode on => .mode on
  | .refreshFiles => .fileList
  | .downloadFile name => .file name
  | .deleteFile name => .delete name
  | .snapshot => .snapshot

/-- Is it the store's socket, and open? -/
def usable (c : Client) (i : Nat) : Bool :=
  c.store.ws == some i && (c.browser.sockets[i]?).map WebSocket.readyState == some .OPEN

/-- Is the message a FILE_DELETE_RESP that says `ok`? -/
def deletes (frame : Bytes) : Bool :=
  match decodeHeader frame with
  | none => false
  | some header =>
    match MsgType.ofCode (UInt16.ofNat header.type) with
    | some .FileDeleteResp => W.parseDeleteOk (framePayload frame header)
    | _ => false

/-- The requests that an event makes on socket `i`. -/
def asks (i : Nat) (c : Client) : Event ν → List Request
  | .act a => if c.usable i then [a.request W num] else []
  | .opened j => if j = i ∧ c.store.ws = some i then [.fileList] else []
  | .message j _ (some frame) => if j = i ∧ c.usable i ∧ deletes W frame then [.fileList] else []
  | _ => []

theorem usable_iff {c : Client} {i : Nat} : c.usable i = true ↔ c.store.ws = some i ∧
    (c.browser.sockets[i]?).map WebSocket.readyState = some .OPEN := by
  unfold usable
  rw [Bool.and_eq_true, beq_iff_eq, beq_iff_eq]

/-- The socket after the requests `l` were made on it. -/
structure Speech (l : List Request) (s : WebSocket) : Prop where
  connecting : s.readyState = .CONNECTING → s.sent = []
  said : s.sent = [] ∧ l = [] ∨ s.sent = hello s.token :: l.map fun r => r.message.wire

/-- A socket that does not exist has had no requests. -/
def Spoken (i : Nat) (l : List Request) (c : Client) : Prop :=
  (c.browser.sockets[i]?).elim (l = []) (Speech l)

theorem Spoken.mk {i : Nat} {l : List Request} {c : Client}
    (hnone : c.browser.sockets[i]? = none → l = [])
    (hsome : ∀ s, c.browser.sockets[i]? = some s → Speech l s) : Spoken i l c := by
  unfold Spoken
  cases hs : c.browser.sockets[i]? with
  | none => exact hnone hs
  | some s => exact hsome s hs

theorem Spoken.absent {i : Nat} {l : List Request} {c : Client} (h : Spoken i l c)
    (hs : c.browser.sockets[i]? = none) : l = [] := by
  unfold Spoken at h
  rwa [hs] at h

theorem Spoken.speech {i : Nat} {l : List Request} {c : Client} (h : Spoken i l c) {s : WebSocket}
    (hs : c.browser.sockets[i]? = some s) : Speech l s := by
  unfold Spoken at h
  rwa [hs] at h

theorem Spoken.of_eq {i : Nat} {l : List Request} {c c' : Client} (h : Spoken i l c)
    (hc : c'.browser.sockets = c.browser.sockets) : Spoken i l c' := by
  unfold Spoken at h ⊢
  rwa [hc]

/-- The dialogue survives a socket that leaves the state CONNECTING without a
word. -/
theorem Spoken.modify {i : Nat} {l : List Request} {c : Client} (h : Spoken i l c) {j : Nat}
    {f : WebSocket → WebSocket} (hstate : ∀ s, (f s).readyState ≠ .CONNECTING)
    (hsent : ∀ s, (f s).sent = s.sent) (htoken : ∀ s, (f s).token = s.token) :
    Spoken i l (c.modifySocket j f) := by
  refine .mk (fun hs => ?_) fun s hs => ?_
  · rw [getElem?_modifySocket] at hs
    split at hs
    · exact h.absent (Option.map_eq_none_iff.mp hs)
    · exact h.absent hs
  · rw [getElem?_modifySocket] at hs
    split at hs
    · obtain ⟨s₀, hs₀, rfl⟩ := Option.map_eq_some_iff.mp hs
      refine ⟨fun hc => absurd hc (hstate s₀), ?_⟩
      rw [hsent, htoken]
      exact (h.speech hs₀).said
    · exact h.speech hs

/-! ## Sending -/

/-- Sending appends to the socket in use, if it is open. -/
theorem getElem?_send (c : Client) (buf : Bytes) (i : Nat) :
    (c.send buf).browser.sockets[i]? =
      if c.usable i then (c.browser.sockets[i]?).map fun s => { s with sent := s.sent ++ [buf] }
      else c.browser.sockets[i]? := by
  unfold Client.send
  split
  · rename_i hws
    rw [if_neg]
    intro hu
    rw [(usable_iff.mp hu).1] at hws
    cases hws
  · rename_i j hws
    split
    · rename_i hopen
      rw [getElem?_modifySocket]
      by_cases hij : j = i
      · subst hij
        rw [if_pos rfl, if_pos (usable_iff.mpr ⟨hws, hopen⟩)]
      · rw [if_neg hij, if_neg]
        intro hu
        rw [(usable_iff.mp hu).1] at hws
        exact hij (Option.some.inj hws).symm
    · rename_i hopen
      rw [if_neg]
      intro hu
      obtain ⟨hi, hstate⟩ := usable_iff.mp hu
      rw [hi] at hws
      obtain rfl := Option.some.inj hws
      exact hopen hstate

/-- An open socket in use has been greeted. -/
theorem Speech.greeted {c : Client} {i : Nat} (hu : c.usable i = true) {l : List Request}
    {s : WebSocket} (hs : c.browser.sockets[i]? = some s) (hok : SocketOk c.store.ws i s)
    (h : Speech l s) : s.readyState = .OPEN ∧ s.sent = hello s.token :: l.map fun r => r.message.wire := by
  obtain ⟨hws, hopen⟩ := usable_iff.mp hu
  rw [hs] at hopen
  have hstate : s.readyState = .OPEN := Option.some.inj hopen
  refine ⟨hstate, h.said.resolve_left ?_⟩
  rintro ⟨hempty, -⟩
  rcases hok.greeted with hhead | ⟨-, hclosed⟩
  · rw [hempty] at hhead
    cases hhead
  · rw [hok.ours hws] at hclosed
    cases hclosed hstate

/-- A request is sent behind HELLO, or not at all. -/
theorem Spoken.send {i : Nat} {l : List Request} {c : Client}
    (hok : ∀ s, c.browser.sockets[i]? = some s → SocketOk c.store.ws i s) (h : Spoken i l c)
    (r : Request) :
    Spoken i (l ++ if c.usable i then [r] else []) (c.send r.message.wire) := by
  by_cases hu : c.usable i = true
  · rw [if_pos hu]
    obtain ⟨s, hs⟩ : ∃ s, c.browser.sockets[i]? = some s := by
      obtain ⟨s, hs, -⟩ := Option.map_eq_some_iff.mp (usable_iff.mp hu).2
      exact ⟨s, hs⟩
    obtain ⟨hstate, hsent⟩ := (h.speech hs).greeted hu hs (hok s hs)
    have hafter := getElem?_send c r.message.wire i
    rw [if_pos hu, hs] at hafter
    unfold Spoken
    rw [hafter]
    refine ⟨fun hc => absurd (hstate.symm.trans hc) (by decide), .inr ?_⟩
    show s.sent ++ [r.message.wire] = _
    rw [hsent, List.map_append]
    rfl
  · rw [if_neg hu, List.append_nil]
    unfold Spoken at h ⊢
    rwa [getElem?_send, if_neg hu]

/-- An action sends its request. -/
theorem act_eq (hnum : ∀ x, W.stringify x = (num x).text) (c : Client) (a : Action ν) :
    ∃ store, store.ws = c.store.ws ∧
      c.act W a = Client.send ⟨store, c.browser⟩ (a.request W num).message.wire := by
  have hjson : ∀ (type : MsgType) (o : List (String × Json.Value)), buildJson type o =
      Message.wire ⟨type.code, 0, (Json.printed (o.map fun m => (m.1, m.2.scalar))).text⟩ := by
    intro type o
    rw [Json.printed_text, buildJson, buildMessage_wire]
  have hservo : ∀ (mode : String) (pan tilt : Json.NumberText),
      buildMessage .ServoCmd (servoBody mode pan.text tilt.text) =
        Message.wire ⟨MsgType.ServoCmd.code, 0,
          (Json.printed (Request.servoMembers mode pan tilt)).text⟩ := by
    intro mode pan tilt
    rw [servoBody_printed, buildMessage_wire]
  cases a with
  | nudge dPan dTilt =>
    refine ⟨c.store, rfl, congrArg c.send ?_⟩
    rw [servoStep, hnum, hnum]
    exact hservo "step" _ _
  | home =>
    refine ⟨c.store, rfl, congrArg c.send ?_⟩
    have hninety : utf8 "90" = (Json.NumberText.ofNat 90).text :=
      (Json.NumberText.ofNat_text 90).symm
    rw [servoAbs, hninety]
    exact hservo "abs" _ _
  | aim dx dy =>
    refine ⟨c.store, rfl, congrArg c.send ?_⟩
    rw [servoStep, hnum, hnum]
    exact hservo "step" _ _
  | setMode on => exact ⟨{ c.store with autoTrack := on }, rfl, congrArg (Client.send _) (hjson _ _)⟩
  | refreshFiles => exact ⟨c.store, rfl, congrArg c.send (buildMessage_wire _ _)⟩
  | downloadFile name => exact ⟨c.store, rfl, congrArg c.send (hjson _ _)⟩
  | deleteFile name => exact ⟨c.store, rfl, congrArg c.send (hjson _ _)⟩
  | snapshot => exact ⟨c.store, rfl, congrArg c.send (buildMessage_wire _ _)⟩

/-! ## Events -/

theorem Spoken.act {i : Nat} {l : List Request} {c : Client} (hinv : Inv c) (h : Spoken i l c)
    (hnum : ∀ x, W.stringify x = (num x).text) (a : Action ν) :
    Spoken i (l ++ asks W num i c (.act a)) (c.act W a) := by
  obtain ⟨store, hws, hact⟩ := act_eq W num hnum c a
  have hok : ∀ s, c.browser.sockets[i]? = some s → SocketOk store.ws i s := by
    intro s hs
    rw [hws]
    exact hinv.sockets i s hs
  have husable : asks W num i c (.act a) =
      if (Client.mk store c.browser).usable i then [a.request W num] else [] := by
    unfold asks usable
    rw [hws]
  rw [hact, husable]
  exact Spoken.send (c := ⟨store, c.browser⟩) hok h (a.request W num)

theorem Spoken.dropSocket {i : Nat} {l : List Request} {c : Client} (h : Spoken i l c) :
    Spoken i l c.dropSocket := by
  unfold Client.dropSocket
  split
  · exact h
  · rename_i j _
    have hdrop : Spoken i l { c with store := { c.store with ws := none } } := h
    refine hdrop.modify (fun s => ?_) (fun _ => rfl) fun _ => rfl
    unfold WebSocket.close
    simp only
    split
    · exact nofun
    · exact nofun

theorem Spoken.disconnect {i : Nat} {l : List Request} {c : Client} (h : Spoken i l c) :
    Spoken i l c.disconnect := by
  have hdrop := h.dropSocket
  unfold Client.disconnect
  generalize c.dropSocket = c at hdrop
  simp only
  obtain ⟨urls, hforget⟩ := forgetFrame_eq (Client.mk
    { c.store with status := .disconnected, fps := 0, frameCount := 0, fpsAnchor := 0,
                   downloads := [] } c.browser)
  rw [hforget]
  exact hdrop

/-- Nothing has been sent on a new socket. -/
theorem Spoken.connect {i : Nat} {l : List Request} {c : Client} (h : Spoken i l c) (host : String)
    (port : Nat) (token : String) (tls : Bool) (thrown : Option String) :
    Spoken i l (c.connect host port token tls thrown) := by
  have hidle := h.disconnect
  unfold Client.connect
  generalize c.disconnect = c at hidle
  cases thrown with
  | some e => exact hidle
  | none =>
    simp only
    by_cases hi : i < c.browser.sockets.length
    · unfold Spoken at hidle ⊢
      simp only
      rwa [List.getElem?_append_left hi]
    · have hl : l = [] := hidle.absent (List.getElem?_eq_none (Nat.le_of_not_lt hi))
      subst hl
      refine .mk (fun _ => rfl) fun s hs => ?_
      simp only at hs
      rw [List.getElem?_append_right (Nat.le_of_not_lt hi)] at hs
      obtain rfl := List.mem_singleton.mp (List.mem_of_getElem? hs)
      exact ⟨fun _ => rfl, .inl ⟨rfl, rfl⟩⟩

/-- A message makes no request but the one for the list. -/
theorem onMessage_sockets (c : Client) (j : Nat) (now : ℚ) (frame : Bytes) :
    (c.onMessage W j now frame).browser.sockets =
      (if deletes W frame then c.refreshFiles else c).browser.sockets := by
  unfold Client.onMessage
  cases hheader : decodeHeader frame with
  | none =>
    have hdeletes : deletes W frame = false := by
      unfold deletes
      rw [hheader]
    rw [hdeletes]
    rfl
  | some header =>
    have hdeletes : deletes W frame = match MsgType.ofCode (UInt16.ofNat header.type) with
        | some .FileDeleteResp => W.parseDeleteOk (framePayload frame header)
        | _ => false := by
      unfold deletes
      rw [hheader]
    simp only
    split
    · rename_i hcode
      rw [hdeletes, hcode]
      show (c.onVideo now (framePayload frame header)).browser.sockets = c.browser.sockets
      unfold Client.onVideo
      split
      · rfl
      · obtain ⟨urls, hforget⟩ := forgetFrame_eq (c.createObjectURL .frame)
        simp only
        rw [hforget]
        rfl
    · rename_i hcode
      rw [hdeletes, hcode]
      rfl
    · rename_i hcode
      rw [hdeletes, hcode]
      show (c.onFileData W j (framePayload frame header)).browser.sockets = c.browser.sockets
      unfold Client.onFileData
      split
      · rfl
      · simp only
        split
        · rfl
        · split
          · rfl
          · rfl
    · rename_i hcode
      rw [hdeletes, hcode]
      rfl
    · rw [hdeletes]
      split
      · exact absurd ‹_› ‹_›
      · rfl

/-- The `open` event comes from a socket that is connecting. -/
def opens (c : Client) : Event ν → Bool
  | .opened j => (c.browser.sockets[j]?).all fun s => s.readyState == .CONNECTING
  | _ => true

section Fire

variable {c : Client} (hinv : Inv c) {i j : Nat} {l : List Request} (h : Spoken i l c)
  {s : WebSocket} (hs : c.browser.sockets[j]? = some s) (hlive : s.readyState ≠ .CLOSED)
include hinv h hs hlive

/-- HELLO and the request for the list open the dialogue. -/
theorem Spoken.opened (hstate : s.readyState = .CONNECTING) :
    Spoken i (l ++ if j = i ∧ c.store.ws = some i then [.fileList] else [])
      ((c.setReadyState j .OPEN).call j onOpen) := by
  have hset : Spoken i l (c.setReadyState j .OPEN) :=
    h.modify (fun _ => nofun) (fun _ => rfl) fun _ => rfl
  rw [call_setReadyState hs]
  cases hhandlers : s.handlers with
  | none =>
    rw [if_neg, List.append_nil]
    · exact hset
    · rintro ⟨rfl, hws⟩
      rw [(hinv.sockets j s hs).ours hws] at hhandlers
      cases hhandlers
  | some token =>
    obtain ⟨hws, htoken⟩ := hinv.of_call hs hlive hhandlers
    simp only
    rw [onOpen_eq hs hws]
    let u : Client :=
      ⟨{ c.store with status := .connected }, (c.modifySocket j (greet token)).browser⟩
    have hu : ∀ k, u.browser.sockets[k]? =
        if j = k then (c.browser.sockets[k]?).map (greet token) else c.browser.sockets[k]? :=
      fun k => getElem?_modifySocket c j k _
    show Spoken i _ (u.send fileListReq)
    unfold Spoken
    rw [getElem?_send]
    by_cases hij : j = i
    · subst hij
      have hselfu : u.browser.sockets[j]? = some (greet token s) := by
        rw [hu, if_pos rfl, hs]
        rfl
      have husable : u.usable j = true := usable_iff.mpr ⟨hws, by rw [hselfu]; rfl⟩
      rw [if_pos husable, hselfu, if_pos ⟨rfl, hws⟩]
      have hempty : s.sent = [] := (h.speech hs).connecting hstate
      have hl : l = [] := by
        rcases (h.speech hs).said with ⟨-, hl⟩ | hsaid
        · exact hl
        · rw [hempty] at hsaid
          cases hsaid
      subst hl
      refine ⟨nofun, .inr ?_⟩
      show s.sent ++ [hello token] ++ [fileListReq] = _
      rw [hempty, htoken]
      exact congrArg (fun buf => [hello s.token, buf]) (buildMessage_wire _ _)
    · have hnot : ¬ u.usable i = true := by
        intro hui
        have hwsi : c.store.ws = some i := (usable_iff.mp hui).1
        rw [hws] at hwsi
        exact hij (Option.some.inj hwsi)
      rw [if_neg hnot, if_neg fun hc => hij hc.1, List.append_nil, hu, if_neg hij]
      exact h

/-- Only a confirmed deletion leads to a request. -/
theorem Spoken.message (now : ℚ) (frame : Bytes) :
    Spoken i (l ++ if j = i ∧ c.usable i ∧ deletes W frame then [.fileList] else [])
      (c.call j fun c _ => c.onMessage W j now frame) := by
  unfold call
  rw [hs, Option.bind_some]
  cases hhandlers : s.handlers with
  | none =>
    simp only
    rw [if_neg, List.append_nil]
    · exact h
    · rintro ⟨rfl, hu, -⟩
      rw [(hinv.sockets j s hs).ours (usable_iff.mp hu).1] at hhandlers
      cases hhandlers
  | some token =>
    simp only
    have hws := (hinv.of_call hs hlive hhandlers).1
    have hsockets := onMessage_sockets W c j now frame
    by_cases hd : deletes W frame = true
    · rw [if_pos hd] at hsockets
      have hrefresh : Spoken i (l ++ if c.usable i then [.fileList] else []) c.refreshFiles := by
        have hsend := h.send (hinv.sockets i) .fileList
        rwa [show Request.message .fileList = ⟨MsgType.FileListReq.code, 0, []⟩ from rfl,
          ← buildMessage_wire] at hsend
      have hthis : (j = i ∧ c.usable i = true ∧ deletes W frame = true) ↔ c.usable i = true := by
        refine ⟨fun hc => hc.2.1, fun hu => ⟨?_, hu, hd⟩⟩
        have hwsi := (usable_iff.mp hu).1
        rw [hws] at hwsi
        exact Option.some.inj hwsi
      rw [if_congr hthis rfl rfl]
      exact hrefresh.of_eq hsockets
    · rw [if_neg hd] at hsockets
      rw [if_neg fun hc => hd hc.2.2, List.append_nil]
      exact h.of_eq hsockets

theorem Spoken.fire {e : Event ν} (he : e.socket = some j) (hopens : c.opens e = true) :
    Spoken i (l ++ asks W num i c e) (c.fire W j e) := by
  have hsilent : ∀ {u : Client}, Spoken i l u → Spoken i (l ++ []) u := by
    intro u hu
    rwa [List.append_nil]
  cases e with
  | connect | disconnect | act | timeout => cases he
  | opened k =>
    obtain rfl : k = j := Option.some.inj he
    refine h.opened hinv hs hlive ?_
    have hall : (c.browser.sockets[k]?).all (fun s => s.readyState == .CONNECTING) = true := hopens
    rw [hs] at hall
    exact beq_iff_eq.mp hall
  | message k now data =>
    obtain rfl : k = j := Option.some.inj he
    cases data with
    | none => exact hsilent h
    | some frame => exact h.message W hinv hs hlive now frame
  | error k =>
    refine hsilent (h.of_eq ?_)
    show (c.call j fun c _ => c.onError).browser.sockets = _
    unfold call
    split
    · rfl
    · show c.onError.browser.sockets = _
      unfold onError
      split
      · rfl
      · rfl
  | closing k =>
    refine hsilent ?_
    exact h.modify (fun _ => nofun) (fun _ => rfl) fun _ => rfl
  | closed k =>
    refine hsilent ?_
    have hset : Spoken i l (c.setReadyState j .CLOSED) :=
      h.modify (fun _ => nofun) (fun _ => rfl) fun _ => rfl
    show Spoken i l ((c.setReadyState j .CLOSED).call j fun c _ => c.onClose j)
    unfold call
    split
    · exact hset
    · exact hset.of_eq rfl

end Fire

/-- An event adds to the dialogue what it asks for. -/
theorem Spoken.step {c c' : Client} {e : Event ν} {i : Nat} {l : List Request} (hinv : Inv c)
    (h : Spoken i l c) (hnum : ∀ x, W.stringify x = (num x).text) (hopens : c.opens e = true)
    (hstep : step W c e = some c') : Spoken i (l ++ asks W num i c e) c' := by
  have hsocket : ∀ j, e.socket = some j →
      (if c.live j then some (c.fire W j e) else none) = some c' →
        Spoken i (l ++ asks W num i c e) c' := by
    intro j he hfire
    unfold live at hfire
    cases hs : c.browser.sockets[j]? with
    | none =>
      rw [hs] at hfire
      cases hfire
    | some s =>
      rw [hs] at hfire
      simp only [bne_iff_ne] at hfire
      split at hfire
      · rename_i hlive
        rw [← Option.some.inj hfire]
        exact h.fire W num hinv hs hlive he hopens
      · cases hfire
  have hsilent : ∀ {u : Client}, Spoken i l u → Spoken i (l ++ []) u := by
    intro u hu
    rwa [List.append_nil]
  cases e with
  | connect host port token tls thrown =>
    rw [← Option.some.inj hstep]
    exact hsilent (h.connect host port token tls thrown)
  | disconnect =>
    rw [← Option.some.inj hstep]
    exact hsilent h.disconnect
  | act a =>
    rw [← Option.some.inj hstep]
    exact h.act W num hinv hnum a
  | timeout url =>
    unfold Client.step at hstep
    simp only at hstep
    split at hstep
    · rw [← Option.some.inj hstep]
      exact hsilent (h.of_eq rfl)
    · cases hstep
  | opened j | message j | error j | closing j | closed j => exact hsocket j rfl hstep

/-- **What the page says.** In a run every request made on a socket has been sent on
it, behind the HELLO of its `connect`, in order and with nothing else. -/
theorem speech_of_play (hnum : ∀ x, W.stringify x = (num x).text) {c : Client} {es : List (Event ν)}
    (hopens : Throughout (step W) (fun c e => c.opens e = true) fresh es)
    (h : play (step W) fresh es = some c) {i : Nat} {s : WebSocket}
    (hs : c.browser.sockets[i]? = some s) :
    Speech (outputs (step W) (asks W num i) fresh es) s := by
  have hrun : Inv c ∧ Spoken i ([] ++ outputs (step W) (asks W num i) fresh es) c := by
    refine history (step W) (I := fun c l => Inv c ∧ Spoken i l c)
      (fun c l e c' hI hP hstep => ?_) ⟨inv_fresh, rfl⟩ hopens h
    exact ⟨hI.1.step W hstep, hI.2.step W num hI.1 hnum hP hstep⟩
  exact hrun.2.speech hs

end Client

open Client ClientSession

/-- A browser in which nothing parses, with whole numbers of degrees. -/
def plainWeb : Web Nat where
  decode _ := ""
  parseFileList _ := []
  parseDeleteOk _ := false
  stringify x := (Json.NumberText.ofNat x).text
  neg := id
  timesAimMaxDeg := (12 * ·)

/-- The user connects, turns the head and deletes a file. -/
def nudgeUp : List (Client.Event Nat) :=
  [.connect "h" 8889 "" false none, .opened 0, .act (.nudge 0 5),
    .act (.deleteFile "a.jpg")]

def nudged : Client := (play (Client.step plainWeb) Client.fresh nudgeUp).getD Client.fresh

def nudgedSocket : WebSocket :=
  (nudged.browser.sockets[0]?).getD ⟨"", .CLOSED, none, [], ""⟩

end FaceTracking.MobileClient
