import FaceTracking.Lib.Runs
import FaceTracking.MobileClient.Store

/-!
# The mobile client's connection

`Inv` is what every event keeps, whatever sockets it comes from: the status
follows `ws`, `ws` is the socket of the most recent `connect`, every other
socket is closed or has no handlers, nothing is sent on a socket in front of
its HELLO, the parts of unfinished downloads came in over the latest socket,
and the frame shown has the one frame URL that is not revoked.

The key is `Inv.of_call`: a handler that is called belongs to `ws`.
-/

namespace FaceTracking.MobileClient.Client

open Lib Proto

variable {ν : Type} (W : Web ν)

/-! ## The invariant -/

/-- The first message on the socket is its HELLO. -/
def Greeted (s : WebSocket) : Prop :=
  s.sent.head? = some (hello s.token) ∨
    (s.sent = [] ∧ (s.readyState = .OPEN → s.handlers = none))

/-- Socket `i` when the store's socket is `ws`. -/
structure SocketOk (ws : Option Nat) (i : Nat) (s : WebSocket) : Prop where
  ours : ws = some i → s.handlers = some s.token
  stale : ws ≠ some i → s.handlers = none ∨ s.readyState = .CLOSED
  token : ∀ t, s.handlers = some t → t = s.token
  greeted : Greeted s

/-- The URLs of frames that are not revoked. -/
def frameUrls (c : Client) : List Url :=
  (c.browser.urls.filter fun u => u.2 == .frame).map Prod.fst

/-- The parts that unfinished downloads hold. -/
def parts (c : Client) : List Part := c.store.downloads.flatMap fun d => d.2.parts

structure Inv (c : Client) : Prop where
  status : c.store.status = .disconnected ↔ c.store.ws = none
  latest : ∀ i, c.store.ws = some i → c.browser.latest = some i
  valid : ∀ i, c.store.ws = some i → i < c.browser.sockets.length
  sockets : ∀ i s, c.browser.sockets[i]? = some s → SocketOk c.store.ws i s
  parts : ∀ p ∈ c.parts, c.browser.latest = some p.via
  frames : c.frameUrls = c.store.lastUrl.toList
  shown : ∀ u, c.store.lastUrl = some u → u < c.browser.nextUrl
  timers : ∀ u ∈ c.browser.timers, u < c.browser.nextUrl ∧ c.store.lastUrl ≠ some u

theorem inv_fresh : Inv fresh := by
  refine ⟨by decide, ?_, ?_, ?_, ?_, rfl, ?_, ?_⟩
  · intro i h
    cases h
  · intro i h
    cases h
  · intro i s h
    cases h
  · intro p h
    cases h
  · intro u h
    cases h
  · intro u h
    cases h

/-! ## Sockets -/

theorem getElem?_modifySocket (c : Client) (i j : Nat) (f : WebSocket → WebSocket) :
    (c.modifySocket i f).browser.sockets[j]? =
      if i = j then (c.browser.sockets[j]?).map f else c.browser.sockets[j]? := by
  change (c.browser.sockets.modify i f)[j]? = _
  rw [List.getElem?_modify]
  split <;> simp

/-- If the changed socket is in order, so are all. -/
theorem sockets_modify {c : Client} {ws : Option Nat} {i : Nat} {f : WebSocket → WebSocket}
    (hother : ∀ j s, j ≠ i → c.browser.sockets[j]? = some s → SocketOk ws j s)
    (hself : ∀ s, c.browser.sockets[i]? = some s → SocketOk ws i (f s)) :
    ∀ j s, (c.modifySocket i f).browser.sockets[j]? = some s → SocketOk ws j s := by
  intro j s hs
  rw [getElem?_modifySocket] at hs
  by_cases hij : i = j
  · subst hij
    rw [if_pos rfl] at hs
    obtain ⟨s₀, hs₀, rfl⟩ := Option.map_eq_some_iff.mp hs
    exact hself s₀ hs₀
  · rw [if_neg hij] at hs
    exact hother j s (fun h => hij h.symm) hs

/-- The invariant survives a change of one socket that leaves it in order. -/
theorem Inv.modify {c : Client} (h : Inv c) {i : Nat} {f : WebSocket → WebSocket}
    (hself : ∀ s, c.browser.sockets[i]? = some s → SocketOk c.store.ws i (f s)) :
    Inv (c.modifySocket i f) where
  status := h.status
  latest := h.latest
  valid j hj := by
    change j < (c.browser.sockets.modify i f).length
    rw [List.length_modify]
    exact h.valid j hj
  sockets := sockets_modify (fun j s _ => h.sockets j s) hself
  parts := h.parts
  frames := h.frames
  shown := h.shown
  timers := h.timers

/-- A handler that is called belongs to the socket in use, and its token is that
socket's. -/
theorem Inv.of_call {c : Client} (h : Inv c) {i : Nat} {s : WebSocket} {token : String}
    (hs : c.browser.sockets[i]? = some s) (hlive : s.readyState ≠ .CLOSED)
    (hhandlers : s.handlers = some token) : c.store.ws = some i ∧ token = s.token := by
  have hok := h.sockets i s hs
  refine ⟨?_, hok.token token hhandlers⟩
  by_contra hne
  rcases hok.stale hne with hnone | hclosed
  · rw [hnone] at hhandlers
    cases hhandlers
  · exact hlive hclosed

/-! ## Sending -/

theorem Inv.send {c : Client} (h : Inv c) (buf : Bytes) : Inv (c.send buf) := by
  unfold Client.send
  split
  · exact h
  · rename_i i hws
    split
    · rename_i hopen
      refine h.modify fun s hs => ?_
      have hok := h.sockets i s hs
      have hstate : s.readyState = .OPEN := by
        rw [hs] at hopen
        exact Option.some.inj hopen
      refine ⟨hok.ours, hok.stale, hok.token, .inl ?_⟩
      -- the socket is open and has its handlers, so its HELLO has been sent
      rcases hok.greeted with hhead | ⟨-, hclosed⟩
      · rw [List.head?_append, hhead]
        rfl
      · rw [hok.ours hws] at hclosed
        cases hclosed hstate
    · exact h

/-! ## Connecting -/

theorem frameUrls_revoke (c : Client) (url : Url) :
    (c.revokeObjectURL url).frameUrls = c.frameUrls.filter (fun u => u != url) := by
  unfold frameUrls revokeObjectURL
  simp only [List.filter_filter, List.filter_map]
  congr 1
  apply List.filter_congr
  intro u _
  simp [Bool.and_comm]

/-- Dropping the frame leaves the frame URLs made since. -/
theorem forgetFrame_frames {c : Client} (us : List Url)
    (h : c.frameUrls = us ++ c.store.lastUrl.toList) (hus : ∀ u ∈ us, c.store.lastUrl ≠ some u) :
    c.forgetFrame.frameUrls = us := by
  unfold forgetFrame
  split
  · rename_i hlast
    rw [h, hlast]
    exact List.append_nil us
  · rename_i url hlast
    have hrevoke := frameUrls_revoke c url
    rw [h, hlast, List.filter_append, List.filter_eq_self.mpr] at hrevoke
    · exact hrevoke.trans (by simp)
    · intro u hu
      have hne := hus u hu
      rw [hlast] at hne
      simpa using fun heq : u = url => hne (congrArg some heq.symm)

/-- Dropping the frame changes the last URL and the browser's URLs only. -/
theorem forgetFrame_eq (c : Client) :
    ∃ urls, c.forgetFrame =
      { store := { c.store with lastUrl := none }, browser := { c.browser with urls } } := by
  unfold forgetFrame
  split
  · rename_i hlast
    exact ⟨c.browser.urls, by rw [← hlast]⟩
  · exact ⟨_, rfl⟩

theorem Greeted.close {s : WebSocket} (h : Greeted s) :
    Greeted (WebSocket.close { s with handlers := none }) := by
  rcases h with hhead | ⟨hempty, -⟩
  · exact .inl hhead
  · exact .inr ⟨hempty, fun _ => rfl⟩

/-- Once the socket in use is given up, every socket is in order without one. -/
theorem dropSocket_eq {c : Client} (h : Inv c) :
    ∃ sockets, c.dropSocket = ⟨{ c.store with ws := none }, { c.browser with sockets }⟩ ∧
      ∀ i s, sockets[i]? = some s → SocketOk none i s := by
  unfold dropSocket
  split
  · rename_i hws
    refine ⟨c.browser.sockets, by rw [← hws], fun i s hs => ?_⟩
    have hok := h.sockets i s hs
    rwa [hws] at hok
  · rename_i i hws
    -- the others were stale already, and this one loses its handlers
    refine ⟨_, rfl, sockets_modify (fun j s hj hs => ?_) fun s hs => ?_⟩
    · have hok := h.sockets j s hs
      have hne : c.store.ws ≠ some j := by
        rw [hws]
        exact fun heq => hj (Option.some.inj heq).symm
      exact ⟨nofun, fun _ => hok.stale hne, hok.token, hok.greeted⟩
    · have hok := h.sockets i s hs
      exact ⟨nofun, fun _ => .inl rfl, nofun, hok.greeted.close⟩

/-- A client without a socket, a frame and downloads. -/
structure Idle (c : Client) : Prop extends Inv c where
  ws : c.store.ws = none
  downloads : c.store.downloads = []

theorem Inv.disconnect {c : Client} (h : Inv c) : Idle c.disconnect := by
  obtain ⟨sockets, hdrop, hsockets⟩ := dropSocket_eq h
  unfold Client.disconnect
  rw [hdrop]
  obtain ⟨urls, hforget⟩ := forgetFrame_eq (Client.mk
    { c.store with
      ws := none, status := .disconnected, fps := 0, frameCount := 0, fpsAnchor := 0
      downloads := [] }
    { c.browser with sockets })
  have hframes := forgetFrame_frames (c := Client.mk
    { c.store with
      ws := none, status := .disconnected, fps := 0, frameCount := 0, fpsAnchor := 0
      downloads := [] }
    { c.browser with sockets }) [] h.frames nofun
  rw [hforget] at hframes
  simp only
  rw [hforget]
  exact
    { status := by simp
      latest := nofun
      valid := nofun
      sockets := hsockets
      parts := nofun
      frames := hframes
      shown := nofun
      timers := fun u hu => ⟨(h.timers u hu).1, nofun⟩
      ws := rfl
      downloads := rfl }

/-- A new socket that becomes the one in use leaves the others in order. -/
theorem Idle.sockets_append {c : Client} (h : Idle c) {sock : WebSocket}
    (hnew : SocketOk (some c.browser.sockets.length) c.browser.sockets.length sock) :
    ∀ i s, (c.browser.sockets ++ [sock])[i]? = some s →
      SocketOk (some c.browser.sockets.length) i s := by
  intro i s hs
  rw [List.getElem?_append] at hs
  split at hs
  · rename_i hlt
    -- an older socket: none is in use, so it is stale
    have hok := h.sockets i s hs
    have hne : c.store.ws ≠ some i := by
      rw [h.ws]
      nofun
    refine ⟨fun heq => ?_, fun _ => hok.stale hne, hok.token, hok.greeted⟩
    have hlen : c.browser.sockets.length = i := Option.some.inj heq
    omega
  · rename_i hge
    obtain ⟨hi, rfl⟩ : i = c.browser.sockets.length ∧ sock = s := by
      have hlt := (List.getElem?_eq_some_iff.mp hs).1
      have hzero : i - c.browser.sockets.length = 0 := by
        simp at hlt
        omega
      rw [hzero] at hs
      exact ⟨by omega, Option.some.inj hs⟩
    rw [hi]
    exact hnew

theorem Idle.parts_eq {c : Client} (h : Idle c) : c.parts = [] := by
  rw [Client.parts, h.downloads]
  rfl

/-- `connect` keeps the invariant, also when the constructor throws. -/
theorem Inv.connect {c : Client} (h : Inv c) (host : String) (port : Nat) (token : String)
    (tls : Bool) (thrown : Option String) : Inv (c.connect host port token tls thrown) := by
  have hidle := h.disconnect
  unfold Client.connect
  generalize c.disconnect = c at hidle
  have hws := hidle.ws
  have hnone : ∀ i, c.store.ws ≠ some i := by
    intro i
    rw [hws]
    nofun
  have hparts : ∀ latest : Option Nat, ∀ p ∈ c.parts, latest = some p.via := by
    intro latest p hp
    rw [hidle.parts_eq] at hp
    cases hp
  cases thrown with
  | some e =>
    exact
      { status := by simp [hws]
        latest := fun i hi => absurd hi (hnone i)
        valid := fun i hi => absurd hi (hnone i)
        sockets := hidle.sockets
        parts := hparts none
        frames := hidle.frames
        shown := hidle.shown
        timers := hidle.timers }
  | none =>
    exact
      { status := by simp
        latest := fun i hi => hi
        valid := by
          intro i hi
          rw [← Option.some.inj hi]
          simp
        -- nothing has been sent on it
        sockets := hidle.sockets_append ⟨fun _ => rfl, fun hne => absurd rfl hne,
          fun t ht => (Option.some.inj ht).symm, .inr ⟨rfl, nofun⟩⟩
        parts := hparts _
        frames := hidle.frames
        shown := hidle.shown
        timers := hidle.timers }

/-! ## Incoming -/

/-- What the invariant does not look at may change. -/
theorem Inv.of_eq {c c' : Client} (h : Inv c) (hstatus : c'.store.status = c.store.status)
    (hws : c'.store.ws = c.store.ws) (hlast : c'.store.lastUrl = c.store.lastUrl)
    (hdownloads : c'.store.downloads = c.store.downloads) (hbrowser : c'.browser = c.browser) :
    Inv c' := by
  obtain ⟨s, b⟩ := c
  obtain ⟨s', b'⟩ := c'
  simp only at hstatus hws hlast hdownloads hbrowser
  subst hbrowser
  refine ⟨?_, ?_, ?_, ?_, ?_, ?_, ?_, ?_⟩
  · simpa only [hstatus, hws] using h.status
  · simpa only [hws] using h.latest
  · simpa only [hws] using h.valid
  · simpa only [hws] using h.sockets
  · simpa only [Client.parts, hdownloads] using h.parts
  · simpa only [frameUrls, hlast] using h.frames
  · simpa only [hlast] using h.shown
  · simpa only [hlast] using h.timers

theorem Inv.setDownloads {c : Client} (h : Inv c) {ds : List (String × Download)}
    (hds : ∀ d ∈ ds, ∀ p ∈ d.2.parts, c.browser.latest = some p.via) : Inv (c.setDownloads ds) where
  status := h.status
  latest := h.latest
  valid := h.valid
  sockets := h.sockets
  parts p hp := by
    obtain ⟨d, hd, hp⟩ := List.mem_flatMap.mp hp
    exact hds d hd p hp
  frames := h.frames
  shown := h.shown
  timers := h.timers

/-- A saved file has a URL of its own, which is not a frame's. -/
theorem Inv.saveBlob {c : Client} (h : Inv c) (name : String) (bytes : Bytes) :
    Inv (c.saveBlob name bytes) where
  status := h.status
  latest := h.latest
  valid := h.valid
  sockets := h.sockets
  parts := h.parts
  frames := h.frames
  shown u hu := (h.shown u hu).trans (Nat.lt_succ_self _)
  timers u hu := by
    rcases List.mem_append.mp hu with hu | hu
    · exact ⟨(h.timers u hu).1.trans (Nat.lt_succ_self _), (h.timers u hu).2⟩
    · rw [List.mem_singleton.mp hu]
      exact ⟨Nat.lt_succ_self _, fun hlast => absurd (h.shown _ hlast) (lt_irrefl _)⟩

theorem countFrame_eq (s : Store) (now : ℚ) :
    ∃ fps frameCount fpsAnchor, countFrame s now = { s with fps, frameCount, fpsAnchor } := by
  unfold countFrame
  simp only
  generalize (if s.fpsAnchor = 0 then now else s.fpsAnchor) = fpsAnchor
  split
  · exact ⟨_, _, _, rfl⟩
  · exact ⟨s.fps, _, _, rfl⟩

/-- A new frame takes the place of the one that is shown. -/
theorem Inv.onVideo {c : Client} (h : Inv c) (now : ℚ) (payload : Bytes) :
    Inv (c.onVideo now payload) := by
  unfold Client.onVideo
  split
  · exact h
  -- the new URL is not the one shown, so dropping that one leaves just the new
  · have hframes : (c.createObjectURL .frame).forgetFrame.frameUrls = [c.browser.nextUrl] := by
      apply forgetFrame_frames
      · exact congrArg (c.browser.nextUrl :: ·) h.frames
      · intro u hu hlast
        rw [List.mem_singleton.mp hu] at hlast
        exact absurd (h.shown _ hlast) (lt_irrefl _)
    obtain ⟨urls, hforget⟩ := forgetFrame_eq (c.createObjectURL .frame)
    rw [hforget] at hframes
    simp only
    rw [hforget]
    obtain ⟨fps, frameCount, fpsAnchor, hcount⟩ := countFrame_eq _ now
    rw [hcount]
    exact
      { status := h.status
        latest := h.latest
        valid := h.valid
        sockets := h.sockets
        parts := h.parts
        frames := hframes
        shown := fun u hu => (Option.some.inj hu) ▸ Nat.lt_succ_self _
        timers := fun u hu => ⟨(h.timers u hu).1.trans (Nat.lt_succ_self _),
          fun hlast => absurd (h.timers u hu).1 (Option.some.inj hlast ▸ lt_irrefl _)⟩ }

theorem mem_parts_add {d : Download} {idx : Nat} {bytes : Bytes} {via : Nat} {p : Part}
    (hp : p ∈ (d.add idx bytes via).parts) : p ∈ d.parts ∨ p.via = via := by
  unfold Download.add at hp
  split at hp
  · exact .inl hp
  · rcases List.mem_append.mp hp with hp | hp
    · exact .inl hp
    · rw [List.mem_singleton.mp hp]
      exact .inr rfl

/-- The chunks that are kept came in over the socket. -/
theorem Inv.onFileData {c : Client} (h : Inv c) {i : Nat} (hi : c.browser.latest = some i)
    (payload : Bytes) : Inv (c.onFileData W i payload) := by
  have hkept : ∀ d ∈ c.store.downloads, ∀ p ∈ d.2.parts, c.browser.latest = some p.via :=
    fun d hd p hp => h.parts p (List.mem_flatMap.mpr ⟨d, hd, hp⟩)
  unfold Client.onFileData
  split
  · exact h
  · rename_i chunk _
    have hothers : ∀ d ∈ c.store.downloads.filter (fun d => d.1 != chunk.name), ∀ p ∈ d.2.parts,
        c.browser.latest = some p.via :=
      fun d hd => hkept d (List.mem_of_mem_filter hd)
    simp only
    split
    · exact (h.setDownloads hothers).of_eq rfl rfl rfl rfl rfl
    · split
      · exact (h.setDownloads hothers).saveBlob _ _
      · refine h.setDownloads fun d hd p hp => ?_
        rcases List.mem_cons.mp hd with rfl | hd
        · rcases mem_parts_add hp with hp | hvia
          · -- a part that was there
            cases hlookup : c.store.downloads.lookup chunk.name with
            | none =>
              rw [hlookup] at hp
              cases hp
            | some d =>
              rw [hlookup] at hp
              obtain ⟨l, l', hl, -⟩ := List.lookup_eq_some_iff.mp hlookup
              exact hkept (chunk.name, d) (by rw [hl]; simp) p hp
          · rw [hi, hvia]
        · exact hothers d hd p hp

theorem Inv.onMessage {c : Client} (h : Inv c) {i : Nat} (hi : c.browser.latest = some i) (now : ℚ)
    (frame : Bytes) : Inv (c.onMessage W i now frame) := by
  unfold Client.onMessage
  split
  · exact h
  · simp only
    split
    · exact h.onVideo now _
    · exact h.of_eq rfl rfl rfl rfl rfl
    · exact h.onFileData W hi _
    · unfold onFileDeleteResp
      split
      · exact h.send _
      · exact h
    · exact h

/-! ## The other events -/

theorem Inv.act {c : Client} (h : Inv c) (a : Action ν) : Inv (c.act W a) := by
  cases a with
  | setMode on =>
    have hmode : Inv { c with store := { c.store with autoTrack := on } } :=
      h.of_eq rfl rfl rfl rfl rfl
    exact hmode.send _
  | _ => exact h.send _

theorem SocketOk.setReadyState {ws : Option Nat} {i : Nat} {s : WebSocket} (h : SocketOk ws i s)
    (hlive : s.readyState ≠ .CLOSED) {r : ReadyState} (hr : r = .OPEN → s.handlers = none) :
    SocketOk ws i { s with readyState := r } := by
  refine ⟨h.ours, fun hne => .inl ?_, h.token, ?_⟩
  · exact (h.stale hne).resolve_right hlive
  · rcases h.greeted with hhead | ⟨hempty, -⟩
    · exact .inl hhead
    · exact .inr ⟨hempty, hr⟩

/-- What opening does to a socket whose handler is called. -/
def greet (token : String) (s : WebSocket) : WebSocket :=
  { s with readyState := .OPEN, sent := s.sent ++ [hello token] }

theorem onOpen_eq {c : Client} {i : Nat} {s : WebSocket} (hs : c.browser.sockets[i]? = some s)
    (hws : c.store.ws = some i) (token : String) :
    onOpen (c.setReadyState i .OPEN) token =
      refreshFiles ⟨{ c.store with status := .connected },
        (c.modifySocket i (greet token)).browser⟩ := by
  have hopen : ((c.setReadyState i .OPEN).browser.sockets[i]?).map WebSocket.readyState =
      some .OPEN := by
    rw [setReadyState, getElem?_modifySocket, if_pos rfl, hs]
    rfl
  have hws' : (c.setReadyState i .OPEN).store.ws = some i := hws
  unfold onOpen send
  simp only [hws']
  rw [if_pos hopen]
  unfold setReadyState modifySocket
  simp only [List.modify_modify_eq]
  rw [hws]
  rfl

section Fire

variable {c : Client} (h : Inv c) {i : Nat} {s : WebSocket}
  (hs : c.browser.sockets[i]? = some s) (hlive : s.readyState ≠ .CLOSED)
include h hs hlive

omit h hlive in
theorem call_setReadyState (r : ReadyState) (handler : Client → String → Client) :
    (c.setReadyState i r).call i handler =
      match s.handlers with
      | none => c.setReadyState i r
      | some token => handler (c.setReadyState i r) token := by
  unfold call setReadyState
  rw [getElem?_modifySocket, if_pos rfl, hs]
  rfl

theorem Inv.setReadyState {r : ReadyState} (hr : r = .OPEN → s.handlers = none) :
    Inv (c.setReadyState i r) := by
  refine h.modify fun s' hs' => ?_
  rw [hs] at hs'
  obtain rfl := Option.some.inj hs'
  exact (h.sockets i s hs).setReadyState hlive hr

/-- HELLO goes out in the step that opens the socket. -/
theorem Inv.opened : Inv ((c.setReadyState i .OPEN).call i onOpen) := by
  rw [call_setReadyState hs]
  cases hhandlers : s.handlers with
  | none => exact h.setReadyState hs hlive fun _ => hhandlers
  | some token =>
    obtain ⟨hws, htoken⟩ := h.of_call hs hlive hhandlers
    have hgreet : Inv (c.modifySocket i (greet token)) := by
      refine h.modify fun s' hs' => ?_
      rw [hs] at hs'
      obtain rfl := Option.some.inj hs'
      have hok := h.sockets i s hs
      refine ⟨hok.ours, fun hne => absurd hws hne, hok.token, .inl ?_⟩
      change (s.sent ++ [hello token]).head? = some (hello s.token)
      rw [List.head?_append]
      -- a socket may open once more, with its HELLO already first
      rcases hok.greeted with hhead | ⟨hempty, -⟩
      · rw [hhead]
        rfl
      · rw [hempty, htoken]
        rfl
    have hconnected : Inv ⟨{ c.store with status := .connected },
        (c.modifySocket i (greet token)).browser⟩ :=
      { status := by simp [hws]
        latest := hgreet.latest
        valid := hgreet.valid
        sockets := hgreet.sockets
        parts := hgreet.parts
        frames := hgreet.frames
        shown := hgreet.shown
        timers := hgreet.timers }
    simp only
    rw [onOpen_eq hs hws]
    exact hconnected.send _

/-- The store lets go of a socket that has closed. -/
theorem Inv.closed : Inv ((c.setReadyState i .CLOSED).call i fun c _ => c.onClose i) := by
  rw [call_setReadyState hs]
  cases hhandlers : s.handlers with
  | none => exact h.setReadyState hs hlive nofun
  | some token =>
    obtain ⟨hws, -⟩ := h.of_call hs hlive hhandlers
    -- `onclose` compares with the socket in use, which it is
    have hnone : (if c.store.ws = some i then none else c.store.ws) = none := if_pos hws
    have hsockets : ∀ j s', (c.setReadyState i .CLOSED).browser.sockets[j]? = some s' →
        SocketOk none j s' := by
      refine sockets_modify (fun j s' hj hs' => ?_) fun s' hs' => ?_
      · have hok := h.sockets j s' hs'
        have hne : c.store.ws ≠ some j := by
          rw [hws]
          exact fun heq => hj (Option.some.inj heq).symm
        exact ⟨nofun, fun _ => hok.stale hne, hok.token, hok.greeted⟩
      · have hok := h.sockets i s' hs'
        refine ⟨nofun, fun _ => .inr rfl, hok.token, ?_⟩
        rcases hok.greeted with hhead | ⟨hempty, -⟩
        · exact .inl hhead
        · exact .inr ⟨hempty, nofun⟩
    change Inv ((c.setReadyState i .CLOSED).onClose i)
    unfold onClose
    simp only [show (c.setReadyState i .CLOSED).store.ws = c.store.ws from rfl, hnone]
    exact
      { status := by simp
        latest := nofun
        valid := nofun
        sockets := hsockets
        parts := h.parts
        frames := h.frames
        shown := h.shown
        timers := h.timers }

/-- Every event of a socket that can fire one keeps the invariant. -/
theorem Inv.fire (e : Event ν) : Inv (c.fire W i e) := by
  have hcall : ∀ handler : Client → String → Client,
      (∀ token, c.store.ws = some i → Inv (handler c token)) → Inv (c.call i handler) := by
    intro handler hhandler
    unfold call
    rw [hs]
    cases hhandlers : s.handlers with
    | none => simpa [hhandlers] using h
    | some token =>
      have hinv := hhandler token (h.of_call hs hlive hhandlers).1
      simpa [hhandlers] using hinv
  cases e with
  | opened j => exact h.opened hs hlive
  | message j now data =>
    cases data with
    | none => exact h
    | some frame =>
      exact hcall (fun c _ => c.onMessage W i now frame) fun _ hws =>
        h.onMessage W (h.latest i hws) now frame
  | error j =>
    refine hcall (fun c _ => c.onError) fun _ _ => ?_
    unfold onError
    split
    · exact h.of_eq rfl rfl rfl rfl rfl
    · exact h
  | closing j => exact h.setReadyState hs hlive nofun
  | closed j => exact h.closed hs hlive
  | connect | disconnect | act | timeout => exact h

end Fire

/-- A timer is for a saved file, so the frame's URL stays. -/
theorem Inv.timeout {c : Client} (h : Inv c) {url : Url} (hurl : url ∈ c.browser.timers) :
    Inv ({ c with browser := { c.browser with timers := c.browser.timers.erase url } }.revokeObjectURL
      url) where
  status := h.status
  latest := h.latest
  valid := h.valid
  sockets := h.sockets
  parts := h.parts
  frames := by
    rw [frameUrls_revoke]
    change c.frameUrls.filter _ = c.store.lastUrl.toList
    rw [h.frames]
    apply List.filter_eq_self.mpr
    intro u hu
    have hne := (h.timers url hurl).2
    rw [Option.mem_toList.mp hu] at hne
    simpa using fun heq : u = url => hne (congrArg some heq)
  shown := h.shown
  timers u hu := h.timers u (List.mem_of_mem_erase hu)

/-- Every event keeps the invariant. -/
theorem Inv.step {c c' : Client} {e : Event ν} (h : Inv c) (hstep : step W c e = some c') :
    Inv c' := by
  have hsocket : ∀ i, (if c.live i then some (c.fire W i e) else none) = some c' → Inv c' := by
    intro i hfire
    unfold live at hfire
    cases hs : c.browser.sockets[i]? with
    | none =>
      rw [hs] at hfire
      cases hfire
    | some s =>
      rw [hs] at hfire
      simp only [bne_iff_ne] at hfire
      split at hfire
      · rename_i hlive
        rw [← Option.some.inj hfire]
        exact h.fire W hs hlive e
      · cases hfire
  cases e with
  | connect host port token tls thrown =>
    rw [← Option.some.inj hstep]
    exact h.connect host port token tls thrown
  | disconnect =>
    rw [← Option.some.inj hstep]
    exact h.disconnect.toInv
  | act a =>
    rw [← Option.some.inj hstep]
    exact h.act W a
  | timeout url =>
    unfold Client.step at hstep
    simp only at hstep
    split at hstep
    · rename_i hurl
      rw [← Option.some.inj hstep]
      exact h.timeout hurl
    · cases hstep
  | opened i | message i | error i | closing i | closed i => exact hsocket i hstep

/-- The invariant holds in every state of a run. -/
theorem inv_of_play {c : Client} {es : List (Event ν)} (h : play (step W) fresh es = some c) :
    Inv c :=
  invariant (step W) (I := Inv) (P := fun _ _ => True) (fun _ _ _ hc _ hstep => hc.step W hstep)
    inv_fresh (.of_forall (step W) (fun _ _ => trivial) fresh es) h

/-- No handler of another socket than the latest is called. -/
theorem Inv.older {c c' : Client} {e : Event ν} {i : Nat} (h : Inv c) (he : e.socket = some i)
    (hi : c.browser.latest ≠ some i) (hstep : Client.step W c e = some c') :
    c'.store = c.store := by
  have hfire : c.live i = true ∧ c.fire W i e = c' := by
    cases e with
    | connect | disconnect | act | timeout => cases he
    | opened j | message j | error j | closing j | closed j =>
      obtain rfl : j = i := Option.some.inj he
      unfold Client.step at hstep
      simp only at hstep
      split at hstep
      · rename_i hlive
        exact ⟨hlive, Option.some.inj hstep⟩
      · cases hstep
  obtain ⟨hlive, rfl⟩ := hfire
  cases hs : c.browser.sockets[i]? with
  | none =>
    rw [live, hs] at hlive
    cases hlive
  | some s =>
    rw [live, hs] at hlive
    -- its handlers were taken off when the client gave it up
    have hnone : s.handlers = none :=
      ((h.sockets i s hs).stale fun hws => hi (h.latest i hws)).resolve_right (by simpa using hlive)
    have hcall : ∀ handler, c.call i handler = c := by
      intro handler
      unfold call
      rw [hs, Option.bind_some, hnone]
    have hset : ∀ r handler, ((c.setReadyState i r).call i handler).store = c.store := by
      intro r handler
      rw [call_setReadyState hs, hnone]
      rfl
    cases e with
    | connect | disconnect | act | timeout => rfl
    | opened => exact hset _ _
    | message j now data =>
      cases data with
      | none => rfl
      | some frame =>
        exact congrArg Client.store (hcall fun c _ => c.onMessage W i now frame)
    | error => exact congrArg Client.store (hcall fun c _ => c.onError)
    | closing => rfl
    | closed => exact hset _ _

/-- **The connection's state machine.** After any events, in any order: the
client is disconnected exactly when it has no socket, its socket is that of the
most recent `connect`, an event of any other socket leaves the store alone, the
first message on each socket is the HELLO with the token of its `connect`, no
part of a download came in over an older socket, and the one frame URL that is
not revoked is that of the frame shown. -/
theorem connection_machine {c : Client} {es : List (Event ν)}
    (h : play (step W) fresh es = some c) :
    (c.store.status = .disconnected ↔ c.store.ws = none) ∧
      (∀ i, c.store.ws = some i → c.browser.latest = some i) ∧
      (∀ e i c', e.socket = some i → c.browser.latest ≠ some i → step W c e = some c' →
        c'.store = c.store) ∧
      (∀ s ∈ c.browser.sockets, ∀ buf, s.sent.head? = some buf → buf = hello s.token) ∧
      (∀ p ∈ c.parts, c.browser.latest = some p.via) ∧
      c.frameUrls = c.store.lastUrl.toList := by
  have hinv := inv_of_play W h
  refine ⟨hinv.status, hinv.latest, fun e i c' he hi hstep => hinv.older W he hi hstep, ?_,
    hinv.parts, hinv.frames⟩
  intro s hs buf hbuf
  obtain ⟨i, hi⟩ := List.getElem?_of_mem hs
  rcases (hinv.sockets i s hi).greeted with hhead | ⟨hempty, -⟩
  · rw [hhead] at hbuf
    exact (Option.some.inj hbuf).symm
  · rw [hempty] at hbuf
    cases hbuf

/-- A browser in which nothing parses. -/
def plainWeb : Web Unit := ⟨fun _ => "", fun _ => [], fun _ => false, fun _ => [], id, id⟩

/-- A connection with one video frame, a second one while the first is still
open, an event of the first, and a frame of the second. -/
def reconnectRun : List (Event Unit) :=
  let frame := Proto.buildVideoFrame 1 2 3 4 [0xFF]
  [.connect "h" 9000 "a" false none, .opened 0, .message 0 1 (some frame),
    .connect "h" 9000 "b" true none, .error 0, .closed 0, .opened 1, .message 1 2 (some frame)]

def reconnected : Client := (play (step plainWeb) fresh reconnectRun).getD fresh

theorem connection_machine_reconnect :
    reconnected.store.status = .connected ∧ reconnected.browser.latest = some 1 ∧
      reconnected.frameUrls = reconnected.store.lastUrl.toList := by
  have hplay : play (step plainWeb) fresh reconnectRun = some reconnected := by
    have hsome : (play (step plainWeb) fresh reconnectRun).isSome = true := by decide +kernel
    obtain ⟨c, hc⟩ := Option.isSome_iff_exists.mp hsome
    rw [reconnected, hc]
    rfl
  have hws : reconnected.store.ws = some 1 := by decide +kernel
  obtain ⟨-, hlatest, -, -, -, hframes⟩ := connection_machine plainWeb hplay
  exact ⟨by decide +kernel, hlatest 1 hws, hframes⟩

end FaceTracking.MobileClient.Client
