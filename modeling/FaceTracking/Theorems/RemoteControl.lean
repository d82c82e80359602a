import FaceTracking.PcClient.MainWindow
import FaceTracking.Theorems.SessionOrders

/-!
# Remote control

What a user asks for in the PC client's window is what the terminal does. `Inv`
is what holds in every run of the window: on a connection it has written
nothing, or HELLO and then the requests made since, and in TLS mode nothing
before the handshake is done. The terminal's end is `run_obeys`.
-/

namespace FaceTracking.PcClient

open Lib Proto

variable {Cert Img ν : Type}

/-- The messages written on the present connection. -/
def speak (said : List Bytes) : Effect Img → List Bytes
  | .abort | .connectToHost _ _ | .connectToHostEncrypted _ _ => []
  | .write data => said ++ [data]
  | _ => said

def spoken (log : List (Effect Img)) : List Bytes := log.foldl speak []

theorem spoken_append (log log' : List (Effect Img)) :
    spoken (log ++ log') = log'.foldl speak (spoken log) :=
  List.foldl_append

/-- Deliveries write nothing. -/
theorem foldl_speak {l : List (Effect Img)} (hl : ∀ e ∈ l, TcpClient.Effect.isDelivery e = true)
    (said : List Bytes) : l.foldl speak said = said := by
  induction l with
  | nil => rfl
  | cons e l ih =>
    have he : speak said e = said := by
      have hd := hl e List.mem_cons_self
      cases e <;> first | rfl | cases hd
    rw [List.foldl_cons, he]
    exact ih fun e' he' => hl e' (List.mem_cons_of_mem e he')

/-- The client's first message. -/
def greeting (token : String) : Message := ⟨MsgType.Hello.code, 0, TcpClient.helloBody token⟩

namespace MainWindow

/-- Nothing has been written, and the panels are disabled. -/
def Quiet (w : MainWindow Cert Img) : Prop :=
  spoken w.tcp.log = [] ∧ w.asked = [] ∧ w.connected = false

/-- HELLO has been written, and then the requests. -/
def Greeted (w : MainWindow Cert Img) : Prop :=
  spoken w.tcp.log =
    (greeting w.tcp.token).wire :: w.asked.map fun r => r.message.wire

structure Inv (w : MainWindow Cert Img) : Prop where
  said : w.Quiet ∨ w.Greeted
  secret : w.isOpen = false → w.Quiet
  opened : (w.link = .up ∧ w.tcp.tls = false) ∨ w.link = .secure → w.Greeted
  sock : w.tcp.sock.connected = true ↔ w.link = .up ∨ w.link = .secure
  aborted : w.tcp.sock.aborted = true → w.link = .idle

theorem isOpen_iff {w : MainWindow Cert Img} :
    w.isOpen = false ↔ w.link = .connecting ∨ (w.link = .up ∧ w.tcp.tls = true) := by
  unfold isOpen
  simp [or_iff_not_imp_left]

/-- A step that changes none of what the invariant is about keeps it. -/
theorem Inv.of_eq {w w' : MainWindow Cert Img} (h : Inv w)
    (hsaid : spoken w'.tcp.log = spoken w.tcp.log) (hasked : w'.asked = w.asked)
    (hconnected : w'.connected = true → w.connected = true) (htoken : w'.tcp.token = w.tcp.token)
    (htls : w'.tcp.tls = w.tcp.tls) (hsock : w'.tcp.sock.connected = w.tcp.sock.connected)
    (haborted : w'.tcp.sock.aborted = w.tcp.sock.aborted) (hlink : w'.link = w.link) :
    Inv w' := by
  have hquiet : w.Quiet → w'.Quiet := fun hq =>
    ⟨hsaid.trans hq.1, hasked.trans hq.2.1, Bool.eq_false_iff.mpr fun hc =>
      Bool.eq_false_iff.mp hq.2.2 (hconnected hc)⟩
  have hgreeted : w.Greeted → w'.Greeted := by
    intro hg
    unfold Greeted at hg ⊢
    rw [hsaid, htoken, hasked, hg]
  have hopen : w'.isOpen = w.isOpen := by
    unfold isOpen
    rw [hlink, htls]
  refine ⟨h.said.imp hquiet hgreeted, ?_, ?_, ?_, ?_⟩
  · rw [hopen]
    exact fun ho => hquiet (h.secret ho)
  · rw [hlink, htls]
    exact fun ho => hgreeted (h.opened ho)
  · rw [hsock, hlink]
    exact h.sock
  · rw [haborted, hlink]
    exact h.aborted

/-! ## Requests -/

theorem isOpen_ask (w : MainWindow Cert Img) (r : Request) : (w.ask r).isOpen = w.isOpen := by
  unfold MainWindow.ask
  rw [TcpClient.request_eq]
  split <;> rfl

/-- A request is written behind HELLO, or not at all. -/
theorem Inv.ask {w : MainWindow Cert Img} (h : Inv w) (hopen : w.isOpen = true) (r : Request) :
    Inv (w.ask r) := by
  unfold MainWindow.ask
  rw [TcpClient.request_eq]
  split
  · rename_i hsock
    have hg : w.Greeted := by
      refine h.opened ((h.sock.mp hsock).imp (fun hup => ⟨hup, ?_⟩) id)
      cases htls : w.tcp.tls with
      | false => rfl
      | true => exact absurd (isOpen_iff.mpr (.inr ⟨hup, htls⟩)) (by rw [hopen]; decide)
    have hg' : Greeted
        { w with tcp := w.tcp.emit (.write r.message.wire), asked := w.asked ++ [r] } := by
      show spoken (w.tcp.log ++ [.write r.message.wire]) = _
      rw [spoken_append]
      show spoken w.tcp.log ++ [r.message.wire] = _
      rw [show spoken w.tcp.log = _ from hg, List.map_append]
      rfl
    refine ⟨.inr hg', fun ho => ?_, fun _ => hg', h.sock, h.aborted⟩
    exact absurd hopen (Bool.eq_false_iff.mp ho)
  · exact h

variable {now : ℚ}

theorem isOpen_react (w : MainWindow Cert Img) (e : Effect Img) :
    (react now w e).isOpen = w.isOpen := by
  cases e with
  | connected => exact isOpen_ask _ .fileList
  | videoFrameReceived image seq width height tsMs =>
    show (w.onVideoFrame now width height).isOpen = _
    unfold onVideoFrame
    simp only
    split <;> rfl
  | fileDeleted name ok =>
    cases ok with
    | true => exact isOpen_ask w .fileList
    | false => rfl
  | _ => rfl

/-- Deliveries may lead to requests. -/
theorem Inv.react {w : MainWindow Cert Img} (h : Inv w) (hopen : w.isOpen = true) {e : Effect Img}
    (he : e ≠ .connected) : Inv (react now w e) := by
  cases e with
  | connected => exact absurd rfl he
  | videoFrameReceived image seq width height tsMs =>
    show Inv (w.onVideoFrame now width height)
    unfold onVideoFrame
    simp only
    split
    · exact h.of_eq rfl rfl id rfl rfl rfl rfl rfl
    · exact h.of_eq rfl rfl id rfl rfl rfl rfl rfl
  | fileDeleted name ok =>
    cases ok with
    | true => exact h.ask hopen .fileList
    | false => exact h
  | _ => exact h

theorem Inv.foldl_react {l : List (Effect Img)} (hl : ∀ e ∈ l, e ≠ .connected)
    {w : MainWindow Cert Img} (h : Inv w) (hopen : w.isOpen = true) :
    Inv (l.foldl (MainWindow.react now) w) := by
  induction l generalizing w with
  | nil => exact h
  | cons e l ih =>
    have he : Inv (MainWindow.react now w e) := h.react hopen (hl e List.mem_cons_self)
    exact ih (fun e' he' => hl e' (List.mem_cons_of_mem e he')) he ((isOpen_react w e).trans hopen)

/-! ## Connecting -/

/-- HELLO opens a silent connection. -/
theorem Inv.greet {w : MainWindow Cert Img} (hspoken : spoken w.tcp.log = []) (hasked : w.asked = [])
    (hsock : w.tcp.sock.connected = true) (haborted : w.tcp.sock.aborted = false)
    (hlink : (w.link = .up ∧ w.tcp.tls = false) ∨ w.link = .secure) :
    Inv (w.call now TcpClient.sendHello) := by
  let tcp : TcpClient Cert Img := { w.tcp with
    log := w.tcp.log ++ [.write (greeting w.tcp.token).wire, .connected] }
  have hhello : w.tcp.sendHello = tcp := by
    unfold TcpClient.sendHello TcpClient.sendMessage
    rw [if_pos hsock]
    simp [TcpClient.emit, tcp, greeting, Message.wire]
  have hcall : w.call now TcpClient.sendHello = { w with tcp }.onConnected now := by
    unfold call
    rw [hhello]
    simp [tcp, MainWindow.react]
  have hopen : w.isOpen = true := by
    rcases hlink with ⟨hup, htls⟩ | hsecure
    · simp [isOpen, hup, htls]
    · simp [isOpen, hsecure]
  have hgreeted : ∀ u : MainWindow Cert Img, u.tcp = tcp → u.asked = [] → u.Greeted := by
    intro u htcp hu
    unfold Greeted
    rw [htcp, hu, spoken_append, hspoken]
    rfl
  let u : MainWindow Cert Img :=
    { w with tcp, connected := true, frameCount := 0, fps := 0, fpsTimer := now }
  have hu : Inv u := by
    have hg : u.Greeted := hgreeted u rfl hasked
    refine ⟨.inr hg, fun ho => ?_, fun _ => hg, ?_, ?_⟩
    · exact absurd hopen (Bool.eq_false_iff.mp ho)
    · exact ⟨fun _ => hlink.imp And.left id, fun _ => hsock⟩
    · exact fun ha => absurd ha (Bool.eq_false_iff.mp haborted)
  rw [hcall]
  exact hu.ask hopen .fileList

/-- Behind an abort the socket is idle and nothing has been said. -/
theorem Inv.settle {w : MainWindow Cert Img} (hspoken : spoken w.tcp.log = [])
    (hsock : w.tcp.sock.connected = false) (haborted : w.tcp.sock.aborted = true) :
    Inv w.settle := by
  unfold MainWindow.settle
  rw [if_pos haborted]
  refine ⟨.inl ⟨hspoken, rfl, rfl⟩, fun _ => ⟨hspoken, rfl, rfl⟩, ?_, ?_, fun _ => rfl⟩
  · rintro (⟨hup, -⟩ | hsecure)
    · cases hup
    · cases hsecure
  · refine ⟨fun hs => absurd hs (Bool.eq_false_iff.mp hsock), ?_⟩
    rintro (hup | hsecure)
    · cases hup
    · cases hsecure

theorem Inv.disconnecting {w : MainWindow Cert Img} (h : Inv w) (hconnected : w.connected = true) :
    Inv { w with
      tcp := w.tcp.disconnectFromTerminal
      link := if w.link = .idle then .idle else .closing } := by
  have hgreeted : w.Greeted := h.said.resolve_left fun hq => by
    rw [hq.2.2] at hconnected
    cases hconnected
  refine ⟨.inr hgreeted, ?_, fun _ => hgreeted, ?_, fun ha => if_pos (h.aborted ha)⟩
  · intro ho
    have hlink := isOpen_iff.mp ho
    simp only at hlink
    split at hlink
    · rcases hlink with hl | ⟨hl, -⟩ <;> cases hl
    · rcases hlink with hl | ⟨hl, -⟩ <;> cases hl
  · refine ⟨nofun, fun hlink => ?_⟩
    simp only at hlink
    split at hlink
    · rcases hlink with hl | hl <;> cases hl
    · rcases hlink with hl | hl <;> cases hl

/-- A connection that has been asked for is silent. -/
theorem Inv.connecting {w : MainWindow Cert Img} (hspoken : spoken w.tcp.log = [])
    (hasked : w.asked = []) (hconnected : w.connected = false) (hlink : w.link = .connecting)
    (hsock : w.tcp.sock.connected = false) (haborted : w.tcp.sock.aborted = false) : Inv w := by
  have hquiet : w.Quiet := ⟨hspoken, hasked, hconnected⟩
  refine ⟨.inl hquiet, fun _ => hquiet, ?_, ?_, ?_⟩
  · rw [hlink]
    rintro (⟨hup, -⟩ | hsecure)
    · cases hup
    · cases hsecure
  · rw [hsock, hlink]
    exact ⟨nofun, fun hl => by rcases hl with hl | hl <;> cases hl⟩
  · rw [haborted]
    exact nofun

variable [DecidableEq Cert] (Q : Qt Cert Img)

omit [DecidableEq Cert] in
theorem Inv.connectClicked {w : MainWindow Cert Img} (h : Inv w) (host : String) (port : UInt16)
    (token : String) (tls : Bool) (certPath : String) (peer : Option Cert) :
    Inv (w.connectClicked Q host port token tls certPath peer) := by
  unfold MainWindow.connectClicked
  split
  · exact h.disconnecting ‹_›
  · rename_i hconnected
    have hui : w.connected = false := by simpa using hconnected
    -- the client gives up, or waits for a fresh socket
    have hsettle : ∀ tcp : TcpClient Cert Img, spoken tcp.log = [] → tcp.sock.connected = false →
        Inv (MainWindow.settle { w with
          tcp, peer := host ++ ":" ++ toString port.toNat, link := .connecting, asked := [] }) := by
      intro tcp hspoken hsock
      cases haborted : tcp.sock.aborted with
      | true => exact .settle hspoken hsock haborted
      | false =>
        unfold MainWindow.settle
        rw [if_neg (by simp [haborted])]
        exact .connecting hspoken rfl hui rfl hsock haborted
    have hsaid : ∀ (l : List (Effect Img)) (e e' : Effect Img), e = .abort → speak [] e' = [] →
        spoken (l ++ [e] ++ [e']) = [] := by
      rintro l _ e' rfl he'
      rw [spoken_append, spoken_append]
      exact he'
    unfold TcpClient.connectToTerminal
    simp only
    split
    · exact hsettle _ (hsaid _ _ _ rfl rfl) rfl
    · split
      · exact hsettle _ (hsaid _ _ _ rfl rfl) rfl
      · split
        · exact hsettle _ (hsaid _ _ _ rfl rfl) rfl
        · split
          · exact hsettle _ (hsaid _ _ _ rfl rfl) rfl
          · exact hsettle _ (hsaid _ _ _ rfl rfl) rfl

omit [DecidableEq Cert] in
theorem Inv.not_aborted {w : MainWindow Cert Img} (h : Inv w) (hlink : w.link ≠ .idle) :
    w.tcp.sock.aborted = false :=
  Bool.eq_false_iff.mpr fun ha => hlink (h.aborted ha)

theorem Inv.sslErrors {w : MainWindow Cert Img} (h : Inv w) (hlink : w.link = .up)
    (errors : List String) : Inv (MainWindow.settle { w with tcp := w.tcp.onSslErrors errors }) := by
  have hnot : w.tcp.sock.aborted = false := h.not_aborted (by rw [hlink]; decide)
  have hgo : ∀ tcp : TcpClient Cert Img, spoken tcp.log = spoken w.tcp.log →
      tcp.token = w.tcp.token → tcp.tls = w.tcp.tls →
      tcp.sock.connected = w.tcp.sock.connected → tcp.sock.aborted = w.tcp.sock.aborted →
      Inv (MainWindow.settle { w with tcp }) := by
    intro tcp hsaid htoken htls hsock haborted
    unfold MainWindow.settle
    rw [if_neg (by rw [haborted, hnot]; decide)]
    exact h.of_eq hsaid rfl id htoken htls hsock haborted rfl
  unfold TcpClient.onSslErrors
  split
  · split
    · exact hgo _ (spoken_append _ _) rfl rfl rfl rfl
    · exact .settle (spoken_append _ _) rfl rfl
  · refine hgo _ ?_ rfl rfl rfl rfl
    show spoken (w.tcp.log ++ [_] ++ [_]) = _
    rw [spoken_append, spoken_append]
    rfl

omit [DecidableEq Cert] in
theorem Inv.disconnected {w : MainWindow Cert Img} (h : Inv w) :
    Inv (MainWindow.onDisconnected { w with
      tcp := { w.tcp with sock := { w.tcp.sock with connected := false } }, link := .idle }) := by
  refine ⟨h.said.imp (fun hq => ⟨hq.1, hq.2.1, rfl⟩) fun hg => hg, ?_, ?_, ?_, fun _ => rfl⟩
  · intro ho
    rcases isOpen_iff.mp ho with hl | ⟨hl, -⟩ <;> cases hl
  · rintro (⟨hl, -⟩ | hl) <;> cases hl
  · exact ⟨nofun, fun hl => by rcases hl with hl | hl <;> cases hl⟩

omit [DecidableEq Cert] in
/-- Without TLS the connection is greeted at once. -/
theorem Inv.connected {w : MainWindow Cert Img} (h : Inv w) (hlink : w.link = .connecting) :
    Inv (MainWindow.call { w with
      tcp := { w.tcp with sock := { w.tcp.sock with connected := true } }, link := .up } now
        TcpClient.onConnected) := by
  let u : MainWindow Cert Img := { w with
    tcp := { w.tcp with sock := { w.tcp.sock with connected := true } }, link := .up }
  have hq := h.secret (isOpen_iff.mpr (.inl hlink))
  have hnot : w.tcp.sock.aborted = false := h.not_aborted (by rw [hlink]; decide)
  show Inv (u.call now TcpClient.onConnected)
  cases htls : w.tcp.tls with
  | false =>
    have hhello : u.call now TcpClient.onConnected = u.call now TcpClient.sendHello := by
      unfold call TcpClient.onConnected
      rw [show u.tcp.tls = false from htls]
      rfl
    rw [hhello]
    exact .greet hq.1 hq.2.1 rfl hnot (.inl ⟨rfl, htls⟩)
  | true =>
    have hwait : u.call now TcpClient.onConnected = u := by
      unfold call TcpClient.onConnected
      rw [show u.tcp.tls = true from htls]
      show (u.tcp.log.drop u.tcp.log.length).foldl _ _ = _
      rw [List.drop_length]
      rfl
    rw [hwait]
    refine ⟨.inl hq, fun _ => hq, ?_, ⟨fun _ => .inl rfl, fun _ => rfl⟩, fun ha => ?_⟩
    · rintro (⟨-, hplain⟩ | hsecure)
      · exact absurd (htls.symm.trans hplain) (by decide)
      · cases hsecure
    · exact absurd ha (Bool.eq_false_iff.mp hnot)

omit [DecidableEq Cert] in
theorem Inv.message {w : MainWindow Cert Img} (h : Inv w) (hopen : w.isOpen = true)
    (type : UInt16) (payload : Bytes) :
    Inv (w.call now fun tcp => tcp.handleMessage Q type payload) := by
  obtain ⟨hsock, htoken, htls, -, -, l, hl, hall⟩ :=
    TcpClient.handleMessage_delivered Q w.tcp type payload
  have hlog : (w.tcp.handleMessage Q type payload).log =
      w.tcp.log ++ (.handled type payload :: l) := by
    rw [hl]
    exact List.append_assoc _ _ _
  have hspoken : spoken (w.tcp.handleMessage Q type payload).log = spoken w.tcp.log := by
    rw [hlog, spoken_append, List.foldl_cons]
    exact foldl_speak hall _
  unfold call
  rw [hlog, List.drop_left]
  refine Inv.foldl_react ?_ (h.of_eq hspoken rfl id htoken htls ?_ ?_ rfl) ?_
  · intro e he
    rcases List.mem_cons.mp he with rfl | he
    · exact nofun
    · rintro rfl
      cases hall _ he
  · exact congrArg Sock.connected hsock
  · exact congrArg Sock.aborted hsock
  · rw [← hopen]
    unfold isOpen
    rw [show (w.tcp.handleMessage Q type payload).tls = w.tcp.tls from htls]

/-! ## Over a run -/

theorem Inv.step (D : Doubles ν) {w w' : MainWindow Cert Img} {e : WindowEvent Cert ν} (h : Inv w)
    (hstep : w.step D Q e = some w') : Inv w' := by
  cases e with
  | connectClicked host port token tls certPath peer =>
    rw [← Option.some.inj hstep]
    exact h.connectClicked Q host port token tls certPath peer
  | intent i =>
    unfold MainWindow.step at hstep
    simp only at hstep
    split at hstep
    · rename_i hconnected
      have hopen : w.isOpen = true := by
        by_contra hc
        have hq := h.secret (by simpa using hc)
        rw [hq.2.2] at hconnected
        cases hconnected
      split at hstep
      · rw [← Option.some.inj hstep]
        exact h
      · rw [← Option.some.inj hstep]
        exact h.ask hopen _
    · cases hstep
  | connected now =>
    unfold MainWindow.step at hstep
    simp only at hstep
    split at hstep
    · rename_i hlink
      rw [← Option.some.inj hstep]
      exact h.connected hlink
    · cases hstep
  | encrypted now =>
    unfold MainWindow.step at hstep
    simp only at hstep
    split at hstep
    · rename_i hlink
      rw [← Option.some.inj hstep]
      have hq := h.secret (isOpen_iff.mpr (.inr hlink))
      have hnot : w.tcp.sock.aborted = false := h.not_aborted (by rw [hlink.1]; decide)
      exact .greet hq.1 hq.2.1 (h.sock.mpr (.inl hlink.1)) hnot (.inr rfl)
    · cases hstep
  | sslErrors errors =>
    unfold MainWindow.step at hstep
    simp only at hstep
    split at hstep
    · rename_i hlink
      rw [← Option.some.inj hstep]
      exact h.sslErrors hlink.1 errors
    · cases hstep
  | errorOccurred text =>
    rw [← Option.some.inj hstep]
    exact h.of_eq (spoken_append _ _) rfl id rfl rfl rfl rfl rfl
  | disconnected =>
    rw [← Option.some.inj hstep]
    exact h.disconnected
  | message now type payload =>
    unfold MainWindow.step at hstep
    simp only at hstep
    split at hstep
    · rename_i hopen
      rw [← Option.some.inj hstep]
      exact h.message Q hopen type payload
    · cases hstep
  | reject r =>
    rw [← Option.some.inj hstep]
    cases r with
    | badMagic => exact .settle (spoken_append _ _) rfl rfl
    | oversize length => exact .settle (spoken_append _ _) rfl rfl

omit [DecidableEq Cert] in
theorem inv_initial : Inv (initial : MainWindow Cert Img) := by
  have hquiet : Quiet (initial : MainWindow Cert Img) := ⟨rfl, rfl, rfl⟩
  refine ⟨.inl hquiet, fun _ => hquiet, ?_, ⟨nofun, ?_⟩, nofun⟩
  · rintro (⟨hup, -⟩ | hsecure)
    · cases hup
    · cases hsecure
  · rintro (hup | hsecure)
    · cases hup
    · cases hsecure

/-- The invariant holds in every state of a run. -/
theorem inv_of_play (D : Doubles ν) {w : MainWindow Cert Img} {es : List (WindowEvent Cert ν)}
    (h : play (MainWindow.step D Q) initial es = some w) : Inv w :=
  invariant (MainWindow.step D Q) (I := Inv) (P := fun _ _ => True)
    (fun _ _ _ hw _ hstep => hw.step Q D hstep) inv_initial
    (.of_forall (MainWindow.step D Q) (fun _ _ => trivial) initial es) h

end MainWindow

open MainWindow

variable [DecidableEq Cert] (Q : Qt Cert Img) (D : Doubles ν)

/-- **What the window says.** In every run of the window, whatever the peer, the
socket and the user do: on a connection it has written nothing, or HELLO with
the token given for it and then the requests made since, in their order; as long
as the connection is not there, in TLS mode up to the end of the handshake, it
has written nothing and no panel is enabled; and a panel is enabled only behind
a HELLO. -/
theorem window_speaks {w : MainWindow Cert Img} {es : List (WindowEvent Cert ν)}
    (h : play (MainWindow.step D Q) initial es = some w) :
    (spoken w.tcp.log = [] ∧ w.asked = [] ∨
      spoken w.tcp.log =
        (greeting w.tcp.token).wire :: w.asked.map fun r => r.message.wire) ∧
    (w.isOpen = false → spoken w.tcp.log = [] ∧ w.connected = false) ∧
    (w.connected = true → (greeting w.tcp.token).wire ∈ spoken w.tcp.log) := by
  have hinv := inv_of_play Q D h
  refine ⟨hinv.said.imp (fun hq => ⟨hq.1, hq.2.1⟩) id, ?_, ?_⟩
  · exact fun ho => ⟨(hinv.secret ho).1, (hinv.secret ho).2.2⟩
  · intro hc
    have hg : w.Greeted := hinv.said.resolve_left fun hq => by
      rw [hq.2.2] at hc
      cases hc
    rw [show spoken w.tcp.log = _ from hg]
    exact List.mem_cons_self

open ClientSession

/-- **Remote control.** In every run of the window and every run of a session
that has received a part of what the window has written on its connection, cut
anywhere: the session has performed the requests made in the window up to one
of them, in their order and nothing else; and if it admitted the client, all
those that have come in whole. The names asked for are such as a listing can
show (`Request.proper_shown`), and neither a request nor the HELLO with the
token is longer than the terminal takes. -/
theorem remote_control {w : MainWindow Cert Img} {es : List (WindowEvent Cert ν)}
    (h : play (MainWindow.step D Q) initial es = some w) (hproper : ∀ r ∈ w.asked, r.Proper)
    (htoken : (TcpClient.helloBody w.tcp.token).length ≤ kMaxMessage.toNat)
    {κ ψ : Type} (W : World κ) (Sh : Shared ψ) (cfg : SessionConfig) (net : κ) (shared : ψ) (n : Nat)
    (hreceived : received (run W Sh cfg net shared n).trace <+: (spoken w.tcp.log).flatten) :
    let s : ClientSession κ ψ := run W Sh cfg net shared n
    ∃ k ≤ w.asked.length, orders s.trace = (w.asked.take k).flatMap Request.order ∧
      (s.authed = true → ∀ j ≤ w.asked.length,
        (greeting w.tcp.token).wire ++ (w.asked.take j).flatMap (fun r => r.message.wire) <+:
          received s.trace → j ≤ k) := by
  intro s
  have hwritten : received s.trace <+:
      (greeting w.tcp.token).wire ++ w.asked.flatMap fun r => r.message.wire := by
    rcases (inv_of_play Q D h).said with ⟨hnone, -⟩ | hgreeted
    · rw [hnone] at hreceived
      exact hreceived.trans List.nil_prefix
    · rw [show spoken w.tcp.log = _ from hgreeted, List.flatten_cons] at hreceived
      rwa [List.flatMap_def]
  exact run_serves W Sh cfg rfl htoken hproper net shared n hwritten

/-! ## A step up -/

/-- A Qt without TLS in which nothing parses. -/
def plainQt : Qt Nat Unit where
  supportsSsl := false
  fromPath _ := []
  loadFromData _ := none
  fromUtf8 _ := ""
  parseFileList _ := []
  parseFileDeleteResp _ := ("", false)

/-- Whole numbers of degrees; the negative ones are not needed. -/
def wholeDegrees : Doubles Nat := ⟨0, 90, id, (12 * ·), .ofNat⟩

/-- The user connects, presses the upper button and downloads a file. -/
def pressUp : List (WindowEvent Nat Nat) :=
  [.connectClicked "h" 8888 "" false "" none, .connected 0, .intent (.up 5),
    .intent (.download "a.jpg")]

def pressed : MainWindow Nat Unit :=
  (play (MainWindow.step wholeDegrees plainQt) initial pressUp).getD initial

theorem play_pressUp :
    play (MainWindow.step wholeDegrees plainQt) initial pressUp = some pressed := by
  have hsome : (play (MainWindow.step wholeDegrees plainQt) initial pressUp).isSome = true := by
    decide +kernel
  obtain ⟨w, hw⟩ := Option.isSome_iff_exists.mp hsome
  rw [pressed, hw]
  rfl

theorem window_speaks_up : (greeting pressed.tcp.token).wire ∈ spoken pressed.tcp.log :=
  (window_speaks plainQt wholeDegrees play_pressUp).2.2 (by decide +kernel)

theorem remote_control_up :
    ∃ k ≤ 3, orders (hearing (spoken pressed.tcp.log).flatten 2).trace =
      (pressed.asked.take k).flatMap Request.order := by
  have hasked : pressed.asked =
      [.fileList, .servoStep (.ofNat 0) (.ofNat 5), .file "a.jpg"] := rfl
  have hname := (Request.proper_shown "a.jpg" (by decide +kernel)).1
  rw [show Mjson.shown "a.jpg" = "a.jpg" by decide +kernel] at hname
  have hproper : ∀ r ∈ pressed.asked, r.Proper := by
    intro r hr
    rw [hasked] at hr
    rcases List.mem_cons.mp hr with rfl | hr
    · exact ⟨trivial, by decide +kernel⟩
    · rcases List.mem_cons.mp hr with rfl | hr
      · exact ⟨trivial, by decide +kernel⟩
      · rw [List.mem_singleton.mp hr]
        exact hname
  obtain ⟨k, hk, horders, -⟩ := remote_control plainQt wholeDegrees play_pressUp hproper
    (by decide +kernel) (World.of (TcpConn RawByteStream) (schedule 0)) Shared.empty ⟨15, []⟩
    (inPieces (spoken pressed.tcp.log).flatten) () 2 (by decide +kernel)
  have hlength : pressed.asked.length = 3 := rfl
  exact ⟨k, hlength ▸ hk, horders⟩

end FaceTracking.PcClient
