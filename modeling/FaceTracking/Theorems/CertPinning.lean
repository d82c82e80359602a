import FaceTracking.PcClient.TcpClient

/-!
# Certificate pinning

The client compares the peer's certificate with the pinned one in one place,
the handler of `sslErrors()`, and Qt emits that signal only when verification
found errors. So the comparison guards HELLO exactly when there are errors to
report: `pinning_iff`. A mismatching certificate that the platform's trust
store accepts gets HELLO, token included (`pinning_fails_when_trusted`).

`Step` is all that is assumed of Qt. `Refused` is the invariant of a connection
whose certificate does not match: without a call of `ignoreSslErrors`,
`encrypted()` is not emitted and nothing is written.
-/

namespace FaceTracking.PcClient.TcpClient

open Lib Proto

variable {Cert Img : Type} [DecidableEq Cert] (Q : Qt Cert Img)

/-! ## Socket events -/

inductive SockEvent where
  | connected
  | encrypted
  | sslErrors
  | readyRead (data : Bytes)
  | errorOccurred (text : String)
  | disconnected

/-- Which signals the socket may emit, for a list of verification errors. -/
def Enabled (errors : List String) (s : TcpClient Cert Img) : SockEvent → Prop
  | .encrypted => s.sock.aborted = false ∧ (errors = [] ∨ s.sock.ignored = true)
  | .sslErrors => errors ≠ []
  | _ => True

/-- The socket's own change and the client's slot. -/
def deliver (errors : List String) (s : TcpClient Cert Img) : SockEvent → TcpClient Cert Img
  | .connected => onConnected { s with sock := { s.sock with connected := true } }
  | .encrypted => onEncrypted s
  | .sslErrors => onSslErrors s errors
  | .readyRead data => onReadyRead Q s data
  | .errorOccurred text => onSocketError s text
  | .disconnected => { s with sock := { s.sock with connected := false } }

/-- The client handles a signal that can come. -/
def Step (errors : List String) (s s' : TcpClient Cert Img) : Prop :=
  ∃ e, Enabled errors s e ∧ s' = deliver Q errors s e

/-- Any number of signals, in any order. -/
abbrev Run (errors : List String) : TcpClient Cert Img → TcpClient Cert Img → Prop :=
  Relation.ReflTransGen (Step Q errors)

/-- HELLO has been sent, or `connected()` emitted, since a state with log `l₀`. -/
def HelloSince (l₀ : List (Effect Img)) (s : TcpClient Cert Img) : Prop :=
  ∃ l, s.log = l₀ ++ l ∧
    (Effect.write (buildMessage MsgType.Hello.code (helloBody s.token) 0) ∈ l ∨
      Effect.connected ∈ l)

/-! ## A refused connection -/

/-- Is the effect a write or `connected()`? -/
def Effect.isOutgoing : Effect Img → Bool
  | .write _ | .connected => true
  | _ => false

/-- The pin does not match and nothing has gone out since `l₀`. -/
structure Refused (pin : Cert) (l₀ : List (Effect Img)) (s : TcpClient Cert Img) : Prop where
  tls : s.tls = true
  pinned : s.pinnedCert = some pin
  mismatch : s.sock.peerCertificate ≠ some pin
  unignored : s.sock.ignored = false
  silent : ∃ l, s.log = l₀ ++ l ∧ ∀ e ∈ l, Effect.isOutgoing e = false

namespace Refused

variable {pin : Cert} {l₀ : List (Effect Img)} {s : TcpClient Cert Img}

omit [DecidableEq Cert] in
theorem emit (h : Refused pin l₀ s) {e : Effect Img} (he : Effect.isOutgoing e = false) :
    Refused pin l₀ (s.emit e) := by
  obtain ⟨l, hl, hq⟩ := h.silent
  refine ⟨h.tls, h.pinned, h.mismatch, h.unignored, l ++ [e], ?_, ?_⟩
  · show s.log ++ [e] = _
    rw [hl, List.append_assoc]
  · intro e' he'
    rcases List.mem_append.mp he' with he' | he'
    · exact hq e' he'
    · rw [List.mem_singleton.mp he']
      exact he

omit [DecidableEq Cert] in
theorem abort (h : Refused pin l₀ s) : Refused pin l₀ s.abort :=
  emit (s := { s with sock := { s.sock with connected := false, aborted := true } })
    ⟨h.tls, h.pinned, h.mismatch, h.unignored, h.silent⟩ rfl

omit [DecidableEq Cert] in
theorem delivered {s' : TcpClient Cert Img} (h : Refused pin l₀ s) (hd : Delivered s s') :
    Refused pin l₀ s' := by
  obtain ⟨l, hl, hq⟩ := h.silent
  obtain ⟨l', hl', hq'⟩ := hd.log
  refine ⟨hd.tls.trans h.tls, hd.pinnedCert.trans h.pinned, by rw [hd.sock]; exact h.mismatch,
    by rw [hd.sock]; exact h.unignored, l ++ l', by rw [hl', hl, List.append_assoc], ?_⟩
  intro e he
  rcases List.mem_append.mp he with he | he
  · exact hq e he
  · have := hq' e he
    cases e <;> first | rfl | cases this

omit [DecidableEq Cert] in
/-- Whatever the peer sends, reading it writes nothing. -/
theorem readyRead (h : Refused pin l₀ s) (data : Bytes) :
    Refused pin l₀ (onReadyRead Q s data) := by
  have hs : Refused pin l₀ { s with rx := s.rx ++ data } :=
    ⟨h.tls, h.pinned, h.mismatch, h.unignored, h.silent⟩
  have hmessage : ∀ (s : TcpClient Cert Img) (m : Message), Refused pin l₀ s →
      Refused pin l₀ (handleMessage Q s m.type m.payload) := by
    intro s m h
    have h' : Refused pin l₀ (s.emit (.handled m.type m.payload)) := h.emit rfl
    exact h'.delivered (handleMessage_delivered Q s m.type m.payload)
  have hreject : ∀ (s : TcpClient Cert Img) (r : Reject), Refused pin l₀ s →
      Refused pin l₀ (onReject s r) := by
    intro s r h
    cases r with
    | badMagic => exact (h.emit (e := .errorOccurred _) rfl).abort
    | oversize len => exact (h.emit (e := .errorOccurred _) rfl).abort
  have hloop := dispatchLoop_eq kMaxMessageBytes
    (fun (s : TcpClient Cert Img) m => (handleMessage Q s m.type m.payload, true)) onReject
    (s.rx ++ data) ((s.rx ++ data).length + 1) 0 { s with rx := s.rx ++ data } (Nat.zero_le _)
    (by omega)
  have hr := dispatched_induction
    (fun (s : TcpClient Cert Img) m => (handleMessage Q s m.type m.payload, true)) onReject
    hmessage hreject (s.rx ++ data) { s with rx := s.rx ++ data }
    (messages kMaxMessageBytes ((s.rx ++ data).drop 0)) hs
  rw [← hloop] at hr
  unfold onReadyRead processBuffer
  simp only
  split
  · exact hr
  · exact ⟨hr.tls, hr.pinned, hr.mismatch, hr.unignored, hr.silent⟩

/-- With errors to report, no signal changes a refused connection. -/
theorem step {errors : List String} (hne : errors ≠ []) {s' : TcpClient Cert Img}
    (h : Refused pin l₀ s) (hstep : Step Q errors s s') : Refused pin l₀ s' := by
  obtain ⟨e, hen, rfl⟩ := hstep
  cases e with
  | connected =>
    unfold deliver onConnected
    rw [if_neg (by simp [h.tls])]
    exact ⟨h.tls, h.pinned, h.mismatch, h.unignored, h.silent⟩
  | encrypted =>
    rcases hen.2 with he | he
    · exact absurd he hne
    · rw [h.unignored] at he
      cases he
  | sslErrors =>
    show Refused pin l₀ (onSslErrors s errors)
    unfold onSslErrors
    rw [if_pos (by rw [h.pinned]; rfl), if_neg (by rw [h.pinned]; exact h.mismatch)]
    exact (h.emit (e := .errorOccurred _) rfl).abort
  | readyRead data => exact h.readyRead Q data
  | errorOccurred text => exact h.emit (e := .errorOccurred text) rfl
  | disconnected => exact ⟨h.tls, h.pinned, h.mismatch, h.unignored, h.silent⟩

/-- No run of signals changes a refused connection. -/
theorem run {errors : List String} (hne : errors ≠ []) {s' : TcpClient Cert Img}
    (h : Refused pin l₀ s) (hrun : Run Q errors s s') : Refused pin l₀ s' := by
  induction hrun with
  | refl => exact h
  | tail _ hstep ih => exact ih.step Q hne hstep

omit [DecidableEq Cert] in
theorem not_hello (h : Refused pin l₀ s) : ¬ HelloSince l₀ s := by
  rintro ⟨l, hl, hm⟩
  obtain ⟨l', hl', hq⟩ := h.silent
  have he : l = l' := List.append_cancel_left (hl.symm.trans hl')
  subst he
  rcases hm with hm | hm
  · cases hq _ hm
  · cases hq _ hm

end Refused

/-! ## Main result -/

omit [DecidableEq Cert] in
/-- A call with TLS and a certificate file that loads pins the first
certificate. -/
theorem connectToTerminal_pinned (s : TcpClient Cert Img) (host : String) (port : UInt16)
    (token : String) {certPath : String} (peer : Option Cert) {pin : Cert}
    {rest : List (Option Cert)} (hssl : Q.supportsSsl = true) (hpath : certPath ≠ "")
    (hload : Q.fromPath certPath = some pin :: rest) :
    connectToTerminal Q s host port token true certPath peer =
      { sock := .fresh peer, token, tls := true, pinnedCert := some pin, rx := [], downloads := []
        log := s.log ++ [.abort, .connectToHostEncrypted host port] } := by
  unfold connectToTerminal
  simp only [Bool.not_true, Bool.false_eq_true, if_false, hssl, hpath, hload]
  simp [emit, TcpClient.abort]

/-- Without errors the handshake alone lets HELLO out. -/
theorem hello_of_trusted (s : TcpClient Cert Img) (htls : s.tls = true)
    (haborted : s.sock.aborted = false) :
    ∃ s', Run Q [] s s' ∧ HelloSince s.log s' := by
  refine ⟨deliver Q [] (deliver Q [] s .connected) .encrypted, ?_, ?_⟩
  · have hc : Step Q [] s (deliver Q [] s .connected) := ⟨.connected, trivial, rfl⟩
    refine .tail (.single hc) ⟨.encrypted, ⟨?_, .inl rfl⟩, rfl⟩
    simpa [deliver, onConnected, htls] using haborted
  · refine ⟨[.write (buildMessage MsgType.Hello.code (helloBody s.token) 0), .connected], ?_, ?_⟩
    · simp [deliver, onConnected, onEncrypted, sendHello, sendMessage, emit, htls]
    · exact .inr (by simp)

/-- **Pinning.** After a call that loads a pinned certificate, HELLO goes out
in every run to the pinned peer only, if and only if there are verification
errors to report or the peer is the pinned one. -/
theorem pinning_iff (s : TcpClient Cert Img) (host : String) (port : UInt16) (token : String)
    (certPath : String) (peer : Option Cert) (pin : Cert) (rest : List (Option Cert))
    (hssl : Q.supportsSsl = true) (hpath : certPath ≠ "")
    (hload : Q.fromPath certPath = some pin :: rest) (errors : List String) :
    let s₀ := connectToTerminal Q s host port token true certPath peer
    (∀ s', Run Q errors s₀ s' → HelloSince s₀.log s' → peer = some pin) ↔
      errors ≠ [] ∨ peer = some pin := by
  intro s₀
  have hs₀ : s₀ = _ := connectToTerminal_pinned Q s host port token peer hssl hpath hload
  constructor
  · intro hall
    by_cases he : errors = []
    · subst he
      obtain ⟨s', hrun, hhello⟩ := hello_of_trusted Q s₀ (by rw [hs₀]) (by rw [hs₀]; rfl)
      exact .inr (hall s' hrun hhello)
    · exact .inl he
  · intro hcond s' hrun hhello
    by_contra hpeer
    have hne : errors ≠ [] := hcond.resolve_right hpeer
    have h₀ : Refused pin s₀.log s₀ :=
      ⟨by rw [hs₀], by rw [hs₀], by rw [hs₀]; exact hpeer, by rw [hs₀]; rfl, [], by simp, by simp⟩
    exact (h₀.run Q hne hrun).not_hello hhello

/-- A Qt with one certificate file, which holds certificate 0. -/
def oneCertQt : Qt Nat Unit where
  supportsSsl := true
  fromPath _ := [some 0]
  loadFromData _ := none
  fromUtf8 _ := ""
  parseFileList _ := []
  parseFileDeleteResp _ := ("", false)

def idleClient : TcpClient Nat Unit := ⟨.fresh none, "", false, none, [], [], []⟩

theorem pinning_iff_two_errors :
    let errors := ["self-signed", "wrong host"]
    let s₀ := connectToTerminal oneCertQt idleClient "host" 9000 "token" true "pin.pem" (some 1)
    (∀ s', Run oneCertQt errors s₀ s' → HelloSince s₀.log s' → some 1 = some 0) ↔
      errors ≠ [] ∨ some 1 = some 0 := by
  intro errors
  exact pinning_iff oneCertQt idleClient "host" 9000 "token" "pin.pem" (some 1) 0 [] rfl
    (by decide) rfl errors

/-- A peer whose certificate differs from the pinned one but verifies without
errors receives HELLO. -/
theorem pinning_fails_when_trusted :
    let s₀ := connectToTerminal oneCertQt idleClient "host" 9000 "token" true "pin.pem" (some 1)
    ¬ ∀ s', Run oneCertQt [] s₀ s' → HelloSince s₀.log s' → some 1 = some 0 := by
  intro s₀ hall
  obtain ⟨s', hrun, hhello⟩ := hello_of_trusted oneCertQt s₀ rfl rfl
  exact absurd (hall s' hrun hhello) (by decide)

end FaceTracking.PcClient.TcpClient
