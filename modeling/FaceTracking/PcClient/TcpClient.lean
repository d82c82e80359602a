import FaceTracking.Lib.Json
import FaceTracking.Net.Framing

/-!
# The PC client

`TcpClient` on Qt's event loop: every function below is a slot or what a slot
calls, and runs to its end before the next one. What Qt itself computes (TLS
support, certificate files, image and JSON decoding, UTF-8) is a record of
parameters; what the socket object knows is `Sock`. Signals and calls on the
socket go to `log`, which the code never reads.

Lengths of a `QByteArray` are `int`s, so an offset into the receive buffer
survives the cast in front of `remove`.
-/

namespace FaceTracking.PcClient

open Lib Proto

structure RemoteFile where
  name : String
  size : UInt64
  mtime : UInt64
deriving DecidableEq, Repr

/-- The parts of Qt the client relies on. A certificate that is `none` is a
null certificate. -/
structure Qt (Cert Img : Type) where
  supportsSsl : Bool
  /-- `QSslCertificate::fromPath(path, Pem)`. -/
  fromPath : String → List (Option Cert)
  /-- `QImage::loadFromData(data, "JPG")`. -/
  loadFromData : Bytes → Option Img
  fromUtf8 : Bytes → String
  /-- The entries of a FILE_LIST_RESP array; none if it is not an array. -/
  parseFileList : Bytes → List RemoteFile
  parseFileDeleteResp : Bytes → String × Bool

/-- The socket object, as far as the client looks at it. -/
structure Sock (Cert : Type) where
  /-- `state() == ConnectedState`. -/
  connected : Bool
  peerCertificate : Option Cert
  /-- `ignoreSslErrors()` was called on this connection. -/
  ignored : Bool
  /-- `abort()` was called on this connection. -/
  aborted : Bool

/-- A socket that has been told to connect to a peer. -/
def Sock.fresh {Cert : Type} (peer : Option Cert) : Sock Cert := ⟨false, peer, false, false⟩

/-- Signals of the client and its calls on the socket. -/
inductive Effect (Img : Type) where
  | connected
  | errorOccurred (message : String)
  | videoFrameReceived (image : Img) (seq width height : UInt32) (tsMs : UInt64)
  | fileListReceived (files : List RemoteFile)
  | fileDownloaded (name : String) (bytes : Bytes)
  | fileDeleted (name : String) (ok : Bool)
  /-- A call of the message handler. -/
  | handled (type : UInt16) (payload : Bytes)
  | connectToHost (host : String) (port : UInt16)
  | connectToHostEncrypted (host : String) (port : UInt16)
  | write (data : Bytes)
  | ignoreSslErrors
  | abort
deriving DecidableEq

structure Download where
  total : UInt32
  received : UInt32
  bytes : Bytes
deriving DecidableEq, Repr

/-- One more chunk: the first one to announce a count fixes it. -/
def Download.absorb (d : Download) (total : UInt32) (bytes : Bytes) : Download where
  total := if d.total = 0 then total else d.total
  received := d.received + 1
  bytes := d.bytes ++ bytes

/-- Sanity cap of the client on a message's length. -/
def kMaxMessageBytes : UInt32 := 64 * 1024 * 1024

structure TcpClient (Cert Img : Type) where
  sock : Sock Cert
  token : String
  tls : Bool
  pinnedCert : Option Cert
  rx : Bytes
  downloads : List (String × Download)
  log : List (Effect Img)

namespace TcpClient

variable {Cert Img : Type} (Q : Qt Cert Img)

def emit (s : TcpClient Cert Img) (e : Effect Img) : TcpClient Cert Img :=
  { s with log := s.log ++ [e] }

def abort (s : TcpClient Cert Img) : TcpClient Cert Img :=
  { s with sock := { s.sock with connected := false, aborted := true } }.emit .abort

def ignoreSslErrors (s : TcpClient Cert Img) : TcpClient Cert Img :=
  { s with sock := { s.sock with ignored := true } }.emit .ignoreSslErrors

/-! ## Connecting -/

/-- `connectToTerminal`; `peer` is the certificate the host will present. -/
def connectToTerminal (s : TcpClient Cert Img) (host : String) (port : UInt16) (token : String)
    (tls : Bool) (certPath : String) (peer : Option Cert) : TcpClient Cert Img :=
  let s := { s with token, tls, pinnedCert := none, rx := [], downloads := [] }.abort
  if !tls then
    { s with sock := .fresh peer }.emit (.connectToHost host port)
  else if !Q.supportsSsl then
    s.emit (.errorOccurred "TLS requested but this Qt build has no SSL support")
  else if certPath = "" then
    { s with sock := .fresh peer }.emit (.connectToHostEncrypted host port)
  else
    match Q.fromPath certPath with
    | [] => s.emit (.errorOccurred ("could not load pinned cert from " ++ certPath))
    | cert :: _ =>
      { s with pinnedCert := cert, sock := .fresh peer }.emit (.connectToHostEncrypted host port)

/-! ## Outgoing -/

def sendMessage (s : TcpClient Cert Img) (type : MsgType) (payload : Bytes) :
    TcpClient Cert Img :=
  if s.sock.connected then s.emit (.write (buildMessage type.code payload 0)) else s

/-- The members of the HELLO object, kept sorted by key. -/
def helloObject (token : String) : List (String × Json.Value) :=
  let hello := Json.insertSorted "ver" (.num 1) (Json.insertSorted "role" (.str "pc") [])
  if token = "" then hello else Json.insertSorted "token" (.str token) hello

def helloBody (token : String) : Bytes := Json.stringify (helloObject token)

def sendHello (s : TcpClient Cert Img) : TcpClient Cert Img :=
  (s.sendMessage .Hello (helloBody s.token)).emit .connected

/-! ## Socket signals -/

def onConnected (s : TcpClient Cert Img) : TcpClient Cert Img :=
  if !s.tls then s.sendHello else s

def onEncrypted (s : TcpClient Cert Img) : TcpClient Cert Img := s.sendHello

/-- The verification errors are given by their texts. -/
def onSslErrors [DecidableEq Cert] (s : TcpClient Cert Img) (errors : List String) :
    TcpClient Cert Img :=
  if s.pinnedCert.isSome then
    if s.sock.peerCertificate = s.pinnedCert then s.ignoreSslErrors
    else
      (s.emit (.errorOccurred
        "server certificate does not match the pinned cert; refusing")).abort
  else
    (s.emit (.errorOccurred ("TLS warning (unverified, MITM-able): " ++
      "; ".intercalate errors))).ignoreSslErrors

def onSocketError (s : TcpClient Cert Img) (errorString : String) : TcpClient Cert Img :=
  s.emit (.errorOccurred errorString)

/-! ## Incoming -/

def handleVideoFrame (s : TcpClient Cert Img) (payload : Bytes) : TcpClient Cert Img :=
  if payload.length < kVideoSubheaderSize then s
  else
    let seq := getU32 payload
    let w := getU32 (payload.drop 4)
    let h := getU32 (payload.drop 8)
    let ts := getU64 (payload.drop 12)
    match Q.loadFromData (payload.drop kVideoSubheaderSize) with
    | none => s
    | some img => s.emit (.videoFrameReceived img seq w h ts)

def handleFileList (s : TcpClient Cert Img) (payload : Bytes) : TcpClient Cert Img :=
  s.emit (.fileListReceived (Q.parseFileList payload))

def handleFileData (s : TcpClient Cert Img) (payload : Bytes) : TcpClient Cert Img :=
  if payload.length < 9 then s
  else
    let total := getU32 (payload.drop 4)
    let nameLen := (byteAt payload 8).toNat
    if payload.length < 9 + nameLen then s
    else
      let name := Q.fromUtf8 ((payload.drop 9).take nameLen)
      let bytes := payload.drop (9 + nameLen)
      let others := s.downloads.filter (fun d => d.1 != name)
      if total = 0 then
        { s.emit (.fileDownloaded name []) with downloads := others }
      else
        let d := ((s.downloads.lookup name).getD ⟨0, 0, []⟩).absorb total bytes
        if d.received ≥ d.total then
          { s.emit (.fileDownloaded name d.bytes) with downloads := others }
        else { s with downloads := (name, d) :: others }

def handleFileDeleteResp (s : TcpClient Cert Img) (payload : Bytes) : TcpClient Cert Img :=
  let r := Q.parseFileDeleteResp payload
  s.emit (.fileDeleted r.1 r.2)

def handleMessage (s : TcpClient Cert Img) (type : UInt16) (payload : Bytes) :
    TcpClient Cert Img :=
  let s := s.emit (.handled type payload)
  match MsgType.ofCode type with
  | some .VideoFrame => handleVideoFrame Q s payload
  | some .FileListResp => handleFileList Q s payload
  | some .FileData => handleFileData Q s payload
  | some .FileDeleteResp => handleFileDeleteResp Q s payload
  -- HELLO, HEARTBEAT and anything else is ignored on the client
  | _ => s

/-- A rejected buffer ends the connection. -/
def onReject (s : TcpClient Cert Img) : Reject → TcpClient Cert Img
  | .badMagic => (s.emit (.errorOccurred "protocol error: bad magic")).abort
  | .oversize _ => (s.emit (.errorOccurred "protocol error: oversize message")).abort

def processBuffer (s : TcpClient Cert Img) : TcpClient Cert Img :=
  let r := dispatchLoop kMaxMessageBytes (fun s m => (handleMessage Q s m.type m.payload, true))
    onReject s.rx (s.rx.length + 1) 0 s
  match r.2 with
  | none => r.1
  | some off => { r.1 with rx := r.1.rx.drop off }

/-- `data` is what `readAll` returns. -/
def onReadyRead (s : TcpClient Cert Img) (data : Bytes) : TcpClient Cert Img :=
  processBuffer Q { s with rx := s.rx ++ data }

/-! ## What handling a message changes -/

/-- The calls of the message handler in a log. -/
def handled (l : List (Effect Img)) : List (UInt16 × Bytes) :=
  l.filterMap fun | .handled type payload => some (type, payload) | _ => none

/-- Is the effect a signal that delivers data to the application? -/
def Effect.isDelivery : Effect Img → Bool
  | .videoFrameReceived _ _ _ _ _ | .fileListReceived _ | .fileDownloaded _ _ | .fileDeleted _ _ =>
    true
  | _ => false

/-- Nothing but downloads and deliveries. -/
structure Delivered (s s' : TcpClient Cert Img) : Prop where
  sock : s'.sock = s.sock
  token : s'.token = s.token
  tls : s'.tls = s.tls
  pinnedCert : s'.pinnedCert = s.pinnedCert
  rx : s'.rx = s.rx
  log : ∃ l, s'.log = s.log ++ l ∧ ∀ e ∈ l, Effect.isDelivery e = true

theorem Delivered.refl (s : TcpClient Cert Img) : Delivered s s :=
  ⟨rfl, rfl, rfl, rfl, rfl, [], by simp, by simp⟩

theorem Delivered.emit (s : TcpClient Cert Img) (e : Effect Img)
    (h : Effect.isDelivery e = true) (d : List (String × Download)) :
    Delivered s { s.emit e with downloads := d } :=
  ⟨rfl, rfl, rfl, rfl, rfl, [e], rfl, by simpa using h⟩

theorem handleVideoFrame_delivered (s : TcpClient Cert Img) (payload : Bytes) :
    Delivered s (handleVideoFrame Q s payload) := by
  unfold handleVideoFrame
  simp only
  split
  · exact .refl s
  · split
    · exact .refl s
    · exact .emit s _ (by rfl) s.downloads

theorem handleFileData_delivered (s : TcpClient Cert Img) (payload : Bytes) :
    Delivered s (handleFileData Q s payload) := by
  unfold handleFileData
  simp only
  split
  · exact .refl s
  · split
    · exact .refl s
    · split
      · exact .emit s _ (by rfl) _
      · split
        · exact .emit s _ (by rfl) _
        · exact ⟨rfl, rfl, rfl, rfl, rfl, [], by simp, by simp⟩

/-- **Handling a message** is noting it and then only deliveries. -/
theorem handleMessage_delivered (s : TcpClient Cert Img) (type : UInt16) (payload : Bytes) :
    Delivered (s.emit (.handled type payload)) (handleMessage Q s type payload) := by
  unfold handleMessage
  simp only
  split
  · exact handleVideoFrame_delivered Q _ _
  · exact .emit _ _ (by rfl) _
  · exact handleFileData_delivered Q _ _
  · exact .emit _ _ (by rfl) _
  · exact .refl _

end TcpClient

end FaceTracking.PcClient
