import FaceTracking.Lib.Runs
import FaceTracking.Net.Requests
import FaceTracking.PcClient.TcpClient

/-!
# The PC client's window

The window wires its panels to the client: what the user does becomes a call
of one of the client's senders, and `connected()`, `disconnected()` and
`fileDeleted()` come back as slots. Panels are enabled only while `connected_`
is set.

`step` is one call into the window: a signal of the socket, a message taken off
the receive buffer, or an action of the user. Messages are taken one by one,
as a slot may run an event loop of its own between two of them (a dialog does),
and then the user acts in between. `link` is the socket's own state, and
`asked` a note of what has been asked for on the present connection.
-/

namespace FaceTracking.PcClient

open Lib Json Proto

/-! ## Senders -/

/-- A member of a `QJsonObject`, which keeps its members sorted by key. -/
def insertMember (k : String) (v : Scalar) : List (String × Scalar) → List (String × Scalar)
  | [] => [(k, v)]
  | (k', v') :: o =>
    if k = k' then (k, v) :: o
    else if k < k' then (k, v) :: (k', v') :: o
    else (k', v') :: insertMember k v o

/-- `QJsonDocument(o).toJson(Compact)` for an object given by its initializer. -/
def toJson (o : List (String × Scalar)) : Bytes :=
  (printed (o.foldl (fun o m => insertMember m.1 m.2 o) [])).text

theorem insertMember_after {k k' : String} (hne : k ≠ k') (hlt : ¬ k < k') (v v' : Scalar)
    (o : List (String × Scalar)) :
    insertMember k v ((k', v') :: o) = (k', v') :: insertMember k v o := by
  rw [insertMember, if_neg hne, if_neg hlt]

theorem toJson_servo (mode : String) (pan tilt : NumberText) :
    toJson [("mode", .str mode), ("pan", .num pan), ("tilt", .num tilt)] =
      (printed (Request.servoMembers mode pan tilt)).text := by
  have hpan : "pan" ≠ "mode" ∧ ¬ "pan" < "mode" := by decide
  have htilt : ("tilt" ≠ "mode" ∧ ¬ "tilt" < "mode") ∧ "tilt" ≠ "pan" ∧ ¬ "tilt" < "pan" := by
    decide
  unfold toJson
  rw [List.foldl_cons, List.foldl_cons, List.foldl_cons, List.foldl_nil, insertMember,
    insertMember_after hpan.1 hpan.2, insertMember, insertMember_after htilt.1.1 htilt.1.2,
    insertMember_after htilt.2.1 htilt.2.2, insertMember, Request.servoMembers]

namespace TcpClient

variable {Cert Img : Type}

def sendServoStep (s : TcpClient Cert Img) (dPanDeg dTiltDeg : NumberText) : TcpClient Cert Img :=
  s.sendMessage .ServoCmd
    (toJson [("mode", .str "step"), ("pan", .num dPanDeg), ("tilt", .num dTiltDeg)])

def sendServoAbs (s : TcpClient Cert Img) (panDeg tiltDeg : NumberText) : TcpClient Cert Img :=
  s.sendMessage .ServoCmd
    (toJson [("mode", .str "abs"), ("pan", .num panDeg), ("tilt", .num tiltDeg)])

def sendMode (s : TcpClient Cert Img) (autoTrack : Bool) : TcpClient Cert Img :=
  s.sendMessage .ModeCmd (toJson [("autoTrack", .bool autoTrack)])

def requestFileList (s : TcpClient Cert Img) : TcpClient Cert Img := s.sendMessage .FileListReq []

def requestFile (s : TcpClient Cert Img) (name : String) : TcpClient Cert Img :=
  s.sendMessage .FileGetReq (toJson [("name", .str name)])

def deleteFile (s : TcpClient Cert Img) (name : String) : TcpClient Cert Img :=
  s.sendMessage .FileDeleteReq (toJson [("name", .str name)])

def requestSnapshot (s : TcpClient Cert Img) : TcpClient Cert Img := s.sendMessage .SnapshotReq []

/-- `disconnectFromHost()`: the socket is no longer in the connected state. -/
def disconnectFromTerminal (s : TcpClient Cert Img) : TcpClient Cert Img :=
  { s with sock := { s.sock with connected := false } }

/-- The sender of a request. -/
def request (s : TcpClient Cert Img) : Request → TcpClient Cert Img
  | .servoStep pan tilt => s.sendServoStep pan tilt
  | .servoAbs pan tilt => s.sendServoAbs pan tilt
  | .mode autoTrack => s.sendMode autoTrack
  | .fileList => s.requestFileList
  | .file name => s.requestFile name
  | .delete name => s.deleteFile name
  | .snapshot => s.requestSnapshot

/-- **Senders.** Each writes the message of its request. -/
theorem request_eq (s : TcpClient Cert Img) (r : Request) :
    s.request r = if s.sock.connected then s.emit (.write r.message.wire) else s := by
  cases r with
  | servoStep pan tilt =>
    show (if _ then s.emit (.write (buildMessage _ (toJson _) 0)) else s) = _
    rw [toJson_servo]
    rfl
  | servoAbs pan tilt =>
    show (if _ then s.emit (.write (buildMessage _ (toJson _) 0)) else s) = _
    rw [toJson_servo]
    rfl
  | mode autoTrack => rfl
  | fileList => rfl
  | file name => rfl
  | delete name => rfl
  | snapshot => rfl

end TcpClient

/-! ## The user -/

/-- The numbers of the panels, and how they are printed. -/
structure Doubles (ν : Type) where
  zero : ν
  ninety : ν
  neg : ν → ν
  /-- Multiplication by `kAimMaxDeg`. -/
  timesAimMaxDeg : ν → ν
  print : ν → NumberText

/-- What the user can do in the window besides connecting. -/
inductive Intent (ν : Type) where
  | up (step : ν)
  | down (step : ν)
  | left (step : ν)
  | right (step : ν)
  | home
  | modeChanged (autoTrack : Bool)
  /-- A click on the picture, in offsets from its center. -/
  | aim (dxNorm dyNorm : ν)
  | refresh
  | snapshot
  /-- The name of the selected file; empty if none is. -/
  | download (name : String)
  | delete (name : String)

variable {ν : Type} (D : Doubles ν)

/-- The sender that the window calls. -/
def Intent.request : Intent ν → Option Request
  | .up step => some (.servoStep (D.print D.zero) (D.print step))
  | .down step => some (.servoStep (D.print D.zero) (D.print (D.neg step)))
  | .left step => some (.servoStep (D.print (D.neg step)) (D.print D.zero))
  | .right step => some (.servoStep (D.print step) (D.print D.zero))
  | .home => some (.servoAbs (D.print D.ninety) (D.print D.ninety))
  | .modeChanged autoTrack => some (.mode autoTrack)
  | .aim dxNorm dyNorm =>
    some (.servoStep (D.print (D.timesAimMaxDeg dxNorm)) (D.print (D.timesAimMaxDeg (D.neg dyNorm))))
  | .refresh => some .fileList
  | .snapshot => some .snapshot
  | .download name => if name = "" then none else some (.file name)
  | .delete name => if name = "" then none else some (.delete name)

/-! ## The window -/

/-- The socket between two connections. -/
inductive Link where
  | idle
  | connecting
  /-- The TCP connection stands. -/
  | up
  /-- The TLS handshake is done. -/
  | secure
  | closing
deriving DecidableEq, Repr

structure MainWindow (Cert Img : Type) where
  tcp : TcpClient Cert Img
  /-- `connected_` of the window and of its panels. -/
  connected : Bool
  peer : String
  lastW : UInt32
  lastH : UInt32
  frameCount : Nat
  fps : ℚ
  /-- When the span of the frame rate began. -/
  fpsTimer : ℚ
  link : Link
  asked : List Request

inductive WindowEvent (Cert ν : Type) where
  /-- The button of the connection panel; `peer` is the certificate that the
  host will present. -/
  | connectClicked (host : String) (port : UInt16) (token : String) (tls : Bool)
      (certPath : String) (peer : Option Cert)
  | intent (i : Intent ν)
  /-- `connected()` of the socket. -/
  | connected (now : ℚ)
  | encrypted (now : ℚ)
  | sslErrors (errors : List String)
  | errorOccurred (text : String)
  | disconnected
  /-- A message from the front of the receive buffer. -/
  | message (now : ℚ) (type : UInt16) (payload : Bytes)
  /-- What is there is no message. -/
  | reject (r : Reject)

namespace MainWindow

variable {Cert Img : Type} [DecidableEq Cert] (Q : Qt Cert Img)

def initial : MainWindow Cert Img :=
  { tcp :=
      { sock := .fresh none, token := "", tls := false, pinnedCert := none, rx := []
        downloads := [], log := [] }
    connected := false, peer := "", lastW := 0, lastH := 0, frameCount := 0, fps := 0
    fpsTimer := 0, link := .idle, asked := [] }

/-- One of the client's senders is called. -/
def ask (w : MainWindow Cert Img) (r : Request) : MainWindow Cert Img :=
  { w with
    tcp := w.tcp.request r
    asked := if w.tcp.sock.connected then w.asked ++ [r] else w.asked }

/-! ### Slots -/

def setConnectedUi (w : MainWindow Cert Img) (connected : Bool) : MainWindow Cert Img :=
  if connected then { w with connected := true }
  else { w with connected := false, lastW := 0, lastH := 0, fps := 0 }

def onConnected (w : MainWindow Cert Img) (now : ℚ) : MainWindow Cert Img :=
  { w.setConnectedUi true with frameCount := 0, fps := 0, fpsTimer := now }.ask .fileList

def onDisconnected (w : MainWindow Cert Img) : MainWindow Cert Img := w.setConnectedUi false

def onVideoFrame (w : MainWindow Cert Img) (now : ℚ) (width height : UInt32) :
    MainWindow Cert Img :=
  let w := { w with lastW := width, lastH := height, frameCount := w.frameCount + 1 }
  let ms := now - w.fpsTimer
  if ms ≥ 1000 then { w with fps := w.frameCount * 1000 / ms, frameCount := 0, fpsTimer := now }
  else w

def onFileDeleted (w : MainWindow Cert Img) (ok : Bool) : MainWindow Cert Img :=
  if ok then w.ask .fileList else w

/-- The slot that a signal of the client is connected to. -/
def react (now : ℚ) (w : MainWindow Cert Img) : Effect Img → MainWindow Cert Img
  | .connected => w.onConnected now
  | .videoFrameReceived _ _ width height _ => w.onVideoFrame now width height
  | .fileDeleted _ ok => w.onFileDeleted ok
  | _ => w

/-- A function of the client runs, and its signals call their slots. -/
def call (w : MainWindow Cert Img) (now : ℚ) (f : TcpClient Cert Img → TcpClient Cert Img) :
    MainWindow Cert Img :=
  ((f w.tcp).log.drop w.tcp.log.length).foldl (react now) { w with tcp := f w.tcp }

/-- `abort()` of the socket emits `disconnected()`. -/
def settle (w : MainWindow Cert Img) : MainWindow Cert Img :=
  if w.tcp.sock.aborted then { w with link := .idle, asked := [] }.onDisconnected else w

def connectClicked (w : MainWindow Cert Img) (host : String) (port : UInt16) (token : String)
    (tls : Bool) (certPath : String) (peer : Option Cert) : MainWindow Cert Img :=
  if w.connected then
    { w with
      tcp := w.tcp.disconnectFromTerminal
      link := if w.link = .idle then .idle else .closing }
  else
    settle
      { w with
        tcp := w.tcp.connectToTerminal Q host port token tls certPath peer
        peer := host ++ ":" ++ toString port.toNat
        link := .connecting
        asked := [] }

/-- No bytes of the peer are there before the channel is: in TLS mode not before
the handshake is done. -/
def isOpen (w : MainWindow Cert Img) : Bool :=
  !(w.link == .connecting || (w.link == .up && w.tcp.tls))

def step (w : MainWindow Cert Img) : WindowEvent Cert ν → Option (MainWindow Cert Img)
  | .connectClicked host port token tls certPath peer =>
    some (w.connectClicked Q host port token tls certPath peer)
  | .intent i =>
    if w.connected then
      match i.request D with
      | none => some w
      | some r => some (w.ask r)
    else none
  | .connected now =>
    if w.link = .connecting then
      let tcp := { w.tcp with sock := { w.tcp.sock with connected := true } }
      some ({ w with tcp, link := .up }.call now TcpClient.onConnected)
    else none
  | .encrypted now =>
    if w.link = .up ∧ w.tcp.tls = true then
      some ({ w with link := .secure }.call now TcpClient.onEncrypted)
    else none
  | .sslErrors errors =>
    if w.link = .up ∧ w.tcp.tls = true then
      some { w with tcp := w.tcp.onSslErrors errors }.settle
    else none
  | .errorOccurred text => some { w with tcp := w.tcp.onSocketError text }
  | .disconnected =>
    let tcp := { w.tcp with sock := { w.tcp.sock with connected := false } }
    some ({ w with tcp, link := .idle }.onDisconnected)
  | .message now type payload =>
    if w.isOpen then some (w.call now fun tcp => tcp.handleMessage Q type payload) else none
  | .reject r => some { w with tcp := w.tcp.onReject r }.settle

end MainWindow

end FaceTracking.PcClient
