import FaceTracking.MobileClient.Protocol

/-!
# The mobile client's store

`useTerminal`: the store that owns the WebSocket, and the part of the browser
it runs on. Each function below runs to its end before the next event.

A `Client` is the store's variables together with the browser's: every socket
ever created, the object URLs that are not revoked, and the downloads saved.
`token`, `via` and `latest` are notes of where things come from, and no
function reads them. What the browser itself computes (text and JSON decoding,
the printing of numbers) is a record of parameters, and times are exact.
-/

namespace FaceTracking.MobileClient

open Lib Proto

inductive ConnStatus where
  | disconnected
  | connecting
  | connected
deriving DecidableEq, Repr

structure RemoteFile where
  name : String
  size : Nat
  mtime : Nat
deriving DecidableEq, Repr

/-- A chunk that is kept; `via` is the socket it came in on. -/
structure Part where
  idx : Nat
  bytes : Bytes
  via : Nat
deriving DecidableEq, Repr

structure Download where
  name : String
  total : Nat
  parts : List Part
  received : Nat
deriving DecidableEq, Repr

namespace Download

/-- `dl.parts.get(i)`. -/
def part? (d : Download) (i : Nat) : Option Bytes :=
  (d.parts.find? (fun p => p.idx == i)).map Part.bytes

/-- Keeps a chunk, unless its index is there already. -/
def add (d : Download) (idx : Nat) (bytes : Bytes) (via : Nat) : Download :=
  if d.parts.any (fun p => p.idx == idx) then d
  else { d with parts := d.parts ++ [⟨idx, bytes, via⟩], received := d.received + 1 }

/-- `merged.set(part, off)`. -/
def setAt (merged part : Bytes) (off : Nat) : Bytes :=
  merged.take off ++ part ++ merged.drop (off + part.length)

/-- One round of the merge loop, on the buffer and the running offset. -/
def mergeStep (d : Download) (r : Bytes × Nat) (i : Nat) : Bytes × Nat :=
  match d.part? i with
  | none => r
  | some part => (setAt r.1 part r.2, r.2 + part.length)

/-- The merged file: the parts written one behind the other into a buffer of
their total length. -/
def merged (d : Download) : Bytes :=
  let totalLen := (d.parts.map fun p => p.bytes.length).sum
  ((List.range d.total).foldl d.mergeStep (List.replicate totalLen 0, 0)).1

end Download

/-- An object URL. -/
abbrev Url := Nat

/-- The variables of the store. Where the source has the empty string for "no
URL", and `null` for "no socket", these are `none`. -/
structure Store where
  status : ConnStatus
  error : String
  peer : String
  frameUrl : Option Url
  resW : Nat
  resH : Nat
  fps : Nat
  autoTrack : Bool
  files : List RemoteFile
  /-- Index of the socket. -/
  ws : Option Nat
  lastUrl : Option Url
  downloads : List (String × Download)
  frameCount : Nat
  fpsAnchor : ℚ
deriving DecidableEq, Repr

inductive ReadyState where
  | CONNECTING
  | OPEN
  | CLOSING
  | CLOSED
deriving DecidableEq, Repr

structure WebSocket where
  url : String
  readyState : ReadyState
  /-- The token that the four handlers close over; `none` once they are null. -/
  handlers : Option String
  sent : List Bytes
  /-- The token of the `connect` that created the socket. -/
  token : String
deriving DecidableEq, Repr

/-- `sock.close()`. -/
def WebSocket.close (s : WebSocket) : WebSocket :=
  { s with readyState := if s.readyState = .CLOSED then .CLOSED else .CLOSING }

/-- What an object URL was made for. -/
inductive UrlUse where
  | frame
  | download
deriving DecidableEq, Repr

structure Browser where
  sockets : List WebSocket
  nextUrl : Url
  /-- The object URLs that are not revoked. -/
  urls : List (Url × UrlUse)
  /-- The URLs with a timer that will revoke them. -/
  timers : List Url
  saved : List (String × Bytes)
  /-- The socket of the most recent `connect`, if one was constructed. -/
  latest : Option Nat
deriving DecidableEq, Repr

/-- The parts of the browser the client relies on. -/
structure Web (ν : Type) where
  /-- `textDecoder.decode`. -/
  decode : Bytes → String
  /-- The array a FILE_LIST_RESP holds; empty if it does not parse to one. -/
  parseFileList : Bytes → List RemoteFile
  /-- The truth of the `ok` member of a FILE_DELETE_RESP. -/
  parseDeleteOk : Bytes → Bool
  /-- `JSON.stringify` of a number. -/
  stringify : ν → Bytes
  neg : ν → ν
  /-- Multiplication by `AIM_MAX_DEG`. -/
  timesAimMaxDeg : ν → ν

structure Client where
  store : Store
  browser : Browser
deriving DecidableEq, Repr

namespace Client

/-- A page that has just been loaded. -/
def fresh : Client where
  store :=
    { status := .disconnected, error := "", peer := "", frameUrl := none, resW := 0, resH := 0
      fps := 0, autoTrack := true, files := [], ws := none, lastUrl := none, downloads := []
      frameCount := 0, fpsAnchor := 0 }
  browser := { sockets := [], nextUrl := 1, urls := [], timers := [], saved := [], latest := none }

/-! ## The browser -/

def modifySocket (c : Client) (i : Nat) (f : WebSocket → WebSocket) : Client :=
  { c with browser := { c.browser with sockets := c.browser.sockets.modify i f } }

/-- `URL.createObjectURL`: the URL is `nextUrl`. -/
def createObjectURL (c : Client) (use : UrlUse) : Client :=
  { c with browser :=
    { c.browser with
      nextUrl := c.browser.nextUrl + 1, urls := (c.browser.nextUrl, use) :: c.browser.urls } }

/-- `URL.revokeObjectURL`. -/
def revokeObjectURL (c : Client) (url : Url) : Client :=
  { c with browser := { c.browser with urls := c.browser.urls.filter (fun u => u.1 != url) } }

/-! ## Sending -/

def send (c : Client) (buf : Bytes) : Client :=
  match c.store.ws with
  | none => c
  | some i =>
    if (c.browser.sockets[i]?).map WebSocket.readyState = some .OPEN then
      c.modifySocket i fun s => { s with sent := s.sent ++ [buf] }
    else c

def refreshFiles (c : Client) : Client := c.send fileListReq

/-! ## Connecting -/

/-- Drops the frame that is shown. -/
def forgetFrame (c : Client) : Client :=
  match c.store.lastUrl with
  | none => c
  | some url =>
    let c := c.revokeObjectURL url
    { c with store := { c.store with lastUrl := none } }

/-- Gives up the socket: its handlers are set to null and it is closed. -/
def dropSocket (c : Client) : Client :=
  match c.store.ws with
  | none => c
  | some i =>
    let c := { c with store := { c.store with ws := none } }
    c.modifySocket i fun s => WebSocket.close { s with handlers := none }

def disconnect (c : Client) : Client :=
  let c := c.dropSocket
  let c :=
    { c with store :=
      { c.store with
        status := .disconnected, fps := 0, frameCount := 0, fpsAnchor := 0, downloads := [] } }
  let c := c.forgetFrame
  { c with store := { c.store with frameUrl := none } }

/-- A host with a colon is an IPv6 literal and needs brackets. -/
def hostInUrl (host : String) : String :=
  if host.contains ':' && !host.startsWith "[" then "[" ++ host ++ "]" else host

/-- `connect`; `thrown` is the exception of the socket's constructor, if any. -/
def connect (c : Client) (host : String) (port : Nat) (token : String) (tls : Bool)
    (thrown : Option String) : Client :=
  let c := c.disconnect
  let url := (if tls then "wss" else "ws") ++ "://" ++ hostInUrl host ++ ":" ++ toString port
  let c :=
    { c with store :=
      { c.store with
        peer := host ++ ":" ++ toString port, error := "", status := .connecting } }
  match thrown with
  | some e =>
    { store := { c.store with status := .disconnected, error := e }
      browser := { c.browser with latest := none } }
  | none =>
    let i := c.browser.sockets.length
    let sock : WebSocket :=
      { url, readyState := .CONNECTING, handlers := some token, sent := [], token }
    { store := { c.store with ws := some i }
      browser := { c.browser with sockets := c.browser.sockets ++ [sock], latest := some i } }

/-! ## Incoming -/

section Incoming

variable {ν : Type} (W : Web ν)

/-- The frame rate, over spans of at least a second. -/
def countFrame (s : Store) (now : ℚ) : Store :=
  let fpsAnchor := if s.fpsAnchor = 0 then now else s.fpsAnchor
  let frameCount := s.frameCount + 1
  let span := now - fpsAnchor
  if span ≥ 1000 then
    { s with
      fps := ⌊(frameCount * 1000 : ℚ) / span + 1 / 2⌋.toNat, frameCount := 0, fpsAnchor := now }
  else { s with frameCount, fpsAnchor }

/-- `now` is what `performance.now()` returns. -/
def onVideo (c : Client) (now : ℚ) (payload : Bytes) : Client :=
  match parseVideoFrame payload with
  | none => c
  | some vf =>
    let url := c.browser.nextUrl
    let c := c.createObjectURL .frame
    let c := c.forgetFrame
    let s :=
      { c.store with
        resW := vf.width, resH := vf.height, lastUrl := some url, frameUrl := some url }
    { c with store := countFrame s now }

def onFileList (c : Client) (payload : Bytes) : Client :=
  { c with store := { c.store with files := W.parseFileList payload } }

/-- A fully reassembled file. The URL made for it is revoked by a timer. -/
def saveBlob (c : Client) (name : String) (bytes : Bytes) : Client :=
  let url := c.browser.nextUrl
  let c := c.createObjectURL .download
  { c with browser :=
    { c.browser with
      saved := c.browser.saved ++ [(name, bytes)], timers := c.browser.timers ++ [url] } }

def setDownloads (c : Client) (downloads : List (String × Download)) : Client :=
  { c with store := { c.store with downloads } }

/-- `i` is the socket the message came in on. -/
def onFileData (c : Client) (i : Nat) (payload : Bytes) : Client :=
  match parseFileData W.decode payload with
  | none => c
  | some chunk =>
    let others := c.store.downloads.filter (fun d => d.1 != chunk.name)
    -- the terminal's "no such file"
    if chunk.total = 0 then
      let c := c.setDownloads others
      { c with store := { c.store with error := "File not found: " ++ chunk.name } }
    else
      let dl := (c.store.downloads.lookup chunk.name).getD ⟨chunk.name, chunk.total, [], 0⟩
      let dl := dl.add chunk.idx chunk.bytes i
      if dl.received ≥ dl.total then (c.setDownloads others).saveBlob chunk.name dl.merged
      else c.setDownloads ((chunk.name, dl) :: others)

def onFileDeleteResp (c : Client) (payload : Bytes) : Client :=
  if W.parseDeleteOk payload then c.refreshFiles else c

def onMessage (c : Client) (i : Nat) (now : ℚ) (frame : Bytes) : Client :=
  match decodeHeader frame with
  | none => c
  | some header =>
    let payload := framePayload frame header
    match MsgType.ofCode (UInt16.ofNat header.type) with
    | some .VideoFrame => c.onVideo now payload
    | some .FileListResp => c.onFileList W payload
    | some .FileData => c.onFileData W i payload
    | some .FileDeleteResp => c.onFileDeleteResp W payload
    -- HELLO and HEARTBEAT: nothing to do on the client
    | _ => c

/-! ## The four handlers -/

def onOpen (c : Client) (token : String) : Client :=
  let c := { c with store := { c.store with status := .connected } }
  (c.send (hello token)).refreshFiles

def onError (c : Client) : Client :=
  if c.store.status = .connecting then
    { c with store := { c.store with error := "Connection failed" } }
  else c

def onClose (c : Client) (i : Nat) : Client :=
  { c with store :=
    { c.store with
      ws := if c.store.ws = some i then none else c.store.ws
      status := .disconnected, fps := 0 } }

/-! ## Control senders -/

/-- What the user can do on a page besides connecting. -/
inductive Action (ν : Type) where
  | nudge (dPan dTilt : ν)
  | home
  | aim (dx dy : ν)
  | setMode (on : Bool)
  | refreshFiles
  | downloadFile (name : String)
  | deleteFile (name : String)
  | snapshot

def nudge (c : Client) (dPan dTilt : ν) : Client :=
  c.send (servoStep (W.stringify dPan) (W.stringify dTilt))

def home (c : Client) : Client := c.send (servoAbs (utf8 "90") (utf8 "90"))

def aim (c : Client) (dx dy : ν) : Client :=
  c.send (servoStep (W.stringify (W.timesAimMaxDeg dx)) (W.stringify (W.timesAimMaxDeg (W.neg dy))))

def setMode (c : Client) (on : Bool) : Client :=
  let c := { c with store := { c.store with autoTrack := on } }
  c.send (modeCmd on)

def downloadFile (c : Client) (name : String) : Client := c.send (fileGetReq name)

def deleteFile (c : Client) (name : String) : Client := c.send (fileDeleteReq name)

def snapshot (c : Client) : Client := c.send snapshotReq

def act (c : Client) : Action ν → Client
  | .nudge dPan dTilt => c.nudge W dPan dTilt
  | .home => c.home
  | .aim dx dy => c.aim W dx dy
  | .setMode on => c.setMode on
  | .refreshFiles => c.refreshFiles
  | .downloadFile name => c.downloadFile name
  | .deleteFile name => c.deleteFile name
  | .snapshot => c.snapshot

/-! ## Events -/

inductive Event (ν : Type) where
  | connect (host : String) (port : Nat) (token : String) (tls : Bool) (thrown : Option String)
  | disconnect
  | act (a : Action ν)
  /-- The `open` event. -/
  | opened (i : Nat)
  /-- A text message is `none`. -/
  | message (i : Nat) (now : ℚ) (data : Option Bytes)
  | error (i : Nat)
  /-- The peer starts to close; no handler is told. -/
  | closing (i : Nat)
  | closed (i : Nat)
  /-- A timer of `saveBlob` runs out. -/
  | timeout (url : Url)

/-- The socket an event belongs to. -/
def Event.socket : Event ν → Option Nat
  | .opened i | .message i _ _ | .error i | .closing i | .closed i => some i
  | _ => none

/-- Can the socket still fire an event? -/
def live (c : Client) (i : Nat) : Bool :=
  match c.browser.sockets[i]? with
  | none => false
  | some s => s.readyState != .CLOSED

/-- Calls a handler of the socket, unless it is null. -/
def call (c : Client) (i : Nat) (handler : Client → String → Client) : Client :=
  match (c.browser.sockets[i]?).bind WebSocket.handlers with
  | none => c
  | some token => handler c token

def setReadyState (c : Client) (i : Nat) (r : ReadyState) : Client :=
  c.modifySocket i fun s => { s with readyState := r }

/-- What an event of a socket does. -/
def fire (c : Client) (i : Nat) : Event ν → Client
  | .opened _ => (c.setReadyState i .OPEN).call i onOpen
  | .message _ now (some data) => c.call i fun c _ => c.onMessage W i now data
  | .error _ => c.call i fun c _ => c.onError
  | .closing _ => c.setReadyState i .CLOSING
  | .closed _ => (c.setReadyState i .CLOSED).call i fun c _ => c.onClose i
  | _ => c

/-- One event. A socket that is closed fires none. -/
def step (c : Client) (e : Event ν) : Option Client :=
  match e with
  | .connect host port token tls thrown => some (c.connect host port token tls thrown)
  | .disconnect => some c.disconnect
  | .act a => some (c.act W a)
  | .timeout url =>
    if url ∈ c.browser.timers then
      some ({ c with browser :=
        { c.browser with timers := c.browser.timers.erase url } }.revokeObjectURL url)
    else none
  | .opened i | .message i _ _ | .error i | .closing i | .closed i =>
    if c.live i then some (c.fire W i e) else none

end Incoming

end Client

end FaceTracking.MobileClient
