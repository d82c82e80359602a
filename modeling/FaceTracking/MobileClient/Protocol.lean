import FaceTracking.Lib.Json
import FaceTracking.Net.Framing

/-!
# The mobile client's codec

The browser client reads one SEC1 frame per WebSocket message through a
`DataView` and builds its requests from JSON objects. JavaScript numbers are
modelled by natural numbers; the one sum that can leave the exactly
represented range, the 64-bit time stamp, is rounded to the nearest double.
-/

namespace FaceTracking.MobileClient

open Lib Proto

def MAGIC : Nat := 0x53454331
def HEADER_SIZE : Nat := 12
def VIDEO_SUBHEADER_SIZE : Nat := 20

structure Header where
  type : Nat
  flags : Nat
  length : Nat
deriving DecidableEq, Repr

structure VideoFrame where
  seq : Nat
  width : Nat
  height : Nat
  tsMs : Nat
  jpeg : Bytes
deriving DecidableEq, Repr

/-! ## DataView and numbers -/

def getUint16 (v : Bytes) (off : Nat) : Nat := beNat ((v.drop off).take 2)

def getUint32 (v : Bytes) (off : Nat) : Nat := beNat ((v.drop off).take 4)

/-- The double nearest to a natural number, ties to even. -/
def toDouble (n : Nat) : Nat :=
  if n < 2 ^ 53 then n
  else
    let s := n.log2 - 52
    let q := n / 2 ^ s
    let r := n % 2 ^ s
    let q := if 2 * r > 2 ^ s ∨ (2 * r = 2 ^ s ∧ q % 2 = 1) then q + 1 else q
    q * 2 ^ s

theorem toDouble_of_lt {n : Nat} (h : n < 2 ^ 53) : toDouble n = n := if_pos h

/-! ## Decoding -/

/-- Parse the 12-byte header of a complete frame; `none` if short or bad magic. -/
def decodeHeader (frame : Bytes) : Option Header :=
  if frame.length < HEADER_SIZE then none
  else if getUint32 frame 0 ≠ MAGIC then none
  else some
    { type := getUint16 frame 4
      flags := getUint16 frame 6
      length := getUint32 frame 8 }

/-- The payload that follows the header in a complete frame. -/
def framePayload (frame : Bytes) (header : Header) : Bytes :=
  (frame.drop HEADER_SIZE).take header.length

def parseVideoFrame (payload : Bytes) : Option VideoFrame :=
  if payload.length < VIDEO_SUBHEADER_SIZE then none
  else
    let hi := getUint32 payload 12
    let lo := getUint32 payload 16
    some
      { seq := getUint32 payload 0
        width := getUint32 payload 4
        height := getUint32 payload 8
        tsMs := toDouble (hi * 2 ^ 32 + lo)
        jpeg := payload.drop VIDEO_SUBHEADER_SIZE }

structure FileDataChunk where
  idx : Nat
  total : Nat
  name : String
  bytes : Bytes
deriving DecidableEq, Repr

/-- FILE_DATA payload; `decode` is the text decoder's `decode`. -/
def parseFileData (decode : Bytes → String) (payload : Bytes) : Option FileDataChunk :=
  if payload.length < 9 then none
  else
    let idx := getUint32 payload 0
    let total := getUint32 payload 4
    let nameLen := (byteAt payload 8).toNat
    if payload.length < 9 + nameLen then none
    else some
      { idx, total
        name := decode ((payload.drop 9).take nameLen)
        bytes := payload.drop (9 + nameLen) }

/-! ## Reading what the terminal wrote -/

/-- The `DataView` reads a number as it was written. -/
theorem beNat_take {w v : Nat} {b r : Bytes} (h : b = beBytes w v ++ r) (hv : v < 256 ^ w) :
    beNat (b.take w) = v := by
  rw [h, List.take_left' (length_beBytes w v), beNat_beBytes_of_lt hv]

/-- Of a whole frame the header and the payload are read as written. -/
theorem decodeHeader_wire (m : Message) (hm : m.payload.length < 2 ^ 32) :
    decodeHeader m.wire = some ⟨m.type.toNat, m.flags.toNat, m.payload.length⟩ ∧
      framePayload m.wire ⟨m.type.toNat, m.flags.toNat, m.payload.length⟩ = m.payload := by
  have hlen : (UInt32.ofNat m.payload.length).toNat = m.payload.length := by
    rw [UInt32.toNat_ofNat', Nat.mod_eq_of_lt hm]
  have hmagic : getUint32 m.wire 0 = MAGIC :=
    beNat_take (buildMessage_eq m.type m.payload m.flags) (by decide)
  have htype : getUint16 m.wire 4 = m.type.toNat :=
    beNat_take (buildMessage_drop4 m.type m.payload m.flags) m.type.toNat_lt
  have hflags : getUint16 m.wire 6 = m.flags.toNat :=
    beNat_take (buildMessage_drop6 m.type m.payload m.flags) m.flags.toNat_lt
  have hlength : getUint32 m.wire 8 = m.payload.length := by
    rw [← hlen]
    exact beNat_take (buildMessage_drop8 m.type m.payload m.flags) (by rw [hlen]; exact hm)
  have hsize : ¬ m.wire.length < HEADER_SIZE := by
    rw [Message.wire, length_buildMessage, HEADER_SIZE, kHeaderSize]
    omega
  refine ⟨?_, ?_⟩
  · rw [decodeHeader, if_neg hsize, if_neg (by rw [hmagic]; simp), htype, hflags, hlength]
  · rw [framePayload, show m.wire.drop HEADER_SIZE = m.payload from
      buildMessage_drop12 m.type m.payload m.flags, List.take_length]

/-! ## Encoding -/

def buildMessage (type : MsgType) (payload : Bytes) : Bytes :=
  beBytes 4 MAGIC ++ (beBytes 2 type.code.toNat ++ (beBytes 2 0 ++
    (beBytes 4 payload.length ++ payload)))

def buildJson (type : MsgType) (obj : List (String × Json.Value)) : Bytes :=
  buildMessage type (Json.stringify obj)

/-- The members of the client's HELLO; an empty token leaves its member out. -/
def helloObject (token : String) : List (String × Json.Value) :=
  if token = "" then [("role", .str "mobile"), ("ver", .num 1)]
  else [("role", .str "mobile"), ("ver", .num 1), ("token", .str token)]

def hello (token : String) : Bytes := buildJson .Hello (helloObject token)

/-- The SERVO_CMD body; the numbers are given as printed. -/
def servoBody (mode : String) (pan tilt : Bytes) : Bytes :=
  utf8 "\x7B\"mode\":" ++ Json.quote mode ++ utf8 ",\"pan\":" ++ pan ++ utf8 ",\"tilt\":" ++ tilt ++
    utf8 "\x7D"

def servoStep (dPan dTilt : Bytes) : Bytes := buildMessage .ServoCmd (servoBody "step" dPan dTilt)

def servoAbs (pan tilt : Bytes) : Bytes := buildMessage .ServoCmd (servoBody "abs" pan tilt)

def modeCmd (autoTrack : Bool) : Bytes := buildJson .ModeCmd [("autoTrack", .bool autoTrack)]

def fileListReq : Bytes := buildMessage .FileListReq []

def fileGetReq (name : String) : Bytes := buildJson .FileGetReq [("name", .str name)]

def fileDeleteReq (name : String) : Bytes := buildJson .FileDeleteReq [("name", .str name)]

def snapshotReq : Bytes := buildMessage .SnapshotReq []

end FaceTracking.MobileClient
