import HermesOps.Controller.EventStream
import HermesOps.Schemes.Scanner

/-! `websocket_transport.py`: the frames of a WebSocket client. `read_client_frame` reads one frame from
    a stream that may deliver its bytes in any pieces; `encode_client_frame` writes one. -/

namespace HermesOps.Controller

open Schemes

/-- What `read_client_frame` raises. -/
inductive FrameError where
  | eof
  | protocol (e : ProtocolError)
  deriving DecidableEq

/-- A program of the stream of the client. -/
abbrev FrameScan (α : Type) := Scan UInt8 FrameError α

structure ClientFrame where
  opcode : Nat
  payload : List UInt8
  deriving DecidableEq

def maxClientFrameBytes : Nat := 65536

def supportedOpcodes : List Nat := [0x1, 0x2, 0x8, 0x9, 0xA]

def protocolError (closeCode : Nat) (reason : String) : FrameError := .protocol ⟨closeCode, reason⟩

/-- `_read_exact`. -/
def readExact (count : Nat) : FrameScan (List UInt8) := fun stream =>
  if _hcount : count = 0 then .ok ([], stream)
  else
    let (chunk, stream') := stream.read count
    if _hchunk : chunk = [] then .error .eof
    else
      match readExact (count - chunk.length) stream' with
      | .ok (rest, stream'') => .ok (chunk ++ rest, stream'')
      | .error e => .error e
termination_by count
decreasing_by
  have := List.length_pos_iff.mpr _hchunk
  omega

/-- The length of the payload: the seven bits of the second byte, or the two or eight bytes after it. -/
def readLength (code : Nat) : FrameScan Nat :=
  if code = 126 then do
    let encoded ← readExact 2
    let payloadLength := ofBigEndian encoded
    Scan.require (126 ≤ payloadLength) (protocolError 1002 "non-canonical frame length")
    pure payloadLength
  else if code = 127 then do
    let encoded ← readExact 8
    Scan.require (encoded.getD 0 0 &&& 0x80 = 0) (protocolError 1002 "invalid frame length")
    let payloadLength := ofBigEndian encoded
    Scan.require (65536 ≤ payloadLength) (protocolError 1002 "non-canonical frame length")
    pure payloadLength
  else pure code

/-- `value ^ mask[index % 4]` for each value of the payload. -/
def applyMask (mask payload : List UInt8) : List UInt8 :=
  payload.mapIdx fun index value => value ^^^ mask.getD (index % 4) 0

def closeCodes : List Nat := [1000, 1001, 1002, 1003, 1007, 1008, 1009, 1010, 1011]

/-- The payload of a close frame: a code, and a reason whose bytes decode as UTF-8. -/
def checkClosePayload (payload : List UInt8) : FrameScan Unit := do
  Scan.require (payload.length ≠ 1) (protocolError 1002 "invalid close payload")
  if 2 ≤ payload.length then do
    let closeCode := ofBigEndian (payload.take 2)
    Scan.require (closeCode ∈ closeCodes ∨ (3000 ≤ closeCode ∧ closeCode ≤ 4999))
      (protocolError 1002 "invalid close code")
    Scan.require ((payload.drop 2).toByteArray.validateUTF8 = true)
      (protocolError 1007 "invalid close reason")
  else pure ()

def checkPayload (opcode : Nat) (payload : List UInt8) : FrameScan Unit :=
  if opcode = 0x8 then checkClosePayload payload else pure ()

/-- `read_client_frame`. -/
def readClientFrame (maximumPayload : Int) : FrameScan ClientFrame := do
  let header ← readExact 2
  let first := header.getD 0 0
  let second := header.getD 1 0
  let opcode := (first &&& 0x0F).toNat
  Scan.require (first &&& 0x70 = 0 ∧ first &&& 0x80 ≠ 0)
    (protocolError 1002 "fragmented or reserved frame")
  Scan.require (second &&& 0x80 ≠ 0) (protocolError 1002 "client frame must be masked")
  Scan.require (opcode ∈ supportedOpcodes) (protocolError 1002 "unsupported opcode")
  let payloadLength ← readLength (second &&& 0x7F).toNat
  Scan.require (¬(0x8 ≤ opcode ∧ 125 < payloadLength)) (protocolError 1002 "oversized control frame")
  Scan.require ((payloadLength : Int) ≤ maximumPayload) (protocolError 1009 "frame too large")
  let mask ← readExact 4
  let masked ← readExact payloadLength
  let payload := applyMask mask masked
  checkPayload opcode payload
  pure ⟨opcode, payload⟩

/-- `struct.pack` of an unsigned number in network order, which raises when the number does not fit. -/
def packNumber (width value : Nat) : Option (List UInt8) :=
  if value < 256 ^ width then some (bigEndian width value) else none

/-- The first bytes of a frame whose payload has the length. -/
def encodeHeader (first : List UInt8) (length : Nat) : Option (List UInt8) :=
  if length < 126 then some (first ++ [UInt8.ofNat (0x80 ||| length)])
  else if length ≤ 0xFFFF then
    (packNumber 2 length).map fun encoded => first ++ [UInt8.ofNat (0x80 ||| 126)] ++ encoded
  else
    (packNumber 8 length).map fun encoded => first ++ [UInt8.ofNat (0x80 ||| 127)] ++ encoded

/-- `encode_client_frame` with a mask that is given; none where it raises. -/
def encodeClientFrame (opcode : Nat) (payload mask : List UInt8) : Option (List UInt8) :=
  if mask.length ≠ 4 then none
  else do
    let first ← packNumber 1 (0x80 ||| opcode)
    let header ← encodeHeader first payload.length
    some (header ++ mask ++ applyMask mask payload)

end HermesOps.Controller
