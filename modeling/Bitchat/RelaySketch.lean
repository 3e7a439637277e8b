import Bitchat.BoundedHistory
import Bitchat.Effect
import Bitchat.StringHelper
import Bitchat.TransitionSystem

/-!
# The relay of the ESP32 sketch

A device that passes packets on as they come, knowing nothing of them but the second byte.
What is written to its characteristic goes through `onWrite`; `loop` takes one packet at a
time from the queue and writes it to every device the scan has found. The three mutexes make
the operations of queue, history and registry single steps. How a connection to a device
ends is up to the environment, and the hash is a parameter.
-/

namespace Bitchat.RelaySketch

open ByteCursor Effect StringHelper BoundedHistory

def maxQueueSize : ℕ := 32
def processedIdHistory : ℕ := 128

def version : UInt8 := 1
def typeVersionHello : UInt8 := 0x11
def typeVersionAck : UInt8 := 0x12
def ttl : UInt8 := 1

/-- The first eight bytes of the sketch's `senderID`. -/
def senderID : Bytes := (ascii "ESP32ABC1").take 8

def bigEndian64 (now : UInt64) : Bytes :=
  [7, 6, 5, 4, 3, 2, 1, 0].map fun (i : UInt64) => ((now >>> (i * 8)) &&& 0xFF).toUInt8

def bigEndian16 (length : UInt16) : Bytes :=
  [((length >>> 8) &&& 0xFF).toUInt8, (length &&& 0xFF).toUInt8]

def helloPayload : Bytes :=
  let clientVer := ascii "esp32"
  let platform := ascii "esp32"
  [1, 1, 1] ++ [UInt8.ofNat clientVer.length] ++ clientVer ++
    [UInt8.ofNat platform.length] ++ platform ++ [0]

/-- `now` is a reading of `std::time`. -/
def makeVersionHelloPacket (now : UInt64) : Bytes :=
  [version, typeVersionHello, ttl] ++ bigEndian64 now ++ [0] ++
    bigEndian16 (UInt16.ofNat helloPayload.length) ++ senderID ++ helloPayload

/-- The next bytes, each read by its index. -/
def copyBytes (rx : Bytes) : ℕ → Bytes → Reader Bytes
  | 0, out => pure out
  | i + 1, out => do
      let byte ← next rx
      copyBytes rx i (out ++ [byte])

/-- The timestamp is that of the received packet, whose length nobody has looked at. -/
def makeVersionAckPacket (rx : Bytes) : Except OutOfBounds Bytes := do
  let out ← (copyBytes rx 8 [version, typeVersionAck, ttl]).run' 3
  pure (out ++ [0] ++ [0, 0] ++ senderID)

structure RelayPacket where
  packetId : Bytes
  payload : Bytes
  deriving DecidableEq, Repr

/-- How a connection to a device ends: at `connect`, at `getService`, at `getCharacteristic`
or `canWrite`, in `writeValue`, or with the value written. -/
inductive Link where
  | unreachable
  | noService
  | notWritable
  | failing
  | writable
  deriving DecidableEq, Repr

/-- `written` are the values written to other devices; `accepted` and `taken` keep which
packets have passed the deduplicator and which have left the queue. -/
structure Sketch where
  packetQueue : List RelayPacket := []
  deduplicator : List Bytes := []
  peerRegistry : List Bytes := []
  written : List (Bytes × Bytes) := []
  accepted : List RelayPacket := []
  taken : List RelayPacket := []

abbrev SketchM (α : Type) := Effect Fault Sketch α

def push (packet : RelayPacket) : SketchM Unit :=
  modify fun s => { s with packetQueue := enter maxQueueSize s.packetQueue packet }

def pop : SketchM (Option RelayPacket) := do
  let s ← get
  match s.packetQueue with
  | [] => pure none
  | packet :: rest =>
      modify fun s => { s with packetQueue := rest, taken := s.taken ++ [packet] }
      pure (some packet)

def isDuplicate (packet : RelayPacket) : SketchM Bool := do
  let s ← get
  if packet.packetId ∈ s.deduplicator then pure true
  else
    modify fun s => { s with
      deduplicator := enter processedIdHistory s.deduplicator packet.packetId
      accepted := s.accepted ++ [packet] }
    pure false

def getPeers : SketchM (List Bytes) := do
  let s ← get
  pure s.peerRegistry

def remove (addr : Bytes) : SketchM Unit :=
  modify fun s => { s with peerRegistry := s.peerRegistry.filter fun peer => peer ≠ addr }

def writeValue (link : Link) (addr data : Bytes) : SketchM Unit :=
  if link = .writable then modify fun s => { s with written := s.written ++ [(addr, data)] }
  else pure ()

/-- The steps to the characteristic of a device that the three callers have in common; only
the relay does something about a device without the service. -/
def connectTo (link : Link) (onNoService onCharacteristic : SketchM Unit) : SketchM Unit :=
  match link with
  | .unreachable => pure ()
  | .noService => onNoService
  | .notWritable => pure ()
  | .failing => onCharacteristic
  | .writable => onCharacteristic

variable (links : Bytes → Link)

def sendHelloToPeer (now : UInt64) (addr : Bytes) : SketchM Unit :=
  connectTo (links addr) (pure ())
    (writeValue (links addr) addr (makeVersionHelloPacket now))

def add (now : UInt64) (addr : Bytes) : SketchM Unit := do
  let s ← get
  if addr ∈ s.peerRegistry then pure ()
  else
    modify fun s => { s with peerRegistry := s.peerRegistry ++ [addr] }
    sendHelloToPeer links now addr

def ackLoop (rx : Bytes) : List Bytes → SketchM Unit
  | [] => pure ()
  | addr :: addrs => do
      connectTo (links addr) (pure ()) (do
        let ack ← match makeVersionAckPacket rx with
          | .ok ack => pure ack
          | .error e => throw (Fault.outOfBounds e)
        writeValue (links addr) addr ack)
      ackLoop rx addrs

def sendVersionAckToSender (rx : Bytes) : SketchM Unit := do
  let peers ← getPeers
  ackLoop links rx peers

def relayLoop (payload : Bytes) : List Bytes → SketchM Unit
  | [] => pure ()
  | addr :: addrs => do
      connectTo (links addr) (remove addr) (writeValue (links addr) addr payload)
      relayLoop payload addrs

def relayPacketToPeers (payload : Bytes) : SketchM Unit := do
  let peers ← getPeers
  relayLoop links payload peers

def HasType (type : UInt8) (rx : Bytes) : Prop := rx.length > 2 ∧ rx[1]? = some type

instance (type : UInt8) (rx : Bytes) : Decidable (HasType type rx) :=
  inferInstanceAs (Decidable (_ ∧ _))

variable (sha256 : Bytes → Bytes)

/-- The packet under its ID. -/
def identify (rx : Bytes) : RelayPacket := ⟨toHex (sha256 rx), rx⟩

def onWrite (rx : Bytes) : SketchM Unit :=
  if rx.isEmpty then pure ()
  else do
    let duplicate ← isDuplicate (identify sha256 rx)
    if duplicate then pure ()
    else if HasType typeVersionHello rx then sendVersionAckToSender links rx
    else if HasType typeVersionAck rx then pure ()
    else push (identify sha256 rx)

/-- One pass of `loop`, without the light. -/
def loop : SketchM Unit := do
  match ← pop with
  | none => pure ()
  | some packet => relayPacketToPeers links packet.payload

inductive SketchAction where
  | write (links : Bytes → Link) (rx : Bytes)
  | loop (links : Bytes → Link)
  | discover (links : Bytes → Link) (now : UInt64) (addr : Bytes)

/-- A write that reads out of bounds has no next state. -/
def relaying : TransitionSystem Sketch SketchAction where
  Enabled s action := match action with
    | .write links rx => (onWrite links sha256 rx).result s = .ok ⟨⟩
    | _ => True
  next s action := match action with
    | .write links rx => (onWrite links sha256 rx).exec s
    | .loop links => (loop links).exec s
    | .discover links now addr => (add links now addr).exec s

instance (s : Sketch) (action : SketchAction) : Decidable ((relaying sha256).Enabled s action) :=
  match action with
  | .write links rx => inferInstanceAs (Decidable ((onWrite links sha256 rx).result s = .ok ⟨⟩))
  | .loop _ => .isTrue trivial
  | .discover _ _ _ => .isTrue trivial

end Bitchat.RelaySketch
