import Bitchat.StringHelper

/-!
# Packets, messages and peers

The three records of `packet.h` with their defaults, the packet constants, and the
validation of `packet.cpp`. Times come in as arguments: `timestamp` is a reading of
`DateTimeHelper::getCurrentTimestamp`, `time` a reading of `std::time`.
-/

namespace Bitchat

def pktVersion : UInt8 := 1
def pktTypeAnnounce : UInt8 := 0x01
def pktTypeLeave : UInt8 := 0x03
def pktTypeMessage : UInt8 := 0x04
def pktTypeChannelAnnounce : UInt8 := 0x08
def pktTypeNoiseHandshakeInit : UInt8 := 0x10
def pktTypeNoiseHandshakeResp : UInt8 := 0x11
def pktTypeNoiseEncrypted : UInt8 := 0x12
def pktTypeNoiseIdentityAnnounce : UInt8 := 0x13
def pktTypeVersionHello : UInt8 := 0x20
def pktTypeVersionAck : UInt8 := 0x21

def flagHasRecipient : UInt8 := 0x01
def flagHasSignature : UInt8 := 0x02
def flagIsCompressed : UInt8 := 0x04

def pktTTL : UInt8 := 7

structure BitchatPacket where
  version : UInt8 := pktVersion
  type : UInt8 := 0
  ttl : UInt8 := pktTTL
  timestamp : UInt64 := 0
  flags : UInt8 := 0
  payloadLength : UInt16 := 0
  senderID : Bytes := []
  recipientID : Bytes := []
  payload : Bytes := []
  signature : Bytes := []
  deriving DecidableEq, Repr

namespace BitchatPacket

/-- The constructor from a type and a payload, at clock reading `timestamp`. -/
def make (type : UInt8) (payload : Bytes) (timestamp : UInt64) : BitchatPacket where
  type := type
  payloadLength := UInt16.ofNat payload.length
  payload := payload
  timestamp := timestamp

def setPayload (packet : BitchatPacket) (p : Bytes) : BitchatPacket :=
  { packet with payload := p, payloadLength := UInt16.ofNat p.length }

def hasRecipient (packet : BitchatPacket) : Bool := packet.flags &&& flagHasRecipient != 0

def hasSignature (packet : BitchatPacket) : Bool := packet.flags &&& flagHasSignature != 0

def isCompressed (packet : BitchatPacket) : Bool := packet.flags &&& flagIsCompressed != 0

/-- The common body of `setHasRecipient`, `setHasSignature` and `setCompressed`. -/
def setFlag (packet : BitchatPacket) (flag : UInt8) (on : Bool) : BitchatPacket :=
  { packet with flags := if on then packet.flags ||| flag else packet.flags &&& ~~~flag }

def setHasRecipient (packet : BitchatPacket) (has : Bool) : BitchatPacket :=
  packet.setFlag flagHasRecipient has

def setHasSignature (packet : BitchatPacket) (has : Bool) : BitchatPacket :=
  packet.setFlag flagHasSignature has

def setCompressed (packet : BitchatPacket) (compressed : Bool) : BitchatPacket :=
  packet.setFlag flagIsCompressed compressed

theorem isCompressed_setFlag (packet : BitchatPacket) {flag : UInt8}
    (h : flag &&& flagIsCompressed = 0) :
    (packet.setFlag flag true).isCompressed = packet.isCompressed := by
  have hflags : (packet.flags ||| flag) &&& flagIsCompressed =
      packet.flags &&& flagIsCompressed ||| flag &&& flagIsCompressed :=
    UInt8.toBitVec_inj.mp BitVec.and_or_distrib_right
  rw [isCompressed, setFlag, if_pos rfl, hflags, h, UInt8.or_zero, isCompressed]

theorem isCompressed_setCompressed_false (packet : BitchatPacket) :
    (packet.setCompressed false).isCompressed = false := by
  have hclear : ∀ f : UInt8, (f &&& ~~~flagIsCompressed &&& flagIsCompressed != 0) = false :=
    forall_byte (by decide +kernel)
  exact hclear packet.flags

theorem isCompressed_setHasRecipient (packet : BitchatPacket) :
    (packet.setHasRecipient true).isCompressed = packet.isCompressed :=
  isCompressed_setFlag packet (by decide)

theorem isCompressed_setHasSignature (packet : BitchatPacket) :
    (packet.setHasSignature true).isCompressed = packet.isCompressed :=
  isCompressed_setFlag packet (by decide)

def isValid (packet : BitchatPacket) : Bool :=
  if packet.version ≠ pktVersion then false
  else if packet.payloadLength.toNat ≠ packet.payload.length then false
  else if packet.timestamp = 0 then false
  else true

def getTotalSize (packet : BitchatPacket) : ℕ :=
  let size := 13
  let size := size + 8
  let size := if packet.hasRecipient then size + 8 else size
  let size := size + packet.payloadLength.toNat
  if packet.hasSignature then size + 64 else size

theorem isValid_iff (packet : BitchatPacket) :
    packet.isValid = true ↔ packet.version = pktVersion ∧
      packet.payloadLength.toNat = packet.payload.length ∧ packet.timestamp ≠ 0 := by
  unfold isValid
  split_ifs with hv hl ht <;> simp_all

end BitchatPacket

structure BitchatMessage where
  id : Bytes := []
  sender : Bytes := []
  content : Bytes := []
  timestamp : UInt64 := 0
  isRelay : Bool := false
  originalSender : Bytes := []
  isPrivate : Bool := false
  recipientNickname : Bytes := []
  senderPeerID : Bytes := []
  mentions : List Bytes := []
  channel : Bytes := []
  encryptedContent : Bytes := []
  isEncrypted : Bool := false
  deriving DecidableEq, Repr

/-- `RSSI` keeps its default: no modelled function sets or reads it otherwise. -/
structure BitchatPeer where
  peerID : Bytes := []
  peripheralID : Bytes := []
  nickname : Bytes := []
  channel : Bytes := []
  lastSeen : ℤ := 0
  rssi : ℤ := -100
  hasAnnounced : Bool := false
  deriving DecidableEq, Repr

namespace BitchatPeer

def updateLastSeen (peer : BitchatPeer) (time : ℤ) : BitchatPeer := { peer with lastSeen := time }

/-- The constructor from an ID and a nickname, at clock reading `time`. -/
def make (peerID nickname : Bytes) (time : ℤ) : BitchatPeer :=
  updateLastSeen { peerID := peerID, nickname := nickname } time

end BitchatPeer

end Bitchat
