import Bitchat.MessagePayload

/-!
# Payloads of the control packets

Announce, channel announce, version hello and version ack. The parsers fill variables of
their caller and return early when the payload ends too soon. What a parser leaves behind
is a record whose defaults are the caller's own; `none` stands for a variable that the
caller declares without a value. `error` tells which early return was taken.
-/

namespace Bitchat.PacketSerializer

open ByteCursor

inductive ControlError where
  | tooShort
  | channelName
  | supportedVersions
  | preferredVersion
  | clientVersionLength
  | clientVersion
  | platformLength
  | platform
  | capabilitiesCount
  | capabilityLength
  | capability
  | agreedVersion
  | serverVersionLength
  | serverVersion
  | reasonLength
  | reason
  deriving DecidableEq, Repr

def makeAnnouncePayload (nickname : Bytes) : Bytes := nickname

def parseAnnouncePayload (payload : Bytes) : Bytes := payload

structure ChannelAnnounce where
  channel : Bytes := []
  joining : Option Bool := none
  error : Option ControlError := none
  deriving DecidableEq, Repr

/-- The length byte wraps for a name of 256 bytes or more, the name is written in full. -/
def makeChannelAnnouncePayload (channel : Bytes) (joining : Bool) : Bytes :=
  let data := writeUint8 [] (if joining then 1 else 0)
  let data := writeUint8 data (UInt8.ofNat channel.length)
  data ++ channel

def readChannelAnnounce (payload : Bytes) : Reader ChannelAnnounce := do
  let flag ← readUint8 payload
  let joining := flag != 0
  match ← readField payload with
  | none => pure { joining, error := some .channelName }
  | some channel => pure { joining, channel }

def parseChannelAnnouncePayload (payload : Bytes) : Except OutOfBounds ChannelAnnounce :=
  if payload.length < 2 then .ok { error := some .tooShort }
  else (readChannelAnnounce payload).run' 0

structure VersionHello where
  supportedVersions : Bytes := []
  preferredVersion : Option UInt8 := none
  clientVersion : Bytes := []
  platform : Bytes := []
  capabilities : List Bytes := []
  error : Option ControlError := none
  deriving DecidableEq, Repr

def makeVersionHelloPayload (supportedVersions : Bytes) (preferredVersion : UInt8)
    (clientVersion platform : Bytes) (capabilities : List Bytes) : Bytes :=
  let data := writeUint8 [] (if !capabilities.isEmpty then 0x01 else 0)
  let data := writeUint8 data (UInt8.ofNat supportedVersions.length)
  let data := supportedVersions.foldl writeUint8 data
  let data := writeUint8 data preferredVersion
  let data := writeField data clientVersion
  let data := writeField data platform
  if !capabilities.isEmpty then
    capabilities.foldl writeField (writeUint8 data (UInt8.ofNat capabilities.length))
  else data

/-- A string behind a length byte, with an error for each of the two that can be missing. -/
def readString (lengthError error : ControlError) (payload : Bytes) :
    Reader (Except ControlError Bytes) := do
  let offset ← get
  if offset ≥ payload.length then pure (.error lengthError)
  else
    match ← readField payload with
    | none => pure (.error error)
    | some s => pure (.ok s)

def readVersionsLoop (payload : Bytes) : ℕ → VersionHello → Reader VersionHello
  | 0, hello => pure hello
  | i + 1, hello => do
      let offset ← get
      if offset ≥ payload.length then pure { hello with error := some .supportedVersions }
      else
        let version ← readUint8 payload
        readVersionsLoop payload i
          { hello with supportedVersions := hello.supportedVersions ++ [version] }

def readCapabilitiesLoop (payload : Bytes) : ℕ → VersionHello → Reader VersionHello
  | 0, hello => pure hello
  | i + 1, hello => do
      match ← readString .capabilityLength .capability payload with
      | .error error => pure { hello with error }
      | .ok capability =>
          readCapabilitiesLoop payload i
            { hello with capabilities := hello.capabilities ++ [capability] }

def readCapabilities (hasCapabilities : Bool) (payload : Bytes) (hello : VersionHello) :
    Reader VersionHello := do
  if hasCapabilities then
    let offset ← get
    if offset ≥ payload.length then pure { hello with error := some .capabilitiesCount }
    else
      let capCount ← readUint8 payload
      readCapabilitiesLoop payload capCount.toNat hello
  else pure hello

/-- The parser for a caller whose variables hold `out`: the two lists are cleared where the
source clears them, all other variables keep their values until they are assigned. -/
def readVersionHelloInto (out : VersionHello) (payload : Bytes) : Reader VersionHello := do
  let flags ← readUint8 payload
  let hasCapabilities := flags &&& 0x01 != 0
  let versionCount ← readUint8 payload
  let hello ← readVersionsLoop payload versionCount.toNat
    { out with supportedVersions := [], error := none }
  if hello.error.isSome then pure hello
  else
    let offset ← get
    if offset ≥ payload.length then pure { hello with error := some .preferredVersion }
    else
      let preferredVersion ← readUint8 payload
      let hello := { hello with preferredVersion := some preferredVersion }
      match ← readString .clientVersionLength .clientVersion payload with
      | .error error => pure { hello with error }
      | .ok clientVersion =>
          let hello := { hello with clientVersion }
          match ← readString .platformLength .platform payload with
          | .error error => pure { hello with error }
          | .ok platform =>
              readCapabilities hasCapabilities payload { hello with platform, capabilities := [] }

def parseVersionHelloPayloadInto (out : VersionHello) (payload : Bytes) :
    Except OutOfBounds VersionHello :=
  if payload.length < 4 then .ok { out with error := some .tooShort }
  else (readVersionHelloInto out payload).run' 0

/-- The parser as the handler calls it, whose variables are new. -/
def parseVersionHelloPayload (payload : Bytes) : Except OutOfBounds VersionHello :=
  parseVersionHelloPayloadInto {} payload

structure ParsedVersionAck where
  agreedVersion : Option UInt8 := none
  serverVersion : Bytes := []
  platform : Bytes := []
  rejected : Option Bool := none
  reason : Bytes := []
  error : Option ControlError := none
  deriving DecidableEq, Repr

def makeVersionAckPayload (agreedVersion : UInt8) (serverVersion platform : Bytes)
    (rejected : Bool) (reason : Bytes) : Bytes :=
  let flags : UInt8 := if rejected then 0x01 else 0
  let flags := if !reason.isEmpty then flags ||| 0x02 else flags
  let data := writeUint8 [] flags
  let data := writeUint8 data agreedVersion
  let data := writeField data serverVersion
  let data := writeField data platform
  if !reason.isEmpty then writeField data reason else data

/-- The parser for a caller whose variables hold `out`. -/
def readVersionAckInto (out : ParsedVersionAck) (payload : Bytes) : Reader ParsedVersionAck := do
  let flags ← readUint8 payload
  let ack := { out with rejected := some (flags &&& 0x01 != 0), error := none }
  let hasReason := flags &&& 0x02 != 0
  let offset ← get
  if offset ≥ payload.length then pure { ack with error := some .agreedVersion }
  else
    let agreedVersion ← readUint8 payload
    let ack := { ack with agreedVersion := some agreedVersion }
    match ← readString .serverVersionLength .serverVersion payload with
    | .error error => pure { ack with error }
    | .ok serverVersion =>
        let ack := { ack with serverVersion }
        match ← readString .platformLength .platform payload with
        | .error error => pure { ack with error }
        | .ok platform =>
            let ack := { ack with platform, reason := [] }
            if hasReason then
              match ← readString .reasonLength .reason payload with
              | .error error => pure { ack with error }
              | .ok reason => pure { ack with reason }
            else pure ack

def parseVersionAckPayloadInto (out : ParsedVersionAck) (payload : Bytes) :
    Except OutOfBounds ParsedVersionAck :=
  if payload.length < 3 then .ok { out with error := some .tooShort }
  else (readVersionAckInto out payload).run' 0

def parseVersionAckPayload (payload : Bytes) : Except OutOfBounds ParsedVersionAck :=
  parseVersionAckPayloadInto {} payload

end Bitchat.PacketSerializer
