import Bitchat.HexCoding
import Bitchat.TransitionSystem
import Mathlib.Data.List.AList

/-!
# The Apple transport

Core Bluetooth finds devices, connects to those it is asked for, and reports to its delegate.
The delegate keeps what has been discovered, what is connected and which devices have the
characteristic that packets are written to. A device that could not be connected is forgotten,
so that it is asked for again when it is next discovered; one that has gone is not.
-/

namespace Bitchat

open StringHelper

/-- A device. -/
structure CBPeripheral where
  identifier : Vector UInt8 16
  deriving DecidableEq

def toUpper (c : UInt8) : UInt8 := if 0x61 ≤ c ∧ c ≤ 0x66 then c - 0x20 else c

/-- `identifier.UUIDString`, groups of 8, 4, 4, 4 and 12 digits. -/
def CBPeripheral.UUIDString (peripheral : CBPeripheral) : Bytes :=
  let digits := (toHex peripheral.identifier.toList).map toUpper
  digits.take 8 ++ [0x2D] ++ (digits.drop 8).take 4 ++ [0x2D] ++ (digits.drop 12).take 4 ++
    [0x2D] ++ (digits.drop 16).take 4 ++ [0x2D] ++ digits.drop 20

/-- A device that has connected to this one. -/
structure CBCentral where
  identifier : Vector UInt8 16
  deriving DecidableEq

/-- `pending` are the devices that it is to connect, and `linked` those that it has reported as
connected and not as gone. -/
structure CBCentralManager where
  poweredOn : Bool := false
  scanning : Bool := false
  pending : List CBPeripheral := []
  linked : List CBPeripheral := []

inductive AppleEvent where
  -- What Core Bluetooth is asked for.
  | scanForPeripherals
  | stopScan
  | connectPeripheral (peripheral : CBPeripheral)
  | discoverServices (peripheral : CBPeripheral)
  | discoverCharacteristics (peripheral : CBPeripheral)
  | setNotifyValue (peripheral : CBPeripheral)
  | writeValue (data : Bytes) (peripheral : CBPeripheral)
  | addService
  | startAdvertising
  | stopAdvertising
  | respondToRequest
  | updateValue (data : Bytes) (centrals : List CBCentral)
  -- The callbacks.
  | peerConnected (peripheralID : Bytes)
  | peerDisconnected (peripheralID : Bytes)
  | packetReceived (data : Bytes) (peripheralID : Option Bytes)
  | peripheralDiscovered (peripheralID : Bytes)
  deriving DecidableEq

/-- A block that waits for the main queue. -/
inductive MainBlock where
  | startScanning
  | setUpAndAdvertise
  deriving DecidableEq

/-- `isConnected` is the `state` of the devices. Of the characteristics only the keys are kept. -/
structure AppleBluetooth where
  centralManager : CBCentralManager := {}
  peripheralManagerPoweredOn : Bool := false
  mainQueue : List MainBlock := []
  ready : Bool := false
  discoveredPeripherals : List CBPeripheral := []
  connectedPeripherals : AList (fun _ : Bytes => CBPeripheral) := ∅
  peripheralCharacteristics : List CBPeripheral := []
  mutableCharacteristic : Bool := false
  subscribedCentrals : List CBCentral := []
  isConnected : CBPeripheral → Bool := fun _ => false
  trace : List AppleEvent := []

namespace AppleBluetooth

def SERVICE_UUID : Bytes := ascii "F47B5E2D-4A9E-4C5A-9B3F-8E1D2C3A4B5C"

def CHARACTERISTIC_UUID : Bytes := ascii "A1B2C3D4-E5F6-4A5B-8C9D-0E1F2A3B4C5D"

def bleMinPacketSizeBytes : ℕ := 21

def emit (event : AppleEvent) (bluetooth : AppleBluetooth) : AppleBluetooth :=
  { bluetooth with trace := bluetooth.trace ++ [event] }

/-- The end of the wait for both managers to be powered on. -/
def initialized (bluetooth : AppleBluetooth) : AppleBluetooth := { bluetooth with ready := true }

def stop (bluetooth : AppleBluetooth) : AppleBluetooth :=
  emit .stopAdvertising (emit .stopScan
    { bluetooth with centralManager := { bluetooth.centralManager with scanning := false } })

def startScanning (bluetooth : AppleBluetooth) : AppleBluetooth :=
  if bluetooth.centralManager.poweredOn then
    emit .scanForPeripherals
      { bluetooth with centralManager := { bluetooth.centralManager with scanning := true } }
  else bluetooth

def setupPeripheral (bluetooth : AppleBluetooth) : AppleBluetooth :=
  emit .addService { bluetooth with mutableCharacteristic := true }

def startAdvertising (bluetooth : AppleBluetooth) : AppleBluetooth :=
  if bluetooth.peripheralManagerPoweredOn then emit .startAdvertising bluetooth else bluetooth

def performBlock : MainBlock → AppleBluetooth → AppleBluetooth
  | .startScanning, bluetooth => startScanning bluetooth
  | .setUpAndAdvertise, bluetooth => startAdvertising (setupPeripheral bluetooth)

/-- The first block that waits. -/
def runMainQueue (bluetooth : AppleBluetooth) : AppleBluetooth :=
  match bluetooth.mainQueue with
  | [] => bluetooth
  | block :: mainQueue => performBlock block { bluetooth with mainQueue }

def centralManagerDidUpdateState (bluetooth : AppleBluetooth) : AppleBluetooth :=
  if bluetooth.centralManager.poweredOn then
    { bluetooth with mainQueue := bluetooth.mainQueue ++ [.startScanning] }
  else bluetooth

def peripheralManagerDidUpdateState (bluetooth : AppleBluetooth) : AppleBluetooth :=
  if bluetooth.peripheralManagerPoweredOn then
    { bluetooth with mainQueue := bluetooth.mainQueue ++ [.setUpAndAdvertise] }
  else bluetooth

def connectPeripheral (peripheral : CBPeripheral) (bluetooth : AppleBluetooth) :
    AppleBluetooth :=
  emit (.connectPeripheral peripheral) { bluetooth with
    centralManager := { bluetooth.centralManager with
      pending := peripheral :: bluetooth.centralManager.pending } }

def didDiscoverPeripheral (peripheral : CBPeripheral) (bluetooth : AppleBluetooth) :
    AppleBluetooth :=
  if peripheral ∈ bluetooth.discoveredPeripherals then bluetooth
  else connectPeripheral peripheral { bluetooth with
    discoveredPeripherals := bluetooth.discoveredPeripherals ++ [peripheral] }

def didConnectPeripheral (peripheral : CBPeripheral) (bluetooth : AppleBluetooth) :
    AppleBluetooth :=
  emit (.peerConnected peripheral.UUIDString) (emit (.discoverServices peripheral)
    { bluetooth with connectedPeripherals :=
        bluetooth.connectedPeripherals.insert peripheral.UUIDString peripheral })

/-- The device stays among the discovered ones. -/
def didDisconnectPeripheral (peripheral : CBPeripheral) (bluetooth : AppleBluetooth) :
    AppleBluetooth :=
  emit (.peerDisconnected peripheral.UUIDString) { bluetooth with
    connectedPeripherals := bluetooth.connectedPeripherals.erase peripheral.UUIDString
    peripheralCharacteristics := bluetooth.peripheralCharacteristics.filter (· ≠ peripheral) }

def didFailToConnectPeripheral (peripheral : CBPeripheral) (bluetooth : AppleBluetooth) :
    AppleBluetooth :=
  { bluetooth with
    discoveredPeripherals := bluetooth.discoveredPeripherals.filter (· ≠ peripheral) }

def didDiscoverServices (peripheral : CBPeripheral) (services : List Bytes)
    (bluetooth : AppleBluetooth) : AppleBluetooth :=
  services.foldl (fun bluetooth service =>
    if service = SERVICE_UUID then emit (.discoverCharacteristics peripheral) bluetooth
    else bluetooth) bluetooth

def foundCharacteristic (peripheral : CBPeripheral) (bluetooth : AppleBluetooth) :
    AppleBluetooth :=
  emit (.peripheralDiscovered peripheral.UUIDString) (emit (.setNotifyValue peripheral)
    { bluetooth with
      peripheralCharacteristics := bluetooth.peripheralCharacteristics.insert peripheral })

def didDiscoverCharacteristics (peripheral : CBPeripheral) (characteristics : List Bytes)
    (bluetooth : AppleBluetooth) : AppleBluetooth :=
  characteristics.foldl (fun bluetooth characteristic =>
    if characteristic = CHARACTERISTIC_UUID then foundCharacteristic peripheral bluetooth
    else bluetooth) bluetooth

/-- Packets of devices that this one has connected to. -/
def didUpdateValue (peripheral : CBPeripheral) (value : Option Bytes)
    (bluetooth : AppleBluetooth) : AppleBluetooth :=
  match value with
  | none => bluetooth
  | some data =>
      if data.length < bleMinPacketSizeBytes then bluetooth
      else emit (.packetReceived data (some peripheral.UUIDString)) bluetooth

/-- Packets of devices that have connected to this one, which are passed on without a name. -/
def didReceiveWriteRequest (value : Option Bytes) (bluetooth : AppleBluetooth) :
    AppleBluetooth :=
  emit .respondToRequest (match value with
    | none => bluetooth
    | some data =>
        if bleMinPacketSizeBytes ≤ data.length then emit (.packetReceived data none) bluetooth
        else bluetooth)

def didReceiveWriteRequests (requests : List (Option Bytes)) (bluetooth : AppleBluetooth) :
    AppleBluetooth :=
  requests.foldl (fun bluetooth value => didReceiveWriteRequest value bluetooth) bluetooth

def didSubscribe (central : CBCentral) (bluetooth : AppleBluetooth) : AppleBluetooth :=
  if central ∈ bluetooth.subscribedCentrals then bluetooth
  else { bluetooth with subscribedCentrals := bluetooth.subscribedCentrals ++ [central] }

def didUnsubscribe (central : CBCentral) (bluetooth : AppleBluetooth) : AppleBluetooth :=
  { bluetooth with
    subscribedCentrals := bluetooth.subscribedCentrals.filter (· ≠ central) }

/-- A device can be written to. -/
def CanWrite (peripheral : CBPeripheral) (bluetooth : AppleBluetooth) : Prop :=
  peripheral ∈ bluetooth.peripheralCharacteristics ∧ bluetooth.isConnected peripheral = true

instance (peripheral : CBPeripheral) (bluetooth : AppleBluetooth) :
    Decidable (CanWrite peripheral bluetooth) := inferInstanceAs (Decidable (_ ∧ _))

def writeAll (data : Bytes) (peripherals : List CBPeripheral) (bluetooth : AppleBluetooth) :
    AppleBluetooth :=
  peripherals.foldl (fun bluetooth peripheral =>
    if CanWrite peripheral bluetooth then emit (.writeValue data peripheral) bluetooth
    else bluetooth) bluetooth

def updateSubscribers (data : Bytes) (bluetooth : AppleBluetooth) : AppleBluetooth :=
  if bluetooth.mutableCharacteristic = true ∧ bluetooth.subscribedCentrals.length > 0 then
    emit (.updateValue data bluetooth.subscribedCentrals) bluetooth
  else bluetooth

/-- `connectedPeripherals.allValues`. -/
def allValues (bluetooth : AppleBluetooth) : List CBPeripheral :=
  bluetooth.connectedPeripherals.entries.map Sigma.snd

def sendPacket (data : Bytes) (bluetooth : AppleBluetooth) : Bool × AppleBluetooth :=
  if bluetooth.ready then
    (true, updateSubscribers data (writeAll data bluetooth.allValues bluetooth))
  else (false, bluetooth)

def sendPacketToPeripheral (data : Bytes) (peripheral : CBPeripheral)
    (bluetooth : AppleBluetooth) : Bool × AppleBluetooth :=
  if bluetooth.ready = false then (false, bluetooth)
  else if CanWrite peripheral bluetooth then
    (true, emit (.writeValue data peripheral) bluetooth)
  else (false, bluetooth)

/-- The loop over the keys ends at the one that is the ID. -/
def sendPacketToPeer (data peerID : Bytes) (bluetooth : AppleBluetooth) :
    Bool × AppleBluetooth :=
  match bluetooth.connectedPeripherals.lookup peerID with
  | some peripheral => sendPacketToPeripheral data peripheral bluetooth
  | none => (false, bluetooth)

def sendPacketToPeripheralID (data peripheralID : Bytes) (bluetooth : AppleBluetooth) :
    Bool × AppleBluetooth :=
  match bluetooth.allValues.find? fun peripheral => peripheral.UUIDString = peripheralID with
  | some peripheral => sendPacketToPeripheral data peripheral bluetooth
  | none => (false, bluetooth)

/-- What Core Bluetooth reports, what it does, and what the node asks for. -/
inductive Action where
  | centralManagerState (poweredOn : Bool)
  | peripheralManagerState (poweredOn : Bool)
  | mainQueue
  | initialized
  | stop
  | didDiscoverPeripheral (peripheral : CBPeripheral)
  | didConnectPeripheral (peripheral : CBPeripheral)
  | didDisconnectPeripheral (peripheral : CBPeripheral)
  | didFailToConnectPeripheral (peripheral : CBPeripheral)
  | stateChanged (peripheral : CBPeripheral) (connected : Bool)
  | didDiscoverServices (peripheral : CBPeripheral) (services : List Bytes)
  | didDiscoverCharacteristics (peripheral : CBPeripheral) (characteristics : List Bytes)
  | didUpdateValue (peripheral : CBPeripheral) (value : Option Bytes)
  | didReceiveWriteRequests (requests : List (Option Bytes))
  | didSubscribe (central : CBCentral)
  | didUnsubscribe (central : CBCentral)
  | sendPacket (data : Bytes)
  | sendPacketToPeer (data peerID : Bytes)
  | sendPacketToPeripheralID (data peripheralID : Bytes)
  deriving DecidableEq

/-- Core Bluetooth connects the devices that it was asked for, and reports on those that are
connected. -/
def Reported (bluetooth : AppleBluetooth) : Action → Prop
  | .initialized => bluetooth.centralManager.poweredOn = true ∧
      bluetooth.peripheralManagerPoweredOn = true
  | .didDiscoverPeripheral _ => bluetooth.centralManager.poweredOn = true ∧
      bluetooth.centralManager.scanning = true
  | .didConnectPeripheral peripheral => peripheral ∈ bluetooth.centralManager.pending
  | .didFailToConnectPeripheral peripheral => peripheral ∈ bluetooth.centralManager.pending
  | .didDisconnectPeripheral peripheral => peripheral ∈ bluetooth.centralManager.linked
  | .didDiscoverServices peripheral _ => peripheral ∈ bluetooth.centralManager.linked
  | .didDiscoverCharacteristics peripheral _ => peripheral ∈ bluetooth.centralManager.linked
  | .didUpdateValue peripheral _ => peripheral ∈ bluetooth.centralManager.linked
  | _ => True

/-- The request is answered. -/
def answered (peripheral : CBPeripheral) (bluetooth : AppleBluetooth) : AppleBluetooth :=
  { bluetooth with centralManager := { bluetooth.centralManager with
      pending := bluetooth.centralManager.pending.filter (· ≠ peripheral) } }

def setLinked (linked : List CBPeripheral) (bluetooth : AppleBluetooth) : AppleBluetooth :=
  { bluetooth with centralManager := { bluetooth.centralManager with linked } }

def perform (bluetooth : AppleBluetooth) : Action → AppleBluetooth
  | .centralManagerState poweredOn => centralManagerDidUpdateState
      { bluetooth with centralManager := { bluetooth.centralManager with poweredOn } }
  | .peripheralManagerState poweredOn => peripheralManagerDidUpdateState
      { bluetooth with peripheralManagerPoweredOn := poweredOn }
  | .mainQueue => runMainQueue bluetooth
  | .initialized => initialized bluetooth
  | .stop => stop bluetooth
  | .didDiscoverPeripheral peripheral => didDiscoverPeripheral peripheral bluetooth
  | .didConnectPeripheral peripheral => didConnectPeripheral peripheral (answered peripheral
      (setLinked (peripheral :: bluetooth.centralManager.linked) bluetooth))
  | .didDisconnectPeripheral peripheral => didDisconnectPeripheral peripheral
      (setLinked (bluetooth.centralManager.linked.filter (· ≠ peripheral)) bluetooth)
  | .didFailToConnectPeripheral peripheral =>
      didFailToConnectPeripheral peripheral (answered peripheral bluetooth)
  | .stateChanged peripheral connected =>
      { bluetooth with isConnected := Function.update bluetooth.isConnected peripheral connected }
  | .didDiscoverServices peripheral services => didDiscoverServices peripheral services bluetooth
  | .didDiscoverCharacteristics peripheral characteristics =>
      didDiscoverCharacteristics peripheral characteristics bluetooth
  | .didUpdateValue peripheral value => didUpdateValue peripheral value bluetooth
  | .didReceiveWriteRequests requests => didReceiveWriteRequests requests bluetooth
  | .didSubscribe central => didSubscribe central bluetooth
  | .didUnsubscribe central => didUnsubscribe central bluetooth
  | .sendPacket data => (sendPacket data bluetooth).2
  | .sendPacketToPeer data peerID => (sendPacketToPeer data peerID bluetooth).2
  | .sendPacketToPeripheralID data peripheralID =>
      (sendPacketToPeripheralID data peripheralID bluetooth).2

def coreBluetooth : TransitionSystem AppleBluetooth Action where
  Enabled := Reported
  next := perform

end AppleBluetooth

end Bitchat
