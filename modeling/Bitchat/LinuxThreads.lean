import Bitchat.LinuxBluetooth
import Bitchat.MutexThreads

/-!
# The threads of the Linux transport

`scanThreadFunc` and `acceptThreadFunc` call the callbacks for a new device while they hold
`socketsMutex`. The callback of `NetworkService` greets the device, and to send the greeting
`sendPacketToPeer` locks `socketsMutex` once more.
-/

namespace Bitchat

open PacketSerializer

namespace LinuxBluetoothNetwork

/-- The loop over the sockets. A socket on which `write` fails is passed over. -/
def sendLoop (data : Bytes) : List (Σ _ : Bytes, ℕ) → Bool → LinuxBluetoothNetwork →
    Bool × LinuxBluetoothNetwork
  | [], sentToAny, network => (sentToAny, network)
  | ⟨_, socket⟩ :: sockets, sentToAny, network =>
      if network.broken socket then sendLoop data sockets sentToAny network
      else sendLoop data sockets true
        { network with written := network.written ++ [(socket, data)] }

/-- The sockets are in the order of their addresses. -/
def socketList (network : LinuxBluetoothNetwork) : List (Σ _ : Bytes, ℕ) :=
  network.connectedSockets.entries.insertionSort fun p q => p.1 ≤ q.1

def sendPacket (lz4 : LZ4) (dis : ℕ → UInt8) (packet : BitchatPacket)
    (network : LinuxBluetoothNetwork) : Bool × LinuxBluetoothNetwork :=
  let data := serializePacket lz4 dis packet
  if network.connectedSockets.entries.isEmpty then (false, network)
  else sendLoop data network.socketList false network

end LinuxBluetoothNetwork

inductive LinkReport where
  | peerConnected (deviceID : Bytes)
  | peerDisconnected (deviceID : Bytes)

/-- `readers` are the reader threads that have begun. -/
structure LinuxTransport where
  network : LinuxBluetoothNetwork
  readers : List (Bytes × ℕ) := []
  reports : List LinkReport := []

namespace LinuxTransport

def report (event : LinkReport) (transport : LinuxTransport) : LinuxTransport :=
  { transport with reports := transport.reports ++ [event] }

def onNetwork (f : LinuxBluetoothNetwork → LinuxBluetoothNetwork) (transport : LinuxTransport) :
    LinuxTransport :=
  { transport with network := f transport.network }

def beginReader (deviceID : Bytes) (socket : ℕ) (transport : LinuxTransport) : LinuxTransport :=
  { transport with readers := transport.readers ++ [(deviceID, socket)] }

end LinuxTransport

open LinuxTransport

namespace LinuxBluetoothNetwork

def enterSocket (deviceID : Bytes) (socket : ℕ) (network : LinuxBluetoothNetwork) :
    LinuxBluetoothNetwork :=
  { network with connectedSockets := network.connectedSockets.insert deviceID socket }

def eraseSocket (deviceID : Bytes) (network : LinuxBluetoothNetwork) : LinuxBluetoothNetwork :=
  { network with connectedSockets := network.connectedSockets.erase deviceID }

def clearSockets (network : LinuxBluetoothNetwork) : LinuxBluetoothNetwork :=
  { network with connectedSockets := ∅ }

/-- The calls that come from outside of the transport. Of `stop` it is the part behind the
joins. -/
inductive NetworkCall where
  | sendPacket (packet : BitchatPacket) (dis : ℕ → UInt8)
  | sendPacketToPeer (packet : BitchatPacket) (peerID : Bytes) (dis : ℕ → UInt8)
  | sendPacketToPeripheral (packet : BitchatPacket) (peripheralID : Bytes) (dis : ℕ → UInt8)
  | getConnectedPeersCount
  | stop

def locked (f : LinuxBluetoothNetwork → LinuxBluetoothNetwork)
    (next : LockingThread LinuxTransport) : LockingThread LinuxTransport :=
  .lock (.act (onNetwork f) fun _ => .unlock next)

def NetworkCall.perform (lz4 : LZ4) : NetworkCall → LockingThread LinuxTransport →
    LockingThread LinuxTransport
  | .sendPacket packet dis => locked fun network =>
      (LinuxBluetoothNetwork.sendPacket lz4 dis packet network).2
  | .sendPacketToPeer packet peerID dis => locked fun network =>
      (LinuxBluetoothNetwork.sendPacketToPeer lz4 dis packet peerID network).2
  | .sendPacketToPeripheral packet peripheralID dis => locked fun network =>
      (LinuxBluetoothNetwork.sendPacketToPeer lz4 dis packet peripheralID network).2
  | .getConnectedPeersCount => locked id
  | .stop => locked clearSockets

def performAll (lz4 : LZ4) (calls : List NetworkCall) (next : LockingThread LinuxTransport) :
    LockingThread LinuxTransport :=
  calls.foldr (NetworkCall.perform lz4) next

/-- The packets that a message service makes for a new device. -/
structure Greeting where
  versionHello : BitchatPacket
  announce : BitchatPacket
  dis : ℕ → UInt8

/-- `greeting` is there if `NetworkService` has a message service. `reactions` are the calls
that the packets from a socket make the callbacks do, one list for each packet. -/
structure Surroundings where
  lz4 : LZ4
  greeting : Option Greeting
  reactions : ℕ → List (List NetworkCall)

/-- `link` is the new socket, if there is one and `connect` succeeds. -/
structure Found where
  deviceID : Bytes
  link : Option ℕ

variable (env : Surroundings)

/-- What the reader makes of the bytes from the socket is not seen here, only what the callbacks
do then. -/
def readerThread (deviceID : Bytes) (socket : ℕ) : LockingThread LinuxTransport :=
  .act (beginReader deviceID socket) fun _ =>
    performAll env.lz4 (env.reactions socket).flatten
      (.act (report (.peerDisconnected deviceID)) fun _ => locked (eraseSocket deviceID) .done)

/-- The callback of `NetworkService`. The announcement is sent by a thread of its own. -/
def onPeripheralDiscovered (deviceID : Bytes) (next : LockingThread LinuxTransport) :
    LockingThread LinuxTransport :=
  match env.greeting with
  | none => next
  | some greeting =>
      let sendVersionHello : NetworkCall :=
        if deviceID.isEmpty then .sendPacket greeting.versionHello greeting.dis
        else .sendPacketToPeripheral greeting.versionHello deviceID greeting.dis
      sendVersionHello.perform env.lz4
        (.spawn (NetworkCall.perform env.lz4
          (.sendPacketToPeripheral greeting.announce deviceID greeting.dis) .done) next)

/-- What both threads do with a new device. -/
def enterDevice (deviceID : Bytes) (socket : ℕ) (next : LockingThread LinuxTransport) :
    LockingThread LinuxTransport :=
  .lock <| .act (onNetwork (enterSocket deviceID socket)) fun _ =>
    .act (report (.peerConnected deviceID)) fun _ =>
      onPeripheralDiscovered env deviceID
        (.spawn (readerThread env deviceID socket) (.unlock next))

def scanDevice (found : Found) (next : LockingThread LinuxTransport) :
    LockingThread LinuxTransport :=
  .lock <| .act id fun transport =>
    if found.deviceID ∈ transport.network.connectedSockets then .unlock next
    else .unlock (match found.link with
      | none => next
      | some socket => enterDevice env found.deviceID socket next)

/-- `inquiries` are the devices that the inquiries find. -/
def scanThreadFunc (inquiries : List (List Found)) : LockingThread LinuxTransport :=
  inquiries.flatten.foldr (scanDevice env) .done

/-- `clients` are the devices that connect by themselves. -/
def acceptThreadFunc (clients : List (Bytes × ℕ)) : LockingThread LinuxTransport :=
  clients.foldr (fun client next => enterDevice env client.1 client.2 next) .done

/-- Behind `start`. The other threads of the program make calls. -/
def started (broken : ℕ → Bool) (inquiries : List (List Found)) (clients : List (Bytes × ℕ))
    (callers : List (List NetworkCall)) : MutexPool LinuxTransport where
  state := { network := { broken } }
  threads := scanThreadFunc env inquiries :: acceptThreadFunc env clients ::
    callers.map fun calls => performAll env.lz4 calls .done

def protectedPart (transport : LinuxTransport) : LinuxBluetoothNetwork × List (Bytes × ℕ) :=
  (transport.network, transport.readers)

/-- Nobody is connected, nothing has been written and no reader has begun. -/
structure Silent (part : LinuxBluetoothNetwork × List (Bytes × ℕ)) : Prop where
  sockets : part.1.connectedSockets = ∅
  written : part.1.written = []
  readers : part.2 = []

/-- The same with a socket that may be entered, but is never used. -/
structure NeverUsed (part : LinuxBluetoothNetwork × List (Bytes × ℕ)) : Prop where
  sockets : part.1.connectedSockets.entries.length ≤ 1
  written : part.1.written = []
  readers : part.2 = []

theorem Silent.neverUsed {part : LinuxBluetoothNetwork × List (Bytes × ℕ)} (h : Silent part) :
    NeverUsed part := by
  refine ⟨?_, h.written, h.readers⟩
  rw [h.sockets]
  exact Nat.zero_le _

theorem sendPacket_of_silent {network : LinuxBluetoothNetwork}
    (h : network.connectedSockets = ∅) (lz4 : LZ4) (dis : ℕ → UInt8) (packet : BitchatPacket) :
    (sendPacket lz4 dis packet network).2 = network := by
  rw [sendPacket, h]
  rfl

theorem sendPacketToPeer_of_silent {network : LinuxBluetoothNetwork}
    (h : network.connectedSockets = ∅) (lz4 : LZ4) (dis : ℕ → UInt8) (packet : BitchatPacket)
    (peerID : Bytes) : (sendPacketToPeer lz4 dis packet peerID network).2 = network := by
  rw [sendPacketToPeer, h, AList.lookup_empty]

section Keeping

open LockingThread

variable {env} {post : Prop} {next : LockingThread LinuxTransport}

theorem keeps_locked {f : LinuxBluetoothNetwork → LinuxBluetoothNetwork}
    (hf : ∀ network, network.connectedSockets = ∅ →
      (f network).connectedSockets = ∅ ∧ (f network).written = network.written)
    (hnext : Keeps protectedPart Silent NeverUsed post none next) :
    Keeps protectedPart Silent NeverUsed post none (locked f next) := by
  intro transport hsilent
  obtain ⟨hsockets, hwritten⟩ := hf transport.network hsilent.sockets
  have hstill : Silent (protectedPart (onNetwork f transport)) :=
    ⟨hsockets, hwritten.trans hsilent.written, hsilent.readers⟩
  exact ⟨hstill.neverUsed, fun v hv => hv ▸ hstill, hnext⟩

theorem keeps_perform (lz4 : LZ4) (call : NetworkCall)
    (hnext : Keeps protectedPart Silent NeverUsed post none next) :
    Keeps protectedPart Silent NeverUsed post none (call.perform lz4 next) := by
  cases call with
  | sendPacket packet dis =>
      refine keeps_locked (fun network h => ?_) hnext
      rw [sendPacket_of_silent h]
      exact ⟨h, rfl⟩
  | sendPacketToPeer packet peerID dis =>
      refine keeps_locked (fun network h => ?_) hnext
      rw [sendPacketToPeer_of_silent h]
      exact ⟨h, rfl⟩
  | sendPacketToPeripheral packet peripheralID dis =>
      refine keeps_locked (fun network h => ?_) hnext
      rw [sendPacketToPeer_of_silent h]
      exact ⟨h, rfl⟩
  | getConnectedPeersCount => exact keeps_locked (fun network h => ⟨h, rfl⟩) hnext
  | stop => exact keeps_locked (fun network h => ⟨rfl, rfl⟩) hnext

theorem keeps_performAll (lz4 : LZ4) (calls : List NetworkCall)
    (hnext : Keeps protectedPart Silent NeverUsed post none next) :
    Keeps protectedPart Silent NeverUsed post none (performAll lz4 calls next) := by
  induction calls with
  | nil => exact hnext
  | cons call calls ih => exact keeps_perform lz4 call ih

/-- A greeting is sent under the mutex, so that nothing behind it is ever reached. -/
theorem keeps_enterDevice {greeting : Greeting} (hgreeting : env.greeting = some greeting)
    (deviceID : Bytes) (socket : ℕ) :
    Keeps protectedPart Silent NeverUsed post none (enterDevice env deviceID socket next) := by
  intro transport hsilent
  have hempty : transport.network.connectedSockets = ∅ := hsilent.sockets
  have hentered : NeverUsed (protectedPart (onNetwork (enterSocket deviceID socket) transport)) := by
    refine ⟨?_, hsilent.written, hsilent.readers⟩
    change (transport.network.connectedSockets.insert deviceID socket).entries.length ≤ 1
    rw [hempty, AList.insert_empty]
    exact le_rfl
  refine ⟨hentered, fun transport' hpart => ⟨?_, ?_⟩⟩
  · change NeverUsed (protectedPart transport')
    rw [← hpart]
    exact hentered
  · unfold onPeripheralDiscovered
    rw [hgreeting]
    cases deviceID with
    | nil => exact trivial
    | cons c deviceID => exact trivial

theorem keeps_scanDevice {greeting : Greeting} (hgreeting : env.greeting = some greeting)
    (found : Found) (hnext : found.link = none →
      Keeps protectedPart Silent NeverUsed post none next) :
    Keeps protectedPart Silent NeverUsed post none (scanDevice env found next) := by
  intro transport hsilent
  have hempty : transport.network.connectedSockets = ∅ := hsilent.sockets
  have hunknown : found.deviceID ∉ transport.network.connectedSockets := by
    rw [hempty]
    exact AList.notMem_empty _
  refine ⟨hsilent.neverUsed, ?_⟩
  dsimp only
  rw [if_neg hunknown]
  refine ⟨fun v hv => hv ▸ hsilent, ?_⟩
  cases hlink : found.link with
  | none => exact hnext hlink
  | some socket => exact keeps_enterDevice hgreeting _ _

theorem keeps_scanDevices {greeting : Greeting} (hgreeting : env.greeting = some greeting)
    (devices : List Found) (hpost : (∀ found ∈ devices, found.link = none) → post) :
    Keeps protectedPart Silent NeverUsed post none (devices.foldr (scanDevice env) .done) := by
  induction devices with
  | nil => exact hpost (by simp)
  | cons found devices ih =>
      refine keeps_scanDevice hgreeting found fun hlink => ih fun hnone => hpost ?_
      exact List.forall_mem_cons.mpr ⟨hlink, hnone⟩

theorem keeps_acceptThreadFunc {greeting : Greeting} (hgreeting : env.greeting = some greeting)
    (clients : List (Bytes × ℕ)) :
    Keeps protectedPart Silent NeverUsed (clients = []) none (acceptThreadFunc env clients) := by
  cases clients with
  | nil => exact rfl
  | cons client clients => exact keeps_enterDevice hgreeting _ _

end Keeping

section Runs

variable (broken : ℕ → Bool) (inquiries : List (List Found)) (clients : List (Bytes × ℕ))
  (callers : List (List NetworkCall))

/-- No device is connected to, and none connects by itself. -/
def NobodyConnects : Prop := (∀ found ∈ inquiries.flatten, found.link = none) ∧ clients = []

/-- What is known at the ends of the two threads. -/
def knownAtEnd : ℕ → Prop
  | 0 => ∀ found ∈ inquiries.flatten, found.link = none
  | 1 => clients = []
  | _ => True

variable {env}

theorem kept_started {greeting : Greeting} (hgreeting : env.greeting = some greeting) :
    (started env broken inquiries clients callers).Kept protectedPart Silent NeverUsed
      (knownAtEnd inquiries clients) := by
  have hsilent : Silent (protectedPart (started env broken inquiries clients callers).state) :=
    ⟨rfl, rfl, rfl⟩
  refine ⟨hsilent.neverUsed, fun _ => hsilent, fun i hi => ?_, fun i t hi => .inl ⟨?_, ?_⟩, ?_⟩
  · cases hi
  · simp [started]
  · match i with
    | 0 =>
        cases hi
        exact keeps_scanDevices hgreeting _ id
    | 1 =>
        cases hi
        exact keeps_acceptThreadFunc hgreeting clients
    | i + 2 =>
        obtain ⟨calls, -, rfl⟩ := List.mem_map.mp (List.mem_of_getElem? (l := callers.map _) hi)
        exact keeps_performAll env.lz4 calls trivial
  · intro i hi
    match i with
    | 0 => exact absurd hi (by simp [started])
    | 1 => exact absurd hi (by simp [started])
    | i + 2 => exact trivial

theorem nobodyConnects_of_allDone {greeting : Greeting} (hgreeting : env.greeting = some greeting)
    {actions : List ℕ} (hexec : (MutexPool.scheduling LinuxTransport).Execution
      (started env broken inquiries clients callers) actions)
    (hdone : ((MutexPool.scheduling LinuxTransport).run
      (started env broken inquiries clients callers) actions).AllDone) :
    NobodyConnects inquiries clients := by
  have hkept := (kept_started broken inquiries clients callers hgreeting).run hexec
  have hknown : ∀ i, knownAtEnd inquiries clients i := by
    intro i
    cases hi : ((MutexPool.scheduling LinuxTransport).run
      (started env broken inquiries clients callers) actions).threads[i]? with
    | none => exact hkept.later i (List.getElem?_eq_none_iff.mp hi)
    | some t => exact hkept.post_of_done (hdone t (List.mem_of_getElem? hi) ▸ hi)
  exact ⟨hknown 0, hknown 1⟩

end Runs

section Bracketing

open LockingThread

variable {env} {next : LockingThread LinuxTransport}

theorem bracketed_performAll (lz4 : LZ4) (calls : List NetworkCall) (hnext : next.Bracketed false) :
    (performAll lz4 calls next).Bracketed false := by
  induction calls with
  | nil => exact hnext
  | cons call calls ih => cases call <;> exact ⟨rfl, fun _ => ⟨rfl, ih⟩⟩

theorem bracketed_readerThread (deviceID : Bytes) (socket : ℕ) :
    (readerThread env deviceID socket).Bracketed false :=
  fun _ => bracketed_performAll _ _ fun _ => ⟨rfl, fun _ => ⟨rfl, rfl⟩⟩

theorem bracketed_enterDevice (hgreeting : env.greeting = none) (deviceID : Bytes) (socket : ℕ)
    (hnext : next.Bracketed false) : (enterDevice env deviceID socket next).Bracketed false := by
  refine ⟨rfl, fun _ _ => ?_⟩
  unfold onPeripheralDiscovered
  rw [hgreeting]
  exact ⟨bracketed_readerThread deviceID socket, rfl, hnext⟩

theorem bracketed_scanDevice (found : Found) (h : env.greeting = none ∨ found.link = none)
    (hnext : next.Bracketed false) : (scanDevice env found next).Bracketed false := by
  refine ⟨rfl, fun transport => ?_⟩
  dsimp only
  split_ifs
  · exact ⟨rfl, hnext⟩
  · refine ⟨rfl, ?_⟩
    cases hlink : found.link with
    | none => exact hnext
    | some socket =>
        refine bracketed_enterDevice (h.resolve_right ?_) _ _ hnext
        rw [hlink]
        exact Option.some_ne_none socket

theorem bracketed_scanDevices (devices : List Found)
    (h : env.greeting = none ∨ ∀ found ∈ devices, found.link = none) :
    Bracketed false (devices.foldr (scanDevice env) .done) := by
  induction devices with
  | nil => exact rfl
  | cons found devices ih =>
      exact bracketed_scanDevice found (h.imp id fun h => h found List.mem_cons_self)
        (ih (h.imp id fun h found hfound => h found (List.mem_cons_of_mem _ hfound)))

theorem bracketed_acceptThreadFunc (clients : List (Bytes × ℕ))
    (h : env.greeting = none ∨ clients = []) : (acceptThreadFunc env clients).Bracketed false := by
  rcases h with hgreeting | rfl
  · induction clients with
    | nil => exact rfl
    | cons client clients ih => exact bracketed_enterDevice hgreeting _ _ ih
  · exact rfl

theorem orderly_started (broken : ℕ → Bool) {inquiries : List (List Found)}
    {clients : List (Bytes × ℕ)} (callers : List (List NetworkCall))
    (h : env.greeting = none ∨ NobodyConnects inquiries clients) :
    (started env broken inquiries clients callers).Orderly := by
  refine ⟨fun i hi => ?_, fun i t hi => ?_⟩
  · cases hi
  · change Bracketed (decide (none = some i)) t
    rw [decide_eq_false (by simp)]
    match i with
    | 0 =>
        cases hi
        exact bracketed_scanDevices _ (h.imp id And.left)
    | 1 =>
        cases hi
        exact bracketed_acceptThreadFunc clients (h.imp id And.right)
    | i + 2 =>
        obtain ⟨calls, -, rfl⟩ := List.mem_map.mp (List.mem_of_getElem? (l := callers.map _) hi)
        exact bracketed_performAll env.lz4 calls rfl

end Bracketing

/-- A node whose network service has its message service, as every node has that `main`
sets up, never writes a byte to a device and never begins to read from one, in whatever order
the threads run. It takes a node without message service to do so. -/
theorem never_used_iff :
    (∀ broken inquiries clients callers actions,
      (MutexPool.scheduling LinuxTransport).Execution
        (started env broken inquiries clients callers) actions →
      NeverUsed (protectedPart ((MutexPool.scheduling LinuxTransport).run
        (started env broken inquiries clients callers) actions).state)) ↔
      env.greeting ≠ none := by
  constructor
  · intro hnever hgreeting
    obtain ⟨lz4, greeting, reactions⟩ := env
    subst hgreeting
    have hreaders := (hnever (fun _ => false) [] [([], 0)] [] [1, 1, 1, 1, 1, 2]
      ⟨rfl, trivial, trivial, trivial, rfl, trivial, trivial⟩).readers
    cases hreaders
  · intro hgreeting broken inquiries clients callers actions hexec
    obtain ⟨greeting, hgreeting⟩ := Option.ne_none_iff_exists'.mp hgreeting
    exact ((kept_started broken inquiries clients callers hgreeting).run hexec).always

end LinuxBluetoothNetwork

end Bitchat
