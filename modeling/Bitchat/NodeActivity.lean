import Bitchat.LocalCalls
import Bitchat.NetworkService
import Bitchat.TransitionSystem

/-!
# The life of a node

Everything that changes a running node: packets that the network service receives, the calls of
the user, the runners and the network. `BluetoothAnnounceRunner` makes its packet by itself, from the pairs of characters of
the node's ID.
-/

namespace Bitchat

open Effect StringHelper MessageService PacketSerializer

namespace BluetoothAnnounceRunner

/-- The loop over the ID, whose last piece may be a single character. -/
def senderIDLoop : Bytes → Except Fault Bytes
  | [] => pure []
  | [c] => do
      let value ← stoi16 [c]
      pure [UInt8.ofInt value]
  | a :: b :: localPeerID => do
      let value ← stoi16 [a, b]
      let rest ← senderIDLoop localPeerID
      pure (UInt8.ofInt value :: rest)

/-- One pass of `runnerLoop`. What it throws is caught there. -/
def announce (isReady : Bool) : ServiceM Unit := do
  let node ← get
  let packet ← newPacket pktTypeAnnounce (makeAnnouncePayload node.data.nickname)
  let senderID ← MessageService.ofExcept (senderIDLoop node.data.peerID)
  let timestamp ← getCurrentTimestamp
  if isReady then
    let _ ← sendPacket { packet with senderID, timestamp }
    pure ()
  else pure ()

end BluetoothAnnounceRunner

namespace NetworkService

/-- The delayed part of `onPeripheralDiscovered`. -/
def announceToPeripheral (peripheralID : Bytes) : ServiceM Unit := do
  let packet ← createAnnouncePacket
  emit (.sentToPeripheral packet peripheralID)

end NetworkService

inductive NodeAction where
  | receive (packet : BitchatPacket) (peripheralID : Bytes)
  | call (call : LocalCall)
  | changeNickname (nickname : Bytes)
  | announce (isReady : Bool)
  | announceTo (peripheralID : Bytes)
  | cleanupStalePeers (time : ℤ)
  | network (connected : Bool)

namespace NodeAction

/-- What a node does by itself. -/
def perform : NodeAction → ServiceM Unit
  | .receive packet peripheralID => NetworkService.receive packet peripheralID
  | .call localCall => localCall.perform
  | .changeNickname nickname => modifyData fun data => data.setNickname nickname
  | .announce isReady => BluetoothAnnounceRunner.announce isReady
  | .announceTo peripheralID => NetworkService.announceToPeripheral peripheralID
  | .cleanupStalePeers time => modifyData fun data => data.cleanupStalePeers time
  | .network connected => modify fun node => { node with connected }

end NodeAction

/-- The actions that remove no peer and take no packet. -/
def NodeAction.keepsPeers : NodeAction → Bool
  | .receive _ _ => false
  | .call (.peerDisconnected _) => false
  | .cleanupStalePeers _ => false
  | _ => true

def nodeActivity : TransitionSystem Node NodeAction where
  Enabled _ _ := True
  next node action := action.perform.exec node

theorem execution_nodeActivity (node : Node) (actions : List NodeAction) :
    nodeActivity.Execution node actions :=
  TransitionSystem.execution_of_enabled (fun _ _ => trivial) node actions

namespace MessageService

variable {R : Node → Node → Prop} [Std.Refl R] [IsTrans Node R]

section Announce

variable (hclock : ∀ node, R node { node with clockReads := node.clockReads + 1 })
include hclock

theorem respects_announce (hsent : ∀ node packet, packet.type = pktTypeAnnounce →
      R node { node with trace := node.trace ++ [.sent packet] }) (isReady : Bool) :
    Respects R (BluetoothAnnounceRunner.announce isReady) := by
  refine respects_get.bind fun node => Respects.bind_of ?_ fun node' packet node'' hmade => ?_
  · exact respects_newPacket hclock _ _
  · have htype : packet.type = pktTypeAnnounce := by
      cases hmade
      rfl
    exact ((respects_ofExcept _).bind fun senderID =>
      (respects_getCurrentTimestamp hclock).bind fun timestamp =>
        ((respects_sendPacket fun node => hsent node { packet with senderID, timestamp } htype).bind
          fun _ => respects_pure _).ite (respects_pure _) : Respects R _) node''

theorem respects_announceToPeripheral
    (hsentTo : ∀ node packet peripheralID, packet.type = pktTypeAnnounce →
      R node { node with trace := node.trace ++ [.sentToPeripheral packet peripheralID] })
    (peripheralID : Bytes) : Respects R (NetworkService.announceToPeripheral peripheralID) := by
  have hannounce : Respects R createAnnouncePacket :=
    respects_get.bind fun _ => respects_ownPacket hclock _ _
  refine hannounce.bind_of fun node packet node' hmade => ?_
  obtain ⟨here, node₁, hget, hown⟩ := outcome_bind_inv hmade
  exact respects_emit (fun node => hsentTo node packet _ (type_of_ownPacket hown)) node'

end Announce

namespace SendSteps

variable (h : SendSteps R)
include h

theorem announce (isReady : Bool) : Respects R (BluetoothAnnounceRunner.announce isReady) := by
  have hannounce : ¬ IsHandshake pktTypeAnnounce := by decide
  exact respects_announce h.clock (fun node _ htype => h.sent (htype ▸ hannounce) node) isReady

theorem announceToPeripheral (peripheralID : Bytes) :
    Respects R (NetworkService.announceToPeripheral peripheralID) := by
  have hannounce : ¬ IsHandshake pktTypeAnnounce := by decide
  exact respects_announceToPeripheral h.clock (fun node _ peripheralID htype =>
    h.sentToPeripheral (htype ▸ hannounce) node peripheralID) peripheralID

theorem performAction (hnickname : ∀ node nickname,
      R node { node with data := node.data.setNickname nickname })
    (hnetwork : ∀ (node : Node) connected, R node { node with connected }) {action : NodeAction}
    (haction : action.keepsPeers = true) : Respects R action.perform := by
  cases action with
  | receive packet peripheralID => cases haction
  | call localCall =>
      refine h.perform fun peripheralID heq => ?_
      rw [heq] at haction
      cases haction
  | changeNickname nickname => exact respects_modify fun node => hnickname node nickname
  | announce isReady => exact h.announce isReady
  | announceTo peripheralID => exact h.announceToPeripheral peripheralID
  | cleanupStalePeers time => cases haction
  | network connected => exact respects_modify fun node => hnetwork node connected

end SendSteps

end MessageService

end Bitchat
