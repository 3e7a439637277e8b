import Bitchat.FlushingSet
import Bitchat.KeyedList
import Bitchat.Packet
import Mathlib.Data.Finset.Insert
import Mathlib.Logic.Function.Basic

/-!
# The data store

The fields of `BitchatData` and its operations, each of them atomic in the source. A
channel without history is one with an empty history. `time` is a reading of `std::time`.
-/

namespace Bitchat

def maxHistorySize : ℕ := 1000
def maxProcessedMessages : ℕ := 1000
def peerTimeoutSeconds : ℤ := 180

def BitchatPeer.isStale (peer : BitchatPeer) (timeout time : ℤ) : Bool :=
  decide (time - peer.lastSeen > timeout)

structure BitchatData where
  peerID : Bytes
  nickname : Bytes
  currentChannel : Bytes := []
  peers : List BitchatPeer := []
  messageHistory : Bytes → List BitchatMessage := fun _ => []
  processedMessages : Finset Bytes := ∅

namespace BitchatData

def setPeerID (data : BitchatData) (peerID : Bytes) : BitchatData := { data with peerID }

def setNickname (data : BitchatData) (nickname : Bytes) : BitchatData := { data with nickname }

def setCurrentChannel (data : BitchatData) (channel : Bytes) : BitchatData :=
  { data with currentChannel := channel }

def setPeers (data : BitchatData) (peers : List BitchatPeer) : BitchatData := { data with peers }

/-- The first peer with the ID of `peer` is overwritten; without one, `peer` comes last. -/
def storePeer (peer : BitchatPeer) : List BitchatPeer → List BitchatPeer
  | [] => [peer]
  | p :: peers => if p.peerID = peer.peerID then peer :: peers else p :: storePeer peer peers

theorem storePeer_eq (peer : BitchatPeer) (peers : List BitchatPeer) :
    storePeer peer peers = KeyedList.store BitchatPeer.peerID peer peers := by
  induction peers with
  | nil => rfl
  | cons p peers ih => rw [storePeer, KeyedList.store, ih]

/-- A peer is overwritten in its place, so the list of IDs stays, or grows at its end. -/
theorem map_peerID_storePeer (peer : BitchatPeer) (peers : List BitchatPeer) :
    (storePeer peer peers).map BitchatPeer.peerID =
      if peer.peerID ∈ peers.map BitchatPeer.peerID then peers.map BitchatPeer.peerID
      else peers.map BitchatPeer.peerID ++ [peer.peerID] := by
  rw [storePeer_eq, KeyedList.map_key_store]
  congr

def addPeer (data : BitchatData) (peer : BitchatPeer) : BitchatData :=
  { data with peers := storePeer peer data.peers }

def updatePeer (data : BitchatData) (peer : BitchatPeer) : BitchatData :=
  { data with peers := storePeer peer data.peers }

def removePeer (data : BitchatData) (peerID : Bytes) : BitchatData :=
  { data with peers := data.peers.filter fun peer => peer.peerID ≠ peerID }

def getPeerInfo (data : BitchatData) (peerID : Bytes) : Option BitchatPeer :=
  data.peers.find? fun peer => peer.peerID = peerID

theorem peerID_of_getPeerInfo {data : BitchatData} {peerID : Bytes} {peer : BitchatPeer}
    (h : data.getPeerInfo peerID = some peer) : peer.peerID = peerID := by
  simpa using List.find?_some h

theorem getPeerInfo_eq (data : BitchatData) (peerID : Bytes) :
    data.getPeerInfo peerID = KeyedList.find BitchatPeer.peerID peerID data.peers := rfl

/-- A stored peer is found under its ID, and nothing else is found otherwise than before. -/
theorem getPeerInfo_addPeer (data : BitchatData) (peer : BitchatPeer) (peerID : Bytes) :
    (data.addPeer peer).getPeerInfo peerID =
      if peer.peerID = peerID then some peer else data.getPeerInfo peerID := by
  rw [getPeerInfo_eq, addPeer, storePeer_eq, KeyedList.find_store, getPeerInfo_eq]

theorem getPeerInfo_removePeer (data : BitchatData) {removed peerID : Bytes}
    (h : removed ≠ peerID) : (data.removePeer removed).getPeerInfo peerID =
      data.getPeerInfo peerID := by
  rw [getPeerInfo_eq, getPeerInfo_eq]
  exact (KeyedList.find_remove removed peerID data.peers).trans (if_neg h.symm)

def getPeersCount (data : BitchatData) : ℕ := data.peers.length

def isPeerOnline (data : BitchatData) (peerID : Bytes) (time : ℤ) : Bool :=
  match data.getPeerInfo peerID with
  | some peer => !peer.isStale peerTimeoutSeconds time
  | none => false

def cleanupStalePeers (data : BitchatData) (time : ℤ) : BitchatData :=
  { data with peers := data.peers.filter fun peer => !peer.isStale peerTimeoutSeconds time }

def addMessageToHistory (data : BitchatData) (message : BitchatMessage) (channel : Bytes) :
    BitchatData :=
  let targetChannel := if channel.isEmpty then data.currentChannel else channel
  let messages := data.messageHistory targetChannel ++ [message]
  let messages := if messages.length > maxHistorySize then messages.drop 1 else messages
  { data with messageHistory := Function.update data.messageHistory targetChannel messages }

def clearMessageHistory (data : BitchatData) (channel : Bytes) : BitchatData :=
  let targetChannel := if channel.isEmpty then data.currentChannel else channel
  { data with messageHistory := Function.update data.messageHistory targetChannel [] }

def clearAllMessageHistory (data : BitchatData) : BitchatData :=
  { data with messageHistory := fun _ => [] }

def cleanupOldMessages (data : BitchatData) (maxHistorySize : ℕ) : BitchatData :=
  { data with messageHistory := fun channel =>
      let messages := data.messageHistory channel
      messages.drop (messages.length - maxHistorySize) }

def wasMessageProcessed (data : BitchatData) (messageID : Bytes) : Bool :=
  decide (messageID ∈ data.processedMessages)

def markMessageProcessed (data : BitchatData) (messageID : Bytes) : BitchatData :=
  let processedMessages := insert messageID data.processedMessages
  if processedMessages.card > maxProcessedMessages then { data with processedMessages := ∅ }
  else { data with processedMessages }

def clearProcessedMessages (data : BitchatData) : BitchatData :=
  { data with processedMessages := ∅ }

def cleanupOldProcessedMessages (data : BitchatData) (maxProcessedSize : ℕ) : BitchatData :=
  if data.processedMessages.card > maxProcessedSize then { data with processedMessages := ∅ }
  else data

theorem markMessageProcessed_eq (data : BitchatData) (messageID : Bytes) :
    data.markMessageProcessed messageID = { data with
      processedMessages := FlushingSet.mark maxProcessedMessages data.processedMessages
        messageID } := by
  simp only [markMessageProcessed, FlushingSet.mark, gt_iff_lt]
  split_ifs <;> rfl

end BitchatData

end Bitchat
