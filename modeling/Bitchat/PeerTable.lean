import Bitchat.BitchatData

/-!
# The peer list as a table

What the peer list of `BitchatData` is for: a partial map from IDs to records. The list keeps
its IDs distinct under the operations of the store, though neither its type nor any check
demands it, so that all queries agree with the map.
-/

namespace Bitchat

inductive PeerOperation where
  | add (peer : BitchatPeer)
  | update (peer : BitchatPeer)
  | remove (peerID : Bytes)
  | cleanup (time : ℤ)

namespace BitchatData

def performPeer (data : BitchatData) : PeerOperation → BitchatData
  | .add peer => data.addPeer peer
  | .update peer => data.updatePeer peer
  | .remove peerID => data.removePeer peerID
  | .cleanup time => data.cleanupStalePeers time

def performPeers (data : BitchatData) (operations : List PeerOperation) : BitchatData :=
  operations.foldl performPeer data

end BitchatData

abbrev PeerTable := Bytes → Option BitchatPeer

namespace PeerTable

def isOnline (table : PeerTable) (peerID : Bytes) (time : ℤ) : Bool :=
  (table peerID).any fun peer => !peer.isStale peerTimeoutSeconds time

def apply (table : PeerTable) : PeerOperation → PeerTable
  | .add peer => Function.update table peer.peerID (some peer)
  | .update peer => Function.update table peer.peerID (some peer)
  | .remove peerID => Function.update table peerID none
  | .cleanup time => fun peerID => if table.isOnline peerID time then table peerID else none

def applyAll (table : PeerTable) (operations : List PeerOperation) : PeerTable :=
  operations.foldl apply table

/-- The IDs whose records an operation may change. -/
def concerns (table : PeerTable) (peerID : Bytes) : PeerOperation → Bool
  | .add peer => peerID = peer.peerID
  | .update peer => peerID = peer.peerID
  | .remove removed => peerID = removed
  | .cleanup time => !table.isOnline peerID time

end PeerTable

/-- All that can be asked about the peers is answered as by the table. -/
structure PeersRefine (data : BitchatData) (table : PeerTable) : Prop where
  distinct : (data.peers.map BitchatPeer.peerID).Nodup
  info : ∀ peerID, data.getPeerInfo peerID = table peerID
  count : data.getPeersCount = {peerID | (table peerID).isSome = true}.ncard
  online : ∀ peerID time, data.isPeerOnline peerID time = table.isOnline peerID time

open KeyedList BitchatData

variable {data : BitchatData} {table : PeerTable}

theorem peersRefine_of_represents (h : Represents BitchatPeer.peerID data.peers table) :
    PeersRefine data table := by
  refine ⟨h.distinct, h.find, h.length, fun peerID time => ?_⟩
  rw [isPeerOnline, getPeerInfo_eq, h.find, PeerTable.isOnline]
  cases table peerID with
  | none => rfl
  | some peer => rfl

theorem represents_cleanup (h : Represents BitchatPeer.peerID data.peers table) (time : ℤ) :
    Represents BitchatPeer.peerID (data.cleanupStalePeers time).peers
      (table.apply (.cleanup time)) := by
  have hfilter := h.filter fun peer => !peer.isStale peerTimeoutSeconds time
  refine ⟨hfilter.distinct, fun peerID => (hfilter.find peerID).trans ?_⟩
  change _ = if table.isOnline peerID time then table peerID else none
  rw [PeerTable.isOnline]
  cases table peerID with
  | none => rfl
  | some peer => rfl

theorem represents_performPeer (h : Represents BitchatPeer.peerID data.peers table)
    (operation : PeerOperation) :
    Represents BitchatPeer.peerID (data.performPeer operation).peers (table.apply operation) := by
  cases operation with
  | add peer =>
      rw [performPeer, addPeer, storePeer_eq]
      exact h.store peer
  | update peer =>
      rw [performPeer, updatePeer, storePeer_eq]
      exact h.store peer
  | remove peerID => exact h.remove peerID
  | cleanup time => exact represents_cleanup h time

theorem isOnline_of_mem (h : Represents BitchatPeer.peerID data.peers table) {peer : BitchatPeer}
    (hpeer : peer ∈ data.peers) (time : ℤ) :
    table.isOnline peer.peerID time = !peer.isStale peerTimeoutSeconds time := by
  rw [PeerTable.isOnline, ← h.find, find_of_mem h.distinct hpeer]
  rfl

/-- The records that an operation does not concern stay as they are and in their order. -/
theorem filter_performPeer (h : Represents BitchatPeer.peerID data.peers table)
    (operation : PeerOperation) :
    ((data.performPeer operation).peers.filter fun peer =>
        !table.concerns peer.peerID operation) =
      data.peers.filter fun peer => !table.concerns peer.peerID operation := by
  cases operation with
  | add peer =>
      rw [performPeer, addPeer, storePeer_eq]
      exact filter_store (p := fun id => !table.concerns id (.add peer))
        (by simp [PeerTable.concerns]) data.peers
  | update peer =>
      rw [performPeer, updatePeer, storePeer_eq]
      exact filter_store (p := fun id => !table.concerns id (.update peer))
        (by simp [PeerTable.concerns]) data.peers
  | remove peerID =>
      exact filter_remove (p := fun id => !table.concerns id (.remove peerID))
        (by simp [PeerTable.concerns]) data.peers
  | cleanup time =>
      rw [performPeer, cleanupStalePeers, List.filter_filter]
      refine List.filter_congr fun peer hpeer => ?_
      rw [PeerTable.concerns, isOnline_of_mem h hpeer, Bool.not_not, Bool.and_self]

theorem represents_performPeers (h : Represents BitchatPeer.peerID data.peers table)
    (operations : List PeerOperation) :
    Represents BitchatPeer.peerID (data.performPeers operations).peers
      (table.applyAll operations) := by
  induction operations generalizing data table with
  | nil => exact h
  | cons operation operations ih => exact ih (represents_performPeer h operation)

/-- The store and the table behind some operations from the empty list on. -/
def peersAfter (data : BitchatData) (operations : List PeerOperation) : BitchatData :=
  { data with peers := [] }.performPeers operations

def tableAfter (operations : List PeerOperation) : PeerTable :=
  PeerTable.applyAll (fun _ => none) operations

/-- From the empty list on, the peers are those of the table, and every further operation
keeps the other records in their order. -/
theorem peers_refine_table (data : BitchatData) (operations : List PeerOperation) :
    PeersRefine (peersAfter data operations) (tableAfter operations) ∧
      ∀ operation, let others := fun peer : BitchatPeer =>
          !(tableAfter operations).concerns peer.peerID operation
        (peersAfter data (operations ++ [operation])).peers.filter others =
          (peersAfter data operations).peers.filter others := by
  have hempty : Represents BitchatPeer.peerID ({ data with peers := [] } : BitchatData).peers
      fun _ => none := represents_nil
  have hrun := represents_performPeers hempty operations
  refine ⟨peersRefine_of_represents hrun, fun operation => ?_⟩
  rw [peersAfter, performPeers, List.foldl_append]
  exact filter_performPeer hrun operation

end Bitchat
