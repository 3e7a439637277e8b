import Bitchat.KeyedList
import Bitchat.Packet

/-!
# Updates of a peer's record

An announce, a channel announce or a leave changes the record of its sender according to
what it has read there. When two updates of one record have both read before one of them
writes, `Compatible` says whether the end is that of one of the two orders.
-/

namespace Bitchat

structure PeerView where
  peerID : Bytes
  channel : Bytes
  nickname : Bytes
  peripheralID : Bytes
  deriving DecidableEq, Repr

def BitchatPeer.view (peer : BitchatPeer) : PeerView :=
  ⟨peer.peerID, peer.channel, peer.nickname, peer.peripheralID⟩

theorem BitchatPeer.peerID_view (peer : BitchatPeer) : peer.view.peerID = peer.peerID := rfl

/-- What a packet does to the record of its sender. -/
inductive PeerUpdate where
  | announce (nickname peripheralID : Bytes)
  | channelAnnounce (channel : Bytes)
  | leave
  | nothing
  deriving DecidableEq, Repr

namespace PeerUpdate

open KeyedList

def change (peerID : Bytes) : PeerUpdate → Option PeerView → Change PeerView
  | announce nickname peripheralID, none => .put ⟨peerID, [], nickname, peripheralID⟩
  | announce _ peripheralID, some peer => .put { peer with
      peripheralID := if peripheralID = [] then peer.peripheralID else peripheralID }
  | channelAnnounce _, none => .keep
  | channelAnnounce channel, some peer => .put { peer with channel }
  | leave, none => .keep
  | leave, some _ => .drop
  | nothing, _ => .keep

def write (peerID : Bytes) (update : PeerUpdate) (read : Option PeerView)
    (peers : List PeerView) : List PeerView :=
  (update.change peerID read).apply PeerView.peerID peerID peers

def perform (peerID : Bytes) (update : PeerUpdate) (peers : List PeerView) : List PeerView :=
  update.write peerID (find PeerView.peerID peerID peers) peers

/-- Whether nothing is lost when both updates of one record have read `peer` before the first
one writes and then the last. -/
def Compatible : Option PeerView → PeerUpdate → PeerUpdate → Prop
  | none, announce nickname peripheralID, announce nickname' peripheralID' =>
      peripheralID = [] ∨ peripheralID = peripheralID' ∨
        nickname = nickname' ∧ peripheralID' ≠ []
  | some peer, announce _ peripheralID, announce _ peripheralID' =>
      peripheralID' ≠ [] ∨ peripheralID = [] ∨ peripheralID = peer.peripheralID
  | some peer, announce _ peripheralID, channelAnnounce _ =>
      peripheralID = [] ∨ peripheralID = peer.peripheralID
  | some peer, channelAnnounce channel, announce _ _ => channel = peer.channel
  | some peer, leave, announce nickname peripheralID =>
      peer.channel = [] ∧ peer.nickname = nickname ∧
        (peripheralID ≠ [] ∨ peer.peripheralID = [])
  | some _, leave, channelAnnounce _ => False
  | _, _, _ => True

variable {peerID peerID' : Bytes} {peers : List PeerView} {first last : PeerUpdate}

theorem under_change {read : Option PeerView}
    (hread : ∀ peer, read = some peer → peer.peerID = peerID) (update : PeerUpdate) :
    (update.change peerID read).Under PeerView.peerID peerID := by
  cases update with
  | announce nickname peripheralID =>
      cases read with
      | none => exact rfl
      | some peer => exact hread peer rfl
  | channelAnnounce channel =>
      cases read with
      | none => trivial
      | some peer => exact hread peer rfl
  | leave =>
      cases read with
      | none => trivial
      | some peer => trivial
  | nothing => trivial

theorem key_of_change {read : Option PeerView} {update : PeerUpdate} {peer : PeerView}
    (hread : ∀ peer, read = some peer → peer.peerID = peerID)
    (h : update.change peerID read = .put peer) : peer.peerID = peerID := by
  have hunder := under_change hread update
  rwa [h] at hunder

theorem write_eq_perform (first last : PeerUpdate) (hne : peerID ≠ peerID') :
    last.write peerID' (find PeerView.peerID peerID' peers) (first.perform peerID peers) =
      last.perform peerID' (first.perform peerID peers) := by
  have hunder : (first.change peerID (find PeerView.peerID peerID peers)).Under PeerView.peerID
      peerID := under_change (fun peer h => key_of_find h) first
  rw [perform, perform, write, write, find_apply_of_ne hunder hne, write]

variable (peerID peers first last) in
/-- The updates have read the same record, and the end is as if one of them had waited. -/
def Serializable : Prop :=
  last.write peerID (find PeerView.peerID peerID peers) (first.perform peerID peers) =
      last.perform peerID (first.perform peerID peers) ∨
    last.write peerID (find PeerView.peerID peerID peers) (first.perform peerID peers) =
      first.perform peerID (last.perform peerID peers)

theorem perform_eq {read : Option PeerView} (hfind : find PeerView.peerID peerID peers = read)
    (update : PeerUpdate) : update.perform peerID peers = update.write peerID read peers := by
  rw [perform, hfind]

theorem serializable_of_first_idle (h : first.perform peerID peers = peers) :
    Serializable peerID peers first last := by
  left
  rw [h]
  rfl

theorem serializable_of_last_idle (h : last.perform peerID peers = peers)
    (hwrite : last.write peerID (find PeerView.peerID peerID peers) (first.perform peerID peers) =
      first.perform peerID peers) :
    Serializable peerID peers first last := by
  right
  rw [h, hwrite]

/-- When all writes are stores, the one that comes last must have stored the same record
in one of the two orders. -/
theorem serializable_iff_of_puts {read : Option PeerView} {peer peer' merged merged' : PeerView}
    (hfind : find PeerView.peerID peerID peers = read)
    (hfirst : first.change peerID read = .put peer)
    (hlast : last.change peerID read = .put peer')
    (hmerged : first.change peerID (some peer') = .put merged)
    (hmerged' : last.change peerID (some peer) = .put merged') :
    Serializable peerID peers first last ↔ peer' = merged' ∨ peer' = merged := by
  have hread : ∀ peer, read = some peer → peer.peerID = peerID :=
    fun peer h => key_of_find (hfind.trans h)
  have hkey := key_of_change hread hfirst
  have hkey' := key_of_change hread hlast
  have hmkey := key_of_change (by simpa using hkey') hmerged
  have hmkey' := key_of_change (by simpa using hkey) hmerged'
  have hlastAfter : last.perform peerID (first.perform peerID peers) =
      store PeerView.peerID merged' peers := by
    rw [perform, perform_eq hfind, write, write, hfirst, Change.apply, find_store_self hkey,
      hmerged', Change.apply, store_store (hkey.trans hmkey'.symm)]
  have hfirstAfter : first.perform peerID (last.perform peerID peers) =
      store PeerView.peerID merged peers := by
    rw [perform, perform_eq hfind, write, write, hlast, Change.apply, find_store_self hkey',
      hmerged, Change.apply, store_store (hkey'.trans hmkey.symm)]
  have hoverlap : last.write peerID read (first.perform peerID peers) =
      store PeerView.peerID peer' peers := by
    rw [perform_eq hfind, write, write, hfirst, hlast, Change.apply, Change.apply,
      store_store (hkey.trans hkey'.symm)]
  rw [Serializable, hfind, hlastAfter, hfirstAfter, hoverlap]
  exact or_congr (store_eq_iff (hkey'.trans hmkey'.symm)) (store_eq_iff (hkey'.trans hmkey.symm))

theorem serializable_of_put_leave {peer peer' : PeerView}
    (hfind : find PeerView.peerID peerID peers = some peer)
    (hfirst : first.change peerID (some peer) = .put peer') :
    Serializable peerID peers first leave := by
  have hkey := key_of_change (by simpa using key_of_find hfind) hfirst
  have hfirstAfter : first.perform peerID peers = store PeerView.peerID peer' peers := by
    rw [perform_eq hfind, write, hfirst]
    rfl
  left
  rw [hfirstAfter, perform_eq (find_store_self hkey peers), hfind]
  rfl

theorem perform_leave {peer : PeerView} (hfind : find PeerView.peerID peerID peers = some peer) :
    leave.perform peerID peers = remove PeerView.peerID peerID peers := by
  rw [perform_eq hfind]
  rfl

theorem serializable_leave_leave {peer : PeerView}
    (hfind : find PeerView.peerID peerID peers = some peer) :
    Serializable peerID peers leave leave := by
  left
  rw [perform_leave hfind, perform_eq (find_remove_self peerID peers), hfind]
  exact remove_remove peerID peers

/-- Behind a leave, only the order in which the leave came first can explain a record. -/
theorem serializable_iff_of_leave_put {peer peer' : PeerView}
    (hfind : find PeerView.peerID peerID peers = some peer)
    (hlast : last.change peerID (some peer) = .put peer') :
    Serializable peerID peers leave last ↔
      store PeerView.peerID peer' (remove PeerView.peerID peerID peers) =
        last.write peerID none (remove PeerView.peerID peerID peers) := by
  have hkey := key_of_change (by simpa using key_of_find hfind) hlast
  have hlastAfter : last.perform peerID (remove PeerView.peerID peerID peers) =
      last.write peerID none (remove PeerView.peerID peerID peers) := by
    rw [perform, find_remove_self]
  have hleaveAfter : leave.perform peerID (last.perform peerID peers) =
      remove PeerView.peerID peerID (store PeerView.peerID peer' peers) := by
    rw [perform_eq hfind, write, hlast, Change.apply, perform_leave (find_store_self hkey peers)]
  rw [Serializable, hfind, perform_leave hfind, hlastAfter, hleaveAfter, write, hlast]
  exact or_iff_left (store_ne_remove hkey _ _)

theorem serializable_iff_of_absent (hfind : find PeerView.peerID peerID peers = none)
    (first last : PeerUpdate) : Serializable peerID peers first last ↔
      Compatible none first last := by
  have hidle : ∀ update : PeerUpdate, update.change peerID none = .keep →
      update.perform peerID peers = peers := by
    intro update h
    rw [perform_eq hfind, write, h]
    rfl
  cases first with
  | announce nickname peripheralID =>
      cases last with
      | announce nickname' peripheralID' =>
          refine (serializable_iff_of_puts hfind rfl rfl rfl rfl).trans ?_
          simp only [Compatible, PeerView.mk.injEq]
          grind
      | channelAnnounce channel =>
          exact iff_of_true (serializable_of_last_idle (hidle _ rfl) (by rw [hfind]; rfl))
            trivial
      | leave =>
          exact iff_of_true (serializable_of_last_idle (hidle _ rfl) (by rw [hfind]; rfl))
            trivial
      | nothing => exact iff_of_true (.inl rfl) trivial
  | channelAnnounce channel =>
      exact iff_of_true (serializable_of_first_idle (hidle _ rfl)) trivial
  | leave => exact iff_of_true (serializable_of_first_idle (hidle _ rfl)) trivial
  | nothing => exact iff_of_true (serializable_of_first_idle rfl) trivial

theorem serializable_iff_of_present {peer : PeerView}
    (hfind : find PeerView.peerID peerID peers = some peer) (first last : PeerUpdate) :
    Serializable peerID peers first last ↔ Compatible (some peer) first last := by
  have hpeer : peer.peerID = peerID := key_of_find hfind
  cases first with
  | announce nickname peripheralID =>
      cases last with
      | announce nickname' peripheralID' =>
          refine (serializable_iff_of_puts hfind rfl rfl rfl rfl).trans ?_
          cases peer
          simp only [Compatible, PeerView.mk.injEq]
          grind
      | channelAnnounce channel =>
          refine (serializable_iff_of_puts hfind rfl rfl rfl rfl).trans ?_
          cases peer
          simp only [Compatible, PeerView.mk.injEq]
          grind
      | leave => exact iff_of_true (serializable_of_put_leave hfind rfl) trivial
      | nothing => exact iff_of_true (.inl rfl) trivial
  | channelAnnounce channel =>
      cases last with
      | announce nickname' peripheralID' =>
          refine (serializable_iff_of_puts hfind rfl rfl rfl rfl).trans ?_
          cases peer
          simp only [Compatible, PeerView.mk.injEq]
          grind
      | channelAnnounce channel' =>
          refine (serializable_iff_of_puts hfind rfl rfl rfl rfl).trans ?_
          exact iff_of_true (.inl rfl) trivial
      | leave => exact iff_of_true (serializable_of_put_leave hfind rfl) trivial
      | nothing => exact iff_of_true (.inl rfl) trivial
  | leave =>
      cases last with
      | announce nickname' peripheralID' =>
          refine (serializable_iff_of_leave_put hfind rfl).trans ?_
          refine (store_eq_iff (by exact hpeer)).trans ?_
          cases peer
          simp only [Compatible, PeerView.mk.injEq]
          grind
      | channelAnnounce channel' =>
          refine (serializable_iff_of_leave_put hfind rfl).trans ?_
          exact iff_of_false (store_ne_remove (by exact hpeer) _ _) id
      | leave => exact iff_of_true (serializable_leave_leave hfind) trivial
      | nothing => exact iff_of_true (.inl rfl) trivial
  | nothing => exact iff_of_true (serializable_of_first_idle rfl) trivial

theorem serializable_iff (first last : PeerUpdate) : Serializable peerID peers first last ↔
    Compatible (find PeerView.peerID peerID peers) first last := by
  cases hfind : find PeerView.peerID peerID peers with
  | none => exact serializable_iff_of_absent hfind first last
  | some peer => exact serializable_iff_of_present hfind first last

end PeerUpdate

end Bitchat
