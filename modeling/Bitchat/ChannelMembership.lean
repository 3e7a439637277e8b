import Bitchat.Deduplication
import Bitchat.EndToEnd
import Bitchat.FrameDecoding
import Bitchat.ParserBounds

/-!
# Channel membership at another node

Joining and leaving a channel is announced to everyone, and a receiver notes the channel in
its record of the sender. The announces carry no sender ID: on the wire it becomes eight
zero bytes, and it is the record of that ID that changes.
-/

namespace Bitchat.MessageService

open Effect ByteCursor StringHelper PacketSerializer CompressionHelper

inductive ChannelCall where
  | join (channel : Bytes)
  | leave
  deriving DecidableEq

def ChannelCall.perform : ChannelCall → ServiceM Unit
  | .join channel => joinChannel channel
  | .leave => leaveChannel

def performAll (calls : List ChannelCall) (node : Node) : Node :=
  calls.foldl (fun node call => call.perform.exec node) node

def withHash (channel : Bytes) : Bytes :=
  if channel.head? ≠ some 0x23 then 0x23 :: channel else channel

def channelAfter : ChannelCall → Bytes
  | .join channel => withHash channel
  | .leave => []

def finalChannel (calls : List ChannelCall) (current : Bytes) : Bytes :=
  calls.foldl (fun _ call => channelAfter call) current

/-- There is no channel to leave, and none is joined. -/
def Silent (calls : List ChannelCall) (current : Bytes) : Prop :=
  calls = [] ∨ current = [] ∧ ∀ call ∈ calls, call = .leave

instance (calls : List ChannelCall) (current : Bytes) : Decidable (Silent calls current) :=
  inferInstanceAs (Decidable (_ ∨ _))

def sentPackets (events : List Event) : List BitchatPacket :=
  events.filterMap fun event => match event with
    | .sent packet => some packet
    | _ => none

def announces (calls : List ChannelCall) (node : Node) : List BitchatPacket :=
  sentPackets ((performAll calls node).trace.drop node.trace.length)

def channelAnnounce (timestamp : UInt64) (channel : Bytes) (joining : Bool) : BitchatPacket :=
  BitchatPacket.make pktTypeChannelAnnounce (makeChannelAnnouncePayload channel joining) timestamp

structure Announces (node node' : Node) (channel : Bytes) (packets : List BitchatPacket) :
    Prop where
  connected : node'.connected = true
  channel : node'.data.currentChannel = channel
  trace : ∃ events, node'.trace = node.trace ++ events ∧ sentPackets events = packets

theorem Announces.trans {a b c : Node} {channel channel' : Bytes}
    {packets packets' : List BitchatPacket} (h : Announces a b channel packets)
    (h' : Announces b c channel' packets') : Announces a c channel' (packets ++ packets') := by
  obtain ⟨events, htrace, rfl⟩ := h.trace
  obtain ⟨events', htrace', rfl⟩ := h'.trace
  refine ⟨h'.connected, h'.channel, events ++ events', ?_, List.filterMap_append⟩
  rw [htrace', htrace, List.append_assoc]

theorem Announces.refl {node : Node} (h : node.connected = true) :
    Announces node node node.data.currentChannel [] :=
  ⟨h, rfl, [], (List.append_nil _).symm, rfl⟩

/-- An announce and the callback behind it, as both calls end. -/
def sendChannelAnnounce (channel : Bytes) (joining : Bool) (registered : Callbacks → Bool)
    (event : Event) : ServiceM Unit := do
  let packet ← createChannelAnnouncePacket channel joining
  let _ ← sendPacket packet
  notify registered event

theorem outcome_sendChannelAnnounce (node : Node) (channel : Bytes) (joining : Bool)
    (registered : Callbacks → Bool) (event : Event) :
    (sendChannelAnnounce channel joining registered event).outcome node =
      (.ok ⟨⟩, { node with
        clockReads := node.clockReads + 2
        trace := node.trace ++ (notification node.connected (.sent (channelAnnounce
          (timestampAt node (node.clockReads + 1)) channel joining)) ++
            notification (registered node.callbacks) event) }) := by
  have hmade : (createChannelAnnouncePacket channel joining).outcome node =
      (.ok (channelAnnounce (timestampAt node (node.clockReads + 1)) channel joining),
        { node with clockReads := node.clockReads + 2 }) := rfl
  rw [sendChannelAnnounce, outcome_bind_ok hmade, outcome_bind_ok (outcome_sendPacket _ _),
    outcome_notify, ← List.append_assoc]

theorem announces_sendChannelAnnounce {node : Node} (hconnected : node.connected = true)
    (channel : Bytes) (joining : Bool) (registered : Callbacks → Bool) {event : Event}
    (hevent : IsReport event = true) :
    ∃ timestamp, Announces node ((sendChannelAnnounce channel joining registered event).exec node)
      node.data.currentChannel [channelAnnounce timestamp channel joining] := by
  refine ⟨timestampAt node (node.clockReads + 1), ?_⟩
  rw [exec, outcome_sendChannelAnnounce]
  refine ⟨hconnected, rfl, _, rfl, ?_⟩
  rw [hconnected, notification, if_pos rfl, notification]
  split_ifs
  · cases event with
    | sent packet => cases hevent
    | _ => rfl
  · rfl

theorem leaveChannel_eq : leaveChannel = (do
    let node ← get
    if node.data.currentChannel.isEmpty then pure ()
    else
      modifyData fun data => data.setCurrentChannel []
      sendChannelAnnounce [] false Callbacks.channelLeft
        (.channelLeft node.data.currentChannel)) := rfl

theorem result_leaveChannel (node : Node) : leaveChannel.result node = .ok ⟨⟩ := by
  rw [result, leaveChannel_eq, outcome_bind_ok (outcome_get node)]
  split
  · rfl
  · rw [outcome_bind_ok (outcome_modifyData _ _), outcome_sendChannelAnnounce]

theorem announces_leaveChannel {node : Node} (hconnected : node.connected = true) :
    node.data.currentChannel = [] ∧ Announces node (leaveChannel.exec node) [] [] ∨
      node.data.currentChannel ≠ [] ∧ ∃ timestamp, Announces node (leaveChannel.exec node) []
        [channelAnnounce timestamp [] false] := by
  rw [exec, leaveChannel_eq, outcome_bind_ok (outcome_get node)]
  by_cases hcurrent : node.data.currentChannel = []
  · rw [if_pos (by simp [hcurrent])]
    exact .inl ⟨hcurrent, hcurrent ▸ .refl hconnected⟩
  · rw [if_neg (by simpa using hcurrent), outcome_bind_ok (outcome_modifyData _ _)]
    have hleft : ({ node with data := node.data.setCurrentChannel [] } : Node).connected = true :=
      hconnected
    have hreport : IsReport (.channelLeft node.data.currentChannel) = true := rfl
    obtain ⟨timestamp, h⟩ := announces_sendChannelAnnounce hleft [] false Callbacks.channelLeft
      hreport
    exact .inr ⟨hcurrent, timestamp, h.connected, h.channel, h.trace⟩

theorem withHash_ne_nil (channel : Bytes) : withHash channel ≠ [] := by
  rw [withHash]
  split_ifs with hhash
  · exact List.cons_ne_nil _ _
  · rintro rfl
    simp at hhash

theorem announces_joinChannel {node : Node} (hconnected : node.connected = true)
    {channel : Bytes} (hname : channel ≠ []) :
    ∃ left joined, Announces node ((joinChannel channel).exec node) (withHash channel)
      [channelAnnounce left [] false, channelAnnounce joined (withHash channel) true] := by
  have hset : ({ node with data := node.data.setCurrentChannel channel } : Node).connected =
    true := hconnected
  rcases announces_leaveChannel hset with ⟨hnone, -⟩ | ⟨-, left, hleave⟩
  · exact (hname hnone).elim
  have hout : leaveChannel.outcome { node with data := node.data.setCurrentChannel channel } =
      (.ok ⟨⟩, leaveChannel.exec { node with data := node.data.setCurrentChannel channel }) :=
    Prod.ext (result_leaveChannel _) rfl
  rw [exec, joinChannel, outcome_bind_ok (outcome_modifyData _ _),
    if_neg (by simpa using hname), outcome_bind_ok hout, outcome_bind_ok (outcome_modifyData _ _)]
  set left' := leaveChannel.exec { node with data := node.data.setCurrentChannel channel }
  have hjoin : ({ left' with data := left'.data.setCurrentChannel (withHash channel) } :
    Node).connected = true := hleave.connected
  have hreport : IsReport (.channelJoined (withHash channel)) = true := rfl
  obtain ⟨joined, h⟩ := announces_sendChannelAnnounce hjoin (withHash channel) true
    Callbacks.channelJoined hreport
  refine ⟨left, joined, ?_⟩
  have hbefore : Announces node left' [] [channelAnnounce left [] false] :=
    ⟨hleave.connected, hleave.channel, hleave.trace⟩
  have hbehind : Announces left' _ (withHash channel)
      [channelAnnounce joined (withHash channel) true] :=
    ⟨h.connected, h.channel, h.trace⟩
  exact hbefore.trans hbehind

theorem performAll_concat (calls : List ChannelCall) (call : ChannelCall) (node : Node) :
    performAll (calls ++ [call]) node = call.perform.exec (performAll calls node) := by
  rw [performAll, List.foldl_append]
  rfl

theorem finalChannel_concat (calls : List ChannelCall) (call : ChannelCall) (current : Bytes) :
    finalChannel (calls ++ [call]) current = channelAfter call := by
  rw [finalChannel, List.foldl_append]
  rfl

theorem finalChannel_of_silent {calls : List ChannelCall} {current : Bytes}
    (h : Silent calls current) : finalChannel calls current = current := by
  rcases List.eq_nil_or_concat' calls with rfl | ⟨before, call, rfl⟩
  · rfl
  · rcases h with hnil | ⟨hcurrent, hleave⟩
    · simp at hnil
    · rw [finalChannel_concat, hleave call (by simp), hcurrent]
      rfl

theorem silent_concat_leave {calls : List ChannelCall} {current : Bytes} :
    Silent (calls ++ [.leave]) current ↔ current = [] ∧ Silent calls current := by
  constructor
  · rintro (hnil | ⟨hcurrent, hleave⟩)
    · simp at hnil
    · exact ⟨hcurrent, .inr ⟨hcurrent, fun call hcall =>
        hleave call (List.mem_append_left _ hcall)⟩⟩
  · rintro ⟨hcurrent, hsilent⟩
    refine .inr ⟨hcurrent, fun call hcall => ?_⟩
    rcases List.mem_append.mp hcall with hcall | hcall
    · rcases hsilent with rfl | ⟨-, hleave⟩
      · cases hcall
      · exact hleave call hcall
    · exact List.mem_singleton.mp hcall

theorem not_silent_concat_join (calls : List ChannelCall) (name current : Bytes) :
    ¬ Silent (calls ++ [.join name]) current := by
  rintro (hnil | ⟨-, hleave⟩)
  · simp at hnil
  · cases hleave (.join name) (by simp)

/-- How a run of calls ends: with no packet at all, with a leave, or with a leave and a
join. -/
inductive Ending (final : Bytes) : List BitchatPacket → Prop where
  | leave (packets : List BitchatPacket) (timestamp : UInt64) (hfinal : final = []) :
      Ending final (packets ++ [channelAnnounce timestamp [] false])
  | join (packets : List BitchatPacket) (left joined : UInt64) (hfinal : final ≠ []) :
      Ending final (packets ++ [channelAnnounce left [] false, channelAnnounce joined final true])

def IsChannelAnnounce (packet : BitchatPacket) : Prop :=
  ∃ timestamp channel joining, packet = channelAnnounce timestamp channel joining

theorem announces_performAll {node : Node} (hconnected : node.connected = true)
    (calls : List ChannelCall) (hnames : ∀ name, .join name ∈ calls → name ≠ []) :
    ∃ packets, Announces node (performAll calls node)
        (finalChannel calls node.data.currentChannel) packets ∧
      (∀ packet ∈ packets, IsChannelAnnounce packet) ∧
      (Silent calls node.data.currentChannel ∧ packets = [] ∨
        ¬ Silent calls node.data.currentChannel ∧
          Ending (finalChannel calls node.data.currentChannel) packets) := by
  induction calls using List.reverseRecOn with
  | nil => exact ⟨[], .refl hconnected, by simp, .inl ⟨.inl rfl, rfl⟩⟩
  | append_singleton calls call ih =>
      obtain ⟨packets, hbefore, hall, hending⟩ :=
        ih fun name hname => hnames name (List.mem_append_left _ hname)
      rw [performAll_concat, finalChannel_concat]
      cases call with
      | join name =>
          have hname : name ≠ [] := hnames name (by simp)
          obtain ⟨left, joined, hstep⟩ := announces_joinChannel hbefore.connected hname
          refine ⟨_, hbefore.trans hstep, ?_, .inr ⟨not_silent_concat_join calls name _,
            .join packets left joined (withHash_ne_nil name)⟩⟩
          simp only [List.mem_append, List.mem_cons, List.not_mem_nil, or_false]
          rintro packet (hpacket | rfl | rfl)
          · exact hall packet hpacket
          · exact ⟨_, _, _, rfl⟩
          · exact ⟨_, _, _, rfl⟩
      | leave =>
          rw [silent_concat_leave]
          rcases announces_leaveChannel hbefore.connected with
            ⟨hnone, hstep⟩ | ⟨hsome, timestamp, hstep⟩
          · rw [hbefore.channel] at hnone
            refine ⟨packets, List.append_nil packets ▸ hbefore.trans hstep, hall, ?_⟩
            rcases hending with ⟨hsilent, hempty⟩ | ⟨hloud, hending⟩
            · rw [finalChannel_of_silent hsilent] at hnone
              exact .inl ⟨⟨hnone, hsilent⟩, hempty⟩
            · rw [hnone] at hending
              exact .inr ⟨fun h => hloud h.2, hending⟩
          · rw [hbefore.channel] at hsome
            refine ⟨_, hbefore.trans hstep, ?_, .inr ⟨fun h => ?_, .leave packets timestamp rfl⟩⟩
            · simp only [List.mem_append, List.mem_singleton]
              rintro packet (hpacket | rfl)
              · exact hall packet hpacket
              · exact ⟨_, _, _, rfl⟩
            · exact hsome ((finalChannel_of_silent h.2).trans h.1)

theorem length_of_readField {payload s : Bytes} {offset offset' : ℕ}
    (h : (readField payload).run offset = .ok (some s, offset')) : s.length ≤ 255 := by
  obtain ⟨len, o₁, hlen, h⟩ := run_bind_ok h
  have hbyte : len ≤ 255 := by
    rw [StateT.run_map] at hlen
    cases hnext : (readUint8 payload).run offset with
    | error e => rw [hnext] at hlen; cases hlen
    | ok r =>
        rw [hnext] at hlen
        cases hlen
        exact Nat.le_of_lt_succ (UInt8.toNat_lt _)
  obtain ⟨o, o₂, hget, h⟩ := run_bind_ok h
  cases hget
  split at h
  · cases h
  · obtain ⟨s', o₃, hblock, h⟩ := run_bind_ok h
    have hs := length_of_block hblock
    cases h
    omega

theorem length_of_parseChannelAnnouncePayload {payload : Bytes} {announce : ChannelAnnounce}
    (h : parseChannelAnnouncePayload payload = .ok announce) : announce.channel.length ≤ 255 := by
  unfold parseChannelAnnouncePayload at h
  split at h
  · cases h
    exact Nat.zero_le _
  · rw [StateT.run'_eq] at h
    cases hread : (readChannelAnnounce payload).run 0 with
    | error e => rw [hread] at h; cases h
    | ok r =>
        rw [hread] at h
        cases h
        obtain ⟨flag, o₁, -, hread⟩ := run_bind_ok hread
        obtain ⟨name, o₂, hname, hread⟩ := run_bind_ok hread
        cases name with
        | none => cases hread; exact Nat.zero_le _
        | some channel => cases hread; exact length_of_readField hname

theorem parseChannelAnnouncePayload_make {channel : Bytes} (h : channel.length ≤ 255)
    (joining : Bool) :
    parseChannelAnnouncePayload (makeChannelAnnouncePayload channel joining) =
      .ok { channel, joining := some joining } := by
  have hmade : makeChannelAnnouncePayload channel joining =
      [if joining then 1 else 0] ++ (fieldBytes channel ++ []) := by
    rw [fieldBytes, Nat.min_eq_right h, List.take_length]
    simp [makeChannelAnnouncePayload]
  have hread : Decodes readChannelAnnounce (makeChannelAnnouncePayload channel joining)
      { channel, joining := some joining } := by
    have hfield := decodes_readField channel
    rw [List.take_of_length_le h] at hfield
    rw [hmade]
    refine (decodes_next _).bind (hfield.bind ?_)
    cases joining
    · exact Decodes.pure _
    · exact Decodes.pure _
  have hlen : ¬ (makeChannelAnnouncePayload channel joining).length < 2 := by
    simp [makeChannelAnnouncePayload]
  have hrun := hread.run_zero []
  rw [List.append_nil] at hrun
  rw [parseChannelAnnouncePayload, if_neg hlen, StateT.run'_eq, hrun]
  rfl

def recordedChannel (peerID : Bytes) (node : Node) : Option Bytes :=
  (node.data.getPeerInfo peerID).map BitchatPeer.channel

def SameRecord (peerID : Bytes) (node node' : Node) : Prop :=
  recordedChannel peerID node' = recordedChannel peerID node

instance (peerID : Bytes) : Std.Refl (SameRecord peerID) := ⟨fun _ => rfl⟩

instance (peerID : Bytes) : IsTrans Node (SameRecord peerID) := ⟨fun _ _ _ h k => k.trans h⟩

theorem handlerSteps_sameRecord {sender peerID : Bytes} (h : sender ≠ peerID) :
    HandlerSteps sender (SameRecord peerID) where
  clock _ := rfl
  unassigned _ := rfl
  event _ _ _ := rfl
  ack _ _ _ := rfl
  storePeer node peer hpeer := by
    rw [SameRecord, recordedChannel, BitchatData.getPeerInfo_addPeer, if_neg (hpeer ▸ h)]
    rfl
  removePeer node := by
    rw [SameRecord, recordedChannel, BitchatData.getPeerInfo_removePeer _ h]
    rfl
  history _ _ _ := rfl
  sent _ _ _ := rfl
  noise _ _ := rfl

theorem sameRecord_marked (peerID : Bytes) (node : Node) (packet : BitchatPacket) :
    SameRecord peerID node (marked node packet) := by
  rw [SameRecord, recordedChannel, recordedChannel, marked, BitchatData.markMessageProcessed_eq]
  rfl

theorem recordedChannel_processAll {peerID : Bytes} {arrivals : List Arrival}
    (h : ∀ arrival ∈ arrivals, toHex arrival.1.senderID ≠ peerID) (node : Node) :
    recordedChannel peerID (processAll arrivals node) = recordedChannel peerID node := by
  induction arrivals generalizing node with
  | nil => rfl
  | cons arrival arrivals ih =>
      obtain ⟨hfirst, hrest⟩ := List.forall_mem_cons.mp h
      exact (ih hrest _).trans (respects_processPacket (handlerSteps_sameRecord hfirst)
        (fun node => sameRecord_marked peerID node arrival.1) arrival.2 node)

structure ShortRecord (peerID : Bytes) (node node' : Node) : Prop where
  known : (recordedChannel peerID node').isSome = (recordedChannel peerID node).isSome
  channel : recordedChannel peerID node' = recordedChannel peerID node ∨
    ∃ channel, recordedChannel peerID node' = some channel ∧ channel.length ≤ 255

theorem SameRecord.short {peerID : Bytes} {node node' : Node} (h : SameRecord peerID node node') :
    ShortRecord peerID node node' := ⟨congrArg Option.isSome h, .inl h⟩

instance (peerID : Bytes) : Std.Refl (ShortRecord peerID) := ⟨fun _ => ⟨rfl, .inl rfl⟩⟩

instance (peerID : Bytes) : IsTrans Node (ShortRecord peerID) := by
  refine ⟨fun a b c h k => ⟨k.known.trans h.known, ?_⟩⟩
  rcases k.channel with hsame | hshort
  · rw [hsame]
    exact h.channel
  · exact .inr hshort

theorem recordedChannel_updatePeer {peerID : Bytes} {node : Node} {peerInfo : BitchatPeer}
    (h : peerInfo.peerID = peerID) (channel : Bytes) :
    recordedChannel peerID
        { node with data := node.data.updatePeer { peerInfo with channel := channel } } =
      some channel := by
  change (BitchatPeer.channel <$> (node.data.addPeer
    { peerInfo with channel := channel }).getPeerInfo peerID) = _
  rw [BitchatData.getPeerInfo_addPeer, if_pos h]
  rfl

theorem shortRecord_updatePeerChannel (peerID : Bytes) {announce : ChannelAnnounce}
    (hshort : announce.channel.length ≤ 255) :
    Respects (ShortRecord peerID) (updatePeerChannel peerID announce) := by
  refine respects_updatePeerChannel_of (fun _ => ⟨rfl, .inl rfl⟩)
    fun node peerInfo channel hpeer hchannel => ?_
  have hnoted : recordedChannel peerID { node with
      data := node.data.updatePeer { peerInfo with channel := channel } } = some channel :=
    recordedChannel_updatePeer (BitchatData.peerID_of_getPeerInfo hpeer) channel
  refine ⟨?_, .inr ⟨channel, hnoted, ?_⟩⟩
  · rw [hnoted, recordedChannel, hpeer]
    rfl
  · rcases hchannel with rfl | rfl
    · exact hshort
    · exact Nat.zero_le _

theorem shortRecord_processChannelAnnouncePacket (packet : BitchatPacket) :
    Respects (ShortRecord (toHex packet.senderID)) (processChannelAnnouncePacket packet) := by
  refine (respects_ofParser _).bind_of fun node announce node' hparsed => ?_
  have hshort : announce.channel.length ≤ 255 := by
    cases hparse : parseChannelAnnouncePayload packet.payload with
    | error e => rw [hparse] at hparsed; cases hparsed
    | ok announce' =>
        rw [hparse] at hparsed
        cases hparsed
        exact length_of_parseChannelAnnouncePayload hparse
  exact ((shortRecord_updatePeerChannel _ hshort).bind fun _ => respects_assigned _ _ :
    Respects _ _) node'

theorem shortRecord_processPacket {packet : BitchatPacket}
    (htype : packet.type = pktTypeChannelAnnounce) (peripheralID : Bytes) :
    Respects (ShortRecord (toHex packet.senderID)) (processPacket packet peripheralID) := by
  refine respects_processPacket_of_dispatch ?_ fun node => (sameRecord_marked _ node packet).short
  rw [dispatch_channelAnnounce htype]
  exact shortRecord_processChannelAnnouncePacket packet

theorem shortRecord_processAll {peerID : Bytes} {arrivals : List Arrival}
    (h : ∀ arrival ∈ arrivals, arrival.1.type = pktTypeChannelAnnounce ∧
      toHex arrival.1.senderID = peerID) (node : Node) :
    ShortRecord peerID node (processAll arrivals node) := by
  induction arrivals generalizing node with
  | nil => exact refl_of _ _
  | cons arrival arrivals ih =>
      obtain ⟨⟨htype, hsender⟩, hrest⟩ := List.forall_mem_cons.mp h
      exact trans_of _ (hsender ▸ shortRecord_processPacket htype arrival.2 node) (ih hrest _)

theorem recordedChannel_processPacket {packet : BitchatPacket} {node : Node}
    {channel : Bytes} {joining : Bool} (htype : packet.type = pktTypeChannelAnnounce)
    (hpass : Passes node packet)
    (hpayload : packet.payload = makeChannelAnnouncePayload channel joining)
    (hshort : channel.length ≤ 255)
    (hknown : (recordedChannel (toHex packet.senderID) node).isSome = true) (peripheralID : Bytes) :
    recordedChannel (toHex packet.senderID) ((processPacket packet peripheralID).exec node) =
      some (if joining then channel else []) := by
  have hparse : parseChannelAnnouncePayload packet.payload =
      .ok { channel, joining := some joining } := by
    rw [hpayload, parseChannelAnnouncePayload_make hshort]
  have hmarked : (recordedChannel (toHex packet.senderID) (marked node packet)).isSome = true := by
    rw [sameRecord_marked]
    exact hknown
  rw [exec, outcome_processPacket_of_passes hpass, dispatch_channelAnnounce htype,
    outcome_processChannelAnnouncePacket hparse rfl]
  cases hpeer : (marked node packet).data.getPeerInfo (toHex packet.senderID) with
  | none =>
      rw [recordedChannel, hpeer] at hmarked
      cases hmarked
  | some peerInfo =>
      exact recordedChannel_updatePeer (BitchatData.peerID_of_getPeerInfo hpeer) _

section Receiver

variable (lz4 : LZ4) (dis : ℕ → UInt8) (peripheralID : Bytes)

def arrivalOf (packet : BitchatPacket) : Option Arrival :=
  match deserializePacket lz4 (serializePacket lz4 dis packet) with
  | .ok decoded => some (decoded.packet, peripheralID)
  | .error _ => none

def arrivals (packets : List BitchatPacket) : List Arrival :=
  packets.filterMap (arrivalOf lz4 dis peripheralID)

def zeroID : Bytes := List.replicate 8 0

structure Padded (packets : List BitchatPacket) : Prop where
  announce : ∀ packet ∈ packets, IsChannelAnnounce packet
  padding : ∀ packet ∈ packets,
    MessagePadding.unpad (serializePacket lz4 dis packet) = serializeFrame lz4 packet

/-- The receiver does not take the announces for invalid or for known. -/
structure Heard (receiver : Node) (packets : List BitchatPacket) : Prop
    extends Padded lz4 dis packets where
  distinct : (packets.map BitchatPacket.timestamp).Nodup
  fresh : ∀ packet ∈ packets, packet.timestamp ≠ 0 ∧
    messageID { packet with senderID := zeroID } ∉ receiver.data.processedMessages

variable {lz4 dis peripheralID}

theorem Heard.left {receiver : Node} {packets later : List BitchatPacket}
    (h : Heard lz4 dis receiver (packets ++ later)) : Heard lz4 dis receiver packets where
  announce packet hpacket := h.announce packet (List.mem_append_left _ hpacket)
  padding packet hpacket := h.padding packet (List.mem_append_left _ hpacket)
  distinct := by
    have hdistinct := h.distinct
    rw [List.map_append] at hdistinct
    exact (List.nodup_append.mp hdistinct).1
  fresh packet hpacket := h.fresh packet (List.mem_append_left _ hpacket)

theorem arrivalOf_announce {packet : BitchatPacket} (hannounce : IsChannelAnnounce packet)
    (hpad : MessagePadding.unpad (serializePacket lz4 dis packet) = serializeFrame lz4 packet)
    {arrival : Arrival} (h : arrivalOf lz4 dis peripheralID packet = some arrival) :
    arrival.1.type = pktTypeChannelAnnounce ∧ arrival.1.senderID = zeroID ∧
      arrival.1.timestamp = packet.timestamp := by
  obtain ⟨timestamp, channel, joining, rfl⟩ := hannounce
  -- the equation of `arrivalOf` would run the decoder
  delta arrivalOf at h
  rw [deserializePacket, hpad] at h
  cases hd : decodeFrame lz4 (serializeFrame lz4 (channelAnnounce timestamp channel joining)) with
  | error e => rw [hd] at h; cases h
  | ok decoded =>
      rw [hd] at h
      cases h
      obtain ⟨htype, htime, hsender⟩ := addressed_of_decodeFrame hd
      exact ⟨htype, hsender, htime⟩

theorem arrivalOf_short (hlz4 : lz4.Inverts) {timestamp : UInt64} {channel : Bytes}
    (hshort : channel.length ≤ 255) {joining : Bool}
    (hpad : MessagePadding.unpad (serializePacket lz4 dis
      (channelAnnounce timestamp channel joining)) =
        serializeFrame lz4 (channelAnnounce timestamp channel joining)) :
    arrivalOf lz4 dis peripheralID (channelAnnounce timestamp channel joining) =
      some (wireImage lz4 (channelAnnounce timestamp channel joining), peripheralID) := by
  have hlength : (channelAnnounce timestamp channel joining).payload.length ≤ 257 := by
    change (makeChannelAnnouncePayload channel joining).length ≤ 257
    simp [makeChannelAnnouncePayload]
    omega
  have hwire := length_wirePayload_le lz4 (channelAnnounce timestamp channel joining)
  have hplain : (channelAnnounce timestamp channel joining).isCompressed = false := by
    have hflags : (channelAnnounce timestamp channel joining).flags = 0 := rfl
    rw [BitchatPacket.isCompressed, hflags]
    decide
  delta arrivalOf
  rw [deserializePacket_of_unpad hlz4 (flagHolds_of_plain lz4 hplain) (by omega)
    (by omega) hpad]

theorem mem_arrivals {packets : List BitchatPacket} (h : Padded lz4 dis packets)
    {arrival : Arrival} (harrival : arrival ∈ arrivals lz4 dis peripheralID packets) :
    arrival.1.type = pktTypeChannelAnnounce ∧ arrival.1.senderID = zeroID ∧
      ∃ packet ∈ packets, arrival.1.timestamp = packet.timestamp := by
  obtain ⟨packet, hpacket, harrival⟩ := List.mem_filterMap.mp harrival
  obtain ⟨htype, hsender, htime⟩ := arrivalOf_announce (h.announce packet hpacket)
    (h.padding packet hpacket) harrival
  exact ⟨htype, hsender, packet, hpacket, htime⟩

theorem shortRecord_arrivals {packets : List BitchatPacket} (h : Padded lz4 dis packets)
    (node : Node) : ShortRecord (toHex zeroID) node
      (processAll (arrivals lz4 dis peripheralID packets) node) :=
  shortRecord_processAll (fun _ harrival =>
    ⟨(mem_arrivals h harrival).1, congrArg toHex (mem_arrivals h harrival).2.1⟩) node

theorem recordedChannel_last (hlz4 : lz4.Inverts) {receiver : Node}
    {packets : List BitchatPacket} {timestamp : UInt64} {channel : Bytes} {joining : Bool}
    (h : Heard lz4 dis receiver (packets ++ [channelAnnounce timestamp channel joining]))
    (hshort : channel.length ≤ 255)
    (hknown : (recordedChannel (toHex zeroID) receiver).isSome = true) :
    recordedChannel (toHex zeroID) (processAll (arrivals lz4 dis peripheralID
        (packets ++ [channelAnnounce timestamp channel joining])) receiver) =
      some (if joining then channel else []) := by
  have hmem : channelAnnounce timestamp channel joining ∈
      packets ++ [channelAnnounce timestamp channel joining] := by simp
  obtain ⟨htime, hkey⟩ := h.fresh _ hmem
  have harrivals : arrivals lz4 dis peripheralID
      (packets ++ [channelAnnounce timestamp channel joining]) =
        arrivals lz4 dis peripheralID packets ++
          [(wireImage lz4 (channelAnnounce timestamp channel joining), peripheralID)] := by
    rw [arrivals, List.filterMap_append, List.filterMap_cons,
      arrivalOf_short hlz4 hshort (h.padding _ hmem)]
    rfl
  have hvalid : (wireImage lz4 (channelAnnounce timestamp channel joining)).isValid = true := by
    refine (BitchatPacket.isValid_iff _).mpr ⟨rfl, ?_, htime⟩
    change (UInt16.ofNat (makeChannelAnnouncePayload channel joining).length).toNat =
      (makeChannelAnnouncePayload channel joining).length
    rw [UInt16.toNat_ofNat', Nat.mod_eq_of_lt]
    simp [makeChannelAnnouncePayload]
    omega
  have hnew : messageID (wireImage lz4 (channelAnnounce timestamp channel joining)) ∉
      (processAll (arrivals lz4 dis peripheralID packets) receiver).data.processedMessages := by
    intro hold
    rcases mem_processedMessages_processAll hold with hold | ⟨arrival, harrival, heq⟩
    · exact hkey hold
    · obtain ⟨-, -, packet, hpacket, htimes⟩ := mem_arrivals h.left.toPadded harrival
      have hsame : arrival.1.timestamp = timestamp := ((messageID_inj _ _).mp heq).2
      have hdistinct := h.distinct
      rw [List.map_append, List.nodup_append] at hdistinct
      exact hdistinct.2.2 packet.timestamp (List.mem_map_of_mem hpacket) timestamp
        (List.mem_singleton_self _) (htimes.symm.trans hsame)
  have hknown' : (recordedChannel (toHex zeroID) (processAll (arrivals lz4 dis peripheralID packets)
      receiver)).isSome = true :=
    (shortRecord_arrivals h.left.toPadded receiver).known.trans hknown
  rw [harrivals, processAll_concat]
  exact recordedChannel_processPacket rfl ⟨hvalid, hnew⟩ rfl hshort hknown' peripheralID

theorem recordedChannel_of_ending (hlz4 : lz4.Inverts) {receiver : Node} {final : Bytes}
    {packets : List BitchatPacket} (hending : Ending final packets)
    (h : Heard lz4 dis receiver packets)
    (hknown : (recordedChannel (toHex zeroID) receiver).isSome = true) :
    recordedChannel (toHex zeroID)
        (processAll (arrivals lz4 dis peripheralID packets) receiver) = some final ↔
      final.length ≤ 255 := by
  cases hending with
  | leave packets timestamp hfinal =>
      rw [recordedChannel_last hlz4 h (Nat.zero_le _) hknown, hfinal]
      exact iff_of_true rfl (Nat.zero_le _)
  | join packets left joined hfinal =>
      have hsplit : packets ++ [channelAnnounce left [] false, channelAnnounce joined final true] =
          (packets ++ [channelAnnounce left [] false]) ++ [channelAnnounce joined final true] :=
        (List.append_assoc _ [_] [_]).symm
      rw [hsplit] at h ⊢
      by_cases hshort : final.length ≤ 255
      · rw [recordedChannel_last hlz4 h hshort hknown]
        exact iff_of_true rfl hshort
      · refine iff_of_false (fun hnoted => ?_) hshort
        have hleft : recordedChannel (toHex zeroID) (processAll (arrivals lz4 dis peripheralID
            (packets ++ [channelAnnounce left [] false])) receiver) = some [] :=
          recordedChannel_last hlz4 h.left (Nat.zero_le _) hknown
        -- the join can only leave the record or note another name
        have hlast : Padded lz4 dis [channelAnnounce joined final true] :=
          ⟨fun packet hpacket => h.announce packet (List.mem_append_right _ hpacket),
            fun packet hpacket => h.padding packet (List.mem_append_right _ hpacket)⟩
        rw [arrivals, List.filterMap_append, processAll_append] at hnoted
        rcases (shortRecord_arrivals hlast _).channel with hsame | ⟨channel, hother, hlength⟩
        · exact hfinal (Option.some.inj (hnoted.symm.trans (hsame.trans hleft)))
        · obtain rfl := Option.some.inj (hnoted.symm.trans hother)
          exact hshort hlength

end Receiver

/-- The record that a receiver keeps of the sender's channel is right in the end exactly if
it was right from the start, unless the sender's ID is the one that all announces carry. -/
theorem membership_propagates_iff (lz4 : LZ4) (hlz4 : lz4.Inverts) (dis : ℕ → UInt8)
    (sender receiver : Node) (senderID : Bytes)
    (hpeer : sender.data.peerID = toHex senderID) (hconnected : sender.connected = true)
    (hknown : (receiver.data.getPeerInfo sender.data.peerID).isSome = true)
    (calls : List ChannelCall) (hnames : ∀ name, .join name ∈ calls → name ≠ [])
    (hpad : ∀ packet ∈ announces calls sender,
      MessagePadding.unpad (serializePacket lz4 dis packet) = serializeFrame lz4 packet)
    (hdistinct : ((announces calls sender).map BitchatPacket.timestamp).Nodup)
    (hfresh : senderID = zeroID → ∀ packet ∈ announces calls sender, packet.timestamp ≠ 0 ∧
      messageID { packet with senderID := zeroID } ∉ receiver.data.processedMessages)
    (peripheralID : Bytes) :
    recordedChannel sender.data.peerID (processAll (arrivals lz4 dis peripheralID
        (announces calls sender)) receiver) =
      some (performAll calls sender).data.currentChannel ↔
    if senderID = zeroID ∧ ¬ Silent calls sender.data.currentChannel then
      (finalChannel calls sender.data.currentChannel).length ≤ 255
    else recordedChannel sender.data.peerID receiver =
      some (finalChannel calls sender.data.currentChannel) := by
  obtain ⟨packets, hrun, hall, hending⟩ := announces_performAll hconnected calls hnames
  have hpackets : announces calls sender = packets := by
    obtain ⟨events, htrace, hsent⟩ := hrun.trace
    rw [announces, htrace, List.drop_left, hsent]
  rw [hpackets] at hpad hdistinct hfresh ⊢
  have hpadded : Padded lz4 dis packets := ⟨hall, hpad⟩
  rw [hrun.channel, hpeer]
  by_cases hzero : senderID = zeroID
  · subst hzero
    rcases hending with ⟨hsilent, rfl⟩ | ⟨hloud, hending⟩
    · rw [if_neg fun h => h.2 hsilent]
      rfl
    · have hrecorded : (recordedChannel (toHex zeroID) receiver).isSome = true := by
        rw [recordedChannel, Option.isSome_map, ← hpeer]
        exact hknown
      rw [if_pos ⟨rfl, hloud⟩]
      exact recordedChannel_of_ending hlz4 hending ⟨hpadded, hdistinct, hfresh rfl⟩ hrecorded
  · rw [if_neg fun h => hzero h.1, recordedChannel_processAll]
    intro arrival harrival heq
    rw [(mem_arrivals hpadded harrival).2.1] at heq
    exact hzero (toHex_injective heq).symm

/-- A node whose clock goes on by one millisecond from reading to reading. -/
def joiner (senderID : Bytes) : Node where
  data := { peerID := toHex senderID, nickname := [0x61] }
  clock k := 1700000000000000000 + k * 1000000

def observer (peerID : Bytes) : Node where
  data := { peerID := toHex [8, 7, 6, 5, 4, 3, 2, 1], nickname := [0x62],
            peers := [{ peerID := toHex peerID }] }
  clock _ := 1700000000000000000

/-- The observer hears that somebody is in `#a` now, but not who. -/
theorem membership_not_noted :
    (zerosLZ4.Inverts ∧
      (joiner [1, 2, 3, 4, 5, 6, 7, 8]).data.peerID = toHex [1, 2, 3, 4, 5, 6, 7, 8] ∧
      ((observer [1, 2, 3, 4, 5, 6, 7, 8]).data.getPeerInfo
        (joiner [1, 2, 3, 4, 5, 6, 7, 8]).data.peerID).isSome = true ∧
      (∀ packet ∈ announces [.join (ascii "a")] (joiner [1, 2, 3, 4, 5, 6, 7, 8]),
        MessagePadding.unpad (serializePacket zerosLZ4 (fun _ => 0xA5) packet) =
          serializeFrame zerosLZ4 packet) ∧
      ((announces [.join (ascii "a")] (joiner [1, 2, 3, 4, 5, 6, 7, 8])).map
        BitchatPacket.timestamp).Nodup) ∧
    ¬ recordedChannel (joiner [1, 2, 3, 4, 5, 6, 7, 8]).data.peerID
        (processAll (arrivals zerosLZ4 (fun _ => 0xA5) []
          (announces [.join (ascii "a")] (joiner [1, 2, 3, 4, 5, 6, 7, 8])))
          (observer [1, 2, 3, 4, 5, 6, 7, 8])) =
      some (performAll [.join (ascii "a")] (joiner [1, 2, 3, 4, 5, 6, 7, 8])).data.currentChannel :=
  ⟨⟨LZ4.ofBlock_inverts _ _, rfl, by decide +kernel, by decide +kernel, by decide +kernel⟩,
    by decide +kernel⟩

/-- For the node with the ID that the announces carry, the record follows. -/
theorem membership_propagates_zeroID :
    recordedChannel (joiner zeroID).data.peerID
        (processAll (arrivals zerosLZ4 (fun _ => 0xA5) []
          (announces [.join (ascii "a")] (joiner zeroID))) (observer zeroID)) =
      some (performAll [.join (ascii "a")] (joiner zeroID)).data.currentChannel :=
  (membership_propagates_iff zerosLZ4 (LZ4.ofBlock_inverts _ _) (fun _ => 0xA5) (joiner zeroID)
    (observer zeroID) zeroID rfl rfl (by decide +kernel) [.join (ascii "a")]
    (fun name hname => by
      cases List.mem_singleton.mp hname
      decide)
    (by decide +kernel) (by decide +kernel) (fun _ => by decide +kernel) []).mpr (by decide +kernel)

end Bitchat.MessageService
