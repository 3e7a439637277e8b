import Bitchat.ChannelNotifications
import Bitchat.ConsoleUserInterface
import Bitchat.GroupMessage
import Bitchat.HandlerFaults

/-!
# A session at the console

What a session is for: the user says something, under a name and in a channel that earlier lines
have chosen. The node gives to the network what is said while the network takes packets, in the
order of the lines, and nothing else that other nodes would take for a message.
-/

namespace Bitchat

open Effect StringHelper MessageService PacketSerializer CompressionHelper

structure Spoken where
  uuid : Bytes
  nickname : Bytes
  channel : Bytes
  content : Bytes

structure Conversation where
  nickname : Bytes
  channel : Bytes
  connected : Bool
  running : Bool
  spoken : List Spoken := []

/-- No name stands for the main chat. -/
def channelNamed (name : Bytes) : Bytes := if name = [] then [] else withHash name

namespace Conversation

def hear (conversation : Conversation) (uuid line : Bytes) : Conversation :=
  if line = ascii "/exit" then { conversation with running := false }
  else if (ascii "/j ").isPrefixOf line ∨ line = ascii "/j" then
    { conversation with channel := channelNamed (line.drop 3) }
  else if (ascii "/nick ").isPrefixOf line then { conversation with nickname := line.drop 6 }
  else if line.head? = some 0x2F ∨ line = [] ∨ conversation.connected = false then conversation
  else { conversation with
    spoken := conversation.spoken ++
      [⟨uuid, conversation.nickname, conversation.channel, line⟩] }

theorem hear_of_shows (conversation : Conversation) (uuid : Bytes) {line : Bytes}
    (h : line ∈ [ascii "/help", ascii "/w", ascii "/status", ascii "/clear"]) :
    conversation.hear uuid line = conversation := by
  have hother : line ≠ ascii "/exit" ∧
      ¬ ((ascii "/j ").isPrefixOf line = true ∨ line = ascii "/j") ∧
      ¬ (ascii "/nick ").isPrefixOf line = true ∧ line.head? = some 0x2F := by
    simp only [List.mem_cons, List.not_mem_nil, or_false] at h
    rcases h with rfl | rfl | rfl | rfl <;> decide
  obtain ⟨hexit, hjoin, hnick, hslash⟩ := hother
  rw [hear, if_neg hexit, if_neg hjoin, if_neg hnick, if_pos (.inl hslash)]

end Conversation

def conversations : TransitionSystem Conversation ConsoleAction where
  Enabled _ _ := True
  next conversation
    | .typed uuid line => conversation.hear uuid line
    | .background (.network connected) => { conversation with connected }
    | _ => conversation

def IsChatEvent : Event → Bool
  | .sent packet => decide (IsChat packet.type)
  | _ => false

def chatEvents (events : List Event) : List Event := events.filter IsChatEvent

/-- The packet of what was said. The time it bears is the node's. -/
def Carries (lz4 : LZ4) (spoken : Spoken) (event : Event) : Prop :=
  ∃ packet timestamp, event = .sent packet ∧ packet.payload =
    compressData lz4 (makeMessagePayload spoken.uuid
      { id := spoken.uuid
        sender := spoken.nickname
        content := spoken.content
        channel := spoken.channel
        timestamp := timestamp })

structure SameSpeaker (node node' : Node) : Prop where
  peerID : node'.data.peerID = node.data.peerID
  nickname : node'.data.nickname = node.data.nickname
  channel : node'.data.currentChannel = node.data.currentChannel
  connected : node'.connected = node.connected

structure SaysNothing (node node' : Node) : Prop extends SameSpeaker node node' where
  chat : chatEvents node'.trace = chatEvents node.trace

instance : Std.Refl SaysNothing := ⟨fun _ => ⟨⟨rfl, rfl, rfl, rfl⟩, rfl⟩⟩

instance : IsTrans Node SaysNothing :=
  ⟨fun _ _ _ h k => ⟨⟨k.peerID.trans h.peerID, k.nickname.trans h.nickname,
    k.channel.trans h.channel, k.connected.trans h.connected⟩, k.chat.trans h.chat⟩⟩

theorem chatEvents_append_of_none {events : List Event}
    (h : ∀ event ∈ events, IsChatEvent event = false) (trace : List Event) :
    chatEvents (trace ++ events) = chatEvents trace := by
  have hnone : events.filter IsChatEvent = [] := List.filter_eq_nil_iff.mpr (by simpa using h)
  rw [chatEvents, List.filter_append, hnone, List.append_nil, chatEvents]

theorem saysNothing_events (node : Node) {events : List Event}
    (h : ∀ event ∈ events, IsChatEvent event = false) :
    SaysNothing node { node with trace := node.trace ++ events } :=
  ⟨⟨rfl, rfl, rfl, rfl⟩, chatEvents_append_of_none h node.trace⟩

theorem saysNothing_event (node : Node) {event : Event} (h : IsChatEvent event = false) :
    SaysNothing node { node with trace := node.trace ++ [event] } :=
  saysNothing_events node (by simpa using h)

theorem isChatEvent_of_isReport {event : Event} (h : IsReport event = true) :
    IsChatEvent event = false := by
  cases event with
  | sent packet => cases h
  | _ => rfl

theorem saysNothing_sent (node : Node) {packet : BitchatPacket} (h : ¬ IsChat packet.type) :
    SaysNothing node { node with trace := node.trace ++ [.sent packet] } :=
  saysNothing_event node (decide_eq_false h)

theorem saysNothing_sent_of_type {type : UInt8} (htype : ¬ IsChat type) (node : Node)
    (packet : BitchatPacket) (h : packet.type = type) :
    SaysNothing node { node with trace := node.trace ++ [.sent packet] } :=
  saysNothing_sent node (h ▸ htype)

theorem handlerSteps_saysNothing (sender : Bytes) : HandlerSteps sender SaysNothing where
  clock _ := ⟨⟨rfl, rfl, rfl, rfl⟩, rfl⟩
  unassigned _ := ⟨⟨rfl, rfl, rfl, rfl⟩, rfl⟩
  event node _ hevent := saysNothing_event node (isChatEvent_of_isReport hevent)
  ack := saysNothing_sent_of_type (by decide)
  storePeer _ _ _ := ⟨⟨rfl, rfl, rfl, rfl⟩, rfl⟩
  removePeer _ := ⟨⟨rfl, rfl, rfl, rfl⟩, rfl⟩
  history _ _ _ := ⟨⟨rfl, rfl, rfl, rfl⟩, rfl⟩
  sent node _ hpacket := saysNothing_sent node hpacket
  noise _ _ := ⟨⟨rfl, rfl, rfl, rfl⟩, rfl⟩

theorem saysNothing_marked (node : Node) (packet : BitchatPacket) :
    SaysNothing node (marked node packet) := by
  rw [marked, BitchatData.markMessageProcessed_eq]
  exact ⟨⟨rfl, rfl, rfl, rfl⟩, chatEvents_append_of_none (by simp [IsChatEvent]) node.trace⟩

/-- Without its user a node says nothing, unless it is to lose or regain its network. -/
theorem saysNothing_perform {action : NodeAction} (hbackground : action.isBackground = true)
    (hnetwork : ∀ connected, action ≠ .network connected) : Respects SaysNothing action.perform := by
  have hclock : ∀ node : Node, SaysNothing node { node with clockReads := node.clockReads + 1 } :=
    fun _ => ⟨⟨rfl, rfl, rfl, rfl⟩, rfl⟩
  have hnotify : ∀ registered {event}, IsReport event = true →
      Respects SaysNothing (notify registered event) := fun registered _ hevent =>
    respects_notify registered fun node => saysNothing_event node (isChatEvent_of_isReport hevent)
  cases action with
  | receive packet peripheralID =>
      exact NetworkService.respects_receive (fun node _ _ => saysNothing_event node rfl)
        (respects_processPacket (handlerSteps_saysNothing _)
          (fun node => saysNothing_marked node packet) peripheralID)
  | call localCall =>
      cases localCall with
      | startIdentityAnnounce =>
          refine respects_get.bind fun _ => (respects_pure _).ite (Respects.bind ?_ fun _ =>
            respects_pure _)
          exact respects_sendOwnPacket hclock (saysNothing_sent_of_type (by decide)) _
      | sendVersionHello peripheralID =>
          exact respects_sendVersionHello hclock (saysNothing_sent_of_type (by decide))
            (fun node _ _ _ => saysNothing_event node rfl) peripheralID
      | peerConnected peripheralID => exact hnotify _ rfl
      | peerDisconnected peripheralID =>
          refine respects_get.bind fun node => ?_
          split
          · exact hnotify _ rfl
          · refine (respects_modify fun node => ?_).bind fun _ =>
              (hnotify _ rfl).bind fun _ => hnotify _ rfl
            exact ⟨⟨rfl, rfl, rfl, rfl⟩, rfl⟩
      | _ => cases hbackground
  | changeNickname nickname => cases hbackground
  | announce isReady => exact respects_announce hclock (saysNothing_sent_of_type (by decide)) isReady
  | announceTo peripheralID =>
      exact respects_announceToPeripheral hclock (fun node _ _ _ => saysNothing_event node rfl) _
  | cleanupStalePeers time => exact respects_modify fun _ => ⟨⟨rfl, rfl, rfl, rfl⟩, rfl⟩
  | network connected => exact (hnetwork connected rfl).elim

theorem isChatEvent_of_mem_notification {registered : Bool} {event event' : Event}
    (h : IsChatEvent event = false) (hmem : event' ∈ notification registered event) :
    IsChatEvent event' = false := by
  rw [notification] at hmem
  split at hmem
  · exact List.mem_singleton.mp hmem ▸ h
  · cases hmem

def joinEvents (node : Node) (channel : Bytes) : List Event :=
  (notification node.connected (.sent (channelAnnounce
    (timestampAt node (node.clockReads + 1)) [] false)) ++
      notification node.callbacks.channelLeft (.channelLeft channel)) ++
  (notification node.connected (.sent (channelAnnounce
    (timestampAt node (node.clockReads + 3)) (withHash channel) true)) ++
      notification node.callbacks.channelJoined (.channelJoined (withHash channel)))

theorem not_isChatEvent_joinEvents (node : Node) (channel : Bytes) :
    ∀ event ∈ joinEvents node channel, IsChatEvent event = false := by
  intro event hevent
  simp only [joinEvents, List.mem_append] at hevent
  rcases hevent with (hsent | hleft) | hsent | hjoined
  · exact isChatEvent_of_mem_notification rfl hsent
  · exact isChatEvent_of_mem_notification rfl hleft
  · exact isChatEvent_of_mem_notification rfl hsent
  · exact isChatEvent_of_mem_notification rfl hjoined

theorem exec_joinChannel (node : Node) {channel : Bytes} (h : channel ≠ []) :
    (joinChannel channel).exec node = { node with
      data := node.data.setCurrentChannel (withHash channel)
      clockReads := node.clockReads + 4
      trace := node.trace ++ joinEvents node channel } := by
  have hleave := outcome_leaveChannel { node with data := node.data.setCurrentChannel channel } h
  rw [exec, joinChannel, outcome_bind_ok (outcome_modifyData _ _), if_neg (by simpa using h),
    outcome_bind_ok hleave, outcome_bind_ok (outcome_modifyData _ _)]
  refine (congrArg Prod.snd (outcome_sendChannelAnnounce _ (withHash channel) true
    Callbacks.channelJoined (.channelJoined (withHash channel)))).trans ?_
  dsimp only
  rw [List.append_assoc]
  rfl

theorem exec_joinChannel_empty (node : Node) :
    (joinChannel []).exec node = { node with data := node.data.setCurrentChannel [] } := rfl

def sendMade (packet : BitchatPacket) (message : BitchatMessage) : ServiceM Bool := do
  let success ← sendPacket packet
  if success then
    addMessageToHistory message (historyChannel message)
    pure success
  else pure success

theorem exec_sendMade (packet : BitchatPacket) (message : BitchatMessage) (node : Node) :
    (sendMade packet message).exec node =
      if node.connected = true then { node with
        data := node.data.addMessageToHistory message (historyChannel message)
        trace := node.trace ++ [.sent packet] ++
          [.addedToHistory message (historyChannel message)] }
      else node := by
  rw [exec, sendMade, outcome_bind_ok (outcome_sendPacket _ _), notification]
  split
  · rfl
  · rw [List.append_nil]
    rfl

theorem exec_sendMessage (lz4 : LZ4) {node : Node} (hknows : KnowsItself node)
    (uuid content : Bytes) :
    ∃ packet node', SameSpeaker node node' ∧ node'.trace = node.trace ∧ IsChat packet.type ∧
      packet.payload = compressData lz4 (makeMessagePayload uuid (messageOf node uuid content [])) ∧
      (sendMessage lz4 uuid content []).exec node =
        (sendMade packet (messageOf node uuid content [])).exec node' := by
  obtain ⟨senderID, hsender⟩ := hknows
  have hnew : (newMessage uuid node.data.nickname content node.data.currentChannel).outcome node =
      (.ok (messageOf node uuid content []), { node with clockReads := node.clockReads + 1 }) := rfl
  have hsender' : stringToVector ({ node with clockReads := node.clockReads + 1 } :
      Node).data.peerID = .ok senderID := hsender
  obtain ⟨type, node', hcase, hcreate⟩ := outcome_createMessagePacket_ok lz4 uuid
    (messageOf node uuid content []) hsender'
  obtain ⟨-, htype, -, hpayload, -⟩ := carried_messagePacketOf (messageOf node uuid content [])
    node'.cryptoService (ownPacketOf node' senderID type
      (compressData lz4 (makeMessagePayload uuid (messageOf node uuid content []))))
  have hdata := data_of_encryptPayload hcase
  obtain ⟨htrace, hconnected⟩ := trace_of_encryptCase hcase
  refine ⟨_, { node' with clockReads := node'.clockReads + 2 }, ⟨congrArg BitchatData.peerID hdata,
    congrArg BitchatData.nickname hdata, congrArg BitchatData.currentChannel hdata, hconnected⟩,
    htrace, ?_, hpayload, ?_⟩
  · rw [htype]
    rcases hcase with ⟨rfl, -⟩ | ⟨rfl, -⟩
    · exact .inl rfl
    · exact .inr rfl
  · rw [exec, MessageService.sendMessage, outcome_bind_ok (outcome_get node)]
    exact congrArg Prod.snd ((outcome_bind_ok hnew _).trans (outcome_bind_ok hcreate _))

structure Says (lz4 : LZ4) (spoken : Spoken) (node node' : Node) : Prop
    extends SameSpeaker node node' where
  chat : ∃ event, Carries lz4 spoken event ∧
    chatEvents node'.trace = chatEvents node.trace ++ [event]

theorem says_sendMessage (lz4 : LZ4) {node : Node} (hknows : KnowsItself node)
    (hconnected : node.connected = true) (uuid content : Bytes) :
    Says lz4 ⟨uuid, node.data.nickname, node.data.currentChannel, content⟩ node
      ((sendMessage lz4 uuid content []).exec node) := by
  obtain ⟨packet, node', hsame, htrace, hchat, hpayload, hexec⟩ :=
    exec_sendMessage lz4 hknows uuid content
  have hconnected' : node'.connected = true := hsame.connected.trans hconnected
  rw [hexec, exec_sendMade, if_pos hconnected']
  refine ⟨?_, .sent packet, ⟨packet, _, rfl, hpayload⟩, ?_⟩
  · exact ⟨hsame.peerID, hsame.nickname, hsame.channel, hconnected'.trans hconnected.symm⟩
  · have hevent : IsChatEvent (.sent packet) = true := decide_eq_true hchat
    rw [← htrace, chatEvents_append_of_none (by simp [IsChatEvent]), chatEvents, List.filter_append,
      List.filter_singleton, hevent]
    rfl

theorem saysNothing_sendMessage (lz4 : LZ4) {node : Node} (hknows : KnowsItself node)
    (hconnected : node.connected = false) (uuid content : Bytes) :
    SaysNothing node ((sendMessage lz4 uuid content []).exec node) := by
  obtain ⟨packet, node', hsame, htrace, -, -, hexec⟩ := exec_sendMessage lz4 hknows uuid content
  have hconnected' : node'.connected = false := hsame.connected.trans hconnected
  rw [hexec, exec_sendMade, if_neg (by simp [hconnected'])]
  exact ⟨hsame, congrArg chatEvents htrace⟩

structure Quiet (ui ui' : ConsoleUserInterface) : Prop where
  node : SaysNothing ui.node ui'.node
  running : ui'.running = ui.running
  atEnd : ui'.atEnd = ui.atEnd

instance : Std.Refl Quiet := ⟨fun _ => ⟨refl_of SaysNothing _, rfl, rfl⟩⟩

instance : IsTrans ConsoleUserInterface Quiet :=
  ⟨fun _ _ _ h k => ⟨trans_of SaysNothing h.node k.node, k.running.trans h.running,
    k.atEnd.trans h.atEnd⟩⟩

namespace ConsoleUserInterface

theorem quiet_of_eq {ui ui' : ConsoleUserInterface} (hnode : ui'.node = ui.node)
    (hrunning : ui'.running = ui.running) (hatEnd : ui'.atEnd = ui.atEnd) : Quiet ui ui' :=
  ⟨hnode ▸ refl_of SaysNothing _, hrunning, hatEnd⟩

theorem quiet_showChatMessage (message : Bytes) (ui : ConsoleUserInterface) :
    Quiet ui (showChatMessage message ui) := quiet_of_eq rfl rfl rfl

theorem quiet_showPrefixed (message : Bytes) (ui : ConsoleUserInterface) :
    Quiet ui (showPrefixed message ui) := quiet_of_eq rfl rfl rfl

theorem quiet_showChatMessages (messages : List Bytes) (ui : ConsoleUserInterface) :
    Quiet ui (showChatMessages messages ui) := by
  induction messages generalizing ui with
  | nil => exact refl_of Quiet ui
  | cons message messages ih => exact trans_of Quiet (quiet_showChatMessage message ui) (ih _)

theorem quiet_onEvent (event : Event) (ui : ConsoleUserInterface) :
    Quiet ui (onEvent event ui) := by
  cases event <;> exact quiet_of_eq rfl rfl rfl

theorem quiet_onEvents (events : List Event) (ui : ConsoleUserInterface) :
    Quiet ui (events.foldl (fun ui event => onEvent event ui) ui) := by
  induction events generalizing ui with
  | nil => exact refl_of Quiet ui
  | cons event events ih => exact trans_of Quiet (quiet_onEvent event ui) (ih _)

theorem quiet_exec_onNode {α : Type} (m : ServiceM α) (ui : ConsoleUserInterface) :
    Quiet { ui with node := m.exec ui.node } ((onNode m).exec ui) := quiet_onEvents _ _

theorem quiet_onNode {α : Type} {m : ServiceM α} (hm : Respects SaysNothing m) :
    Respects Quiet (onNode m) := by
  intro ui
  have hnode : Quiet ui { ui with node := m.exec ui.node } := ⟨hm ui.node, rfl, rfl⟩
  exact trans_of Quiet hnode (quiet_exec_onNode m ui)

theorem quiet_showPeers : Respects Quiet showPeers := by
  refine respects_get.bind fun ui => (respects_modify (quiet_showChatMessage _)).bind fun _ => ?_
  refine Respects.bind ?_ fun now => (respects_modify (quiet_showChatMessages _)).bind fun _ => ?_
  · exact quiet_onNode fun _ => ⟨⟨rfl, rfl, rfl, rfl⟩, rfl⟩
  · exact (respects_modify (quiet_showChatMessage _)).ite (respects_pure _)

theorem quiet_showStatus (ui : ConsoleUserInterface) : Quiet ui (showStatus ui) := by
  unfold showStatus
  split
  · exact quiet_showChatMessage _ ui
  · exact quiet_showChatMessage _ ui

end ConsoleUserInterface

/-- The node has said, behind the events `before`, what the conversation holds. -/
structure Follows (lz4 : LZ4) (before : List Event) (ui : ConsoleUserInterface)
    (conversation : Conversation) : Prop where
  knows : KnowsItself ui.node
  nickname : ui.node.data.nickname = conversation.nickname
  channel : ui.node.data.currentChannel = conversation.channel
  connected : ui.node.connected = conversation.connected
  running : ui.running = conversation.running
  spoken : ∃ said, chatEvents ui.node.trace = before ++ said ∧
    List.Forall₂ (Carries lz4) conversation.spoken said

namespace Follows

open ConsoleUserInterface

variable {lz4 : LZ4} {before : List Event} {ui ui' : ConsoleUserInterface}
  {conversation : Conversation}

theorem quiet (h : Follows lz4 before ui conversation) (hquiet : Quiet ui ui') :
    Follows lz4 before ui' conversation where
  knows := by
    rw [KnowsItself, hquiet.node.peerID]
    exact h.knows
  nickname := hquiet.node.nickname.trans h.nickname
  channel := hquiet.node.channel.trans h.channel
  connected := hquiet.node.connected.trans h.connected
  running := hquiet.running.trans h.running
  spoken := by
    rw [hquiet.node.chat]
    exact h.spoken

theorem onNode_bind {α : Type} {m : ServiceM α} {k : α → ConsoleM Unit}
    (h : Follows lz4 before { ui with node := m.exec ui.node } conversation)
    (hk : ∀ a, Respects Quiet (k a)) :
    Follows lz4 before ((onNode m >>= k).exec ui) conversation := by
  have hnode := h.quiet (quiet_exec_onNode m ui)
  exact hnode.quiet (Respects.exec_bind hk (onNode m) ui)

theorem join (h : Follows lz4 before ui conversation) (channel : Bytes) :
    Follows lz4 before { ui with node := (MessageService.joinChannel channel).exec ui.node }
      { conversation with channel := channelNamed channel } := by
  by_cases hchannel : channel = []
  · subst hchannel
    rw [exec_joinChannel_empty]
    exact ⟨h.knows, h.nickname, rfl, h.connected, h.running, h.spoken⟩
  · rw [exec_joinChannel ui.node hchannel, channelNamed, if_neg hchannel]
    obtain ⟨said, hsaid, hcarries⟩ := h.spoken
    refine ⟨h.knows, h.nickname, rfl, h.connected, h.running, said, ?_, hcarries⟩
    exact (chatEvents_append_of_none (not_isChatEvent_joinEvents _ _) _).trans hsaid

theorem changeNickname (h : Follows lz4 before ui conversation) (nickname : Bytes) :
    Follows lz4 before { ui with node := (BitchatManager.changeNickname nickname).exec ui.node }
      { conversation with nickname } :=
  ⟨h.knows, rfl, h.channel, h.connected, h.running, h.spoken⟩

theorem speak {spoken : Spoken} {node : Node} (h : Follows lz4 before ui conversation)
    (hspeak : Says lz4 spoken ui.node node) :
    Follows lz4 before { ui with node }
      { conversation with spoken := conversation.spoken ++ [spoken] } := by
  obtain ⟨said, hsaid, hcarries⟩ := h.spoken
  obtain ⟨event, hevent, hchat⟩ := hspeak.chat
  refine ⟨?_, hspeak.nickname.trans h.nickname, hspeak.channel.trans h.channel,
    hspeak.connected.trans h.connected, h.running, said ++ [event], ?_, ?_⟩
  · rw [KnowsItself, hspeak.peerID]
    exact h.knows
  · rw [hchat, hsaid, List.append_assoc]
  · exact List.rel_append hcarries (.cons hevent .nil)

/-- A line that is no command is said, unless the network is down. -/
theorem sendMessage (h : Follows lz4 before ui conversation) (uuid : Bytes) {line : Bytes}
    (hline : ¬ (line.head? = some 0x2F ∨ line = [])) :
    Follows lz4 before
      { ui with node := (BitchatManager.sendMessage lz4 uuid line).exec ui.node }
      (if line.head? = some 0x2F ∨ line = [] ∨ conversation.connected = false then conversation
      else { conversation with spoken := conversation.spoken ++
        [⟨uuid, conversation.nickname, conversation.channel, line⟩] }) := by
  by_cases hconnected : conversation.connected = false
  · rw [if_pos (.inr (.inr hconnected))]
    have hnode := saysNothing_sendMessage lz4 h.knows (h.connected.trans hconnected) uuid line
    exact h.quiet ⟨hnode, rfl, rfl⟩
  · have hsaid : ¬ (line.head? = some 0x2F ∨ line = [] ∨ conversation.connected = false) := by
      tauto
    have hnode : ui.node.connected = true := h.connected.trans (by simpa using hconnected)
    rw [if_neg hsaid]
    apply h.speak
    rw [← h.nickname, ← h.channel]
    exact says_sendMessage lz4 h.knows hnode uuid line

theorem hear (h : Follows lz4 before ui conversation) (uuid line : Bytes) :
    Follows lz4 before ((handleLine lz4 uuid line).exec ui) (conversation.hear uuid line) := by
  rw [handleLine]
  by_cases hexit : line = ascii "/exit"
  · rw [if_pos hexit, Conversation.hear, if_pos hexit]
    exact ⟨h.knows, h.nickname, h.channel, h.connected, rfl, h.spoken⟩
  rw [if_neg hexit]
  by_cases hhelp : line = ascii "/help"
  · rw [if_pos hhelp, conversation.hear_of_shows uuid (by simp [hhelp])]
    exact h.quiet (quiet_showChatMessages _ ui)
  rw [if_neg hhelp]
  by_cases hj : (ascii "/j ").isPrefixOf line = true
  · rw [if_pos hj, Conversation.hear, if_neg hexit, if_pos (.inl hj)]
    exact (h.join (line.drop 3)).onNode_bind fun _ => respects_modify (quiet_showChatMessage _)
  rw [if_neg hj]
  by_cases hmain : line = ascii "/j"
  · rw [if_pos hmain, Conversation.hear, if_neg hexit, if_pos (.inr hmain), hmain]
    exact (h.join []).onNode_bind fun _ => respects_modify (quiet_showChatMessage _)
  rw [if_neg hmain]
  by_cases hnick : (ascii "/nick ").isPrefixOf line = true
  · rw [if_pos hnick, Conversation.hear, if_neg hexit, if_neg (not_or.mpr ⟨hj, hmain⟩), if_pos hnick]
    exact (h.changeNickname (line.drop 6)).onNode_bind fun _ =>
      respects_modify (quiet_showChatMessage _)
  rw [if_neg hnick]
  by_cases hw : line = ascii "/w"
  · rw [if_pos hw, conversation.hear_of_shows uuid (by simp [hw])]
    exact h.quiet (quiet_showPeers ui)
  rw [if_neg hw]
  by_cases hstatus : line = ascii "/status"
  · rw [if_pos hstatus, conversation.hear_of_shows uuid (by simp [hstatus])]
    exact h.quiet (quiet_showStatus ui)
  rw [if_neg hstatus]
  by_cases hclear : line = ascii "/clear"
  · rw [if_pos hclear, conversation.hear_of_shows uuid (by simp [hclear])]
    exact h.quiet (quiet_of_eq rfl rfl rfl)
  rw [if_neg hclear, Conversation.hear, if_neg hexit, if_neg (not_or.mpr ⟨hj, hmain⟩), if_neg hnick]
  by_cases hslash : line.head? = some 0x2F
  · rw [if_pos hslash, if_pos (.inl hslash)]
    exact h.quiet (quiet_showChatMessage _ ui)
  rw [if_neg hslash]
  by_cases hempty : line = []
  · rw [if_pos (List.isEmpty_iff.mpr hempty), if_pos (.inr (.inl hempty))]
    exact h
  rw [if_neg (mt List.isEmpty_iff.mp hempty)]
  exact (h.sendMessage uuid (not_or.mpr ⟨hslash, hempty⟩)).onNode_bind fun _ =>
    (respects_modify (quiet_showPrefixed _)).ite (respects_modify (quiet_showChatMessage _))

end Follows

open ConsoleUserInterface

theorem quiet_background {action : NodeAction} (hbackground : action.isBackground = true)
    (hnetwork : ∀ connected, action ≠ .network connected) :
    Respects Quiet (onNode action.perform) :=
  quiet_onNode (saysNothing_perform hbackground hnetwork)

theorem quiet_network (connected : Bool) (ui : ConsoleUserInterface) :
    Quiet { ui with node := { ui.node with connected } }
      ((onNode (NodeAction.network connected).perform).exec ui) :=
  quiet_exec_onNode (NodeAction.network connected).perform ui

theorem follows_next {lz4 : LZ4} {before : List Event} (ui : ConsoleUserInterface)
    (conversation : Conversation) (action : ConsoleAction)
    (henabled : (consoleActivity lz4).Enabled ui action)
    (h : Follows lz4 before ui conversation) :
    Follows lz4 before ((consoleActivity lz4).next ui action)
      (conversations.next conversation action) := by
  cases action with
  | typed uuid line => exact h.hear uuid line
  | endOfInput => exact ⟨h.knows, h.nickname, h.channel, h.connected, h.running, h.spoken⟩
  | background action =>
      by_cases hnetwork : ∃ connected, action = .network connected
      · obtain ⟨connected, rfl⟩ := hnetwork
        have hnode : Follows lz4 before { ui with node := { ui.node with connected } }
            { conversation with connected } :=
          ⟨h.knows, h.nickname, h.channel, rfl, h.running, h.spoken⟩
        exact hnode.quiet (quiet_network connected ui)
      · rw [not_exists] at hnetwork
        have hquiet := quiet_background henabled hnetwork ui
        cases action with
        | network connected => exact (hnetwork connected rfl).elim
        | _ => exact h.quiet hquiet

/-- What a node gives to the network as messages is what its user says, in the order of the
lines, each under the name and in the channel that the lines before it have chosen, whatever
comes in between. -/
theorem console_speaks (lz4 : LZ4) (ui : ConsoleUserInterface) (hknows : KnowsItself ui.node)
    (actions : List ConsoleAction) (hexec : (consoleActivity lz4).Execution ui actions) :
    ∃ said, chatEvents ((consoleActivity lz4).run ui actions).node.trace =
        chatEvents ui.node.trace ++ said ∧
      List.Forall₂ (Carries lz4) (conversations.run ⟨ui.node.data.nickname,
        ui.node.data.currentChannel, ui.node.connected, ui.running, []⟩ actions).spoken said := by
  have hstart : Follows lz4 (chatEvents ui.node.trace) ui ⟨ui.node.data.nickname,
      ui.node.data.currentChannel, ui.node.connected, ui.running, []⟩ :=
    ⟨hknows, rfl, rfl, rfl, rfl, [], (List.append_nil _).symm, .nil⟩
  exact (TransitionSystem.simulation_run follows_next hexec hstart).spoken

def groupConsole : ConsoleUserInterface where
  node := newcomer
  localTime _ := ascii "12:00"

theorem console_speaks_hi :
    ∃ said, chatEvents ((consoleActivity zerosLZ4).run groupConsole
          [.typed [] (ascii "/nick b"), .typed greetingID (ascii "hi")]).node.trace =
        chatEvents groupConsole.node.trace ++ said ∧
      List.Forall₂ (Carries zerosLZ4) (conversations.run ⟨groupConsole.node.data.nickname,
        groupConsole.node.data.currentChannel, groupConsole.node.connected, groupConsole.running,
        []⟩ [.typed [] (ascii "/nick b"), .typed greetingID (ascii "hi")]).spoken said :=
  console_speaks zerosLZ4 groupConsole ⟨_, rfl⟩ _
    ⟨⟨rfl, rfl⟩, ⟨by decide +kernel, by decide +kernel⟩, trivial⟩

structure OutOfLines (chat : List Event) (ui : ConsoleUserInterface) : Prop where
  atEnd : ui.atEnd = true
  running : ui.running = true
  chat : chatEvents ui.node.trace = chat

theorem OutOfLines.quiet {chat : List Event} {ui ui' : ConsoleUserInterface}
    (h : OutOfLines chat ui) (hquiet : Quiet ui ui') : OutOfLines chat ui' :=
  ⟨hquiet.atEnd.trans h.atEnd, hquiet.running.trans h.running, hquiet.node.chat.trans h.chat⟩

theorem outOfLines_next {lz4 : LZ4} {chat : List Event} (ui : ConsoleUserInterface)
    (action : ConsoleAction) (henabled : (consoleActivity lz4).Enabled ui action)
    (h : OutOfLines chat ui) : OutOfLines chat ((consoleActivity lz4).next ui action) := by
  cases action with
  | typed uuid line => exact absurd (henabled.2.symm.trans h.atEnd) Bool.false_ne_true
  | endOfInput => exact ⟨rfl, h.running, h.chat⟩
  | background action =>
      by_cases hnetwork : ∃ connected, action = .network connected
      · obtain ⟨connected, rfl⟩ := hnetwork
        have hnode : OutOfLines chat { ui with node := { ui.node with connected } } :=
          ⟨h.atEnd, h.running, h.chat⟩
        exact hnode.quiet (quiet_network connected ui)
      · exact h.quiet (quiet_background henabled (not_exists.mp hnetwork) ui)

/-- Behind the end of the input nothing is said any more, and the loop goes on for ever. -/
theorem console_outlives_input (lz4 : LZ4) (ui : ConsoleUserInterface)
    (before after : List ConsoleAction)
    (hexec : (consoleActivity lz4).Execution ui (before ++ .endOfInput :: after)) :
    ((consoleActivity lz4).run ui (before ++ .endOfInput :: after)).running = true ∧
      chatEvents ((consoleActivity lz4).run ui (before ++ .endOfInput :: after)).node.trace =
        chatEvents ((consoleActivity lz4).run ui before).node.trace := by
  obtain ⟨-, hrunning, hafter⟩ := TransitionSystem.execution_append.mp hexec
  have hstart : OutOfLines (chatEvents ((consoleActivity lz4).run ui before).node.trace)
      ((consoleActivity lz4).next ((consoleActivity lz4).run ui before) .endOfInput) :=
    ⟨rfl, hrunning, rfl⟩
  have hend := TransitionSystem.invariant_run outOfLines_next hafter hstart
  rw [TransitionSystem.run_append]
  exact ⟨hend.running, hend.chat⟩

theorem console_outlives_input_at_once :
    ((consoleActivity zerosLZ4).run groupConsole
        ([] ++ .endOfInput :: [.endOfInput])).running = true ∧
      chatEvents ((consoleActivity zerosLZ4).run groupConsole
          ([] ++ .endOfInput :: [.endOfInput])).node.trace =
        chatEvents ((consoleActivity zerosLZ4).run groupConsole []).node.trace :=
  console_outlives_input zerosLZ4 groupConsole [] [.endOfInput] ⟨rfl, rfl, trivial⟩

end Bitchat
