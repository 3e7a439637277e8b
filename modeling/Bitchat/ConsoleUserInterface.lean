import Bitchat.NodeActivity

/-!
# The console

A loop reads the lines of the user, and the callbacks show what the node reports. Both write to
the same screen. The loop ends at a line and not with the input: behind the end of the input
`std::getline` fails again and again.
-/

namespace Bitchat

open Effect StringHelper MessageService

namespace BitchatManager

def sendMessage (lz4 : LZ4) (uuid content : Bytes) : ServiceM Bool :=
  MessageService.sendMessage lz4 uuid content []

def joinChannel (channel : Bytes) : ServiceM Unit := MessageService.joinChannel channel

def changeNickname (nickname : Bytes) : ServiceM Unit :=
  modifyData fun data => data.setNickname nickname

end BitchatManager

inductive Shown where
  | message (text : Bytes)
  | cleared
  deriving DecidableEq, Repr

/-- `localTime k` is the reading number `k` of the local time, in hours and minutes. -/
structure ConsoleUserInterface where
  node : Node
  localTime : ℕ → Bytes
  localTimeReads : ℕ := 0
  screen : List Shown := []
  atEnd : Bool := false
  running : Bool := true

abbrev ConsoleM (α : Type) := Effect Fault ConsoleUserInterface α

namespace ConsoleUserInterface

def showChatMessage (message : Bytes) (ui : ConsoleUserInterface) : ConsoleUserInterface :=
  { ui with screen := ui.screen ++ [.message message] }

def showChatMessages (messages : List Bytes) (ui : ConsoleUserInterface) : ConsoleUserInterface :=
  messages.foldl (fun ui message => showChatMessage message ui) ui

/-- A message behind `getChatPrefix`. -/
def showPrefixed (message : Bytes) (ui : ConsoleUserInterface) : ConsoleUserInterface :=
  showChatMessage (ascii "[" ++ ui.localTime ui.localTimeReads ++ ascii "] " ++ message)
    { ui with localTimeReads := ui.localTimeReads + 1 }

/-- The callbacks. -/
def onEvent : Event → ConsoleUserInterface → ConsoleUserInterface
  | .messageReceived message => showPrefixed (message.sender ++ ascii ": " ++ message.content)
  | .peerJoined _ nickname => showPrefixed (ascii "*** " ++ nickname ++ ascii " joined ***")
  | .peerLeft _ nickname => showPrefixed (ascii "*** " ++ nickname ++ ascii " left ***")
  | .peerConnected peripheralID =>
      showPrefixed (ascii "*** " ++ peripheralID ++ ascii " connected ***")
  | .peerDisconnected peripheralID =>
      showPrefixed (ascii "*** " ++ peripheralID ++ ascii " disconnected ***")
  | .channelJoined channel => showPrefixed (ascii "*** Joined channel: " ++ channel ++ ascii " ***")
  | .channelLeft channel => showPrefixed (ascii "*** Left channel: " ++ channel ++ ascii " ***")
  | _ => id

/-- What the node does, with the callbacks that it calls meanwhile. -/
def onNode {α : Type} (m : ServiceM α) : ConsoleM α :=
  ExceptT.mk fun ui =>
    ((m.outcome ui.node).1, ((m.outcome ui.node).2.trace.drop ui.node.trace.length).foldl
      (fun ui event => onEvent event ui) { ui with node := (m.outcome ui.node).2 })

def showHelp : ConsoleUserInterface → ConsoleUserInterface :=
  showChatMessages [
    ascii "Available commands:",
    ascii "/j #channel    - Join channel",
    ascii "/nick NICK     - Change nickname",
    ascii "/w             - Show people online in current channel",
    ascii "/status        - Show current channel status",
    ascii "/clear         - Clear screen",
    ascii "/help          - Show this help",
    ascii "/exit          - Exit",
    ascii "Message        - Send message to current channel",
    [],
    ascii "Note: You can send messages without joining a channel (default chat)",
    []]

def showStatus (ui : ConsoleUserInterface) : ConsoleUserInterface :=
  if ui.node.data.currentChannel.isEmpty then showChatMessage (ascii "Status: Not in any channel") ui
  else showChatMessage
    (ascii "Status: In channel '" ++ ui.node.data.currentChannel ++ ascii "'") ui

def clearChat (ui : ConsoleUserInterface) : ConsoleUserInterface :=
  { ui with screen := ui.screen ++ [.cleared] }

/-- `std::to_string` of a signed integer. -/
def toSignedDecimal (n : ℤ) : Bytes := (if n < 0 then ascii "-" else []) ++ toDecimal n.natAbs

def peerInfo (localPeerID : Bytes) (peer : BitchatPeer) : Bytes :=
  ascii "- " ++ peer.nickname ++ (if peer.peerID = localPeerID then ascii " (you)" else []) ++
    (if peer.channel.isEmpty then [] else ascii " (channel: " ++ peer.channel ++ ascii ")") ++
    (if peer.rssi > -100 then ascii " (RSSI: " ++ toSignedDecimal peer.rssi ++ ascii " dBm)" else [])

/-- The peers that have been seen within the last three minutes. -/
def showPeers : ConsoleM Unit := do
  let ui ← get
  modify (showChatMessage (ascii "People online:"))
  let now ← onNode currentTime
  let online := ui.node.data.peers.filter fun peer => now - peer.lastSeen < 180
  modify (showChatMessages (online.map (peerInfo ui.node.data.peerID)))
  if online.isEmpty then modify (showChatMessage (ascii "No one online at the moment"))
  else pure ()

/-- What the loop in `start` does with a line. -/
def handleLine (lz4 : LZ4) (uuid line : Bytes) : ConsoleM Unit :=
  if line = ascii "/exit" then modify fun ui => { ui with running := false }
  else if line = ascii "/help" then modify showHelp
  else if (ascii "/j ").isPrefixOf line then do
    onNode (BitchatManager.joinChannel (line.drop 3))
    modify (showChatMessage (ascii "Joined channel: " ++ line.drop 3))
  else if line = ascii "/j" then do
    onNode (BitchatManager.joinChannel [])
    modify (showChatMessage (ascii "Joined main chat"))
  else if (ascii "/nick ").isPrefixOf line then do
    onNode (BitchatManager.changeNickname (line.drop 6))
    modify (showChatMessage (ascii "Nickname changed to: " ++ line.drop 6))
  else if line = ascii "/w" then showPeers
  else if line = ascii "/status" then modify showStatus
  else if line = ascii "/clear" then modify clearChat
  else if line.head? = some 0x2F then
    modify (showChatMessage (ascii "Unknown command, type /help for available commands"))
  else if line.isEmpty then pure ()
  else do
    let success ← onNode (BitchatManager.sendMessage lz4 uuid line)
    if success then modify (showPrefixed (ascii "You: " ++ line))
    else modify (showChatMessage (ascii "Failed to send message"))

end ConsoleUserInterface

/-- `uuid` is the ID drawn for the message, if the line is one. -/
inductive ConsoleAction where
  | typed (uuid line : Bytes)
  | endOfInput
  | background (action : NodeAction)

/-- What happens at a node without its user. -/
def NodeAction.isBackground : NodeAction → Bool
  | .call (.joinChannel _) => false
  | .call .leaveChannel => false
  | .call (.sendMessage _ _ _ _) => false
  | .call (.sendPrivateMessage _ _ _ _) => false
  | .changeNickname _ => false
  | _ => true

open ConsoleUserInterface in
/-- The passes of the loop, and what the other threads do between them. -/
def consoleActivity (lz4 : LZ4) : TransitionSystem ConsoleUserInterface ConsoleAction where
  Enabled ui
    | .typed _ _ => ui.running = true ∧ ui.atEnd = false
    | .endOfInput => ui.running = true
    | .background action => action.isBackground = true
  next ui
    | .typed uuid line => (handleLine lz4 uuid line).exec ui
    | .endOfInput => { ui with atEnd := true }
    | .background action => (onNode action.perform).exec ui

end Bitchat
