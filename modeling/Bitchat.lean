import Bitchat.StreamPadding
import Bitchat.Rekeying
import Bitchat.ErrorRelay
import Bitchat.LinuxBluetooth
import Bitchat.Flooding
import Bitchat.RepeatedRelay
import Bitchat.RelayRoundTrip
import Bitchat.GroupMessage
import Bitchat.ChannelMembership
import Bitchat.SessionAgreement
import Bitchat.ChannelNotifications
import Bitchat.PeerTable
import Bitchat.PeerNotifications
import Bitchat.AckInterference
import Bitchat.RacingDeliveries
import Bitchat.RacingPeerUpdates
import Bitchat.MessageHistory
import Bitchat.NicknameResolution
import Bitchat.IdentityFlags
import Bitchat.IdentityTrust
import Bitchat.EphemeralSessions
import Bitchat.TrafficAnalysis
import Bitchat.SharedPeripherals
import Bitchat.MalformedPayloads
import Bitchat.ReadBoundaries
import Bitchat.OverlongLists
import Bitchat.RepeatedEncoding
import Bitchat.TruncatedMessages
import Bitchat.FrameLength
import Bitchat.FrameBounds
import Bitchat.LengthFields
import Bitchat.BoundedReader
import Bitchat.ProcessedMessages
import Bitchat.RelayGreeting
import Bitchat.MessageFlood
import Bitchat.LinuxThreads
import Bitchat.Program
import Bitchat.ConsoleSession
import Bitchat.AppleRelay
import Bitchat.UnreadFields
