import Bitchat.ChannelMembership
import Bitchat.TransitionSystem

/-!
# Notifications about the own channel

`channelJoinedCallback` and `channelLeftCallback` should tell a listener which channel the
node is in: a channel is left after it was joined, one at a time, and the current channel is
the one that is joined and not left. `joinChannel` sets the current channel before it leaves
the old one, so the first thing a listener hears of a channel is that it was left.
-/

namespace Bitchat.MessageService

open Effect

def channelCalls : TransitionSystem Node ChannelCall where
  Enabled _ _ := True
  next node call := call.perform.exec node

def IsJoined (events : List Event) (channel : Bytes) : Prop :=
  events.count (.channelLeft channel) < events.count (.channelJoined channel)

/-- At every point no channel was left more often than joined, and one at most is joined. -/
def WellBracketed (events : List Event) : Prop :=
  ∀ before, before <+: events →
    (∀ channel, before.count (.channelLeft channel) ≤ before.count (.channelJoined channel)) ∧
    ∀ channel channel', IsJoined before channel → IsJoined before channel' → channel = channel'

structure Notified (node : Node) : Prop where
  bracketed : WellBracketed node.trace
  current : ∀ channel, IsJoined node.trace channel → node.data.currentChannel = channel
  none : (∀ channel, ¬ IsJoined node.trace channel) → node.data.currentChannel = []

structure NoChannelYet (node : Node) : Prop where
  current : node.data.currentChannel = []
  trace : node.trace = []
  registered : node.callbacks.channelLeft = true

def JoinsSome (call : ChannelCall) : Prop := ∃ channel, channel ≠ [] ∧ call = .join channel

theorem not_isJoined_nil (channel : Bytes) : ¬ IsJoined [] channel := Nat.not_lt_zero _

theorem NoChannelYet.notified {node : Node} (h : NoChannelYet node) : Notified node := by
  have hnone : ∀ channel, ¬ IsJoined node.trace channel := by
    rw [h.trace]
    exact not_isJoined_nil
  refine ⟨fun before hbefore => ?_, fun channel hjoined => (hnone channel hjoined).elim,
    fun _ => h.current⟩
  rw [h.trace, List.prefix_nil] at hbefore
  subst hbefore
  exact ⟨fun channel => le_rfl, fun channel _ hjoined => (not_isJoined_nil channel hjoined).elim⟩

theorem outcome_leaveChannel (node : Node) (h : node.data.currentChannel ≠ []) :
    leaveChannel.outcome node =
      (.ok ⟨⟩, { node with
        data := node.data.setCurrentChannel []
        clockReads := node.clockReads + 2
        trace := node.trace ++ (notification node.connected (.sent (channelAnnounce
          (timestampAt node (node.clockReads + 1)) [] false)) ++
            notification node.callbacks.channelLeft
              (.channelLeft node.data.currentChannel)) }) := by
  rw [leaveChannel_eq, outcome_bind_ok (outcome_get node), if_neg (by simpa using h),
    outcome_bind_ok (outcome_modifyData _ _), outcome_sendChannelAnnounce]
  rfl

theorem exec_leaveChannel_nil {node : Node} (h : node.data.currentChannel = []) :
    leaveChannel.exec node = node := by
  rw [exec, leaveChannel_eq, outcome_bind_ok (outcome_get node), if_pos (by simp [h])]
  rfl

theorem exec_joinChannel_nil {node : Node} (h : node.data.currentChannel = []) :
    (joinChannel []).exec node = node := by
  have hset : node.data.setCurrentChannel [] = node.data := by
    rw [BitchatData.setCurrentChannel, ← h]
  rw [exec, joinChannel, outcome_bind_ok (outcome_modifyData _ _), hset]
  rfl

/-- The leaving comes first, and it is of the channel that is being joined, under the name as
it was given. -/
theorem trace_joinChannel (node : Node) {channel : Bytes} (h : channel ≠ []) :
    ((joinChannel channel).exec node).trace =
      node.trace ++
        (notification node.connected (.sent (channelAnnounce
          (timestampAt node (node.clockReads + 1)) [] false)) ++
            notification node.callbacks.channelLeft (.channelLeft channel)) ++
        (notification node.connected (.sent (channelAnnounce
          (timestampAt node (node.clockReads + 3)) (withHash channel) true)) ++
            notification node.callbacks.channelJoined (.channelJoined (withHash channel))) := by
  have hleave := outcome_leaveChannel { node with data := node.data.setCurrentChannel channel } h
  rw [exec, joinChannel, outcome_bind_ok (outcome_modifyData _ _), if_neg (by simpa using h),
    outcome_bind_ok hleave, outcome_bind_ok (outcome_modifyData _ _)]
  exact congrArg (fun outcome => outcome.2.trace) (outcome_sendChannelAnnounce _
    (withHash channel) true Callbacks.channelJoined (.channelJoined (withHash channel)))

theorem noChannelYet_perform {node : Node} {call : ChannelCall} (h : NoChannelYet node)
    (hcall : ¬ JoinsSome call) : NoChannelYet (call.perform.exec node) := by
  have hsame : call.perform.exec node = node := by
    cases call with
    | join channel =>
        have hname : channel = [] := by
          by_contra hname
          exact hcall ⟨channel, hname, rfl⟩
        subst hname
        exact exec_joinChannel_nil h.current
    | leave => exact exec_leaveChannel_nil h.current
  rwa [hsame]

theorem not_notified_perform {node : Node} {call : ChannelCall} (h : NoChannelYet node)
    (hcall : JoinsSome call) : ¬ Notified (call.perform.exec node) := by
  obtain ⟨channel, hname, rfl⟩ := hcall
  intro hnotified
  have hbefore := hnotified.bracketed _ ⟨_, (trace_joinChannel node hname).symm⟩
  have hcount := hbefore.1 channel
  rw [h.trace, h.registered, List.nil_append, notification, notification, if_pos rfl] at hcount
  split at hcount
  · simp at hcount
  · simp at hcount

/-- The notifications are well bracketed and follow the current channel for as long as no
channel is joined. -/
theorem notified_iff_no_join {node : Node} (hcurrent : node.data.currentChannel = [])
    (htrace : node.trace = []) (hregistered : node.callbacks.channelLeft = true)
    (calls : List ChannelCall) :
    channelCalls.AllStates Notified node calls ↔
      ∀ channel, .join channel ∈ calls → channel = [] := by
  have hstart : NoChannelYet node := ⟨hcurrent, htrace, hregistered⟩
  have hexec : channelCalls.Execution node calls :=
    TransitionSystem.execution_of_enabled (fun _ _ => trivial) node calls
  have hsteps := TransitionSystem.allStates_iff_allSteps (P := Notified)
    (fun _ (h : NoChannelYet _) => h.notified)
    (fun _ _ _ h hcall => noChannelYet_perform h hcall)
    (fun _ _ _ h hcall => not_notified_perform h hcall) hexec hstart
  rw [hsteps, TransitionSystem.allSteps_const]
  constructor
  · intro hcalls channel hmem
    by_contra hname
    exact hcalls _ hmem ⟨channel, hname, rfl⟩
  · rintro hcalls _ hmem ⟨channel, hname, rfl⟩
    exact hname (hcalls channel hmem)

/-- Joining a first channel is enough. -/
theorem join_not_notified :
    ¬ channelCalls.AllStates Notified (joiner [1, 2, 3, 4, 5, 6, 7, 8]) [.join (ascii "a")] := by
  intro h
  have hstart : NoChannelYet (joiner [1, 2, 3, 4, 5, 6, 7, 8]) := ⟨rfl, rfl, rfl⟩
  exact not_notified_perform hstart ⟨ascii "a", by decide, rfl⟩ h.2

theorem leave_notified :
    channelCalls.AllStates Notified (joiner [1, 2, 3, 4, 5, 6, 7, 8]) [.leave, .join []] :=
  (notified_iff_no_join rfl rfl rfl [.leave, .join []]).mpr fun channel hcall => by
    simpa using hcall

end Bitchat.MessageService
