import Bitchat.BitchatData
import Bitchat.RetainedWindow

/-!
# The message histories as windows

What the histories of `BitchatData` are for: of the messages filed under a channel since it
was last cleared, the longest suffix that fits the limit of the adds and of every cleanup in
between. The channel that is current resolves an empty name.
-/

namespace Bitchat

open RetainedWindow WindowEvent

inductive HistoryOperation where
  | add (message : BitchatMessage) (channel : Bytes)
  | setCurrentChannel (channel : Bytes)
  | clear (channel : Bytes)
  | clearAll
  | cleanup (maxHistorySize : ℕ)

namespace BitchatData

def performHistory (data : BitchatData) : HistoryOperation → BitchatData
  | .add message channel => data.addMessageToHistory message channel
  | .setCurrentChannel channel => data.setCurrentChannel channel
  | .clear channel => data.clearMessageHistory channel
  | .clearAll => data.clearAllMessageHistory
  | .cleanup maxHistorySize => data.cleanupOldMessages maxHistorySize

end BitchatData

def targetChannel (currentChannel channel : Bytes) : Bytes :=
  if channel.isEmpty then currentChannel else channel

/-- Whether an operation may change the history of a channel. -/
def HistoryOperation.concerns (currentChannel key : Bytes) : HistoryOperation → Prop
  | add _ channel => key = targetChannel currentChannel channel
  | setCurrentChannel _ => False
  | clear channel => key = targetChannel currentChannel channel
  | clearAll => True
  | cleanup _ => True

/-- What happened to every channel since it was last cleared. -/
structure HistoryLog where
  currentChannel : Bytes := []
  events : Bytes → List (WindowEvent BitchatMessage) := fun _ => []

namespace HistoryLog

def note (log : HistoryLog) : HistoryOperation → HistoryLog
  | .add message channel =>
      let key := targetChannel log.currentChannel channel
      let events := log.events key ++ [file message, limit maxHistorySize]
      { log with events := Function.update log.events key events }
  | .setCurrentChannel channel => { log with currentChannel := channel }
  | .clear channel =>
      let key := targetChannel log.currentChannel channel
      { log with events := Function.update log.events key [] }
  | .clearAll => { log with events := fun _ => [] }
  | .cleanup maxHistorySize =>
      { log with events := fun key => log.events key ++ [limit maxHistorySize] }

end HistoryLog

/-- The histories are the windows of the log. -/
structure HistoryRefines (data : BitchatData) (log : HistoryLog) : Prop where
  currentChannel : data.currentChannel = log.currentChannel
  history : ∀ key, data.messageHistory key = retained (log.events key)
  bounded : ∀ key, (data.messageHistory key).length ≤ maxHistorySize

variable {data : BitchatData} {log : HistoryLog}

theorem length_keep_limit (window : List BitchatMessage) (size : ℕ) :
    (keep window (limit size)).length ≤ size := by
  rw [keep, List.length_drop]
  omega

theorem retained_append_add {events : List (WindowEvent BitchatMessage)}
    (hbounded : (retained events).length ≤ maxHistorySize) (message : BitchatMessage) :
    retained (events ++ [file message, limit maxHistorySize]) =
      if (retained events ++ [message]).length > maxHistorySize then
        (retained events ++ [message]).drop 1
      else retained events ++ [message] := by
  rw [List.append_cons, retained_append, retained_append, keep, keep]
  split_ifs with hlong
  · have hone : (retained events ++ [message]).length - maxHistorySize = 1 := by
      rw [List.length_append, List.length_singleton] at hlong ⊢
      omega
    rw [hone]
  · rw [Nat.sub_eq_zero_of_le (Nat.not_lt.mp hlong), List.drop_zero]

theorem HistoryRefines.update (h : HistoryRefines data log) (channel : Bytes)
    {events : List (WindowEvent BitchatMessage)}
    (hbounded : (retained events).length ≤ maxHistorySize) :
    HistoryRefines
      { data with messageHistory :=
          Function.update data.messageHistory channel (retained events) }
      { log with events := Function.update log.events channel events } := by
  refine ⟨h.currentChannel, fun key => ?_, fun key => ?_⟩
  · dsimp only
    rw [Function.update_apply, Function.update_apply]
    split_ifs
    · rfl
    · exact h.history key
  · dsimp only
    rw [Function.update_apply]
    split_ifs
    · exact hbounded
    · exact h.bounded key

theorem historyRefines_add (h : HistoryRefines data log) (message : BitchatMessage)
    (channel : Bytes) :
    HistoryRefines (data.addMessageToHistory message channel)
      (log.note (.add message channel)) := by
  have hkey : (if channel.isEmpty then data.currentChannel else channel) =
      targetChannel log.currentChannel channel := by rw [h.currentChannel, targetChannel]
  have hadd : data.addMessageToHistory message channel = { data with
      messageHistory := Function.update data.messageHistory
        (targetChannel log.currentChannel channel)
        (retained (log.events (targetChannel log.currentChannel channel) ++
          [file message, limit maxHistorySize])) } := by
    rw [retained_append_add (h.history _ ▸ h.bounded _), ← h.history,
      BitchatData.addMessageToHistory, hkey]
  rw [hadd]
  apply h.update
  rw [List.append_cons, retained_append]
  exact length_keep_limit _ _

theorem historyRefines_clear (h : HistoryRefines data log) (channel : Bytes) :
    HistoryRefines (data.clearMessageHistory channel) (log.note (.clear channel)) := by
  have hclear : data.clearMessageHistory channel = { data with
      messageHistory := Function.update data.messageHistory
        (targetChannel log.currentChannel channel) [] } := by
    rw [targetChannel, ← h.currentChannel]
    rfl
  have hempty : (retained ([] : List (WindowEvent BitchatMessage))).length ≤ maxHistorySize :=
    Nat.zero_le _
  rw [hclear]
  exact h.update (targetChannel log.currentChannel channel) hempty

theorem historyRefines_cleanup (h : HistoryRefines data log) (size : ℕ) :
    HistoryRefines (data.cleanupOldMessages size) (log.note (.cleanup size)) := by
  refine ⟨h.currentChannel, fun key => ?_, fun key => ?_⟩
  · dsimp only [HistoryLog.note, BitchatData.cleanupOldMessages]
    rw [retained_append, ← h.history, keep]
  · dsimp only [BitchatData.cleanupOldMessages]
    rw [List.length_drop]
    exact (Nat.sub_le _ _).trans (h.bounded key)

theorem historyRefines_performHistory (h : HistoryRefines data log) (operation : HistoryOperation) :
    HistoryRefines (data.performHistory operation) (log.note operation) := by
  cases operation with
  | add message channel => exact historyRefines_add h message channel
  | setCurrentChannel channel => exact ⟨rfl, h.history, h.bounded⟩
  | clear channel => exact historyRefines_clear h channel
  | clearAll => exact ⟨h.currentChannel, fun _ => rfl, fun _ => Nat.zero_le _⟩
  | cleanup size => exact historyRefines_cleanup h size

theorem messageHistory_performHistory {operation : HistoryOperation} {key : Bytes}
    (h : ¬ operation.concerns data.currentChannel key) :
    (data.performHistory operation).messageHistory key = data.messageHistory key := by
  cases operation with
  | add message channel => exact Function.update_of_ne h _ _
  | setCurrentChannel channel => rfl
  | clear channel => exact Function.update_of_ne h _ _
  | clearAll => exact (h trivial).elim
  | cleanup size => exact (h trivial).elim

/-- The store and the log behind some operations from the initial state on. -/
def historiesAfter (data : BitchatData) (operations : List HistoryOperation) : BitchatData :=
  operations.foldl BitchatData.performHistory
    { data with currentChannel := [], messageHistory := fun _ => [] }

def logAfter (operations : List HistoryOperation) : HistoryLog :=
  operations.foldl HistoryLog.note {}

theorem historyRefines_after (data : BitchatData) (operations : List HistoryOperation) :
    HistoryRefines (historiesAfter data operations) (logAfter operations) := by
  induction operations using List.reverseRecOn with
  | nil => exact ⟨rfl, fun _ => rfl, fun _ => Nat.zero_le _⟩
  | append_singleton operations operation ih =>
      rw [historiesAfter, logAfter, List.foldl_append, List.foldl_append]
      exact historyRefines_performHistory ih operation

/-- Every history is short, is what was filed from the earliest start on that the limits
allow, and changes only by operations that concern it. -/
theorem history_is_window (data : BitchatData) (operations : List HistoryOperation) (key : Bytes) :
    let history := (historiesAfter data operations).messageHistory key
    let events := (logAfter operations).events key
    history.length ≤ maxHistorySize ∧
      (∃ start, IsLeast {start | Allows events start} start ∧
        history = (filed events).drop start) ∧
      ∀ operation : HistoryOperation,
        ¬ operation.concerns (historiesAfter data operations).currentChannel key →
          (historiesAfter data (operations ++ [operation])).messageHistory key = history := by
  have hrefines := historyRefines_after data operations
  refine ⟨hrefines.bounded key, ?_, fun operation hother => ?_⟩
  · obtain ⟨start, hleast, -, hdrop⟩ := exists_retained_eq_drop ((logAfter operations).events key)
    exact ⟨start, hleast, (hrefines.history key).trans hdrop⟩
  · rw [historiesAfter, List.foldl_append]
    exact messageHistory_performHistory hother

end Bitchat
