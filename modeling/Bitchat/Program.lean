import Bitchat.KnownPeers

/-!
# The program around a node

`main` makes the services and the runners, `BitchatManager` connects them and starts the
threads. Both runners are made and started alike, but nobody gives the cleanup runner the
network service that its start asks for.
-/

namespace Bitchat

open Effect StringHelper MessageService

/-- What the runners have in common: what their start asks for, the flags, and whether there is
a thread that has not been joined. -/
structure Runner where
  service : Bool := false
  shouldExit : Bool := false
  running : Bool := false
  joinable : Bool := false

namespace Runner

def start (runner : Runner) : Runner :=
  if !runner.service then runner
  else if runner.running then runner
  else { runner with shouldExit := false, running := true, joinable := true }

/-- The thread is joined. -/
def stop (runner : Runner) : Runner :=
  { runner with shouldExit := true, running := false, joinable := false }

/-- There is a thread in `runnerLoop`. -/
def loops (runner : Runner) : Bool := runner.joinable && !runner.shouldExit

/-- The flags tell whether there is a thread. -/
structure Consistent (runner : Runner) : Prop where
  joinable : runner.joinable = runner.running
  shouldExit : runner.running = true → runner.shouldExit = false

variable {runner : Runner}

theorem start_of_no_service (h : runner.service = false) : runner.start = runner := by
  rw [start, h]
  rfl

theorem loops_stop (runner : Runner) : runner.stop.loops = false := rfl

theorem Consistent.loops (h : runner.Consistent) : runner.loops = runner.running := by
  rw [Runner.loops, h.joinable]
  cases hrunning : runner.running with
  | false => rfl
  | true => rw [h.shouldExit hrunning]; rfl

theorem Consistent.start (h : runner.Consistent) : runner.start.Consistent := by
  unfold Runner.start
  split
  · exact h
  · split
    · exact h
    · exact ⟨rfl, fun _ => rfl⟩

theorem consistent_stop (runner : Runner) : runner.stop.Consistent :=
  ⟨rfl, fun h => Bool.noConfusion h⟩

theorem running_start (h : runner.service = true) : runner.start.running = true := by
  unfold start
  rw [h]
  cases hrunning : runner.running with
  | false => rfl
  | true => exact hrunning

theorem service_start (runner : Runner) : runner.start.service = runner.service := by
  unfold start
  split
  · rfl
  · split
    · rfl
    · rfl

end Runner

namespace BluetoothAnnounceRunner

def setBluetoothNetworkInterface (runner : Runner) : Runner := { runner with service := true }

def start (runner : Runner) : Runner := runner.start

def stop (runner : Runner) : Runner := runner.stop

end BluetoothAnnounceRunner

namespace CleanupRunner

def start (runner : Runner) : Runner := runner.start

def stop (runner : Runner) : Runner := runner.stop

end CleanupRunner

/-- The objects of `main`, and whether `MessageService` has been connected. -/
structure Program where
  node : Node
  bluetoothNetworkInterface : Bool := false
  hasRunners : Bool := false
  announceRunner : Runner := {}
  cleanupRunner : Runner := {}
  connected : Bool := false

namespace NetworkService

/-- Without a transport the runners are not stored. -/
def initializeNetwork (interface : Bool) (program : Program) : Bool × Program :=
  if interface then
    (true, { program with
      bluetoothNetworkInterface := true
      hasRunners := true
      announceRunner :=
        BluetoothAnnounceRunner.setBluetoothNetworkInterface program.announceRunner })
  else (false, { program with bluetoothNetworkInterface := false })

/-- What the transport answers is given. -/
def start (initialized started : Bool) (program : Program) : Bool × Program :=
  if !program.bluetoothNetworkInterface then (false, program)
  else if !initialized then (false, program)
  else if !started then (false, program)
  else if program.hasRunners then
    (true, { program with
      announceRunner := BluetoothAnnounceRunner.start program.announceRunner
      cleanupRunner := CleanupRunner.start program.cleanupRunner })
  else (true, program)

def stop (program : Program) : Program :=
  if program.hasRunners then { program with
    announceRunner := BluetoothAnnounceRunner.stop program.announceRunner
    cleanupRunner := CleanupRunner.stop program.cleanupRunner }
  else program

end NetworkService

namespace BitchatManager

/-- The ID is drawn by chance; what the other services answer is given. -/
def initializeServices (localPeerID : Bytes) (interface cryptoService userInterface : Bool)
    (program : Program) : Bool × Program :=
  let program := { program with node :=
    { program.node with data := program.node.data.setPeerID localPeerID } }
  let network := NetworkService.initializeNetwork interface program
  if !network.1 then (false, network.2)
  else if !cryptoService then (false, network.2)
  else if !userInterface then (false, network.2)
  else (true, { network.2 with connected := true })

def start (initialized started : Bool) (program : Program) : Bool × Program :=
  let network := NetworkService.start initialized started program
  if !network.1 then (false, network.2)
  else (true, { network.2 with node := startIdentityAnnounce.exec network.2.node })

def stop (program : Program) : Program := NetworkService.stop program

end BitchatManager

inductive ProgramAction where
  | initializeServices (localPeerID : Bytes) (interface cryptoService userInterface : Bool)
  | start (initialized started : Bool)
  | stop
  | activity (action : NodeAction)

/-- The runners make their passes while they have a thread. Everything else that a node does
takes the callbacks of `MessageService`. -/
def ProgramAction.Enabled (program : Program) : ProgramAction → Prop
  | .initializeServices .. => True
  | .start _ _ => program.connected = true
  | .stop => True
  | .activity (.announce _) => program.announceRunner.loops = true
  | .activity (.cleanupStalePeers _) => program.cleanupRunner.loops = true
  | .activity _ => program.connected = true

def ProgramAction.perform (program : Program) : ProgramAction → Program
  | .initializeServices localPeerID interface cryptoService userInterface =>
      (BitchatManager.initializeServices localPeerID interface cryptoService userInterface
        program).2
  | .start initialized started => (BitchatManager.start initialized started program).2
  | .stop => BitchatManager.stop program
  | .activity action => { program with node := nodeActivity.next program.node action }

def programRuns : TransitionSystem Program ProgramAction where
  Enabled := ProgramAction.Enabled
  next := ProgramAction.perform

/-- What holds of the runners in every run. -/
structure Wired (program : Program) : Prop where
  unserved : program.cleanupRunner.service = false
  idle : program.cleanupRunner.loops = false
  announce : program.announceRunner.Consistent
  service : program.hasRunners = true → program.announceRunner.service = true
  runners : program.connected = true → program.hasRunners = true
  stored : program.announceRunner.running = true → program.hasRunners = true

variable {program : Program}

theorem Wired.setNode (h : Wired program) (node : Node) : Wired { program with node } :=
  ⟨h.unserved, h.idle, h.announce, h.service, h.runners, h.stored⟩

theorem Wired.initializeNetwork (h : Wired program) (interface : Bool) :
    Wired (NetworkService.initializeNetwork interface program).2 := by
  cases interface with
  | false => exact ⟨h.unserved, h.idle, h.announce, h.service, h.runners, h.stored⟩
  | true =>
      exact ⟨h.unserved, h.idle, ⟨h.announce.joinable, h.announce.shouldExit⟩, fun _ => rfl,
        fun _ => rfl, fun _ => rfl⟩

theorem exists_connected (localPeerID : Bytes) (interface cryptoService userInterface : Bool)
    (program : Program) :
    ∃ connected, (BitchatManager.initializeServices localPeerID interface cryptoService
        userInterface program).2 = { (NetworkService.initializeNetwork interface
          { program with node :=
            { program.node with data := program.node.data.setPeerID localPeerID } }).2 with
              connected } ∧
      (connected = program.connected ∨ interface = true) := by
  cases interface with
  | false => exact ⟨program.connected, rfl, .inl rfl⟩
  | true =>
      cases cryptoService with
      | false => exact ⟨program.connected, rfl, .inr rfl⟩
      | true =>
          cases userInterface with
          | false => exact ⟨program.connected, rfl, .inr rfl⟩
          | true => exact ⟨true, rfl, .inr rfl⟩

theorem Wired.start (h : Wired program) (initialized started : Bool) :
    Wired (NetworkService.start initialized started program).2 := by
  unfold NetworkService.start
  split
  · exact h
  · split
    · exact h
    · split
      · exact h
      · split
        · next hrunners =>
          have hcleanup : CleanupRunner.start program.cleanupRunner = program.cleanupRunner :=
            Runner.start_of_no_service h.unserved
          rw [hcleanup]
          exact ⟨h.unserved, h.idle, h.announce.start,
            fun _ => (Runner.service_start _).trans (h.service hrunners), h.runners,
            fun _ => hrunners⟩
        · exact h

theorem Wired.stop (h : Wired program) : Wired (NetworkService.stop program) := by
  unfold NetworkService.stop
  split
  · exact ⟨h.unserved, Runner.loops_stop _, Runner.consistent_stop _, h.service, h.runners,
      fun hrunning => Bool.noConfusion hrunning⟩
  · exact h

theorem wired_next (program : Program) (action : ProgramAction)
    (_ : programRuns.Enabled program action) (h : Wired program) :
    Wired (programRuns.next program action) := by
  cases action with
  | initializeServices localPeerID interface cryptoService userInterface =>
      obtain ⟨connected, heq, hconnected⟩ := exists_connected localPeerID interface cryptoService
        userInterface program
      have hnetwork := (h.setNode { program.node with
        data := program.node.data.setPeerID localPeerID }).initializeNetwork interface
      change Wired (BitchatManager.initializeServices _ _ _ _ _).2
      rw [heq]
      refine ⟨hnetwork.unserved, hnetwork.idle, hnetwork.announce, hnetwork.service, fun hset => ?_,
        hnetwork.stored⟩
      cases interface with
      | true => rfl
      | false => exact h.runners ((hconnected.resolve_right Bool.false_ne_true).symm.trans hset)
  | start initialized started =>
      have hnetwork := h.start initialized started
      change Wired (BitchatManager.start _ _ _).2
      unfold BitchatManager.start
      dsimp only
      split
      · exact hnetwork
      · exact hnetwork.setNode _
  | stop => exact h.stop
  | activity action => exact h.setNode _

/-- The cleanup runner has no thread, so it makes no pass. -/
theorem Wired.not_cleans (h : Wired program) (time : ℤ) :
    ¬ programRuns.Enabled program (.activity (.cleanupStalePeers time)) := by
  intro henabled
  exact Bool.false_ne_true (h.idle.symm.trans henabled)

theorem wired_new (node : Node) : Wired { node } :=
  ⟨rfl, rfl, ⟨rfl, fun h => Bool.noConfusion h⟩, fun h => Bool.noConfusion h,
    fun h => Bool.noConfusion h, fun h => Bool.noConfusion h⟩

/-- What starts the thread of the announces. -/
def StartsAnnouncing (program : Program) (action : ProgramAction) : Prop :=
  action = .start true true ∧ program.bluetoothNetworkInterface = true

theorem running_initializeServices (localPeerID : Bytes)
    (interface cryptoService userInterface : Bool) (program : Program) :
    (BitchatManager.initializeServices localPeerID interface cryptoService userInterface
      program).2.announceRunner.running = program.announceRunner.running := by
  obtain ⟨connected, heq, -⟩ := exists_connected localPeerID interface cryptoService
    userInterface program
  rw [heq]
  cases interface with
  | false => rfl
  | true => rfl

theorem running_start_iff (h : Wired program) (hrunners : program.hasRunners = true)
    (initialized started : Bool) :
    (BitchatManager.start initialized started program).2.announceRunner.running = true ↔
      program.announceRunner.running = true ∨
        (initialized = true ∧ started = true) ∧ program.bluetoothNetworkInterface = true := by
  have hrunning : (BluetoothAnnounceRunner.start program.announceRunner).running = true :=
    Runner.running_start (h.service hrunners)
  unfold BitchatManager.start NetworkService.start
  cases hinterface : program.bluetoothNetworkInterface with
  | false => simp
  | true =>
      cases initialized with
      | false => simp
      | true =>
          cases started with
          | false => simp
          | true => simp [hrunners, hrunning]

theorem running_stop (h : Wired program) :
    (NetworkService.stop program).announceRunner.running = false := by
  unfold NetworkService.stop
  split
  · rfl
  · next hnone =>
    cases hrunning : program.announceRunner.running with
    | false => rfl
    | true => exact absurd (h.stored hrunning) hnone

theorem loops_next_iff (action : ProgramAction) (henabled : programRuns.Enabled program action)
    (h : Wired program) :
    (programRuns.next program action).announceRunner.loops = true ↔
      action ≠ .stop ∧ (program.announceRunner.loops = true ∨ StartsAnnouncing program action) := by
  rw [(wired_next program action henabled h).announce.loops, h.announce.loops, StartsAnnouncing]
  cases action with
  | initializeServices localPeerID interface cryptoService userInterface =>
      change (BitchatManager.initializeServices _ _ _ _ _).2.announceRunner.running = true ↔ _
      rw [running_initializeServices]
      simp
  | start initialized started =>
      change (BitchatManager.start _ _ _).2.announceRunner.running = true ↔ _
      rw [running_start_iff h (h.runners henabled)]
      simp
  | stop =>
      change (NetworkService.stop program).announceRunner.running = true ↔ _
      rw [running_stop h]
      simp
  | activity action =>
      change program.announceRunner.running = true ↔ _
      simp

/-- Announces are made behind a start that the transport takes part in, until the next stop. -/
theorem announces_iff_started (node : Node) (actions : List ProgramAction)
    (hexec : programRuns.Execution { node } actions) :
    (programRuns.run { node } actions).announceRunner.loops = true ↔
      programRuns.SinceStep StartsAnnouncing (fun _ action => action ≠ .stop) { node } actions := by
  have hruns := TransitionSystem.run_iff_sinceStep
    (P := fun program : Program => program.announceRunner.loops = true)
    (fun _ action henabled h => loops_next_iff action henabled h) wired_next hexec (wired_new node)
  exact hruns.trans (or_iff_right fun h => Bool.false_ne_true h.1)

/-- A start, a stop, and a start that the transport fails. -/
def interrupted : List ProgramAction :=
  [.initializeServices (ascii "0102030405060708") true true true, .start true true,
    .activity (.announce true), .stop, .start true false]

theorem execution_interrupted : programRuns.Execution { node := listener } interrupted :=
  ⟨trivial, rfl, rfl, trivial, rfl, trivial⟩

theorem announces_iff_started_interrupted :
    (programRuns.run { node := listener } interrupted).announceRunner.loops = true ↔
      programRuns.SinceStep StartsAnnouncing (fun _ action => action ≠ .stop) { node := listener }
        interrupted :=
  announces_iff_started listener interrupted execution_interrupted

/-- What a step says about a peer. Time says nothing. -/
def programNews (peerID : Bytes) (program : Program) : ProgramAction → PeerNews
  | .activity (.cleanupStalePeers _) => .nothing
  | .activity action => news peerID program.node action
  | _ => .nothing

theorem knownAs_setPeerID (node : Node) (localPeerID peerID : Bytes) :
    knownAs { node with data := node.data.setPeerID localPeerID } peerID = knownAs node peerID :=
  rfl

theorem node_initializeServices (localPeerID : Bytes)
    (interface cryptoService userInterface : Bool) (program : Program) :
    (BitchatManager.initializeServices localPeerID interface cryptoService userInterface
      program).2.node =
        { program.node with data := program.node.data.setPeerID localPeerID } := by
  obtain ⟨connected, heq, -⟩ := exists_connected localPeerID interface cryptoService
    userInterface program
  rw [heq]
  cases interface with
  | false => rfl
  | true => rfl

theorem node_networkStart (initialized started : Bool) (program : Program) :
    (NetworkService.start initialized started program).2.node = program.node := by
  unfold NetworkService.start
  split
  · rfl
  · split
    · rfl
    · split
      · rfl
      · split
        · rfl
        · rfl

theorem node_start (initialized started : Bool) (program : Program) :
    (BitchatManager.start initialized started program).2.node = program.node ∨
      (BitchatManager.start initialized started program).2.node =
        nodeActivity.next program.node (.call .startIdentityAnnounce) := by
  unfold BitchatManager.start
  dsimp only
  split
  · exact .inl (node_networkStart initialized started program)
  · rw [node_networkStart initialized started program]
    exact .inr rfl

theorem node_stop (program : Program) : (NetworkService.stop program).node = program.node := by
  unfold NetworkService.stop
  split
  · rfl
  · rfl

/-- What the steps keep that the names of the peers depend on. -/
def WiredDistinct (program : Program) : Prop := Wired program ∧ (peerIDs program.node).Nodup

theorem wiredDistinct_next (program : Program) (action : ProgramAction)
    (henabled : programRuns.Enabled program action) (h : WiredDistinct program) :
    WiredDistinct (programRuns.next program action) := by
  refine ⟨wired_next program action henabled h.1, ?_⟩
  cases action with
  | initializeServices localPeerID interface cryptoService userInterface =>
      change (peerIDs (BitchatManager.initializeServices _ _ _ _ _).2.node).Nodup
      rw [node_initializeServices]
      exact h.2
  | start initialized started =>
      change (peerIDs (BitchatManager.start _ _ _).2.node).Nodup
      rcases node_start initialized started program with hnode | hnode
      · rw [hnode]
        exact h.2
      · rw [hnode]
        exact keepsDistinct_next _ h.2
  | stop =>
      change (peerIDs (NetworkService.stop program).node).Nodup
      rw [node_stop]
      exact h.2
  | activity action => exact keepsDistinct_next action h.2

theorem knownAs_programNext (action : ProgramAction) (henabled : programRuns.Enabled program action)
    (h : WiredDistinct program) (peerID : Bytes) :
    knownAs (programRuns.next program action).node peerID =
      (programNews peerID program action).apply (knownAs program.node peerID) := by
  cases action with
  | initializeServices localPeerID interface cryptoService userInterface =>
      change knownAs (BitchatManager.initializeServices _ _ _ _ _).2.node peerID = _
      rw [node_initializeServices, knownAs_setPeerID]
      rfl
  | start initialized started =>
      change knownAs (BitchatManager.start _ _ _).2.node peerID = _
      rcases node_start initialized started program with hnode | hnode
      · rw [hnode]
        rfl
      · rw [hnode, knownAs_next _ h.2]
        rfl
  | stop =>
      change knownAs (NetworkService.stop program).node peerID = _
      rw [node_stop]
      rfl
  | activity action =>
      cases action with
      | cleanupStalePeers time => exact absurd henabled (h.1.not_cleans time)
      | _ => exact knownAs_next _ h.2 peerID

/-- No program ever removes a peer for its silence: the cleanup runner never gets to run, and
who has once come to be known stays so until a packet or a lost connection dismisses it. -/
theorem peers_never_expire (node : Node) (hdistinct : (peerIDs node).Nodup)
    (actions : List ProgramAction) (hexec : programRuns.Execution { node } actions)
    (peerID nickname : Bytes) :
    (∀ time, .activity (.cleanupStalePeers time) ∉ actions) ∧
      (knownAs (programRuns.run { node } actions).node peerID = some nickname ↔
        knownAs node peerID = some nickname ∧
            programRuns.AllSteps (fun program action =>
              programNews peerID program action ≠ .dismissed) { node } actions ∨
          programRuns.SinceStep (fun program action => knownAs program.node peerID = none ∧
              programNews peerID program action = .introduced nickname)
            (fun program action => programNews peerID program action ≠ .dismissed)
            { node } actions) := by
  refine ⟨fun time => ?_, ?_⟩
  · exact TransitionSystem.not_mem_of_never_enabled wired_next (fun _ h => h.not_cleans time) hexec
      (wired_new node)
  · have hstep : ∀ program action, programRuns.Enabled program action → WiredDistinct program →
        (knownAs (programRuns.next program action).node peerID = some nickname ↔
          programNews peerID program action ≠ .dismissed ∧
            (knownAs program.node peerID = some nickname ∨
              knownAs program.node peerID = none ∧
                programNews peerID program action = .introduced nickname)) := by
      intro program action henabled h
      rw [knownAs_programNext action henabled h]
      exact PeerNews.apply_eq_some_iff _ _ _
    exact TransitionSystem.run_iff_sinceStep
      (P := fun program => knownAs program.node peerID = some nickname) hstep wiredDistinct_next hexec
      ⟨wired_new node, hdistinct⟩

/-- A program whose node is greeted and hears an announce. -/
def greeted : List ProgramAction :=
  [.initializeServices (ascii "0807060504030201") true true true, .start true true,
    .activity (.receive firstHello []), .activity (.receive laterAnnounce [])]

theorem execution_greeted : programRuns.Execution { node := listener } greeted :=
  ⟨trivial, rfl, rfl, rfl, trivial⟩

theorem peers_never_expire_greeted :
    (∀ time, .activity (.cleanupStalePeers time) ∉ greeted) ∧
      knownAs (programRuns.run { node := listener } greeted).node
        (toHex [1, 2, 3, 4, 5, 6, 7, 8]) = some ProtocolHelper.clientVersion := by
  have hdistinct : (peerIDs listener).Nodup := List.nodup_nil
  obtain ⟨hnever, hknown⟩ := peers_never_expire listener hdistinct greeted execution_greeted
    (toHex [1, 2, 3, 4, 5, 6, 7, 8]) ProtocolHelper.clientVersion
  refine ⟨hnever, hknown.mpr (.inr ⟨[.initializeServices (ascii "0807060504030201") true true true,
    .start true true], .activity (.receive firstHello []),
    [.activity (.receive laterAnnounce [])], rfl, ⟨by decide +kernel, by decide +kernel⟩, ?_⟩)⟩
  exact ⟨by decide +kernel, by decide +kernel, trivial⟩

end Bitchat
