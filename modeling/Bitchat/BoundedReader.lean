import Bitchat.ReadBoundaries

/-!
# The reader stays bounded

The reader is run once more with its erasures checked, and on calls of `deserializePacket`
that read outside of their buffer: such a call may return any packet or throw. An iteration
that goes on erases at least one byte and never more than there are. The buffer that is left
waits for the frame its header declares, and that is below 65536 bytes.
-/

namespace Bitchat.LinuxBluetoothNetwork

open ByteCursor PacketSerializer

/-- `calls` counts the calls of `deserializePacket`. -/
structure CheckedState extends ReaderState where
  calls : ℕ := 0
  deriving DecidableEq, Repr

/-- What a call of `deserializePacket` returns, if it does not throw. A call that reads
outside of its buffer gives what `outside` says of it. -/
def deserialized (lz4 : LZ4) (outside : ℕ → Option BitchatPacket) (state : CheckedState) :
    Option BitchatPacket :=
  match deserializePacket lz4 state.accumulatedData with
  | .ok decoded => some decoded.packet
  | .error _ => outside state.calls

/-- `erase` of the first `n` bytes. -/
def eraseFront (data : Bytes) (n : ℕ) : Except OutOfBounds Bytes :=
  if n ≤ data.length then .ok (data.drop n) else .error ⟨n, data.length⟩

theorem eraseFront_ok {data : Bytes} {n : ℕ} (h : n ≤ data.length) :
    eraseFront data n = .ok (data.drop n) := if_pos h

def processFrontChecked (lz4 : LZ4) (outside : ℕ → Option BitchatPacket)
    (packetReceivedCallback : Option PacketReceivedCallback) (state : CheckedState) :
    Except OutOfBounds (ForInStep CheckedState) :=
  let data := state.accumulatedData
  let expectedSize := declaredSize data
  if expectedSize > maxPacketSize ∨ (declaredLength data).toNat > maxPacketSize - 21 then
    .ok (.done { state with accumulatedData := [] })
  else if data.length < expectedSize then .ok (.done state)
  else
    let called := { state with calls := state.calls + 1 }
    match deserialized lz4 outside state with
    | none => do
        let accumulatedData ← eraseFront data 1
        pure (.yield { called with accumulatedData })
    | some packet =>
        if packet.version = 0 ∨ packet.version > 1 then do
          let accumulatedData ← eraseFront data 1
          pure (.yield { called with accumulatedData })
        else
          match packetReceivedCallback with
          | none => do
              let accumulatedData ← eraseFront data expectedSize
              pure (.yield { called with accumulatedData })
          | some returns => do
              let received := state.received ++ [packet]
              let accumulatedData ← eraseFront data
                (if returns state.received packet then expectedSize else 1)
              pure (.yield { called with accumulatedData, received })

variable {lz4 : LZ4} {outside : ℕ → Option BitchatPacket}
  {callback : Option PacketReceivedCallback}

/-- An iteration breaks off on a buffer that waits for more, or it erases from the front of
the buffer some of the bytes that are there. -/
theorem processFrontChecked_cases (lz4 : LZ4) (outside : ℕ → Option BitchatPacket)
    (callback : Option PacketReceivedCallback) (state : CheckedState) :
    (∃ state', processFrontChecked lz4 outside callback state = .ok (.done state') ∧
        Waits state'.accumulatedData) ∨
      ∃ n received, 0 < n ∧ n ≤ state.accumulatedData.length ∧
        processFrontChecked lz4 outside callback state = .ok (.yield
          ⟨⟨state.accumulatedData.drop n, received⟩, state.calls + 1⟩) := by
  unfold processFrontChecked
  dsimp only
  split
  · exact .inl ⟨_, rfl, .inl (Nat.zero_lt_succ 20)⟩
  next hsmall =>
  rw [not_or, Nat.not_lt, Nat.not_lt] at hsmall
  split
  · next hlt => exact .inl ⟨state, rfl, .inr ⟨hlt, hsmall⟩⟩
  next hle =>
  have hone : 1 ≤ state.accumulatedData.length := by
    have hleast := le_declaredSize state.accumulatedData
    omega
  have hframe : 0 < declaredSize state.accumulatedData ∧
      declaredSize state.accumulatedData ≤ state.accumulatedData.length := by
    have hleast := le_declaredSize state.accumulatedData
    omega
  right
  cases deserialized lz4 outside state with
  | none =>
      dsimp only
      rw [eraseFront_ok hone]
      exact ⟨1, _, Nat.one_pos, hone, rfl⟩
  | some packet =>
      dsimp only
      split
      · rw [eraseFront_ok hone]
        exact ⟨1, _, Nat.one_pos, hone, rfl⟩
      · cases callback with
        | none =>
            dsimp only
            rw [eraseFront_ok hframe.2]
            exact ⟨_, _, hframe.1, hframe.2, rfl⟩
        | some returns =>
            dsimp only
            split
            · rw [eraseFront_ok hframe.2]
              exact ⟨_, _, hframe.1, hframe.2, rfl⟩
            · rw [eraseFront_ok hone]
              exact ⟨1, _, Nat.one_pos, hone, rfl⟩

theorem processFrontChecked_shrinks {state state' : CheckedState}
    (h : processFrontChecked lz4 outside callback state = .ok (.yield state')) :
    state'.accumulatedData.length < state.accumulatedData.length := by
  rcases processFrontChecked_cases lz4 outside callback state with
    ⟨_, hdone, -⟩ | ⟨n, received, hpos, hle, hyield⟩
  · cases hdone.symm.trans h
  · cases hyield.symm.trans h
    rw [List.length_drop]
    omega

def processingChecked (lz4 : LZ4) (outside : ℕ → Option BitchatPacket)
    (packetReceivedCallback : Option PacketReceivedCallback) :
    ShrinkingLoop OutOfBounds CheckedState where
  Continues state := 21 ≤ state.accumulatedData.length
  decideContinues _ := inferInstance
  body := processFrontChecked lz4 outside packetReceivedCallback
  size state := state.accumulatedData.length
  size_lt := fun _ h => processFrontChecked_shrinks h

/-- The buffer with what `read` has returned behind it. -/
def CheckedState.append (state : CheckedState) (buf : Bytes) : CheckedState :=
  { state with accumulatedData := state.accumulatedData ++ buf }

def receiveChecked (lz4 : LZ4) (outside : ℕ → Option BitchatPacket)
    (packetReceivedCallback : Option PacketReceivedCallback) (state : CheckedState)
    (buf : Bytes) : Except OutOfBounds CheckedState :=
  (processingChecked lz4 outside packetReceivedCallback).run (state.append buf)

def readerThreadFuncChecked (lz4 : LZ4) (outside : ℕ → Option BitchatPacket)
    (packetReceivedCallback : Option PacketReceivedCallback) (chunks : List Bytes) :
    Except OutOfBounds CheckedState :=
  chunks.foldlM (receiveChecked lz4 outside packetReceivedCallback) {}

theorem processFrontChecked_ok (lz4 : LZ4) (outside : ℕ → Option BitchatPacket)
    (callback : Option PacketReceivedCallback) (state : CheckedState) :
    ∃ step, processFrontChecked lz4 outside callback state = .ok step := by
  rcases processFrontChecked_cases lz4 outside callback state with
    ⟨state', hdone, -⟩ | ⟨n, received, -, -, hyield⟩
  · exact ⟨_, hdone⟩
  · exact ⟨_, hyield⟩

theorem processingChecked_waits (lz4 : LZ4) (outside : ℕ → Option BitchatPacket)
    (callback : Option PacketReceivedCallback) (state : CheckedState) :
    ∃ state', (processingChecked lz4 outside callback).run state = .ok state' ∧
      Waits state'.accumulatedData := by
  obtain ⟨state', hrun⟩ := (processingChecked lz4 outside callback).run_ok
    (fun s _ => processFrontChecked_ok lz4 outside callback s) state
  refine ⟨state', hrun, ShrinkingLoop.run_exit (fun _ => True)
    (fun s => Waits s.accumulatedData) (fun _ _ _ _ _ => trivial) ?_ ?_ trivial hrun⟩
  · intro s s' _ _ hbody
    rcases processFrontChecked_cases lz4 outside callback s with
      ⟨s'', hdone, hwaits⟩ | ⟨n, received, -, -, hyield⟩
    · cases hdone.symm.trans hbody
      exact hwaits
    · cases hyield.symm.trans hbody
  · intro s _ hstop
    exact .inl (Nat.lt_of_not_le hstop)

theorem processFront_checked {state : CheckedState} {step : ForInStep ReaderState}
    (h : processFront lz4 callback state.toReaderState = .ok step) :
    (∃ state', step = .done state'.toReaderState ∧
        processFrontChecked lz4 outside callback state = .ok (.done state')) ∨
      ∃ state', step = .yield state'.toReaderState ∧
        processFrontChecked lz4 outside callback state = .ok (.yield state') := by
  unfold processFront at h
  unfold processFrontChecked
  dsimp only at h ⊢
  split at h
  · next hlarge =>
    cases h
    rw [if_pos hlarge]
    exact .inl ⟨{ state with accumulatedData := [] }, rfl, rfl⟩
  next hsmall =>
  rw [if_neg hsmall]
  split at h
  · next hlt =>
    cases h
    rw [if_pos hlt]
    exact .inl ⟨state, rfl, rfl⟩
  next hle =>
  rw [if_neg hle]
  have hleast := le_declaredSize state.accumulatedData
  have hone : 1 ≤ state.accumulatedData.length := by omega
  have hframe : declaredSize state.accumulatedData ≤ state.accumulatedData.length :=
    Nat.le_of_not_lt hle
  cases hd : deserializePacket lz4 state.accumulatedData with
  | error e => rw [hd] at h; cases h
  | ok decoded =>
      have hpacket : deserialized lz4 outside state = some decoded.packet := by
        rw [deserialized, hd]
      rw [hd] at h
      rw [hpacket]
      change (if _ then _ else _ : Except OutOfBounds (ForInStep ReaderState)) = _ at h
      dsimp only
      right
      split at h
      · next hversion =>
        cases h
        rw [if_pos hversion, eraseFront_ok hone]
        exact ⟨⟨⟨_, _⟩, _⟩, rfl, rfl⟩
      · next hversion =>
        rw [if_neg hversion]
        cases callback with
        | none =>
            cases h
            dsimp only
            rw [eraseFront_ok hframe]
            exact ⟨⟨⟨_, _⟩, _⟩, rfl, rfl⟩
        | some returns =>
            cases h
            dsimp only
            split
            · rw [eraseFront_ok hframe]
              exact ⟨⟨⟨_, _⟩, _⟩, rfl, rfl⟩
            · rw [eraseFront_ok hone]
              exact ⟨⟨⟨_, _⟩, _⟩, rfl, rfl⟩

theorem receive_checked (outside : ℕ → Option BitchatPacket) {state : CheckedState}
    {state' : ReaderState} {buf : Bytes}
    (h : receive lz4 callback state.toReaderState buf = .ok state') :
    ∃ after, receiveChecked lz4 outside callback state buf = .ok after ∧
      after.toReaderState = state' := by
  refine ShrinkingLoop.run_simulates (processingChecked lz4 outside callback)
    (fun s t => t.toReaderState = s) ?_ ?_ ?_ rfl h
  · rintro _ t rfl
    exact Iff.rfl
  · rintro _ t s' rfl hbody
    rcases processFront_checked hbody with ⟨t', hstep, hchecked⟩ | ⟨t', hstep, hchecked⟩
    · cases hstep
    · cases hstep
      exact ⟨t', hchecked, rfl⟩
  · rintro _ t s' rfl hbody
    rcases processFront_checked hbody with ⟨t', hstep, hchecked⟩ | ⟨t', hstep, hchecked⟩
    · cases hstep
      exact ⟨t', hchecked, rfl⟩
    · cases hstep

theorem readerThreadFunc_checked (outside : ℕ → Option BitchatPacket) (state : CheckedState)
    {chunks : List Bytes} {state' : ReaderState}
    (h : chunks.foldlM (receive lz4 callback) state.toReaderState = .ok state') :
    ∃ after, chunks.foldlM (receiveChecked lz4 outside callback) state = .ok after ∧
      after.toReaderState = state' := by
  induction chunks generalizing state with
  | nil =>
      cases h
      exact ⟨state, rfl, rfl⟩
  | cons chunk chunks ih =>
      rw [List.foldlM_cons] at h ⊢
      cases hchunk : receive lz4 callback state.toReaderState chunk with
      | error e => rw [hchunk] at h; cases h
      | ok next =>
          obtain ⟨next', hchecked, rfl⟩ := receive_checked outside hchunk
          rw [hchunk] at h
          rw [hchecked]
          exact ih next' h

theorem foldlM_receiveChecked_waits (lz4 : LZ4) (outside : ℕ → Option BitchatPacket)
    (callback : Option PacketReceivedCallback) {state : CheckedState}
    (h : Waits state.accumulatedData) (chunks : List Bytes) :
    ∃ state', chunks.foldlM (receiveChecked lz4 outside callback) state = .ok state' ∧
      Waits state'.accumulatedData := by
  induction chunks generalizing state with
  | nil => exact ⟨state, rfl, h⟩
  | cons chunk chunks ih =>
      obtain ⟨next, hnext, hwaits⟩ :=
        processingChecked_waits lz4 outside callback (state.append chunk)
      have hreceived : receiveChecked lz4 outside callback state chunk = .ok next := hnext
      rw [List.foldlM_cons, hreceived]
      exact ih hwaits

theorem length_of_waits {data : Bytes} (h : Waits data) :
    (data.length < 21 ∨ data.length < declaredSize data) ∧ data.length < 65536 := by
  rcases h with hshort | ⟨hlt, hmax, -⟩
  · exact ⟨.inl hshort, by omega⟩
  · rw [maxPacketSize] at hmax
    exact ⟨.inr hlt, by omega⟩

/-- Whatever has been read, no erasure has left the buffer, and what is left of it is less
than a frame; and whatever is read next, the loop is over within as many iterations as there
are bytes then. -/
theorem reader_stays_bounded (lz4 : LZ4) (outside : ℕ → Option BitchatPacket)
    (callback : Option PacketReceivedCallback) (chunks : List Bytes) :
    ∃ state, readerThreadFuncChecked lz4 outside callback chunks = .ok state ∧
      (state.accumulatedData.length < 21 ∨
        state.accumulatedData.length < declaredSize state.accumulatedData) ∧
      state.accumulatedData.length < 65536 ∧
      (∀ chunk : Bytes, chunk.length ≤ bufferSize → ∃ n ≤ 65536 + bufferSize, ∃ state',
        (processingChecked lz4 outside callback).Ends n (state.append chunk) (.ok state')) ∧
      ∀ state', readerThreadFunc lz4 callback chunks = .ok state' →
        state.toReaderState = state' := by
  have hempty : Waits (({} : CheckedState).accumulatedData) := .inl (Nat.zero_lt_succ 20)
  obtain ⟨state, hrun, hwaits⟩ :=
    foldlM_receiveChecked_waits lz4 outside callback hempty chunks
  obtain ⟨hleft, hbound⟩ := length_of_waits hwaits
  refine ⟨state, hrun, hleft, hbound, ?_, ?_⟩
  · intro chunk hchunk
    obtain ⟨n, hn, hends⟩ := (processingChecked lz4 outside callback).ends_run (state.append chunk)
    obtain ⟨state', hend, -⟩ :=
      processingChecked_waits lz4 outside callback (state.append chunk)
    have hsize : (processingChecked lz4 outside callback).size (state.append chunk) =
        state.accumulatedData.length + chunk.length := List.length_append
    rw [hend] at hends
    exact ⟨n, by omega, state', hends⟩
  · intro state' hreader
    obtain ⟨after, hchecked, hsame⟩ := readerThreadFunc_checked outside {} hreader
    rw [← hsame]
    cases hrun.symm.trans hchecked
    rfl

end Bitchat.LinuxBluetoothNetwork
