import Bitchat.FrameDecoding
import Bitchat.ShrinkingLoop

/-!
# The reader of a Bluetooth connection

`readerThreadFunc` of the Linux transport. What `read` returns is appended to a buffer, and
as long as the buffer begins with a whole frame by the measure of its header, the whole
buffer is given to `deserializePacket` and the frame is erased. The callback is seen through
the packets it is given. A call may return or throw, depending on the calls before it.
-/

namespace Bitchat.LinuxBluetoothNetwork

open ByteCursor BigEndian PacketSerializer

/-- Whether a call returns normally, given the packets of the calls before it. -/
abbrev PacketReceivedCallback := List BitchatPacket → BitchatPacket → Bool

/-- `received` are the packets the callback has been given. -/
structure ReaderState where
  accumulatedData : Bytes := []
  received : List BitchatPacket := []
  deriving DecidableEq, Repr

def maxPacketSize : ℕ := 65536

def declaredLength (data : Bytes) : UInt16 :=
  ((data.getD 12 0).toUInt16 <<< 8) ||| (data.getD 13 0).toUInt16

/-- `expectedSize` of the reader, computed once more from the bytes 11 to 13. -/
def declaredSize (data : Bytes) : ℕ :=
  let flags := data.getD 11 0
  let expectedSize := 21
  let expectedSize := if flags &&& flagHasRecipient != 0 then expectedSize + 8 else expectedSize
  let expectedSize := expectedSize + (declaredLength data).toNat
  if flags &&& flagHasSignature != 0 then expectedSize + 64 else expectedSize

/-- One iteration of the inner loop, on a buffer of at least 21 bytes. -/
def processFront (lz4 : LZ4) (packetReceivedCallback : Option PacketReceivedCallback)
    (state : ReaderState) : Except OutOfBounds (ForInStep ReaderState) :=
  let data := state.accumulatedData
  let expectedSize := declaredSize data
  if expectedSize > maxPacketSize ∨ (declaredLength data).toNat > maxPacketSize - 21 then
    .ok (.done { state with accumulatedData := [] })
  else if data.length < expectedSize then .ok (.done state)
  else do
    let decoded ← deserializePacket lz4 data
    let packet := decoded.packet
    if packet.version = 0 ∨ packet.version > 1 then
      pure (.yield { state with accumulatedData := data.drop 1 })
    else
      match packetReceivedCallback with
      | none => pure (.yield { state with accumulatedData := data.drop expectedSize })
      | some returns =>
          let erased := if returns state.received packet then expectedSize else 1
          pure (.yield
            { accumulatedData := data.drop erased, received := state.received ++ [packet] })

/-- What an iteration can do: clear a buffer that declares too much, leave one that is too
short, or erase one byte or a frame from the front of one that was decoded. -/
theorem processFront_cases {lz4 : LZ4} {callback : Option PacketReceivedCallback}
    {state : ReaderState} {step : ForInStep ReaderState}
    (h : processFront lz4 callback state = .ok step) :
    step = .done { state with accumulatedData := [] } ∨
      state.accumulatedData.length < declaredSize state.accumulatedData ∧ step = .done state ∨
      ∃ decoded erased received, deserializePacket lz4 state.accumulatedData = .ok decoded ∧
        declaredSize state.accumulatedData ≤ state.accumulatedData.length ∧
        (erased = 1 ∨ erased = declaredSize state.accumulatedData) ∧
        (received = state.received ∨ received = state.received ++ [decoded.packet]) ∧
        step = .yield ⟨state.accumulatedData.drop erased, received⟩ := by
  unfold processFront at h
  dsimp only at h
  split at h
  · cases h
    exact .inl rfl
  split at h
  · next hlt =>
    cases h
    exact .inr (.inl ⟨hlt, rfl⟩)
  next hle =>
  cases hd : deserializePacket lz4 state.accumulatedData with
  | error e => rw [hd] at h; cases h
  | ok decoded =>
      rw [hd] at h
      change (if _ then _ else _ : Except OutOfBounds (ForInStep ReaderState)) = _ at h
      refine .inr (.inr ⟨decoded, ?_⟩)
      split at h
      · cases h
        exact ⟨1, _, rfl, Nat.le_of_not_lt hle, .inl rfl, .inl rfl, rfl⟩
      · split at h
        · cases h
          exact ⟨_, _, rfl, Nat.le_of_not_lt hle, .inr rfl, .inl rfl, rfl⟩
        · next returns =>
          cases h
          refine ⟨_, _, rfl, Nat.le_of_not_lt hle, ?_, .inr rfl, rfl⟩
          split
          · exact .inr rfl
          · exact .inl rfl

theorem le_declaredSize (data : Bytes) : 21 ≤ declaredSize data := by
  unfold declaredSize
  dsimp only
  split_ifs <;> omega

theorem processFront_shrinks {lz4 : LZ4} {callback : Option PacketReceivedCallback}
    {state state' : ReaderState}
    (h : processFront lz4 callback state = .ok (.yield state')) :
    state'.accumulatedData.length < state.accumulatedData.length := by
  have hpos := le_declaredSize state.accumulatedData
  rcases processFront_cases h with h | ⟨-, h⟩ | ⟨decoded, erased, received, -, hle, herased, -, h⟩
  · cases h
  · cases h
  · cases h
    rw [List.length_drop]
    omega

/-- The inner loop. -/
def processing (lz4 : LZ4) (packetReceivedCallback : Option PacketReceivedCallback) :
    ShrinkingLoop OutOfBounds ReaderState where
  Continues state := 21 ≤ state.accumulatedData.length
  decideContinues _ := inferInstance
  body := processFront lz4 packetReceivedCallback
  size state := state.accumulatedData.length
  size_lt := fun _ h => processFront_shrinks h

/-- One iteration of the outer loop, on what `read` has returned. -/
def receive (lz4 : LZ4) (packetReceivedCallback : Option PacketReceivedCallback)
    (state : ReaderState) (buf : Bytes) : Except OutOfBounds ReaderState :=
  (processing lz4 packetReceivedCallback).run
    { state with accumulatedData := state.accumulatedData ++ buf }

/-- The reader until its connection ends, on the chunks that `read` returns. -/
def readerThreadFunc (lz4 : LZ4) (packetReceivedCallback : Option PacketReceivedCallback)
    (chunks : List Bytes) : Except OutOfBounds ReaderState :=
  chunks.foldlM (receive lz4 packetReceivedCallback) {}

theorem declaredLength_eq {data : Bytes} (h : 14 ≤ data.length) :
    declaredLength data = (frameHeader data).payloadLength := by
  obtain ⟨version, type, ttl, flags, timestamp, payloadLength, rest, ht, hl, rfl⟩ :=
    exists_headerBytes h
  rw [frameHeader_headerBytes _ _ _ _ ht hl]
  obtain ⟨b₀, b₁, b₂, b₃, b₄, b₅, b₆, b₇, rfl⟩ := exists_eq_of_length_eight ht
  obtain ⟨high, low, rfl⟩ := List.length_eq_two.mp hl
  exact shiftLeft_or_uint16 high low

theorem declaredSize_eq {data : Bytes} (h : 14 ≤ data.length) :
    declaredSize data = expectedSize (frameHeader data) := by
  have hrecipient : (frameHeader data).hasRecipient =
      (data.getD 11 0 &&& flagHasRecipient != 0) := rfl
  have hsignature : (frameHeader data).hasSignature =
      (data.getD 11 0 &&& flagHasSignature != 0) := rfl
  rw [expectedSize, hrecipient, hsignature, ← declaredLength_eq h, declaredSize]
  split_ifs <;> omega

def returning : Option PacketReceivedCallback := some fun _ _ => true

/-- The version is one that the reader rejects. -/
def BadVersion (packet : BitchatPacket) : Prop := packet.version = 0 ∨ packet.version > 1

instance (packet : BitchatPacket) : Decidable (BadVersion packet) :=
  inferInstanceAs (Decidable (_ ∨ _))

/-- The header declares a frame that the buffer may hold and does hold. -/
structure HoldsFrame (data : Bytes) : Prop where
  le_length : declaredSize data ≤ data.length
  le_max : declaredSize data ≤ maxPacketSize
  length_le_max : (declaredLength data).toNat ≤ maxPacketSize - 21

/-- With a callback that returns, what becomes of the buffer and of the packets received. -/
def afterFront (data : Bytes) (received : List BitchatPacket) (packet : BitchatPacket) :
    ReaderState :=
  if BadVersion packet then ⟨data.drop 1, received⟩
  else ⟨data.drop (declaredSize data), received ++ [packet]⟩

theorem processFront_of_holdsFrame (lz4 : LZ4) {data : Bytes} (h : HoldsFrame data)
    (received : List BitchatPacket) :
    processFront lz4 returning ⟨data, received⟩ =
      (deserializePacket lz4 data).map fun decoded =>
        .yield (afterFront data received decoded.packet) := by
  rw [processFront]
  dsimp only
  rw [if_neg (not_or.mpr ⟨Nat.not_lt.mpr h.le_max, Nat.not_lt.mpr h.length_le_max⟩),
    if_neg (Nat.not_lt.mpr h.le_length)]
  cases deserializePacket lz4 data with
  | error e => rfl
  | ok decoded =>
      change (if BadVersion decoded.packet then _ else _ : Except OutOfBounds _) =
        Except.ok (ForInStep.yield (afterFront data received decoded.packet))
      by_cases hv : BadVersion decoded.packet
      · rw [if_pos hv, afterFront, if_pos hv]
        rfl
      · rw [if_neg hv, afterFront, if_neg hv]
        rfl

theorem processFront_of_lt (lz4 : LZ4) (callback : Option PacketReceivedCallback)
    {state : ReaderState} (hlt : state.accumulatedData.length < declaredSize state.accumulatedData)
    (hmax : declaredSize state.accumulatedData ≤ maxPacketSize)
    (hlength : (declaredLength state.accumulatedData).toNat ≤ maxPacketSize - 21) :
    processFront lz4 callback state = .ok (.done state) := by
  rw [processFront]
  dsimp only
  rw [if_neg (not_or.mpr ⟨Nat.not_lt.mpr hmax, Nat.not_lt.mpr hlength⟩), if_pos hlt]

theorem processing_of_short (lz4 : LZ4) (callback : Option PacketReceivedCallback)
    {state : ReaderState} (h : state.accumulatedData.length < 21) :
    (processing lz4 callback).run state = .ok state :=
  ShrinkingLoop.run_of_not_continues (Nat.not_le.mpr h)

theorem processing_of_lt (lz4 : LZ4) (callback : Option PacketReceivedCallback)
    {state : ReaderState} (hlt : state.accumulatedData.length < declaredSize state.accumulatedData)
    (hmax : declaredSize state.accumulatedData ≤ maxPacketSize)
    (hlength : (declaredLength state.accumulatedData).toNat ≤ maxPacketSize - 21) :
    (processing lz4 callback).run state = .ok state := by
  by_cases hshort : state.accumulatedData.length < 21
  · exact processing_of_short lz4 callback hshort
  · exact ShrinkingLoop.run_of_done (Nat.le_of_not_lt hshort)
      (processFront_of_lt lz4 callback hlt hmax hlength)

theorem processing_of_holdsFrame (lz4 : LZ4) {data : Bytes} (hc : 21 ≤ data.length)
    (h : HoldsFrame data) (received : List BitchatPacket) :
    (processing lz4 returning).run ⟨data, received⟩ =
      (deserializePacket lz4 data).bind fun decoded =>
        (processing lz4 returning).run (afterFront data received decoded.packet) := by
  have hfront := processFront_of_holdsFrame lz4 h received
  cases hd : deserializePacket lz4 data with
  | error e =>
      rw [hd] at hfront
      exact ShrinkingLoop.run_of_error hc hfront
  | ok decoded =>
      rw [hd] at hfront
      exact ShrinkingLoop.run_of_yield hc hfront

theorem received_processFront {lz4 : LZ4} {callback : Option PacketReceivedCallback}
    {state state' : ReaderState}
    (h : processFront lz4 callback state = .ok (.yield state') ∨
      processFront lz4 callback state = .ok (.done state')) :
    state.received <+: state'.received := by
  rcases h with h | h <;>
    rcases processFront_cases h with
      h | ⟨-, h⟩ | ⟨decoded, erased, received, -, -, -, hreceived, h⟩ <;> cases h
  · rcases hreceived with rfl | rfl
    · exact List.prefix_rfl
    · exact List.prefix_append _ _
  · exact List.prefix_rfl
  · exact List.prefix_rfl

theorem received_processing {lz4 : LZ4} {callback : Option PacketReceivedCallback}
    {state state' : ReaderState} (h : (processing lz4 callback).run state = .ok state') :
    state.received <+: state'.received :=
  ShrinkingLoop.run_invariant (fun s => state.received <+: s.received)
    (fun _ _ hinv _ hb => hinv.trans (received_processFront (.inl hb)))
    (fun _ _ hinv _ hb => hinv.trans (received_processFront (.inr hb))) List.prefix_rfl h

end Bitchat.LinuxBluetoothNetwork
