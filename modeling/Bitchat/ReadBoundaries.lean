import Bitchat.StreamPadding

/-!
# Read boundaries

The same stream can reach the reader in many ways, and what the decoder sees behind a frame is
whatever one `read` has returned with it. The reader that gets its bytes one by one sees the
least. If the bytes that another reader may see in addition never change what becomes of a
frame, all readers give the callback the same packets.
-/

namespace Bitchat.LinuxBluetoothNetwork

open ByteCursor PacketSerializer MessagePadding

def bufferSize : ℕ := 4096

structure IsReading (stream : Bytes) (chunks : List Bytes) : Prop where
  flatten : chunks.flatten = stream
  ne_nil : ∀ chunk ∈ chunks, chunk ≠ []
  length_le : ∀ chunk ∈ chunks, chunk.length ≤ bufferSize

/-- However the stream is read, the callback is given the same packets. -/
def ReadsAlike (lz4 : LZ4) (stream : Bytes) : Prop :=
  ∀ chunks chunks', IsReading stream chunks → IsReading stream chunks' →
    ∃ state state', readerThreadFunc lz4 returning chunks = .ok state ∧
      readerThreadFunc lz4 returning chunks' = .ok state' ∧ state.received = state'.received

theorem isReading_singletons (stream : Bytes) :
    IsReading stream (stream.map fun byte => [byte]) := by
  refine ⟨(List.flatMap_def ..).symm.trans (List.flatMap_singleton' stream), ?_, ?_⟩
  · intro chunk hchunk
    obtain ⟨byte, -, rfl⟩ := List.mem_map.mp hchunk
    exact List.cons_ne_nil byte []
  · intro chunk hchunk
    obtain ⟨byte, -, rfl⟩ := List.mem_map.mp hchunk
    rw [List.length_singleton]
    decide

theorem IsReading.cons {stream chunk : Bytes} {chunks : List Bytes} (h : IsReading stream chunks)
    (hne : chunk ≠ []) (hle : chunk.length ≤ bufferSize) :
    IsReading (chunk ++ stream) (chunk :: chunks) :=
  ⟨by rw [List.flatten_cons, h.flatten], List.forall_mem_cons.mpr ⟨hne, h.ne_nil⟩,
    List.forall_mem_cons.mpr ⟨hle, h.length_le⟩⟩

/-- The first chunk of a stream with a first byte is that byte and less than a buffer more. -/
theorem IsReading.cons_inv {byte : UInt8} {stream : Bytes} {chunks : List Bytes}
    (h : IsReading (byte :: stream) chunks) :
    ∃ k < bufferSize, ∃ after, chunks = (byte :: stream.take k) :: after ∧
      IsReading (stream.drop k) after := by
  obtain ⟨hflatten, hne, hle⟩ := h
  cases chunks with
  | nil => cases hflatten
  | cons chunk after =>
      cases chunk with
      | nil => exact absurd rfl (hne [] List.mem_cons_self)
      | cons first chunk =>
          rw [List.flatten_cons, List.cons_append] at hflatten
          obtain ⟨rfl, rfl⟩ := List.cons.inj hflatten
          have hlength := hle (first :: chunk) List.mem_cons_self
          rw [List.length_cons] at hlength
          refine ⟨chunk.length, by omega, after, by rw [List.take_left], ?_, ?_, ?_⟩
          · rw [List.drop_left]
          · exact fun chunk' h => hne chunk' (List.mem_cons_of_mem _ h)
          · exact fun chunk' h => hle chunk' (List.mem_cons_of_mem _ h)

theorem IsReading.eq_nil {chunks : List Bytes} (h : IsReading [] chunks) : chunks = [] := by
  cases chunks with
  | nil => rfl
  | cons chunk after =>
      have hnil := List.flatten_eq_nil_iff.mp h.flatten chunk List.mem_cons_self
      exact absurd hnil (h.ne_nil chunk List.mem_cons_self)

def TooLarge (data : Bytes) : Prop :=
  21 ≤ data.length ∧
    (declaredSize data > maxPacketSize ∨ (declaredLength data).toNat > maxPacketSize - 21)

def Waits (data : Bytes) : Prop :=
  data.length < 21 ∨ data.length < declaredSize data ∧ declaredSize data ≤ maxPacketSize ∧
    (declaredLength data).toNat ≤ maxPacketSize - 21

instance (data : Bytes) : Decidable (Waits data) := inferInstanceAs (Decidable (_ ∨ _))

theorem waits_or_holdsFrame_or_tooLarge (data : Bytes) :
    Waits data ∨ HoldsFrame data ∨ TooLarge data := by
  by_cases hshort : data.length < 21
  · exact .inl (.inl hshort)
  · by_cases hlarge : declaredSize data > maxPacketSize ∨
        (declaredLength data).toNat > maxPacketSize - 21
    · exact .inr (.inr ⟨by omega, hlarge⟩)
    · rw [not_or, Nat.not_lt, Nat.not_lt] at hlarge
      by_cases hlt : data.length < declaredSize data
      · exact .inl (.inr ⟨hlt, hlarge⟩)
      · exact .inr (.inl ⟨Nat.le_of_not_lt hlt, hlarge.1, hlarge.2⟩)

theorem HoldsFrame.length {data : Bytes} (h : HoldsFrame data) : 21 ≤ data.length :=
  (le_declaredSize data).trans h.le_length

theorem declaredSize_append {data : Bytes} (h : 14 ≤ data.length) (z : Bytes) :
    declaredSize (data ++ z) = declaredSize data ∧
      declaredLength (data ++ z) = declaredLength data := by
  have hlen : 14 ≤ (data ++ z).length := by
    rw [List.length_append]
    omega
  rw [declaredSize_eq hlen, declaredLength_eq hlen, frameHeader_append h, ← declaredSize_eq h,
    ← declaredLength_eq h]
  exact ⟨rfl, rfl⟩

theorem TooLarge.append {data : Bytes} (h : TooLarge data) (z : Bytes) :
    TooLarge (data ++ z) := by
  obtain ⟨hlength, hlarge⟩ := h
  obtain ⟨hsize, hdeclared⟩ := declaredSize_append (show 14 ≤ data.length by omega) z
  rw [TooLarge, hsize, hdeclared, List.length_append]
  exact ⟨by omega, hlarge⟩

theorem HoldsFrame.append {data : Bytes} (h : HoldsFrame data) (z : Bytes) :
    HoldsFrame (data ++ z) := by
  have hlength := h.length
  obtain ⟨hsize, hdeclared⟩ := declaredSize_append (show 14 ≤ data.length by omega) z
  refine ⟨?_, by rw [hsize]; exact h.le_max, by rw [hdeclared]; exact h.length_le_max⟩
  rw [hsize, List.length_append]
  exact h.le_length.trans (Nat.le_add_right _ _)

theorem HoldsFrame.afterFront_append {data : Bytes} (h : HoldsFrame data) (z : Bytes)
    (received : List BitchatPacket) (packet : BitchatPacket) :
    afterFront (data ++ z) received packet =
      { afterFront data received packet with
        accumulatedData := (afterFront data received packet).accumulatedData ++ z } := by
  have hlength := h.length
  have hle := h.le_length
  obtain ⟨hsize, -⟩ := declaredSize_append (show 14 ≤ data.length by omega) z
  rw [afterFront, afterFront, hsize]
  split_ifs
  · rw [List.drop_append_of_le_length (by omega)]
  · rw [List.drop_append_of_le_length hle]

section Reader

variable {lz4 : LZ4} {data : Bytes} {received : List BitchatPacket}

theorem processing_of_waits (h : Waits data) :
    (processing lz4 returning).run ⟨data, received⟩ = .ok ⟨data, received⟩ := by
  rcases h with hshort | ⟨hlt, hmax, hlength⟩
  · exact processing_of_short lz4 returning hshort
  · exact processing_of_lt lz4 returning hlt hmax hlength

theorem processing_of_tooLarge (h : TooLarge data) :
    (processing lz4 returning).run ⟨data, received⟩ = .ok ⟨[], received⟩ := by
  refine ShrinkingLoop.run_of_done h.1 ?_
  change processFront lz4 returning ⟨data, received⟩ = _
  rw [processFront]
  exact if_pos h.2

theorem resume_of_waits (h : Waits data) (chunk : Bytes) (chunks : List Bytes) :
    resume lz4 ⟨data, received⟩ (chunk :: chunks) =
      resume lz4 ⟨data ++ chunk, received⟩ chunks := by
  rw [resume, processing_of_waits h]
  rfl

theorem resume_of_holdsFrame (h : HoldsFrame data) (chunks : List Bytes) :
    resume lz4 ⟨data, received⟩ chunks =
      (deserializePacket lz4 data).bind fun decoded =>
        resume lz4 (afterFront data received decoded.packet) chunks := by
  rw [resume, processing_of_holdsFrame lz4 h.length h]
  cases deserializePacket lz4 data with
  | error e => rfl
  | ok decoded => rfl

end Reader

/-- A reader in front of its inner loop, and what it has not read yet. -/
structure Position where
  state : ReaderState
  rest : Bytes

def Position.start (stream : Bytes) : Position := ⟨{}, stream⟩

/-- A buffer without a frame gets the next byte. A frame is decoded, if up to a buffer of
bytes behind it make no difference. -/
inductive Step (lz4 : LZ4) : Position → Position → Prop
  | read {data received byte rest} (hwaits : Waits data) :
      Step lz4 ⟨⟨data, received⟩, byte :: rest⟩ ⟨⟨data ++ [byte], received⟩, rest⟩
  | decode {data received rest after} (hholds : HoldsFrame data)
      (hsame : ∀ k < bufferSize, ∃ decoded,
        deserializePacket lz4 (data ++ rest.take k) = .ok decoded ∧
          afterFront data received decoded.packet = after) :
      Step lz4 ⟨⟨data, received⟩, rest⟩ ⟨after, rest⟩

/-- The position with some more bytes in the buffer. -/
def Position.ahead (position : Position) (k : ℕ) : ReaderState :=
  { position.state with
    accumulatedData := position.state.accumulatedData ++ position.rest.take k }

/-- However many more bytes were read with the last one and however the others are read, the
callback is given the same packets. -/
def AlikeFrom (lz4 : LZ4) (position : Position) : Prop :=
  ∃ packets, ∀ k < bufferSize, ∀ chunks, IsReading (position.rest.drop k) chunks →
    ∃ state, resume lz4 (position.ahead k) chunks = .ok state ∧ state.received = packets

section Steps

variable {lz4 : LZ4} {data rest : Bytes} {received : List BitchatPacket}

/-- In front of a reader that waits it is enough to look at what `read` returns next. -/
theorem alikeFrom_iff_of_waits (h : Waits data) :
    AlikeFrom lz4 ⟨⟨data, received⟩, rest⟩ ↔ ∃ packets, ∀ chunks, IsReading rest chunks →
      ∃ state, resume lz4 ⟨data, received⟩ chunks = .ok state ∧ state.received = packets := by
  refine exists_congr fun packets => ⟨fun hall chunks hchunks => ?_,
    fun hall k hk chunks hchunks => ?_⟩
  · have hnow := hall 0 (by decide) chunks hchunks
    rwa [Position.ahead, List.take_zero, List.append_nil] at hnow
  · dsimp only at hchunks
    rw [Position.ahead]
    by_cases hnone : rest.take k = []
    · have hrest := List.take_append_drop k rest
      rw [hnone, List.nil_append] at hrest
      rw [hrest] at hchunks
      rw [hnone, List.append_nil]
      exact hall chunks hchunks
    · -- The bytes that are ahead make up a chunk of their own.
      have hreading := hchunks.cons hnone ((List.length_take_le _ _).trans hk.le)
      rw [List.take_append_drop] at hreading
      rw [← resume_of_waits h]
      exact hall _ hreading

theorem alikeFrom_read_iff (h : Waits data) (byte : UInt8) :
    AlikeFrom lz4 ⟨⟨data, received⟩, byte :: rest⟩ ↔
      AlikeFrom lz4 ⟨⟨data ++ [byte], received⟩, rest⟩ := by
  rw [alikeFrom_iff_of_waits h]
  have hmore : ∀ k chunks, resume lz4 (Position.ahead ⟨⟨data ++ [byte], received⟩, rest⟩ k) chunks =
      resume lz4 ⟨data, received⟩ ((byte :: rest.take k) :: chunks) := by
    intro k chunks
    rw [resume_of_waits h, Position.ahead, List.append_assoc, List.singleton_append]
  refine exists_congr fun packets => ⟨fun hall k hk chunks hchunks => ?_,
    fun hall chunks hchunks => ?_⟩
  · have hreading := hchunks.cons (List.cons_ne_nil byte (rest.take k)) (by
      rw [List.length_cons, List.length_take]
      omega)
    rw [List.cons_append, List.take_append_drop] at hreading
    rw [hmore]
    exact hall _ hreading
  · obtain ⟨k, hk, after, rfl, hafter⟩ := hchunks.cons_inv
    rw [← hmore]
    exact hall k hk after hafter

theorem resume_ahead (h : HoldsFrame data) (k : ℕ) (chunks : List Bytes) :
    resume lz4 (Position.ahead ⟨⟨data, received⟩, rest⟩ k) chunks =
      (deserializePacket lz4 (data ++ rest.take k)).bind fun decoded =>
        resume lz4 (Position.ahead ⟨afterFront data received decoded.packet, rest⟩ k) chunks := by
  rw [Position.ahead, resume_of_holdsFrame (h.append _)]
  congr
  funext decoded
  rw [h.afterFront_append]
  rfl

theorem alikeFrom_decode_iff (h : HoldsFrame data) {after : ReaderState}
    (hsame : ∀ k < bufferSize, ∃ decoded,
      deserializePacket lz4 (data ++ rest.take k) = .ok decoded ∧
        afterFront data received decoded.packet = after) :
    AlikeFrom lz4 ⟨⟨data, received⟩, rest⟩ ↔ AlikeFrom lz4 ⟨after, rest⟩ := by
  refine exists_congr fun packets => forall₂_congr fun k hk => forall₂_congr fun chunks _ => ?_
  obtain ⟨decoded, hdecoded, rfl⟩ := hsame k hk
  rw [resume_ahead h, hdecoded]
  rfl

theorem Step.alikeFrom_iff {position position' : Position} (h : Step lz4 position position') :
    AlikeFrom lz4 position ↔ AlikeFrom lz4 position' := by
  cases h with
  | read hwaits => exact alikeFrom_read_iff hwaits _
  | decode hholds hsame => exact alikeFrom_decode_iff hholds hsame

def Settled (position : Position) : Prop :=
  Waits position.state.accumulatedData ∧ position.rest = [] ∨
    TooLarge position.state.accumulatedData ∧ position.rest.length < 21

/-- With some bytes behind it the frame is rejected, and with others it is accepted. -/
def Wavers (lz4 : LZ4) (position : Position) : Prop :=
  HoldsFrame position.state.accumulatedData ∧ ∃ k < bufferSize, ∃ k' < bufferSize,
    ∃ decoded decoded', deserializePacket lz4 (position.ahead k).accumulatedData = .ok decoded ∧
      deserializePacket lz4 (position.ahead k').accumulatedData = .ok decoded' ∧
      BadVersion decoded.packet ∧ ¬ BadVersion decoded'.packet

/-- The header declares so much that what has been read is thrown away, and there is enough
to come for another frame. -/
def Discards (position : Position) : Prop :=
  TooLarge position.state.accumulatedData ∧ 21 ≤ position.rest.length

theorem alikeFrom_of_settled {position : Position} (h : Settled position) :
    AlikeFrom lz4 position := by
  obtain ⟨⟨data, received⟩, rest⟩ := position
  rcases h with ⟨hwaits, hrest⟩ | ⟨hlarge, hrest⟩
  · dsimp only at hwaits hrest
    subst hrest
    refine (alikeFrom_iff_of_waits hwaits).mpr ⟨received, fun chunks hchunks => ?_⟩
    obtain rfl := hchunks.eq_nil
    rw [resume, processing_of_waits hwaits]
    exact ⟨_, rfl, rfl⟩
  · refine ⟨received, fun k hk chunks hchunks => ?_⟩
    have hshort : ([] ++ chunks.flatten).length < 21 := by
      rw [hchunks.flatten, List.nil_append, List.length_drop]
      dsimp only at hrest ⊢
      omega
    rw [Position.ahead, resume, processing_of_tooLarge (hlarge.append _)]
    exact ⟨_, foldlM_receive_of_short lz4 chunks hshort received, rfl⟩

theorem decodes_of_alikeFrom (h : HoldsFrame data)
    (halike : AlikeFrom lz4 ⟨⟨data, received⟩, rest⟩) {k : ℕ} (hk : k < bufferSize) :
    ∃ decoded, deserializePacket lz4 (data ++ rest.take k) = .ok decoded := by
  obtain ⟨packets, hall⟩ := halike
  obtain ⟨state, hstate, -⟩ := hall k hk _ (isReading_singletons _)
  rw [resume_ahead h] at hstate
  cases hd : deserializePacket lz4 (data ++ rest.take k) with
  | error e =>
      rw [hd] at hstate
      cases hstate
  | ok decoded => exact ⟨decoded, rfl⟩

/-- Where the packets are the same, all that a frame may be accepted as are the same. -/
theorem packet_eq_of_alikeFrom (h : HoldsFrame data)
    (halike : AlikeFrom lz4 ⟨⟨data, received⟩, rest⟩) {k k' : ℕ} (hk : k < bufferSize)
    (hk' : k' < bufferSize) {decoded decoded' : Decoded}
    (hd : deserializePacket lz4 (data ++ rest.take k) = .ok decoded)
    (hd' : deserializePacket lz4 (data ++ rest.take k') = .ok decoded')
    (hgood : ¬ BadVersion decoded.packet) (hgood' : ¬ BadVersion decoded'.packet) :
    decoded.packet = decoded'.packet := by
  obtain ⟨packets, hall⟩ := halike
  have hreceives : ∀ k < bufferSize, ∀ decoded,
      deserializePacket lz4 (data ++ rest.take k) = .ok decoded → ¬ BadVersion decoded.packet →
        received ++ [decoded.packet] <+: packets := by
    intro k hk decoded hd hgood
    obtain ⟨state, hstate, rfl⟩ := hall k hk _ (isReading_singletons _)
    rw [resume_ahead h, hd] at hstate
    have hprefix := received_resume hstate
    rwa [Position.ahead, afterFront, if_neg hgood] at hprefix
  -- Either packet is the next one behind those received before.
  have hlength : (received ++ [decoded.packet]).length =
      (received ++ [decoded'.packet]).length := by
    rw [List.length_append, List.length_append, List.length_singleton, List.length_singleton]
  have hsame := (List.prefix_of_prefix_length_le (hreceives k hk decoded hd hgood)
    (hreceives k' hk' decoded' hd' hgood') hlength.le).eq_of_length hlength
  exact List.singleton_inj.mp (List.append_cancel_left hsame)

/-- Where the packets are the same, the reader of single bytes goes on behind a frame, or some
of the bytes behind the frame decide if it is accepted. -/
theorem exists_step_or_wavers (h : HoldsFrame data)
    (halike : AlikeFrom lz4 ⟨⟨data, received⟩, rest⟩) :
    (∃ position, Step lz4 ⟨⟨data, received⟩, rest⟩ position) ∨
      Wavers lz4 ⟨⟨data, received⟩, rest⟩ := by
  have hdecodes := fun k (hk : k < bufferSize) => decodes_of_alikeFrom h halike hk
  choose decoded hdecode using hdecodes
  by_cases hreject : ∃ k hk, BadVersion (decoded k hk).packet
  · by_cases haccept : ∃ k hk, ¬ BadVersion (decoded k hk).packet
    · obtain ⟨k, hk, hbad⟩ := hreject
      obtain ⟨k', hk', hgood⟩ := haccept
      exact .inr ⟨h, k, hk, k', hk', _, _, hdecode k hk, hdecode k' hk', hbad, hgood⟩
    · refine .inl ⟨⟨⟨data.drop 1, received⟩, rest⟩, .decode h fun k hk => ?_⟩
      refine ⟨decoded k hk, hdecode k hk, if_pos ?_⟩
      by_contra hgood
      exact haccept ⟨k, hk, hgood⟩
  · have hgood : ∀ k hk, ¬ BadVersion (decoded k hk).packet :=
      fun k hk hbad => hreject ⟨k, hk, hbad⟩
    have hzero : 0 < bufferSize := by decide
    refine .inl ⟨⟨afterFront data received (decoded 0 hzero).packet, rest⟩,
      .decode h fun k hk => ⟨decoded k hk, hdecode k hk, ?_⟩⟩
    rw [packet_eq_of_alikeFrom h halike hk hzero (hdecode k hk) (hdecode 0 hzero) (hgood k hk)
      (hgood 0 hzero)]

end Steps

variable {lz4 : LZ4} {stream : Bytes}

theorem Step.decreases {position position' : Position} (h : Step lz4 position position') :
    position'.state.accumulatedData.length + 2 * position'.rest.length <
      position.state.accumulatedData.length + 2 * position.rest.length := by
  cases h with
  | read hwaits =>
      dsimp only
      rw [List.length_append, List.length_singleton, List.length_cons]
      omega
  | @decode data received rest after hholds hsame =>
      obtain ⟨decoded, -, rfl⟩ := hsame 0 (by decide)
      have hlength := hholds.length
      have hsize := le_declaredSize data
      rw [afterFront]
      split_ifs
      · dsimp only
        rw [List.length_drop]
        omega
      · dsimp only
        rw [List.length_drop]
        omega

theorem exists_last_position (position : Position) :
    ∃ last, Relation.ReflTransGen (Step lz4) position last ∧ ∀ next, ¬ Step lz4 last next := by
  induction hn : position.state.accumulatedData.length + 2 * position.rest.length using
    Nat.strong_induction_on generalizing position with
  | _ n ih =>
    by_cases hstep : ∃ next, Step lz4 position next
    · obtain ⟨next, hnext⟩ := hstep
      obtain ⟨last, hlast, hend⟩ := ih _ (hn ▸ hnext.decreases) next rfl
      exact ⟨last, .head hnext hlast, hend⟩
    · exact ⟨position, .refl, fun next hnext => hstep ⟨next, hnext⟩⟩

theorem alikeFrom_iff_of_steps {position position' : Position}
    (h : Relation.ReflTransGen (Step lz4) position position') :
    AlikeFrom lz4 position ↔ AlikeFrom lz4 position' := by
  induction h with
  | refl => exact Iff.rfl
  | tail _ hstep ih => exact ih.trans hstep.alikeFrom_iff

theorem readsAlike_iff_alikeFrom :
    ReadsAlike lz4 stream ↔ AlikeFrom lz4 (.start stream) := by
  have hnothing : Waits [] := .inl (by decide)
  have hrun : ∀ chunks, readerThreadFunc lz4 returning chunks = resume lz4 ⟨[], []⟩ chunks := by
    intro chunks
    rw [resume, processing_of_waits hnothing]
    rfl
  rw [Position.start, alikeFrom_iff_of_waits hnothing]
  constructor
  · intro h
    obtain ⟨first, -, hfirst, -⟩ :=
      h _ _ (isReading_singletons stream) (isReading_singletons stream)
    refine ⟨first.received, fun chunks hchunks => ?_⟩
    obtain ⟨state, state', hstate, hstate', hreceived⟩ :=
      h chunks _ hchunks (isReading_singletons stream)
    obtain rfl := Except.ok.inj (hfirst.symm.trans hstate')
    exact ⟨state, (hrun chunks).symm.trans hstate, hreceived⟩
  · rintro ⟨packets, hall⟩ chunks chunks' hchunks hchunks'
    obtain ⟨state, hstate, hreceived⟩ := hall chunks hchunks
    obtain ⟨state', hstate', hreceived'⟩ := hall chunks' hchunks'
    rw [hrun, hrun]
    exact ⟨state, state', hstate, hstate', hreceived.trans hreceived'.symm⟩

/-- No more bytes than those that the reader of single bytes has seen make a difference. -/
def Steady (lz4 : LZ4) (stream : Bytes) : Prop :=
  ∃ last, Relation.ReflTransGen (Step lz4) (.start stream) last ∧ Settled last

/-- The packets depend on the way of reading, or the readers part and may meet again. -/
def Undecided (lz4 : LZ4) (stream : Bytes) : Prop :=
  ∃ last, Relation.ReflTransGen (Step lz4) (.start stream) last ∧ (Wavers lz4 last ∨ Discards last)

/-- A steady stream gives the callback the same packets however it is read. A stream that does
so is steady, or leads to a frame that only some ways of reading accept, or to a header that
makes the reader throw away what it has. -/
theorem steady_reads_alike (lz4 : LZ4) (stream : Bytes) :
    (Steady lz4 stream → ReadsAlike lz4 stream) ∧
      (ReadsAlike lz4 stream → Steady lz4 stream ∨ Undecided lz4 stream) := by
  rw [readsAlike_iff_alikeFrom]
  constructor
  · rintro ⟨last, hlast, hsettled⟩
    exact (alikeFrom_iff_of_steps hlast).mpr (alikeFrom_of_settled hsettled)
  · intro halike
    obtain ⟨⟨⟨data, received⟩, rest⟩, hlast, hend⟩ := exists_last_position (.start stream)
    rw [alikeFrom_iff_of_steps hlast] at halike
    rcases waits_or_holdsFrame_or_tooLarge data with hwaits | hholds | hlarge
    · cases rest with
      | nil => exact .inl ⟨_, hlast, .inl ⟨hwaits, rfl⟩⟩
      | cons byte rest => exact (hend _ (.read hwaits)).elim
    · rcases exists_step_or_wavers hholds halike with ⟨next, hnext⟩ | hwavers
      · exact (hend next hnext).elim
      · exact .inr ⟨_, hlast, .inl hwavers⟩
    · rcases Nat.lt_or_ge rest.length 21 with hshort | hlong
      · exact .inl ⟨_, hlast, .inr ⟨hlarge, hshort⟩⟩
      · exact .inr ⟨_, hlast, .inr ⟨hlarge, hlong⟩⟩

theorem steps_read {data more rest : Bytes} {received : List BitchatPacket}
    (h : ∀ k < more.length, Waits (data ++ more.take k)) :
    Relation.ReflTransGen (Step lz4) ⟨⟨data, received⟩, more ++ rest⟩
      ⟨⟨data ++ more, received⟩, rest⟩ := by
  induction more generalizing data with
  | nil =>
      rw [List.append_nil]
      exact .refl
  | cons byte more ih =>
      have hfirst := h 0 (Nat.succ_pos _)
      rw [List.take_zero, List.append_nil] at hfirst
      have hmore : ∀ k < more.length, Waits (data ++ [byte] ++ more.take k) := by
        intro k hk
        have hnext := h (k + 1) (Nat.succ_lt_succ hk)
        rwa [List.take_succ_cons, ← List.singleton_append, ← List.append_assoc] at hnext
      have hrest := ih hmore
      rw [List.append_assoc, List.singleton_append] at hrest
      exact .head (.read hfirst) hrest

def greeting : Bytes := serializePacket idleLZ4 (fun _ => 1) (plainPacket [0x68, 0x69])

/-- All but the last byte of the frame is what the reader takes for the frame. -/
def greetingFrame : Bytes := greeting.take 23

theorem holdsFrame_greetingFrame : HoldsFrame greetingFrame :=
  ⟨by decide +kernel, by decide +kernel, by decide +kernel⟩

theorem steps_greetingFrame (rest : Bytes) :
    Relation.ReflTransGen (Step idleLZ4) (.start (greetingFrame ++ rest))
      ⟨⟨greetingFrame, []⟩, rest⟩ := by
  have hwaits : ∀ k < greetingFrame.length, Waits ([] ++ greetingFrame.take k) := by
    decide +kernel
  exact steps_read hwaits

/-- Read up to the last byte of the frame, the packet has no payload. Read in one piece it has
its payload. -/
theorem deserializePacket_greeting :
    deserializePacket idleLZ4 greetingFrame =
        .ok ⟨{ plainPacket [] with payloadLength := 2 }, none⟩ ∧
      deserializePacket idleLZ4 (greetingFrame ++ (greeting.drop 23).take 233) =
        .ok ⟨plainPacket [0x68, 0x69], none⟩ := by
  decide +kernel

/-- A stream that ends in front of the last byte of its frame. -/
theorem greetingFrame_reads_alike : ReadsAlike idleLZ4 greetingFrame := by
  have hsteps := steps_greetingFrame []
  rw [List.append_nil] at hsteps
  have hsame : ∀ k < bufferSize, ∃ decoded,
      deserializePacket idleLZ4 (greetingFrame ++ List.take k []) = .ok decoded ∧
        afterFront greetingFrame [] decoded.packet =
          ⟨[], [{ plainPacket [] with payloadLength := 2 }]⟩ := by
    intro k _
    rw [List.take_nil, List.append_nil, deserializePacket_greeting.1]
    exact ⟨_, rfl, by decide +kernel⟩
  exact (steady_reads_alike idleLZ4 greetingFrame).1
    ⟨_, hsteps.tail (.decode holdsFrame_greetingFrame hsame), .inl ⟨.inl (by decide), rfl⟩⟩

theorem greeting_not_reads_alike : ¬ ReadsAlike idleLZ4 greeting := by
  have hsplit : greeting = greetingFrame ++ greeting.drop 23 := (List.take_append_drop 23 _).symm
  rw [hsplit, readsAlike_iff_alikeFrom, alikeFrom_iff_of_steps (steps_greetingFrame _)]
  intro halike
  have hsame := packet_eq_of_alikeFrom holdsFrame_greetingFrame halike
    (show 0 < bufferSize by decide) (show 233 < bufferSize by decide)
    (by rw [List.take_zero, List.append_nil]; exact deserializePacket_greeting.1)
    deserializePacket_greeting.2 (by decide) (by decide)
  exact absurd (congrArg BitchatPacket.payload hsame) (by decide)

/-- A header of version 0, and behind its first byte one of the next smaller size. With the
last byte the decoder finds nothing to decode. -/
def nested : Bytes := List.replicate 11 0 ++ [1, 0, 0, 1] ++ List.replicate 13 0 ++ [9]

theorem steps_nested (rest : Bytes) :
    Relation.ReflTransGen (Step idleLZ4) (.start (nested ++ rest)) ⟨⟨nested, []⟩, rest⟩ := by
  have hwaits : ∀ k < nested.length, Waits ([] ++ nested.take k) := by
    decide +kernel
  exact steps_read hwaits

theorem holdsFrame_nested : HoldsFrame nested := ⟨by decide, by decide, by decide⟩

theorem deserializePacket_nested :
    deserializePacket idleLZ4 nested = .ok ⟨{}, some .packetTooShort⟩ ∧
      deserializePacket idleLZ4 (nested ++ [9]) =
        .ok ⟨{ version := 0, ttl := 0, flags := 1 }, some .sizeMismatch⟩ ∧
      deserializePacket idleLZ4 ((nested ++ [9]).drop 1) = .ok ⟨{}, some .packetTooShort⟩ := by
  decide +kernel

/-- Readers that part may meet again: they take the empty packet from different places. -/
theorem nested_reads_alike :
    ReadsAlike idleLZ4 (nested ++ [9]) ∧ Undecided idleLZ4 (nested ++ [9]) := by
  obtain ⟨hfirst, hmore, hsecond⟩ := deserializePacket_nested
  constructor
  · rw [readsAlike_iff_alikeFrom, alikeFrom_iff_of_steps (steps_nested [9])]
    refine ⟨[{}], fun k hk chunks hchunks => ?_⟩
    rw [resume_ahead holdsFrame_nested]
    cases k with
    | zero =>
        have hafter : afterFront nested [] {} = ⟨[], [{}]⟩ := by decide +kernel
        have hshort : ([] ++ chunks.flatten).length < 21 := by
          rw [hchunks.flatten]
          decide
        rw [List.take_zero, List.append_nil, hfirst]
        change ∃ state, resume idleLZ4 (Position.ahead ⟨afterFront nested [] {}, [9]⟩ 0) chunks =
          .ok state ∧ _
        rw [hafter]
        exact ⟨_, resume_of_short idleLZ4 chunks hshort [{}], rfl⟩
    | succ k =>
        dsimp only at hchunks
        rw [List.drop_succ_cons, List.drop_nil] at hchunks
        obtain rfl := hchunks.eq_nil
        have hafter : afterFront nested [] { version := 0, ttl := 0, flags := 1 } =
            ⟨nested.drop 1, []⟩ := by decide +kernel
        have hlast : afterFront ((nested ++ [9]).drop 1) [] {} =
            ⟨(nested ++ [9]).drop 23, [{}]⟩ := by decide +kernel
        have hholds : HoldsFrame ((nested ++ [9]).drop 1) := ⟨by decide, by decide, by decide⟩
        rw [List.take_succ_cons, List.take_nil, hmore]
        change ∃ state, resume idleLZ4 (Position.ahead ⟨afterFront nested []
          { version := 0, ttl := 0, flags := 1 }, [9]⟩ (k + 1)) [] = .ok state ∧ _
        rw [hafter, Position.ahead, List.take_succ_cons, List.take_nil]
        change ∃ state, resume idleLZ4 ⟨(nested ++ [9]).drop 1, []⟩ [] = .ok state ∧ _
        rw [resume_of_holdsFrame hholds, hsecond]
        change ∃ state, resume idleLZ4 (afterFront ((nested ++ [9]).drop 1) [] {}) [] =
          .ok state ∧ _
        rw [hlast]
        exact ⟨_, resume_of_short idleLZ4 [] (by decide) [{}], rfl⟩
  · refine ⟨_, steps_nested [9], .inl ⟨holdsFrame_nested, 1, by decide, 0, by decide, _, _,
      hmore, hfirst, ?_, ?_⟩⟩
    · exact .inl rfl
    · decide

end Bitchat.LinuxBluetoothNetwork
