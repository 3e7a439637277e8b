import Bitchat.StreamReader
import Mathlib.Data.List.SplitLengths

/-!
# Packets in a stream

The padded frames of some packets are written one behind the other, and the reader at the
other end gets them cut into chunks. The reader counts one byte less than a frame has, gives
the decoder whatever else it has read already, and leaves the padding in its buffer. So it
matters how much has been read when the first packet is decoded, and what is left behind it.
-/

namespace Bitchat.LinuxBluetoothNetwork

open ByteCursor PacketSerializer MessagePadding

/-- A packet and the random bytes of its padding. -/
structure Transmission where
  packet : BitchatPacket
  padding : ℕ → UInt8

def Transmission.bytes (lz4 : LZ4) (t : Transmission) : Bytes :=
  serializePacket lz4 t.padding t.packet

structure Streamable (lz4 : LZ4) (packet : BitchatPacket) : Prop where
  version : packet.version = 1
  isCompressed : packet.isCompressed = false
  padAppends : PadAppends (serializeFrame lz4 packet).length

/-- The reader survives the chunks and has received what was sent: one packet for each
transmission, the one its bytes are decoded to. -/
def DeliversAll (lz4 : LZ4) (sent : List Transmission) (chunks : List Bytes) : Prop :=
  ∃ state, readerThreadFunc lz4 returning chunks = .ok state ∧
    List.Forall₂ (fun t packet => ∃ error,
      deserializePacket lz4 (t.bytes lz4) = .ok ⟨packet, error⟩) sent state.received

section Frame

variable {lz4 : LZ4} {packet : BitchatPacket}

theorem deserializePacket_bytes (h : Streamable lz4 packet) (padding : ℕ → UInt8) :
    deserializePacket lz4 (serializePacket lz4 padding packet) =
      .ok (wireDecoded lz4 packet) := by
  have hw := length_wirePayload_of_padAppends h.padAppends
  rw [deserializePacket, unpad_serializePacket lz4 padding h.padAppends,
    decodeFrame_eq_wireDecoded (flagHolds_of_plain lz4 h.isCompressed) (by omega)]

theorem deliversAll_iff {sent : List Transmission} (h : ∀ t ∈ sent, Streamable lz4 t.packet)
    (chunks : List Bytes) :
    DeliversAll lz4 sent chunks ↔ ∃ state, readerThreadFunc lz4 returning chunks = .ok state ∧
      state.received = sent.map fun t => (wireDecoded lz4 t.packet).packet := by
  have hforall : ∀ received, List.Forall₂ (fun t packet => ∃ error,
      deserializePacket lz4 (Transmission.bytes lz4 t) = .ok ⟨packet, error⟩) sent received ↔
      received = sent.map fun t => (wireDecoded lz4 t.packet).packet := by
    induction sent with
    | nil => intro received; simp
    | cons t sent ih =>
        intro received
        have ht := deserializePacket_bytes (h t List.mem_cons_self) t.padding
        have hrest := ih fun t ht => h t (List.mem_cons_of_mem _ ht)
        rw [List.forall₂_cons_left_iff, List.map_cons]
        constructor
        · rintro ⟨packet, received, ⟨error, hpacket⟩, hreceived, rfl⟩
          rw [← Except.ok.inj (hpacket.symm.trans ht), (hrest received).mp hreceived]
        · rintro rfl
          exact ⟨_, _, ⟨_, ht⟩, (hrest _).mpr rfl, rfl⟩
  exact exists_congr fun state => and_congr_right fun _ => hforall state.received

theorem frameHeader_of_begins {x w z : Bytes} (hx : x ++ w = serializeFrame lz4 packet ++ z)
    (hlen : 14 ≤ x.length) : frameHeader x = wireHeader lz4 packet := by
  have hframe := length_serializeFrame lz4 packet
  rw [← frameHeader_append hlen w, hx, frameHeader_append (by omega), frameHeader_serializeFrame]

theorem declaredSize_of_begins (h : Streamable lz4 packet) {x w z : Bytes}
    (hx : x ++ w = serializeFrame lz4 packet ++ z) (hlen : 14 ≤ x.length) :
    declaredSize x + 1 = (serializeFrame lz4 packet).length ∧ declaredSize x ≤ maxPacketSize ∧
      (declaredLength x).toNat ≤ maxPacketSize - 21 := by
  have hw := length_wirePayload_of_padAppends h.padAppends
  have hexpected : expectedSize (wireHeader lz4 packet) + 1 = _ :=
    expectedSize_wireHeader lz4 (by omega)
  have hframe : (serializeFrame lz4 packet).length ≤ 2032 := by
    have hpad := h.padAppends
    rw [PadAppends] at hpad
    omega
  have hlength : (wireHeader lz4 packet).payloadLength.toNat = (wirePayload lz4 packet).length := by
    rw [wireHeader, UInt16.toNat_ofNat', Nat.mod_eq_of_lt (by omega)]
  rw [declaredSize_eq hlen, declaredLength_eq hlen, frameHeader_of_begins hx hlen, hlength,
    maxPacketSize]
  omega

/-- As long as the frame is not there by the measure of the reader, the buffer is kept. -/
theorem processing_waits (h : Streamable lz4 packet) {x w z : Bytes}
    (hx : x ++ w = serializeFrame lz4 packet ++ z)
    (hlt : x.length + 1 < (serializeFrame lz4 packet).length) (received : List BitchatPacket) :
    (processing lz4 returning).run ⟨x, received⟩ = .ok ⟨x, received⟩ := by
  by_cases hlen : 14 ≤ x.length
  · obtain ⟨hsize, hmax, hlength⟩ := declaredSize_of_begins h hx hlen
    exact processing_of_lt lz4 returning (show x.length < declaredSize x by omega) hmax hlength
  · exact processing_of_short lz4 returning (show x.length < 21 by omega)

theorem foldlM_receive_waits (h : Streamable lz4 packet) (chunks : List Bytes) {x w z : Bytes}
    (hx : x ++ chunks.flatten ++ w = serializeFrame lz4 packet ++ z)
    (hlt : (x ++ chunks.flatten).length + 1 < (serializeFrame lz4 packet).length)
    (received : List BitchatPacket) :
    chunks.foldlM (receive lz4 returning) ⟨x, received⟩ = .ok ⟨x ++ chunks.flatten, received⟩ := by
  induction chunks generalizing x with
  | nil => rw [List.flatten_nil, List.append_nil]; rfl
  | cons chunk chunks ih =>
      rw [List.flatten_cons, ← List.append_assoc] at hx hlt ⊢
      have hwait : receive lz4 returning ⟨x, received⟩ chunk = .ok ⟨x ++ chunk, received⟩ := by
        rw [List.append_assoc] at hx
        rw [List.length_append] at hlt
        exact processing_waits h hx (by omega) received
      rw [List.foldlM_cons, hwait]
      exact ih hx hlt

/-- Whatever of the buffer reaches the decoder, the packet has the version of the frame. -/
theorem not_badVersion_of_begins (h : Streamable lz4 packet) {x w z : Bytes}
    (hx : x ++ w = serializeFrame lz4 packet ++ z) {decoded : Decoded}
    (hd : deserializePacket lz4 x = .ok decoded) : ¬ BadVersion decoded.packet := by
  have hversion : decoded.packet.version = 1 := by
    obtain ⟨k, hk, hunpad⟩ := unpad_eq_take x
    rcases decodeFrame_header hd with hempty | ⟨hlen, hversion, -⟩
    · rw [hempty]
      rfl
    · rw [hunpad, List.length_take] at hlen
      rw [hversion, hunpad, frameHeader_take (by omega) hk, frameHeader_of_begins hx (by omega)]
      exact h.version
  rw [BadVersion, hversion]
  decide

theorem senderID_wireDecoded (lz4 : LZ4) (packet : BitchatPacket) :
    (wireDecoded lz4 packet).packet.senderID ≠ [] := by
  have hlen := length_resize packet.senderID 8
  intro h
  change resize packet.senderID 8 = [] at h
  rw [h] at hlen
  cases hlen

theorem decodeFrame_take_ne (h : Streamable lz4 packet) {k : ℕ}
    (hk : k < (serializeFrame lz4 packet).length) {decoded : Decoded}
    (hd : decodeFrame lz4 ((serializeFrame lz4 packet).take k) = .ok decoded) :
    decoded.packet ≠ (wireDecoded lz4 packet).packet := by
  intro heq
  have hw := length_wirePayload_of_padAppends h.padAppends
  have hexpected : expectedSize (wireHeader lz4 packet) + 1 = _ :=
    expectedSize_wireHeader lz4 (by omega)
  have hsender := senderID_wireDecoded lz4 packet
  rw [← heq] at hsender
  have hlen : 21 ≤ k := by
    rcases decodeFrame_header hd with hempty | ⟨hlen, -⟩
    · rw [hempty] at hsender
      exact absurd rfl hsender
    · rw [List.length_take] at hlen
      omega
  have hheader : frameHeader ((serializeFrame lz4 packet).take k) = wireHeader lz4 packet := by
    rw [frameHeader_take (by omega) hk.le, frameHeader_serializeFrame]
  have hneeded := lt_length_of_decodeFrame hd hsender
  rw [hheader, List.length_take, hasSignature_wireHeader] at hneeded
  have hlong := not_short_wireHeader (flagHolds_of_plain lz4 h.isCompressed) (by omega)
  have hroom := hneeded hlong ?_ ?_
  · omega
  · intro hplain
    rw [isCompressed_wireHeader (flagHolds_of_plain lz4 h.isCompressed)] at hplain
    have hpayload : decoded.packet.payload = wirePayload lz4 packet := by
      rw [heq, wireDecoded, wireDecompressed, wirePayload, hplain]
      rfl
    rw [hpayload, wireHeader, UInt16.toNat_ofNat', Nat.mod_eq_of_lt (by omega)]
  · intro hsigned hnone
    have hsignature : decoded.packet.signature = wireSignature packet := by
      rw [heq]
      rfl
    have hlen := length_wireSignature packet
    rw [← hsignature, hnone, if_pos hsigned] at hlen
    cases hlen

end Frame

/-- How many bytes have been read when at least `bound` of them are there. -/
def readWhen (bound : ℕ) : List ℕ → ℕ
  | [] => 0
  | size :: sizes => if bound ≤ size then size else size + readWhen (bound - size) sizes

theorem exists_first_read {chunks : List Bytes} {bound : ℕ} (hpos : 0 < bound)
    (h : bound ≤ chunks.flatten.length) :
    ∃ before chunk after, chunks = before ++ chunk :: after ∧ before.flatten.length < bound ∧
      bound ≤ (before.flatten ++ chunk).length ∧
      (before.flatten ++ chunk).length = readWhen bound (chunks.map List.length) := by
  induction chunks generalizing bound with
  | nil => exact absurd h (Nat.not_le.mpr hpos)
  | cons chunk chunks ih =>
      rw [List.map_cons, readWhen]
      by_cases hle : bound ≤ chunk.length
      · rw [if_pos hle]
        exact ⟨[], chunk, chunks, rfl, hpos, hle, rfl⟩
      · rw [List.flatten_cons, List.length_append] at h
        obtain ⟨before, last, after, rfl, hlt, hge, hread⟩ :=
          ih (show 0 < bound - chunk.length by omega) (by omega)
        refine ⟨chunk :: before, last, after, rfl, ?_, ?_, ?_⟩
        · rw [List.flatten_cons, List.length_append]
          omega
        · rw [List.flatten_cons, List.append_assoc, List.length_append]
          omega
        · rw [if_neg hle, ← hread, List.flatten_cons, List.append_assoc, List.length_append]

/-- The reader with some bytes in its buffer, before it has looked at them. -/
def resume (lz4 : LZ4) (state : ReaderState) (chunks : List Bytes) :
    Except OutOfBounds ReaderState :=
  ((processing lz4 returning).run state).bind fun state =>
    chunks.foldlM (receive lz4 returning) state

/-- What the look at the buffer establishes, with a view to the chunks that are still to be
read, and what every chunk keeps, holds at the end. -/
theorem resume_invariant {lz4 : LZ4} (Inv : List Bytes → ReaderState → Prop)
    {chunks : List Bytes} {start state : ReaderState}
    (hstart : ∀ s, (processing lz4 returning).run start = .ok s → Inv chunks s)
    (hstep : ∀ buf rest s s', Inv (buf :: rest) s →
      (processing lz4 returning).run { s with accumulatedData := s.accumulatedData ++ buf } =
        .ok s' → Inv rest s')
    (hrun : resume lz4 start chunks = .ok state) : Inv [] state := by
  rw [resume] at hrun
  cases hp : (processing lz4 returning).run start with
  | error e => rw [hp] at hrun; cases hrun
  | ok s =>
      rw [hp] at hrun
      exact Except.foldlM_invariant Inv hstep (hstart s hp) hrun

theorem received_resume {lz4 : LZ4} {state state' : ReaderState} {chunks : List Bytes}
    (h : resume lz4 state chunks = .ok state') : state.received <+: state'.received := by
  refine resume_invariant (fun _ s => state.received <+: s.received)
    (fun _ hs => received_processing hs) ?_ h
  intro buf rest s s' hinv hs
  have hread := received_processing hs
  exact hinv.trans hread

/-- The first packet is what the decoder makes of the buffer when all but one byte of the
frame are there, and the reader goes on behind that part of the frame. -/
theorem readerThreadFunc_first {lz4 : LZ4} {packet : BitchatPacket} (h : Streamable lz4 packet)
    {chunks : List Bytes} {z : Bytes} (hchunks : chunks.flatten = serializeFrame lz4 packet ++ z) :
    ∃ buffer after, buffer ++ after.flatten = serializeFrame lz4 packet ++ z ∧
      buffer.length = readWhen ((serializeFrame lz4 packet).length - 1)
        (chunks.map List.length) ∧
      (serializeFrame lz4 packet).length ≤ buffer.length + 1 ∧
      readerThreadFunc lz4 returning chunks =
        (deserializePacket lz4 buffer).bind fun decoded =>
          resume lz4 ⟨buffer.drop ((serializeFrame lz4 packet).length - 1), [decoded.packet]⟩
            after := by
  have hframe := length_serializeFrame lz4 packet
  have hall : (serializeFrame lz4 packet).length - 1 ≤ chunks.flatten.length := by
    rw [hchunks, List.length_append]
    omega
  obtain ⟨before, chunk, after, rfl, hlt, hge, hread⟩ := exists_first_read (by omega) hall
  have hbuffer : before.flatten ++ chunk ++ after.flatten = serializeFrame lz4 packet ++ z := by
    rw [← hchunks, List.flatten_append, List.flatten_cons, List.append_assoc]
  refine ⟨before.flatten ++ chunk, after, hbuffer, hread, by omega, ?_⟩
  have hwaits : before.foldlM (receive lz4 returning) {} = .ok ⟨before.flatten, []⟩ := by
    rw [List.append_assoc] at hbuffer
    exact foldlM_receive_waits h before hbuffer (by rw [List.nil_append]; omega) []
  obtain ⟨hdeclared, hmax, hlength⟩ := declaredSize_of_begins h hbuffer (by omega)
  have hreceive : receive lz4 returning ⟨before.flatten, []⟩ chunk = _ :=
    processing_of_holdsFrame lz4 (show 21 ≤ (before.flatten ++ chunk).length by omega)
      ⟨by omega, hmax, hlength⟩ []
  rw [readerThreadFunc, List.foldlM_append, hwaits]
  change (chunk :: after).foldlM (receive lz4 returning) ⟨before.flatten, []⟩ = _
  rw [List.foldlM_cons, hreceive]
  cases hd : deserializePacket lz4 (before.flatten ++ chunk) with
  | error e => rfl
  | ok decoded =>
      have hafter : afterFront (before.flatten ++ chunk) [] decoded.packet =
          ⟨(before.flatten ++ chunk).drop ((serializeFrame lz4 packet).length - 1),
            [decoded.packet]⟩ := by
        rw [afterFront, if_neg (not_badVersion_of_begins h hbuffer hd), ← hdeclared,
          Nat.add_sub_cancel]
        rfl
      change ((processing lz4 returning).run (afterFront _ [] decoded.packet)).bind _ = _
      rw [hafter]
      rfl

def sentBytes (lz4 : LZ4) (sent : List Transmission) : Bytes :=
  sent.flatMap fun t => t.bytes lz4

def paddingBytes (padding : ℕ → UInt8) (n : ℕ) : Bytes :=
  (List.range (optimalBlockSize n - n - 1)).map padding ++ [UInt8.ofNat (optimalBlockSize n - n)]

theorem bytes_eq {lz4 : LZ4} {t : Transmission} (h : Streamable lz4 t.packet) :
    t.bytes lz4 = serializeFrame lz4 t.packet ++
      paddingBytes t.padding (serializeFrame lz4 t.packet).length := by
  obtain ⟨hlo, hhi⟩ := (padAppends_iff _).mp h.padAppends
  rw [Transmission.bytes, serializePacket, pad_of_appends t.padding hlo hhi, paddingBytes,
    List.append_assoc]

theorem length_paddingBytes (padding : ℕ → UInt8) {n : ℕ} (h : PadAppends n) :
    (paddingBytes padding n).length = optimalBlockSize n - n := by
  have hn := (padAppends_iff n).mp h
  rw [paddingBytes, List.length_append, List.length_map, List.length_range,
    List.length_singleton]
  omega

/-- If everything is delivered, the first packet is decoded rightly from the buffer it is
found in, and the reader goes on with the last byte of its frame. -/
theorem first_of_deliversAll {lz4 : LZ4} {t : Transmission} {sent : List Transmission}
    (h : ∀ t' ∈ t :: sent, Streamable lz4 t'.packet) {chunks : List Bytes}
    (hchunks : chunks.flatten = sentBytes lz4 (t :: sent))
    (hdelivers : DeliversAll lz4 (t :: sent) chunks) :
    ∃ buffer after state,
      buffer ++ after.flatten = serializeFrame lz4 t.packet ++
        (paddingBytes t.padding (serializeFrame lz4 t.packet).length ++ sentBytes lz4 sent) ∧
      buffer.length = readWhen ((serializeFrame lz4 t.packet).length - 1)
        (chunks.map List.length) ∧
      (serializeFrame lz4 t.packet).length ≤ buffer.length + 1 ∧
      (∃ decoded, deserializePacket lz4 buffer = .ok decoded ∧
        decoded.packet = (wireDecoded lz4 t.packet).packet) ∧
      resume lz4 ⟨buffer.drop ((serializeFrame lz4 t.packet).length - 1),
        [(wireDecoded lz4 t.packet).packet]⟩ after = .ok state ∧
      state.received = (t :: sent).map fun t => (wireDecoded lz4 t.packet).packet := by
  have ht := h t List.mem_cons_self
  rw [sentBytes, List.flatMap_cons, bytes_eq ht, List.append_assoc] at hchunks
  obtain ⟨buffer, after, hbuffer, hread, hlen, hrun⟩ := readerThreadFunc_first ht hchunks
  obtain ⟨state, hstate, hreceived⟩ := (deliversAll_iff h chunks).mp hdelivers
  rw [hrun] at hstate
  cases hd : deserializePacket lz4 buffer with
  | error e => rw [hd] at hstate; cases hstate
  | ok decoded =>
      rw [hd] at hstate
      change resume lz4 _ after = _ at hstate
      have hfirst : [decoded.packet] <+: state.received := received_resume hstate
      rw [hreceived, List.map_cons] at hfirst
      have hpacket := (List.cons_prefix_cons.mp hfirst).1
      rw [hpacket] at hstate
      exact ⟨buffer, after, state, hbuffer, hread, hlen, ⟨decoded, hd, hpacket⟩, hstate, hreceived⟩

end Bitchat.LinuxBluetoothNetwork
