import Bitchat.StreamFraming
import Mathlib.Data.List.GetD

/-!
# What the reader leaves behind

Behind the first packet the buffer begins with the last byte of its frame and the padding.
Less than 21 bytes stay there for good, so a single packet with little padding is delivered
if it is decoded from the right bytes. Anything more is read as another header, and some
choice of the random bytes makes a packet of it that nobody sent.
-/

namespace Bitchat.LinuxBluetoothNetwork

open ByteCursor PacketSerializer MessagePadding

/-- The buffer at the time of the first packet is the frame with or without its padding, and
in the second case the decoder finds no padding in it. -/
def ReadInTime (lz4 : LZ4) (packet : BitchatPacket) (sizes : List ℕ) : Prop :=
  let frame := serializeFrame lz4 packet
  let size := readWhen (frame.length - 1) sizes
  size = optimalBlockSize frame.length ∨ size = frame.length ∧ unpad frame = frame

instance (lz4 : LZ4) (packet : BitchatPacket) (sizes : List ℕ) :
    Decidable (ReadInTime lz4 packet sizes) := inferInstanceAs (Decidable (_ ∨ _))

theorem foldlM_receive_of_short (lz4 : LZ4) (chunks : List Bytes) {data : Bytes}
    (h : (data ++ chunks.flatten).length < 21) (received : List BitchatPacket) :
    chunks.foldlM (receive lz4 returning) ⟨data, received⟩ =
      .ok ⟨data ++ chunks.flatten, received⟩ := by
  induction chunks generalizing data with
  | nil => rw [List.flatten_nil, List.append_nil]; rfl
  | cons chunk chunks ih =>
      rw [List.flatten_cons, ← List.append_assoc] at h ⊢
      have hshort : (data ++ chunk).length < 21 := by
        rw [List.length_append] at h
        omega
      have hstay : receive lz4 returning ⟨data, received⟩ chunk = .ok ⟨data ++ chunk, received⟩ :=
        processing_of_short lz4 returning hshort
      rw [List.foldlM_cons, hstay]
      exact ih h

theorem resume_of_short (lz4 : LZ4) (chunks : List Bytes) {data : Bytes}
    (h : (data ++ chunks.flatten).length < 21) (received : List BitchatPacket) :
    resume lz4 ⟨data, received⟩ chunks = .ok ⟨data ++ chunks.flatten, received⟩ := by
  have hshort : data.length < 21 := by
    rw [List.length_append] at h
    omega
  have hstay : (processing lz4 returning).run ⟨data, received⟩ = .ok ⟨data, received⟩ :=
    processing_of_short lz4 returning hshort
  rw [resume, hstay]
  exact foldlM_receive_of_short lz4 chunks h received

theorem deliversAll_single {lz4 : LZ4} {t : Transmission} (h : Streamable lz4 t.packet)
    {chunks : List Bytes} (hchunks : chunks.flatten = sentBytes lz4 [t])
    (hpadding : optimalBlockSize (serializeFrame lz4 t.packet).length ≤
      (serializeFrame lz4 t.packet).length + 19)
    (hread : ReadInTime lz4 t.packet (chunks.map List.length)) :
    DeliversAll lz4 [t] chunks := by
  have hn := (padAppends_iff _).mp h.padAppends
  have hsent : sentBytes lz4 [t] = serializeFrame lz4 t.packet ++
      paddingBytes t.padding (serializeFrame lz4 t.packet).length := by
    rw [sentBytes, List.flatMap_cons, List.flatMap_nil, List.append_nil, bytes_eq h]
  have hlength := length_paddingBytes t.padding h.padAppends
  rw [hsent] at hchunks
  obtain ⟨buffer, after, hbuffer, hsize, hlen, hrun⟩ := readerThreadFunc_first h hchunks
  have hall := congrArg List.length hbuffer
  rw [List.length_append, List.length_append, hlength] at hall
  have hdecoded : deserializePacket lz4 buffer = .ok (wireDecoded lz4 t.packet) := by
    rw [ReadInTime, ← hsize] at hread
    rcases hread with hread | ⟨hread, hunpad⟩
    · have hend : after.flatten = [] := List.length_eq_zero_iff.mp (by omega)
      rw [hend, List.append_nil, ← bytes_eq h] at hbuffer
      rw [hbuffer]
      exact deserializePacket_bytes h t.padding
    · obtain rfl := (List.append_inj hbuffer hread).1
      have hw := length_wirePayload_of_padAppends h.padAppends
      rw [deserializePacket, hunpad,
        decodeFrame_eq_wireDecoded (flagHolds_of_plain lz4 h.isCompressed) (by omega)]
  rw [deliversAll_iff (by simpa using h), hrun, hdecoded]
  refine ⟨_, resume_of_short lz4 after ?_ _, rfl⟩
  rw [List.length_append, List.length_drop]
  omega

/-- Random bytes that cut one byte off the frame, at whichever of them the buffer ends. -/
def cutting (i : ℕ) : UInt8 := UInt8.ofNat (i + 2)

theorem toNat_cutting {i : ℕ} (hi : i < 254) : (cutting i).toNat = i + 2 := by
  rw [cutting, UInt8.toNat_ofNat', Nat.mod_eq_of_lt (by omega)]

theorem unpad_frame_cutting {frame : Bytes} {i : ℕ} (hi : i < 254) (hframe : 0 < frame.length) :
    unpad (frame ++ (List.range (i + 1)).map cutting) = frame.take (frame.length - 1) := by
  have hlen : (frame ++ (List.range i).map cutting).length = frame.length + i := by
    rw [List.length_append, List.length_map, List.length_range]
  have hcut : frame.length + i + 1 - (i + 2) = frame.length - 1 := by omega
  rw [List.range_succ, List.map_append, List.map_singleton, ← List.append_assoc,
    unpad_concat_of_toNat (toNat_cutting hi) (by omega) (by omega), hlen, hcut,
    List.take_append_of_le_length (by omega)]

theorem take_paddingBytes (padding : ℕ → UInt8) {n k : ℕ} (hk : k < optimalBlockSize n - n) :
    (paddingBytes padding n).take k = (List.range k).map padding := by
  rw [paddingBytes, List.take_append_of_le_length (by simp; omega), ← List.map_take,
    List.take_range, Nat.min_eq_left (by omega)]

/-- The buffer is not yet the frame with its padding, and if it is the bare frame, the
decoder takes its last byte for padding. -/
theorem exists_unpad_eq_take {lz4 : LZ4} {packet : BitchatPacket} (h : Streamable lz4 packet)
    {buffer rest : Bytes}
    (hbuffer : buffer ++ rest = serializeFrame lz4 packet ++
      paddingBytes cutting (serializeFrame lz4 packet).length)
    (hread : ¬ (buffer.length = optimalBlockSize (serializeFrame lz4 packet).length ∨
      buffer.length = (serializeFrame lz4 packet).length ∧
        unpad (serializeFrame lz4 packet) = serializeFrame lz4 packet)) :
    ∃ k < (serializeFrame lz4 packet).length,
      unpad buffer = (serializeFrame lz4 packet).take k := by
  have hn := (padAppends_iff _).mp h.padAppends
  have hframe := length_serializeFrame lz4 packet
  have hlength := length_paddingBytes cutting h.padAppends
  have hall := congrArg List.length hbuffer
  rw [List.length_append, List.length_append, hlength] at hall
  have htake : buffer = (serializeFrame lz4 packet ++
      paddingBytes cutting (serializeFrame lz4 packet).length).take buffer.length := by
    rw [← hbuffer, List.take_left]
  obtain ⟨j, hj, hunpad⟩ := unpad_eq_take buffer
  rcases Nat.lt_trichotomy buffer.length (serializeFrame lz4 packet).length with hlt | heq | hgt
  · rw [List.take_append_of_le_length hlt.le] at htake
    refine ⟨min j buffer.length, by omega, ?_⟩
    rw [hunpad, htake, List.take_take, List.length_take, Nat.min_eq_left hlt.le]
  · have hsame : buffer = serializeFrame lz4 packet := (List.append_inj hbuffer heq).1
    rw [hsame] at hunpad hj ⊢
    refine ⟨j, Nat.lt_of_le_of_ne hj fun hjn => hread (.inr ⟨heq, ?_⟩), hunpad⟩
    rw [hunpad, hjn, List.take_length]
  · obtain ⟨i, hi⟩ : ∃ i, buffer.length = (serializeFrame lz4 packet).length + (i + 1) :=
      ⟨buffer.length - (serializeFrame lz4 packet).length - 1, by omega⟩
    have hlt : i + 1 < optimalBlockSize (serializeFrame lz4 packet).length -
        (serializeFrame lz4 packet).length := by
      have hne := (not_or.mp hread).1
      omega
    rw [hi, List.take_length_add_append, take_paddingBytes cutting hlt] at htake
    refine ⟨(serializeFrame lz4 packet).length - 1, by omega, ?_⟩
    rw [htake, unpad_frame_cutting (by omega) (by omega)]

/-- Before all of a frame and its padding is there, the decoder sees a part of the frame, or
it can be made to see one. -/
theorem not_deliversAll_of_not_readInTime {lz4 : LZ4} {packet : BitchatPacket}
    (h : Streamable lz4 packet) {chunks : List Bytes}
    (hchunks : chunks.flatten = sentBytes lz4 [⟨packet, cutting⟩])
    (hread : ¬ ReadInTime lz4 packet (chunks.map List.length)) :
    ¬ DeliversAll lz4 [⟨packet, cutting⟩] chunks := by
  intro hdelivers
  obtain ⟨buffer, after, state, hbuffer, hsize, hlen, ⟨decoded, hd, hpacket⟩, -, -⟩ :=
    first_of_deliversAll (by simpa using h) hchunks hdelivers
  obtain ⟨k, hk, hunpad⟩ := exists_unpad_eq_take h (by simpa [sentBytes] using hbuffer)
    (by rwa [ReadInTime, ← hsize] at hread)
  rw [deserializePacket, hunpad] at hd
  exact decodeFrame_take_ne h hk hd hpacket

/-- Random bytes that make a header behind the last byte of a frame: one of version 1 with the
given type and without a payload. From the place on where they cannot be part of the header,
they cut off everything that is before them in the buffer. -/
def confusing (last type : UInt8) (i : ℕ) : UInt8 :=
  if i = 0 then if last = 1 then type else 1
  else if i = 1 then type
  else if i < 14 then 0
  else cutting i

/-- The buffer begins with a header without a payload and without optional fields. -/
structure BareHeader (data : Bytes) : Prop where
  length : 21 ≤ data.length
  flags : data.getD 11 0 = 0
  high : data.getD 12 0 = 0
  low : data.getD 13 0 = 0

theorem BareHeader.declaredSize_eq {data : Bytes} (h : BareHeader data) :
    declaredSize data = 21 ∧ declaredLength data = 0 := by
  have hlength : declaredLength data = 0 := by
    rw [declaredLength, h.high, h.low]
    rfl
  refine ⟨?_, hlength⟩
  rw [declaredSize, h.flags, hlength]
  rfl

theorem BareHeader.holdsFrame {data : Bytes} (h : BareHeader data) : HoldsFrame data := by
  obtain ⟨hsize, hlength⟩ := h.declaredSize_eq
  refine ⟨hsize ▸ h.length, ?_, ?_⟩
  · rw [hsize]
    decide
  · rw [hlength]
    decide

/-- What the decoder returns is the empty packet, or has version and type of the header. -/
def DecodedFrom (data : Bytes) (packet : BitchatPacket) : Prop :=
  packet = {} ∨ packet.version = data.getD 0 0 ∧ packet.type = data.getD 1 0

theorem decodedFrom_of_deserializePacket {lz4 : LZ4} {data : Bytes} {decoded : Decoded}
    (h : deserializePacket lz4 data = .ok decoded) : DecodedFrom data decoded.packet := by
  obtain ⟨k, hk, hunpad⟩ := unpad_eq_take data
  rcases decodeFrame_header h with hempty | ⟨hlen, hheader⟩
  · exact .inl hempty
  · rw [hunpad, List.length_take] at hlen
    rw [hunpad, frameHeader_take (by omega) hk] at hheader
    exact .inr hheader

theorem BareHeader.processing_ok {lz4 : LZ4} {data : Bytes} (h : BareHeader data)
    {received : List BitchatPacket} {state : ReaderState}
    (hrun : (processing lz4 returning).run ⟨data, received⟩ = .ok state) :
    ∃ packet, DecodedFrom data packet ∧
      (processing lz4 returning).run (afterFront data received packet) = .ok state := by
  rw [processing_of_holdsFrame lz4 h.length h.holdsFrame] at hrun
  cases hd : deserializePacket lz4 data with
  | error e => rw [hd] at hrun; cases hrun
  | ok decoded =>
      rw [hd] at hrun
      exact ⟨decoded.packet, decodedFrom_of_deserializePacket hd, hrun⟩

theorem getD_paddingBytes (padding : ℕ → UInt8) {n i : ℕ} (hi : i + 1 < optimalBlockSize n - n)
    (z : Bytes) : (paddingBytes padding n ++ z).getD i 0 = padding i := by
  have hlen : i < ((List.range (optimalBlockSize n - n - 1)).map padding).length := by
    rw [List.length_map, List.length_range]
    omega
  rw [paddingBytes, List.append_assoc, List.getD_append _ _ _ _ hlen,
    List.getD_eq_getElem _ _ hlen, List.getElem_map, List.getElem_range]

theorem le_padding {n : ℕ} (h : PadAppends n) : 16 ≤ optimalBlockSize n - n := by
  rw [optimalBlockSize_eq]
  rw [PadAppends] at h
  split_ifs <;> omega

theorem eq_one_of_not_badVersion {version : UInt8} (h : ¬ (version = 0 ∨ version > 1)) :
    version = 1 := by
  have hall : ∀ b : UInt8, ¬ (b = 0 ∨ b > 1) → b = 1 := forall_byte (by decide +kernel)
  exact hall version h

section Leftover

variable {last type : UInt8} {n : ℕ} {x rest z : Bytes}

theorem bareHeader_of_leftover (hpad : PadAppends n)
    (hx : x ++ rest = last :: (paddingBytes (confusing last type) n ++ z)) (hlen : 21 ≤ x.length) :
    BareHeader x ∧ x.getD 0 0 = last ∧ x.getD 1 0 = confusing last type 0 := by
  have hk := le_padding hpad
  have hbyte : ∀ i, i < 15 → x.getD i 0 =
      (last :: (paddingBytes (confusing last type) n ++ z)).getD i 0 := by
    intro i hi
    rw [← hx, List.getD_append _ _ _ _ (by omega)]
  have hpadding : ∀ i, i < 14 → x.getD (i + 1) 0 = confusing last type i := by
    intro i hi
    rw [hbyte (i + 1) (by omega), List.getD_cons_succ, getD_paddingBytes _ (by omega)]
  exact ⟨⟨hlen, hpadding 10 (by decide), hpadding 11 (by decide), hpadding 12 (by decide)⟩,
    hbyte 0 (by decide), hpadding 0 (by decide)⟩

theorem bareHeader_of_shifted (hpad : PadAppends n)
    (hx : x ++ rest = paddingBytes (confusing last type) n ++ z) (hlen : 21 ≤ x.length) :
    BareHeader x ∧ x.getD 0 0 = confusing last type 0 ∧ x.getD 1 0 = type := by
  have hk := le_padding hpad
  have hpadding : ∀ i, i < 15 → x.getD i 0 = confusing last type i := by
    intro i hi
    have hi' : i + 1 < optimalBlockSize n - n := by omega
    rw [← getD_paddingBytes (confusing last type) hi' z, ← hx, List.getD_append _ _ _ _ (by omega)]
  exact ⟨⟨hlen, hpadding 11 (by decide), hpadding 12 (by decide), hpadding 13 (by decide)⟩,
    hpadding 0 (by decide), hpadding 1 (by decide)⟩

/-- Behind the first packet the buffer begins with what the first packet has left, with or
without its first byte, or a packet has been received that cannot be the second one. -/
inductive Astray (last type : UInt8) (tail : Bytes) (first : BitchatPacket) (rest : Bytes)
    (state : ReaderState) : Prop where
  | leftover (hreceived : state.received = [first])
      (hdata : state.accumulatedData ++ rest = last :: tail)
  | shifted (hreceived : state.received = [first]) (hlast : last ≠ 1)
      (hdata : state.accumulatedData ++ rest = tail)
  | wrong (packet : BitchatPacket) (hpacket : packet = {} ∨ packet.type = type)
      (hreceived : [first, packet] <+: state.received)

theorem astray_of_accepted {lz4 : LZ4} {tail rest data : Bytes} {first packet : BitchatPacket}
    {state : ReaderState} (hpacket : packet = {} ∨ packet.type = type)
    (hversion : ¬ BadVersion packet)
    (hrun : (processing lz4 returning).run (afterFront data [first] packet) = .ok state) :
    Astray last type tail first rest state := by
  rw [afterFront, if_neg hversion] at hrun
  exact .wrong packet hpacket (received_processing hrun)

theorem astray_processing_shifted {lz4 : LZ4} (hpad : PadAppends n) (hlast : last ≠ 1)
    {first : BitchatPacket} {state : ReaderState}
    (hx : x ++ rest = paddingBytes (confusing last type) n ++ z)
    (hrun : (processing lz4 returning).run ⟨x, [first]⟩ = .ok state) :
    Astray last type (paddingBytes (confusing last type) n ++ z) first rest state := by
  by_cases hlen : 21 ≤ x.length
  · obtain ⟨hheader, hversion, htype⟩ := bareHeader_of_shifted hpad hx hlen
    obtain ⟨packet, hfrom, hrun⟩ := hheader.processing_ok hrun
    have hone : packet.version = 1 := by
      rcases hfrom with rfl | ⟨hv, -⟩
      · rfl
      · rw [hv, hversion, confusing, if_pos rfl, if_neg hlast]
    refine astray_of_accepted ?_ (by rw [BadVersion, hone]; decide) hrun
    exact hfrom.imp id fun h => h.2.trans htype
  · rw [processing_of_short lz4 returning (Nat.lt_of_not_le hlen)] at hrun
    cases hrun
    exact .shifted rfl hlast hx

theorem astray_processing_leftover {lz4 : LZ4} (hpad : PadAppends n) {first : BitchatPacket}
    {state : ReaderState} (hx : x ++ rest = last :: (paddingBytes (confusing last type) n ++ z))
    (hrun : (processing lz4 returning).run ⟨x, [first]⟩ = .ok state) :
    Astray last type (paddingBytes (confusing last type) n ++ z) first rest state := by
  by_cases hlen : 21 ≤ x.length
  · obtain ⟨hheader, hversion, htype⟩ := bareHeader_of_leftover hpad hx hlen
    obtain ⟨packet, hfrom, hrun⟩ := hheader.processing_ok hrun
    by_cases hbad : BadVersion packet
    · rcases hfrom with rfl | ⟨hv, -⟩
      · exact absurd hbad (by decide)
      have hlast : last ≠ 1 := by
        rintro rfl
        rw [BadVersion, hv, hversion] at hbad
        exact absurd hbad (by decide)
      rw [afterFront, if_pos hbad] at hrun
      cases x with
      | nil => cases hlen
      | cons c x => exact astray_processing_shifted hpad hlast (List.cons.inj hx).2 hrun
    · refine astray_of_accepted (hfrom.imp id ?_) hbad hrun
      rintro ⟨hv, ht⟩
      rw [BadVersion, hv, hversion] at hbad
      rw [ht, htype, confusing, if_pos rfl, if_pos (eq_one_of_not_badVersion hbad)]
  · rw [processing_of_short lz4 returning (Nat.lt_of_not_le hlen)] at hrun
    cases hrun
    exact .leftover rfl hx

theorem astray_processing {lz4 : LZ4} (hpad : PadAppends n) {first : BitchatPacket}
    {state state' : ReaderState}
    (h : Astray last type (paddingBytes (confusing last type) n ++ z) first rest state)
    (hrun : (processing lz4 returning).run state = .ok state') :
    Astray last type (paddingBytes (confusing last type) n ++ z) first rest state' := by
  obtain ⟨data, received⟩ := state
  cases h with
  | leftover hreceived hdata =>
      cases hreceived
      exact astray_processing_leftover hpad hdata hrun
  | shifted hreceived hlast hdata =>
      cases hreceived
      exact astray_processing_shifted hpad hlast hdata hrun
  | wrong packet hpacket hreceived =>
      exact .wrong packet hpacket (hreceived.trans (received_processing hrun))

theorem Astray.append {tail buf : Bytes} {first : BitchatPacket} {state : ReaderState}
    (h : Astray last type tail first (buf ++ rest) state) :
    Astray last type tail first rest
      { state with accumulatedData := state.accumulatedData ++ buf } := by
  cases h with
  | leftover hreceived hdata => exact .leftover hreceived (by rw [List.append_assoc, hdata])
  | shifted hreceived hlast hdata =>
      exact .shifted hreceived hlast (by rw [List.append_assoc, hdata])
  | wrong packet hpacket hreceived => exact .wrong packet hpacket hreceived

theorem astray_resume {lz4 : LZ4} (hpad : PadAppends n) {first : BitchatPacket}
    {chunks : List Bytes} {state : ReaderState}
    (hx : x ++ chunks.flatten = last :: (paddingBytes (confusing last type) n ++ z))
    (hrun : resume lz4 ⟨x, [first]⟩ chunks = .ok state) :
    Astray last type (paddingBytes (confusing last type) n ++ z) first [] state :=
  resume_invariant
    (fun chunks state => Astray last type (paddingBytes (confusing last type) n ++ z) first
      chunks.flatten state)
    (fun _ hs => astray_processing_leftover hpad hx hs)
    (fun _ _ _ _ hinv hs => astray_processing hpad hinv.append hs) hrun

end Leftover

theorem drop_append_eq {buffer rest frame w : Bytes} {last : UInt8}
    (h : buffer ++ rest = frame ++ w) (hlen : frame.length ≤ buffer.length + 1)
    (hlast : frame.getLast? = some last) :
    buffer.drop (frame.length - 1) ++ rest = last :: w := by
  obtain ⟨init, rfl⟩ := List.getLast?_eq_some_iff.mp hlast
  rw [List.length_append, List.length_singleton] at hlen
  rw [List.length_append, List.length_singleton, Nat.add_sub_cancel,
    ← List.drop_append_of_le_length (by omega), h, List.append_assoc, List.drop_left]
  rfl

theorem not_deliversAll_of_second {lz4 : LZ4} {packet : BitchatPacket} {t : Transmission}
    {sent : List Transmission} {last type : UInt8}
    (h : ∀ t' ∈ ⟨packet, confusing last type⟩ :: t :: sent, Streamable lz4 t'.packet)
    (hlast : (serializeFrame lz4 packet).getLast? = some last) (htype : t.packet.type ≠ type)
    {chunks : List Bytes}
    (hchunks : chunks.flatten = sentBytes lz4 (⟨packet, confusing last type⟩ :: t :: sent)) :
    ¬ DeliversAll lz4 (⟨packet, confusing last type⟩ :: t :: sent) chunks := by
  intro hdelivers
  obtain ⟨buffer, after, state, hbuffer, -, hlen, -, hresume, hreceived⟩ :=
    first_of_deliversAll h hchunks hdelivers
  dsimp only at hbuffer hlen hresume
  have hpad := (h _ List.mem_cons_self).padAppends
  have hx : buffer.drop ((serializeFrame lz4 packet).length - 1) ++ after.flatten =
      last :: (paddingBytes (confusing last type) (serializeFrame lz4 packet).length ++
        sentBytes lz4 (t :: sent)) :=
    drop_append_eq hbuffer hlen hlast
  cases astray_resume hpad hx hresume with
  | leftover hshort hdata => rw [hreceived] at hshort; cases hshort
  | shifted hshort _ hdata => rw [hreceived] at hshort; cases hshort
  | wrong second hsecond hwrong =>
      rw [hreceived] at hwrong
      obtain ⟨-, hwrong⟩ := List.cons_prefix_cons.mp hwrong
      obtain ⟨rfl, -⟩ := List.cons_prefix_cons.mp hwrong
      rcases hsecond with hempty | hsame
      · exact senderID_wireDecoded lz4 t.packet (congrArg BitchatPacket.senderID hempty)
      · exact htype hsame

/-- Once the buffer could hold a packet, all of it is taken for padding, or all but one byte. -/
theorem length_unpad_confusing {last type : UInt8} {n : ℕ} (hpad : PadAppends n) {x rest : Bytes}
    (hx : x ++ rest = last :: paddingBytes (confusing last type) n) (hlen : 21 ≤ x.length) :
    (unpad x).length ≤ 1 := by
  have hk := le_padding hpad
  have hn := (padAppends_iff n).mp hpad
  have hlength := length_paddingBytes (confusing last type) hpad
  have hall := congrArg List.length hx
  rw [List.length_append, List.length_cons, hlength] at hall
  have htake : x = (last :: paddingBytes (confusing last type) n).take x.length := by
    rw [← hx, List.take_left]
  obtain ⟨i, hi⟩ : ∃ i, x.length = i + 1 + 1 := ⟨x.length - 2, by omega⟩
  rw [hi, List.take_succ_cons] at htake
  by_cases hend : i + 1 < optimalBlockSize n - n
  · have hcutting : confusing last type i = cutting i := by
      rw [confusing, if_neg (by omega), if_neg (by omega), if_neg (by omega)]
    rw [take_paddingBytes _ hend, List.range_succ, List.map_append, List.map_singleton,
      ← List.cons_append, hcutting] at htake
    rw [htake, unpad_concat_of_toNat (toNat_cutting (by omega)) (by omega) (by simp)]
    simp
  · have hvalue : (UInt8.ofNat (optimalBlockSize n - n)).toNat = optimalBlockSize n - n := by
      rw [UInt8.toNat_ofNat', Nat.mod_eq_of_lt (by omega)]
    rw [List.take_of_length_le (by omega), paddingBytes, ← List.cons_append] at htake
    rw [htake, unpad_concat_of_toNat hvalue (by omega) (by simp; omega), List.length_take]
    simp only [List.length_cons, List.length_map, List.length_range]
    omega

/-- The reader waits with a part of the padding in its buffer that is too short to look at, or
has received a second packet. -/
inductive InPadding (tail : Bytes) (first : BitchatPacket) (rest : Bytes) (state : ReaderState) :
    Prop where
  | waits (hreceived : state.received = [first]) (hdata : state.accumulatedData ++ rest = tail)
      (hshort : state.accumulatedData.length < 21)
  | received (htwo : 2 ≤ state.received.length)

theorem inPadding_processing {lz4 : LZ4} {last type : UInt8} {n : ℕ} (hpad : PadAppends n)
    {x rest : Bytes} (hx : x ++ rest = last :: paddingBytes (confusing last type) n)
    {first : BitchatPacket} {state : ReaderState}
    (hrun : (processing lz4 returning).run ⟨x, [first]⟩ = .ok state) :
    InPadding (last :: paddingBytes (confusing last type) n) first rest state := by
  by_cases hlen : 21 ≤ x.length
  · have hshort := length_unpad_confusing hpad hx hlen
    have hheader := (bareHeader_of_leftover hpad
      (show x ++ rest = last :: (paddingBytes (confusing last type) n ++ []) by
        rw [hx, List.append_nil]) hlen).1
    have hd : deserializePacket lz4 x = .ok ⟨{}, some .packetTooShort⟩ := by
      rw [deserializePacket, decodeFrame, if_pos (by omega)]
    rw [processing_of_holdsFrame lz4 hlen hheader.holdsFrame, hd] at hrun
    exact .received (received_processing hrun).length_le
  · rw [processing_of_short lz4 returning (Nat.lt_of_not_le hlen)] at hrun
    cases hrun
    exact .waits rfl hx (Nat.lt_of_not_le hlen)

theorem inPadding_resume {lz4 : LZ4} {last type : UInt8} {n : ℕ} (hpad : PadAppends n)
    {x : Bytes} {chunks : List Bytes}
    (hx : x ++ chunks.flatten = last :: paddingBytes (confusing last type) n)
    {first : BitchatPacket} {state : ReaderState}
    (hrun : resume lz4 ⟨x, [first]⟩ chunks = .ok state) :
    InPadding (last :: paddingBytes (confusing last type) n) first [] state := by
  refine resume_invariant
    (fun chunks => InPadding (last :: paddingBytes (confusing last type) n) first chunks.flatten)
    (fun _ hs => inPadding_processing hpad hx hs) ?_ hrun
  rintro buf rest ⟨data, received⟩ s' (⟨hreceived, hdata, -⟩ | htwo) hs
  · cases hreceived
    rw [List.flatten_cons, ← List.append_assoc] at hdata
    exact inPadding_processing hpad hdata hs
  · exact .received (htwo.trans (received_processing hs).length_le)

theorem resume_padding {lz4 : LZ4} {last type : UInt8} {n : ℕ} (hpad : PadAppends n)
    (hpadding : n + 20 ≤ optimalBlockSize n) {x : Bytes} {chunks : List Bytes}
    (hx : x ++ chunks.flatten = last :: paddingBytes (confusing last type) n)
    {first : BitchatPacket} {state : ReaderState}
    (hrun : resume lz4 ⟨x, [first]⟩ chunks = .ok state) : 2 ≤ state.received.length := by
  cases inPadding_resume hpad hx hrun with
  | waits _ hdata hshort =>
      have hall := congrArg List.length hdata
      rw [List.append_nil, List.length_cons, length_paddingBytes _ hpad] at hall
      omega
  | received htwo => exact htwo

theorem not_deliversAll_of_padding {lz4 : LZ4} {packet : BitchatPacket} {last type : UInt8}
    (h : Streamable lz4 packet) (hlast : (serializeFrame lz4 packet).getLast? = some last)
    (hpadding : (serializeFrame lz4 packet).length + 20 ≤
      optimalBlockSize (serializeFrame lz4 packet).length) {chunks : List Bytes}
    (hchunks : chunks.flatten = sentBytes lz4 [⟨packet, confusing last type⟩]) :
    ¬ DeliversAll lz4 [⟨packet, confusing last type⟩] chunks := by
  intro hdelivers
  obtain ⟨buffer, after, state, hbuffer, -, hlen, -, hresume, hreceived⟩ :=
    first_of_deliversAll (by simpa using h) hchunks hdelivers
  have hx := drop_append_eq hbuffer hlen hlast
  rw [sentBytes, List.flatMap_nil, List.append_nil] at hx
  have hlong := resume_padding h.padAppends hpadding hx hresume
  rw [hreceived] at hlong
  exact absurd hlong (by simp)

theorem exists_getLast?_serializeFrame (lz4 : LZ4) (packet : BitchatPacket) :
    ∃ last, (serializeFrame lz4 packet).getLast? = some last := by
  have hlen := length_serializeFrame lz4 packet
  have hne : serializeFrame lz4 packet ≠ [] := List.ne_nil_of_length_pos (by omega)
  exact ⟨_, List.getLast?_eq_some_getLast hne⟩

/-- The bytes are cut into pieces of the given sizes. -/
def IsCut (sizes : List ℕ) (bytes : Bytes) (chunks : List Bytes) : Prop :=
  chunks.flatten = bytes ∧ chunks.map List.length = sizes

theorem exists_isCut {sizes : List ℕ} {bytes : Bytes} (h : sizes.sum = bytes.length) :
    ∃ chunks, IsCut sizes bytes chunks :=
  ⟨sizes.splitLengths bytes, List.flatten_splitLengths _ _ h.ge,
    List.map_splitLengths_length _ _ h.le⟩

theorem length_sentBytes {lz4 : LZ4} {sent : List Transmission}
    (h : ∀ t ∈ sent, Streamable lz4 t.packet) :
    (sentBytes lz4 sent).length = ((sent.map Transmission.packet).map fun packet =>
      optimalBlockSize (serializeFrame lz4 packet).length).sum := by
  induction sent with
  | nil => rfl
  | cons t sent ih =>
      have ht := h t List.mem_cons_self
      obtain ⟨hlo, hhi⟩ := (padAppends_iff _).mp ht.padAppends
      have hbytes : (t.bytes lz4).length = optimalBlockSize (serializeFrame lz4 t.packet).length :=
        length_pad_of_appends t.padding hlo hhi
      rw [sentBytes, List.flatMap_cons, List.length_append, hbytes, List.map_cons, List.map_cons,
        List.sum_cons, ← ih fun t' ht' => h t' (List.mem_cons_of_mem _ ht')]
      rfl

theorem deliversAll_nil (lz4 : LZ4) {chunks : List Bytes} (h : chunks.flatten = []) :
    DeliversAll lz4 [] chunks := by
  have hrun : readerThreadFunc lz4 returning chunks = .ok ⟨[] ++ chunks.flatten, []⟩ :=
    foldlM_receive_of_short lz4 chunks (by rw [h]; decide) []
  exact ⟨_, hrun, .nil⟩

/-- A sequence of packets that is cut at fixed places is delivered, whatever the random bytes,
exactly if it is empty, or a single packet with little padding that is decoded in time. -/
theorem deliversAll_iff_readInTime (lz4 : LZ4) (packets : List BitchatPacket)
    (hpackets : ∀ packet ∈ packets, Streamable lz4 packet) (sizes : List ℕ)
    (hsizes : sizes.sum = (packets.map fun packet =>
      optimalBlockSize (serializeFrame lz4 packet).length).sum) :
    (∀ sent : List Transmission, sent.map Transmission.packet = packets → ∀ chunks,
        IsCut sizes (sentBytes lz4 sent) chunks → DeliversAll lz4 sent chunks) ↔
      packets = [] ∨ ∃ packet, packets = [packet] ∧
        optimalBlockSize (serializeFrame lz4 packet).length ≤
          (serializeFrame lz4 packet).length + 19 ∧ ReadInTime lz4 packet sizes := by
  have hstreamable : ∀ {sent : List Transmission}, sent.map Transmission.packet = packets →
      ∀ t ∈ sent, Streamable lz4 t.packet := by
    rintro sent rfl t ht
    exact hpackets t.packet (List.mem_map_of_mem ht)
  constructor
  · intro hall
    have hdelivers : ∀ sent : List Transmission, sent.map Transmission.packet = packets →
        ∃ chunks, IsCut sizes (sentBytes lz4 sent) chunks ∧ DeliversAll lz4 sent chunks := by
      rintro sent rfl
      obtain ⟨chunks, hchunks⟩ := exists_isCut (hsizes.trans (length_sentBytes
        (hstreamable rfl)).symm)
      exact ⟨chunks, hchunks, hall sent rfl chunks hchunks⟩
    match packets, hdelivers with
    | [], _ => exact .inl rfl
    | [packet], hdelivers =>
        have hpacket := hpackets packet List.mem_cons_self
        obtain ⟨last, hlast⟩ := exists_getLast?_serializeFrame lz4 packet
        refine .inr ⟨packet, rfl, ?_, ?_⟩
        · by_contra hpadding
          obtain ⟨chunks, hchunks, hyes⟩ := hdelivers [⟨packet, confusing last 0⟩] rfl
          exact not_deliversAll_of_padding hpacket hlast (by omega) hchunks.1 hyes
        · by_contra hread
          obtain ⟨chunks, hchunks, hyes⟩ := hdelivers [⟨packet, cutting⟩] rfl
          rw [← hchunks.2] at hread
          exact not_deliversAll_of_not_readInTime hpacket hchunks.1 hread hyes
    | packet :: second :: rest, hdelivers =>
        obtain ⟨last, hlast⟩ := exists_getLast?_serializeFrame lz4 packet
        have hsent : (⟨packet, confusing last (second.type + 1)⟩ :: ⟨second, fun _ => 0⟩ ::
            rest.map fun packet => (⟨packet, fun _ => 0⟩ : Transmission)).map
              Transmission.packet = packet :: second :: rest := by
          simp [Function.comp_def]
        obtain ⟨chunks, hchunks, hyes⟩ := hdelivers _ hsent
        exact absurd hyes (not_deliversAll_of_second (hstreamable hsent) hlast
          (by simp) hchunks.1)
  · rintro (rfl | ⟨packet, rfl, hpadding, hread⟩) sent hsent chunks ⟨hchunks, rfl⟩
    · obtain rfl := List.map_eq_nil_iff.mp hsent
      exact deliversAll_nil lz4 hchunks
    · obtain ⟨t, rfl, rfl⟩ := List.map_eq_singleton_iff.mp hsent
      exact deliversAll_single (hpackets t.packet List.mem_cons_self) hchunks hpadding hread

def idleLZ4 : LZ4 := .ofBlock [] []

def plainPacket (payload : Bytes) : BitchatPacket :=
  { BitchatPacket.make pktTypeMessage payload 1700000000000 with
    senderID := [1, 2, 3, 4, 5, 6, 7, 8] }

/-- The frame has 24 bytes, and the reader takes the first 23 of them for all of it. -/
theorem plainPacket_not_delivered :
    idleLZ4.Inverts ∧ Streamable idleLZ4 (plainPacket [0x68, 0x69]) ∧
      ∃ chunks, IsCut [23, 233] (sentBytes idleLZ4 [⟨plainPacket [0x68, 0x69], cutting⟩]) chunks ∧
        ¬ DeliversAll idleLZ4 [⟨plainPacket [0x68, 0x69], cutting⟩] chunks := by
  have hstreamable : Streamable idleLZ4 (plainPacket [0x68, 0x69]) :=
    ⟨rfl, by decide, by decide +kernel⟩
  obtain ⟨chunks, hchunks⟩ := exists_isCut
    (show [23, 233].sum = (sentBytes idleLZ4 [⟨plainPacket [0x68, 0x69], cutting⟩]).length by
      decide +kernel)
  refine ⟨LZ4.ofBlock_inverts _ _, hstreamable, chunks, hchunks, ?_⟩
  exact not_deliversAll_of_not_readInTime hstreamable hchunks.1 (by
    rw [hchunks.2]
    decide +kernel)

/-- A frame of 237 bytes that is read at once with its 19 bytes of padding. -/
theorem plainPacket_delivered :
    Streamable idleLZ4 (plainPacket (List.replicate 215 0x61)) ∧
      ∀ sent : List Transmission,
        sent.map Transmission.packet = [plainPacket (List.replicate 215 0x61)] → ∀ chunks,
          IsCut [256] (sentBytes idleLZ4 sent) chunks → DeliversAll idleLZ4 sent chunks := by
  have hstreamable : Streamable idleLZ4 (plainPacket (List.replicate 215 0x61)) :=
    ⟨rfl, by decide, by decide +kernel⟩
  exact ⟨hstreamable, (deliversAll_iff_readInTime idleLZ4
    [plainPacket (List.replicate 215 0x61)] (List.forall_mem_singleton.mpr hstreamable) [256]
    (by decide +kernel)).mpr (.inr ⟨_, rfl, by decide +kernel, by decide +kernel⟩)⟩

end Bitchat.LinuxBluetoothNetwork
