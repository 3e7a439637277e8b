import Bitchat.HexCoding
import Bitchat.MessageFields

/-!
# What passes for hexadecimal

A string is decoded piece by piece, and a piece that `std::stoi` accepts need not be two
digits. One decoder throws at a piece that is rejected, the other skips it. Both do what hex
asks for on hexadecimal text; elsewhere it depends on which pieces are accepted.
-/

namespace Bitchat.PacketSerializer

open ByteCursor StringHelper

def HexOnly (s : Bytes) (result : Except Fault Bytes) : Prop :=
  ∀ v, result = .ok v → v = [] ∨ s.length % 2 = 0 ∧ IsHex s ∧ v = denotedBytes s

theorem bytesOfPairs_ne_nil {a b : UInt8} {s v : Bytes}
    (h : bytesOfPairs (a :: b :: s) = .ok v) : v ≠ [] := by
  rw [bytesOfPairs] at h
  cases hvalue : stoi16 [a, b] with
  | error e =>
      rw [hvalue] at h
      cases h
  | ok value =>
      cases hrest : bytesOfPairs s with
      | error e =>
          rw [hvalue, hrest] at h
          cases h
      | ok rest =>
          rw [hvalue, hrest] at h
          cases h
          exact List.cons_ne_nil _ _

/-- Text that is not hexadecimal must be of odd length or have a piece that is rejected. -/
theorem hexOnly_stringToVector_iff (s : Bytes) :
    HexOnly s (stringToVector s) ↔
      s.length % 2 = 1 ∨ IsHex s ∨ ∃ p ∈ pairs s, ¬ AcceptedPair p.1 p.2 := by
  by_cases hodd : s.length % 2 = 1
  · refine iff_of_true (fun v hv => .inl ?_) (.inl hodd)
    rw [stringToVector, if_pos (by omega)] at hv
    cases hv
    rfl
  have heven : s.length % 2 = 0 := by omega
  have hread : stringToVector s = bytesOfPairs s := by rw [stringToVector, if_neg (by omega)]
  rw [hread, or_iff_right hodd]
  by_cases hhex : IsHex s
  · refine iff_of_true (fun v hv => .inr ⟨heven, hhex, ?_⟩) (.inl hhex)
    rw [bytesOfPairs_hex hhex] at hv
    exact (Except.ok.inj hv).symm
  rw [or_iff_right hhex]
  constructor
  · intro honly
    by_contra hnone
    have hall : ∀ p ∈ pairs s, AcceptedPair p.1 p.2 := fun p hp => by
      by_contra hrejected
      exact hnone ⟨p, hp, hrejected⟩
    obtain ⟨v, hv⟩ := (bytesOfPairs_ok_iff s).mpr hall
    rcases honly v hv with rfl | ⟨-, hs, -⟩
    · cases s with
      | nil => exact hhex fun c hc => by cases hc
      | cons a s =>
          cases s with
          | nil => simp at heven
          | cons b s => exact bytesOfPairs_ne_nil hv rfl
    · exact hhex hs
  · rintro ⟨p, hp, hrejected⟩ v hv
    exact (hrejected ((bytesOfPairs_ok_iff s).mp ⟨v, hv⟩ p hp)).elim

def denotedPeerID (field : Bytes) : Bytes :=
  if field.length % 2 = 0 ∧ IsHex field then denotedBytes field else []

theorem parsePeerIDHex_hex {s : Bytes} (h : IsHex s) : parsePeerIDHex s = denotedBytes s := by
  induction s using List.twoStepInduction with
  | nil => rfl
  | singleton a => rfl
  | cons_cons a b s ih =>
      obtain ⟨value, hvalue, hdenoted⟩ := h.stoi16_cons_cons
      rw [parsePeerIDHex, hvalue, ih h.of_cons_cons.2.2, hdenoted]

theorem parsePeerIDHex_eq_nil_iff (s : Bytes) :
    parsePeerIDHex s = [] ↔ ∀ p ∈ pairs s, ¬ AcceptedPair p.1 p.2 := by
  induction s using List.twoStepInduction with
  | nil => exact iff_of_true rfl (by simp [pairs])
  | singleton a => exact iff_of_true rfl (by simp [pairs])
  | cons_cons a b s ih =>
      rw [parsePeerIDHex, pairs, List.forall_mem_cons, ← ih, ← stoi16_pair_ok_iff]
      cases stoi16 [a, b] with
      | ok value => exact iff_of_false (List.cons_ne_nil _ _) fun h => h.1 ⟨value, rfl⟩
      | error e =>
          have hrejected : ¬ ∃ value, (Except.error e : Except Fault ℤ) = .ok value := by
            rintro ⟨value, h⟩
            cases h
          exact (and_iff_right hrejected).symm

theorem parsePeerIDHex_eq_denoted_iff (field : Bytes) :
    parsePeerIDHex field = denotedPeerID field ↔
      field.length % 2 = 0 ∧ IsHex field ∨ ∀ p ∈ pairs field, ¬ AcceptedPair p.1 p.2 := by
  rw [denotedPeerID]
  split_ifs with hhex
  · exact iff_of_true (parsePeerIDHex_hex hhex.2) (.inl hhex)
  · rw [parsePeerIDHex_eq_nil_iff, or_iff_right hhex]

theorem senderPeerID_of_parse {x : Bytes} {message : BitchatMessage}
    (h : parseMessagePayload x = .ok ⟨message, none⟩) :
    message.senderPeerID = parsePeerIDHex (optionalsOf x).peerIDHex := by
  obtain ⟨-, timestamp, messageID, sender, content, -, -, -, rfl⟩ := parse_ok_none h
  rfl

/-- When nothing but hex is accepted, as a string and as the peer ID of a message. -/
theorem hex_decoders_iff (s x : Bytes) (message : BitchatMessage)
    (h : parseMessagePayload x = .ok ⟨message, none⟩) :
    (HexOnly s (stringToVector s) ↔
      s.length % 2 = 1 ∨ IsHex s ∨ ∃ p ∈ pairs s, ¬ AcceptedPair p.1 p.2) ∧
    (message.senderPeerID = denotedPeerID (optionalsOf x).peerIDHex ↔
      (optionalsOf x).peerIDHex.length % 2 = 0 ∧ IsHex (optionalsOf x).peerIDHex ∨
        ∀ p ∈ pairs (optionalsOf x).peerIDHex, ¬ AcceptedPair p.1 p.2) := by
  rw [senderPeerID_of_parse h]
  exact ⟨hexOnly_stringToVector_iff s, parsePeerIDHex_eq_denoted_iff _⟩

def payloadWithPeerID (field : Bytes) : Bytes :=
  0x10 :: List.replicate 8 0 ++ [1, 0x6D, 0, 0, 0, UInt8.ofNat field.length] ++ field

theorem hex_decoders_iff_ab :
    (HexOnly (ascii "ab") (stringToVector (ascii "ab")) ↔
      (ascii "ab").length % 2 = 1 ∨ IsHex (ascii "ab") ∨
        ∃ p ∈ pairs (ascii "ab"), ¬ AcceptedPair p.1 p.2) ∧
    (([0xAB] : Bytes) = denotedPeerID (optionalsOf (payloadWithPeerID (ascii "ab"))).peerIDHex ↔
      (optionalsOf (payloadWithPeerID (ascii "ab"))).peerIDHex.length % 2 = 0 ∧
          IsHex (optionalsOf (payloadWithPeerID (ascii "ab"))).peerIDHex ∨
        ∀ p ∈ pairs (optionalsOf (payloadWithPeerID (ascii "ab"))).peerIDHex,
          ¬ AcceptedPair p.1 p.2) :=
  hex_decoders_iff (ascii "ab") (payloadWithPeerID (ascii "ab"))
    { id := [0x6D], senderPeerID := [0xAB] } (by decide +kernel)

/-- A sign and a digit are a byte, and of four characters that are no hex two make an ID. -/
theorem hex_decoders_lenient :
    (¬ ∀ s, HexOnly s (stringToVector s)) ∧
    ¬ ∀ (x : Bytes) (message : BitchatMessage), parseMessagePayload x = .ok ⟨message, none⟩ →
      message.senderPeerID = denotedPeerID (optionalsOf x).peerIDHex := by
  refine ⟨fun h => ?_, fun h => ?_⟩
  · rcases h (ascii "+1") [1] (by decide +kernel) with hnil | ⟨-, hhex, -⟩
    · cases hnil
    · exact absurd hhex (by decide)
  · have hid := h (payloadWithPeerID (ascii "zz41")) { id := [0x6D], senderPeerID := [0x41] }
      (by decide +kernel)
    exact absurd hid (by decide +kernel)

end Bitchat.PacketSerializer
