import Bitchat.MessageFields

/-!
# Encoding a decoded message again

Whatever the parser accepts lies within the limits of the encoder, so a message that is
encoded a second time comes back unchanged. The exception is encrypted content: the encoder
writes the content of a message, and the parser stores it as encrypted content.
-/

namespace Bitchat.PacketSerializer

open ByteCursor StringHelper

theorem with_content_eq_iff (message : BitchatMessage) (content encryptedContent : Bytes) :
    { message with content, encryptedContent } = message ↔
      content = message.content ∧ encryptedContent = message.encryptedContent := by
  cases message
  simp

/-- A parsed message with an ID survives another round unless it is encrypted and its payload
has content. -/
theorem parse_make_parse_iff (uuid x : Bytes) (message : BitchatMessage)
    (h : parseMessagePayload x = .ok ⟨message, none⟩) (hid : message.id ≠ []) :
    parseMessagePayload (makeMessagePayload uuid message) = .ok ⟨message, none⟩ ↔
      (x.getD 0 0 &&& 0x80 != 0) = false ∨ contentLength x = 0 := by
  obtain ⟨hwithin, hencrypted, hset, hplain⟩ := within_of_parse h
  rw [parse_make_within uuid hwithin hid, ← hencrypted]
  rw [Except.ok.injEq, ParsedMessage.mk.injEq, and_iff_left rfl, with_content_eq_iff]
  cases hflag : message.isEncrypted with
  | false => exact iff_of_true ⟨rfl, (hplain hflag).symm⟩ (.inl rfl)
  | true =>
      obtain ⟨hempty, hlength⟩ := hset hflag
      rw [or_iff_right (by decide), ← hlength, List.length_eq_zero_iff, hempty]
      simp only [if_true, true_and]
      exact eq_comm

def plainPayload : Bytes := List.replicate 9 0 ++ [1, 0x6D, 0, 0, 0]

theorem parse_make_parse_plain :
    parseMessagePayload (makeMessagePayload [] { id := [0x6D] }) = .ok ⟨{ id := [0x6D] }, none⟩ ↔
      (plainPayload.getD 0 0 &&& 0x80 != 0) = false ∨ contentLength plainPayload = 0 :=
  parse_make_parse_iff [] plainPayload { id := [0x6D] } (by decide +kernel) (by decide)

/-- An encrypted message of one byte loses it. -/
theorem parse_make_parse_encrypted :
    ¬ ∀ (uuid x : Bytes) (message : BitchatMessage),
      parseMessagePayload x = .ok ⟨message, none⟩ → message.id ≠ [] →
      parseMessagePayload (makeMessagePayload uuid message) = .ok ⟨message, none⟩ := by
  intro h
  have hlost := h [] (0x80 :: List.replicate 8 0 ++ [1, 0x6D, 0, 0, 1, 0x2A])
    { id := [0x6D], isEncrypted := true, encryptedContent := [0x2A] } (by decide +kernel)
    (by decide)
  exact absurd hlost (by decide +kernel)

end Bitchat.PacketSerializer
