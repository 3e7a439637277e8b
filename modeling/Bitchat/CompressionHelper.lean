import Bitchat.StringHelper

/-!
# LZ4 compression

The LZ4 library is a parameter. Its two codecs are seen through the bytes they write:
`compressDefault` writes nothing when `LZ4_compress_default` returns 0, and
`decompressSafe` is `none` when `LZ4_decompress_safe` returns a negative number.
-/

namespace Bitchat

structure LZ4 where
  compressBound : ℕ → ℕ
  compressDefault (src : Bytes) (dstCapacity : ℕ) : Bytes
  decompressSafe (src : Bytes) (dstCapacity : ℕ) : Option Bytes

/-- A successful compression is undone into any buffer that has room for the original. -/
def LZ4.Inverts (lz4 : LZ4) : Prop :=
  ∀ (src : Bytes) (dstCapacity n : ℕ), lz4.compressDefault src dstCapacity ≠ [] →
    src.length ≤ n → lz4.decompressSafe (lz4.compressDefault src dstCapacity) n = some src

/-- The codec that can compress `data`, to `block`, and nothing else. -/
def LZ4.ofBlock (data block : Bytes) : LZ4 where
  compressBound n := n + n / 255 + 16
  compressDefault src _ := if src = data then block else []
  decompressSafe src dstCapacity :=
    if src = block ∧ data.length ≤ dstCapacity then some data else none

theorem LZ4.ofBlock_inverts (data block : Bytes) : (LZ4.ofBlock data block).Inverts := by
  intro src dstCapacity n hne hn
  by_cases hsrc : src = data
  · subst hsrc
    simp [LZ4.ofBlock, hn]
  · exact absurd (if_neg hsrc) hne

/-- The block of data in which no four bytes come twice: how many bytes there are, and the bytes
as they are. -/
def literalBlock (data : Bytes) : Bytes :=
  if data.length < 15 then UInt8.ofNat (16 * data.length) :: data
  else 0xF0 :: (List.replicate ((data.length - 15) / 255) 0xFF ++
    UInt8.ofNat ((data.length - 15) % 255) :: data)

/-- The data behind the count. -/
def literals : Bytes → Bytes
  | [] => []
  | token :: block => if token < 0xF0 then block else (block.dropWhile (· = 0xFF)).tail

theorem literals_literalBlock (data : Bytes) : literals (literalBlock data) = data := by
  rw [literalBlock]
  split_ifs with hshort
  · have htoken : UInt8.ofNat (16 * data.length) < 0xF0 := by
      rw [UInt8.lt_iff_toNat_lt, UInt8.toNat_ofNat', Nat.mod_eq_of_lt (by omega)]
      change _ < 240
      omega
    exact if_pos htoken
  · have hlast : UInt8.ofNat ((data.length - 15) % 255) ≠ 0xFF := by
      rw [Ne, ← UInt8.toNat_inj, UInt8.toNat_ofNat', Nat.mod_eq_of_lt (by omega)]
      change ¬ _ = 255
      omega
    rw [literals, if_neg (by decide), List.dropWhile_append_of_pos (by simp),
      List.dropWhile_cons_of_neg (by simpa using hlast), List.tail_cons]

theorem length_literalBlock {data : Bytes} (h : 15 ≤ data.length) :
    (literalBlock data).length = data.length + 2 + (data.length - 15) / 255 := by
  rw [literalBlock, if_neg (Nat.not_lt.mpr h), List.length_cons, List.length_append,
    List.length_replicate, List.length_cons]
  omega

theorem literalBlock_ne_nil (data : Bytes) : literalBlock data ≠ [] := by
  rw [literalBlock]
  split_ifs
  · exact List.cons_ne_nil _ _
  · exact List.cons_ne_nil _ _

/-- LZ4 on such data. -/
def LZ4.storing : LZ4 where
  compressBound n := n + n / 255 + 16
  compressDefault src _ := literalBlock src
  decompressSafe src dstCapacity :=
    if (literals src).length ≤ dstCapacity then some (literals src) else none

theorem LZ4.storing_inverts : LZ4.storing.Inverts := by
  intro src dstCapacity n _ hn
  change (if (literals (literalBlock src)).length ≤ n then some (literals (literalBlock src))
    else none) = _
  rw [literals_literalBlock, if_pos hn]

/-- Bytes in which LZ4 finds nothing twice. -/
def noise (k : ℕ) : UInt8 :=
  let x := UInt32.ofNat k * 0x9E3779B1
  let y := (x ^^^ (x >>> 15)) * 0x85EBCA77
  (y ^^^ (y >>> 13)).toUInt8

namespace CompressionHelper

def compressionThreshold : ℕ := 100

def shouldCompress (data : Bytes) : Bool := decide (data.length > compressionThreshold)

def calculateCompressionBound (lz4 : LZ4) (dataSize : ℕ) : ℕ := lz4.compressBound dataSize

def compressData (lz4 : LZ4) (data : Bytes) : Bytes :=
  if !shouldCompress data then data
  else
    let compressedBound := calculateCompressionBound lz4 data.length
    let compressedData := lz4.compressDefault data compressedBound
    if compressedData.length ≤ 0 then data else compressedData

def decompressData (lz4 : LZ4) (compressedData : Bytes) (originalSize : ℕ) : Bytes :=
  match lz4.decompressSafe compressedData originalSize with
  | none => []
  | some decompressedData => decompressedData

theorem shouldCompress_iff (data : Bytes) : shouldCompress data = true ↔ 100 < data.length := by
  simp [shouldCompress, compressionThreshold]

theorem compressData_of_short (lz4 : LZ4) {data : Bytes} (h : data.length ≤ 100) :
    compressData lz4 data = data := by
  have hs : shouldCompress data = false := by
    rw [Bool.eq_false_iff, Ne, shouldCompress_iff]
    omega
  rw [compressData, hs]
  rfl

/-- Above the threshold the result is the codec's, or the data itself if that failed. -/
theorem compressData_of_long (lz4 : LZ4) {data : Bytes} (h : 100 < data.length) :
    compressData lz4 data = if lz4.compressDefault data (lz4.compressBound data.length) = []
      then data else lz4.compressDefault data (lz4.compressBound data.length) := by
  rw [compressData, (shouldCompress_iff data).mpr h]
  simp only [Bool.not_true, Bool.false_eq_true, if_false, calculateCompressionBound,
    Nat.le_zero_eq, List.length_eq_zero_iff]

theorem compressData_ofBlock {data block : Bytes} (h : 100 < data.length) (hblock : block ≠ []) :
    compressData (.ofBlock data block) data = block := by
  have hcompress : (LZ4.ofBlock data block).compressDefault data
      ((LZ4.ofBlock data block).compressBound data.length) = block := if_pos rfl
  rw [compressData_of_long _ h, hcompress, if_neg hblock]

theorem compressData_storing {data : Bytes} (h : 100 < data.length) :
    compressData .storing data = literalBlock data := by
  rw [compressData_of_long _ h]
  exact if_neg (literalBlock_ne_nil data)

/-- A result shorter than the data is the codec's own, so it can be undone. -/
theorem decompressSafe_compressData {lz4 : LZ4} (hlz4 : lz4.Inverts) {data : Bytes} {n : ℕ}
    (hn : data.length ≤ n) (h : (compressData lz4 data).length < data.length) :
    lz4.decompressSafe (compressData lz4 data) n = some data := by
  have hlong : 100 < data.length := by
    by_contra hs
    rw [compressData_of_short lz4 (by omega)] at h
    omega
  rw [compressData_of_long lz4 hlong] at h ⊢
  split_ifs at h ⊢ with he
  · omega
  · exact hlz4 data _ n he hn

end CompressionHelper

end Bitchat
