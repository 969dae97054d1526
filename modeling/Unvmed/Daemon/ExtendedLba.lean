import Unvmed.Daemon.ReadWrite
import Unvmed.Lib.Bytes
import Unvmed.Lib.Interleave

/-!
The contents of extended LBAs (`unvme_write` and `unvme_read` in `src/unvmed-cmds.c`).

With `NVME_FORMAT_MSET_EXTENDED` the metadata of a block follows its data in the transfer buffer.
`unvme_write` builds that buffer from the two files, block by block, and `unvme_read` takes it apart
again; each loop has a running offset into the buffer and computes its place in the user buffers
from the block's index. Where the copies may leave their buffers is the matter of
`Unvmed.ReadWrite`; here every buffer is a memory of its own.

* `writeLoop_spec`, `readLoop_spec`: the loops interleave and deinterleave the user buffers.
* `extended_round_trip`: they undo each other.
-/

namespace Unvmed.ExtendedLba

open Lib
open ReadWrite (Args nrBlocks sizeT)

/-- `memcpy(dst + d, src + s, n)` -/
def memcpy (dst : Mem) (d : ℕ) (src : Mem) (s n : ℕ) : Mem := copy dst d (fun i => src (s + i)) n

section Loops

variable (lbaSize ms : ℕ)

/-- The loop of `unvme_write`, from block `i` on: the buffer and `offset` after it. The product with
`lba_size` is an `unsigned int`, `offset` an `uint64_t`. -/
def writeLoop (wdata wmdata : Mem) : ℕ → ℕ → ℕ → Mem → Mem × ℕ
  | 0, _, offset, buf => (buf, offset)
  | todo + 1, i, offset, buf =>
      let buf := memcpy buf offset wdata (i * lbaSize % 2 ^ 32) lbaSize
      let offset := (offset + lbaSize) % 2 ^ 64
      let buf := memcpy buf offset wmdata (i * ms) ms
      let offset := (offset + ms) % 2 ^ 64
      writeLoop wdata wmdata todo (i + 1) offset buf

/-- The loop of `unvme_read`, from block `i` on: `rdata` and `rmdata` after it. -/
def readLoop (buf : Mem) : ℕ → ℕ → ℕ → Mem → Mem → Mem × Mem
  | 0, _, _, rdata, rmdata => (rdata, rmdata)
  | todo + 1, i, offset, rdata, rmdata =>
      let rdata := memcpy rdata (i * lbaSize % 2 ^ 32) buf offset lbaSize
      let offset := (offset + lbaSize) % 2 ^ 64
      let rmdata := memcpy rmdata (i * ms) buf offset ms
      let offset := (offset + ms) % 2 ^ 64
      readLoop buf todo (i + 1) offset rdata rmdata

end Loops

/-- What is in the buffers before anything is copied, and behind what is copied. -/
structure Heap where
  wdata : Mem
  wmdata : Mem
  buf : Mem
  rdata : Mem
  rmdata : Mem

/-- A buffer that starts with some bytes, as `unvme_read_file` fills it. -/
def load (bytes : List Byte) (rest : Mem) : Mem := fun i => bytes.getD i (rest i)

section Commands

variable (h : Heap) (a : Args) (lbaSize ms : ℕ)

/-- The buffer that `unvme_write` builds. -/
def interleaved (data metadata : List Byte) : List Byte :=
  let (buf, offset) := writeLoop lbaSize ms (load data h.wdata) (load metadata h.wmdata)
    (nrBlocks a) 0 0 h.buf
  slice buf 0 offset

/-- The data and the metadata that `unvme_read` writes to the files. -/
def deinterleaved (buf : List Byte) : List Byte × List Byte :=
  let (rdata, rmdata) := readLoop lbaSize ms (load buf h.buf) (nrBlocks a) 0 0 h.rdata h.rmdata
  (slice rdata 0 (sizeT a.dataSize.toInt), slice rmdata 0 (sizeT a.metadataSize.toInt))

end Commands

/-! ### The loops -/

section Specs

variable {h : Heap} {a : Args} {lbaSize ms : ℕ}

theorem slice_memcpy (dst src : Mem) (d s n : ℕ) :
    slice (memcpy dst d src s n) d n = slice src s n := by
  rw [memcpy, slice_copy, slice_eq_iff]
  intro i _
  rw [Nat.zero_add]

theorem memcpy_other {dst src : Mem} {d s n i : ℕ} (outside : i < d ∨ d + n ≤ i) :
    memcpy dst d src s n i = dst i := if_neg (by omega)

theorem slice_load (bytes : List Byte) (rest : Mem) :
    slice (load bytes rest) 0 bytes.length = bytes := by
  apply List.ext_getElem
  · exact length_slice _ 0 _
  · intro i inside inside'
    simp [slice, load, List.getD, inside']

/-- While the user buffer has less than `2 ^ 32` bytes, no product and no sum of a block wraps. -/
structure InWords (lbaSize ms todo i offset : ℕ) : Prop where
  data : (i + todo) * lbaSize < 2 ^ 32
  buf : offset + todo * (lbaSize + ms) < 2 ^ 64

theorem InWords.next {todo i offset : ℕ} (fits : InWords lbaSize ms (todo + 1) i offset) :
    InWords lbaSize ms todo (i + 1) (offset + lbaSize + ms) where
  data := by
    rw [Nat.add_assoc, Nat.add_comm 1]
    exact fits.data
  buf := by
    have room := fits.buf
    rw [Nat.succ_mul] at room
    omega

theorem InWords.block {todo i offset : ℕ} (fits : InWords lbaSize ms (todo + 1) i offset) :
    i * lbaSize % 2 ^ 32 = i * lbaSize ∧ (offset + lbaSize) % 2 ^ 64 = offset + lbaSize ∧
      (offset + lbaSize + ms) % 2 ^ 64 = offset + lbaSize + ms := by
  have room := fits.next.buf
  refine ⟨Nat.mod_eq_of_lt ?_, Nat.mod_eq_of_lt (by omega), Nat.mod_eq_of_lt (by omega)⟩
  exact lt_of_le_of_lt (Nat.mul_le_mul_right lbaSize (by omega)) fits.data

theorem InWords.writeLoop {todo i offset : ℕ} (fits : InWords lbaSize ms (todo + 1) i offset)
    (wdata wmdata buf : Mem) :
    writeLoop lbaSize ms wdata wmdata (todo + 1) i offset buf =
      writeLoop lbaSize ms wdata wmdata todo (i + 1) (offset + lbaSize + ms)
        (memcpy (memcpy buf offset wdata (i * lbaSize) lbaSize) (offset + lbaSize) wmdata
          (i * ms) ms) := by
  obtain ⟨index, half, whole⟩ := fits.block
  rw [ExtendedLba.writeLoop, index, half, whole]

theorem InWords.readLoop {todo i offset : ℕ} (fits : InWords lbaSize ms (todo + 1) i offset)
    (buf rdata rmdata : Mem) :
    readLoop lbaSize ms buf (todo + 1) i offset rdata rmdata =
      readLoop lbaSize ms buf todo (i + 1) (offset + lbaSize + ms)
        (memcpy rdata (i * lbaSize) buf offset lbaSize)
        (memcpy rmdata (i * ms) buf (offset + lbaSize) ms) := by
  obtain ⟨index, half, whole⟩ := fits.block
  rw [ExtendedLba.readLoop, index, half, whole]

/-- The loop leaves the bytes before its offset, and from there on interleaves the blocks. -/
theorem writeLoop_spec (wdata wmdata : Mem) {todo i offset : ℕ} (buf : Mem)
    (fits : InWords lbaSize ms todo i offset) :
    ∃ buf', writeLoop lbaSize ms wdata wmdata todo i offset buf =
        (buf', offset + todo * (lbaSize + ms)) ∧
      (∀ k < offset, buf' k = buf k) ∧
      slice buf' offset (todo * (lbaSize + ms)) =
        interleave lbaSize ms todo (slice wdata (i * lbaSize) (todo * lbaSize))
          (slice wmdata (i * ms) (todo * ms)) := by
  induction todo generalizing i offset buf with
  | zero =>
      refine ⟨buf, ?_, fun _ _ => rfl, ?_⟩
      · rw [writeLoop, Nat.zero_mul, Nat.add_zero]
      · rw [Nat.zero_mul, interleave]
        rfl
  | succ todo ih =>
      have block : (todo + 1) * (lbaSize + ms) = lbaSize + (ms + todo * (lbaSize + ms)) := by ring
      rw [fits.writeLoop]
      set first := memcpy buf offset wdata (i * lbaSize) lbaSize with firstDef
      set second := memcpy first (offset + lbaSize) wmdata (i * ms) ms with secondDef
      obtain ⟨buf', eq, before, rest⟩ := ih second fits.next
      refine ⟨buf', ?_, ?_, ?_⟩
      · rw [eq, block]
        congr 1
        omega
      · intro k less
        rw [before k (by omega), secondDef, memcpy_other (by omega), firstDef,
          memcpy_other (by omega)]
      · have data : slice buf' offset lbaSize = slice wdata (i * lbaSize) lbaSize := by
          rw [← slice_memcpy buf wdata offset (i * lbaSize) lbaSize]
          refine slice_congr fun k _ high => ?_
          rw [before k (by omega), secondDef, memcpy_other (by omega)]
        have metadata : slice buf' (offset + lbaSize) ms = slice wmdata (i * ms) ms := by
          rw [← slice_memcpy first wmdata (offset + lbaSize) (i * ms) ms]
          exact slice_congr fun k _ high => before k (by omega)
        rw [block, slice_add, slice_add, data, metadata, rest, Nat.succ_mul todo lbaSize,
          Nat.succ_mul todo ms, Nat.add_comm _ lbaSize, Nat.add_comm _ ms, slice_add,
          slice_add wmdata, interleave_append (length_slice _ _ _) (length_slice _ _ _),
          Nat.succ_mul, Nat.succ_mul]

/-- The loop leaves the user buffers before the current block, and from there on takes the blocks
apart. -/
theorem readLoop_spec (buf : Mem) {todo i offset : ℕ} (rdata rmdata : Mem)
    (fits : InWords lbaSize ms todo i offset) :
    ∃ rdata' rmdata', readLoop lbaSize ms buf todo i offset rdata rmdata = (rdata', rmdata') ∧
      (∀ k < i * lbaSize, rdata' k = rdata k) ∧ (∀ k < i * ms, rmdata' k = rmdata k) ∧
      (slice rdata' (i * lbaSize) (todo * lbaSize), slice rmdata' (i * ms) (todo * ms)) =
        deinterleave lbaSize ms todo (slice buf offset (todo * (lbaSize + ms))) := by
  induction todo generalizing i offset rdata rmdata with
  | zero =>
      refine ⟨rdata, rmdata, rfl, fun _ _ => rfl, fun _ _ => rfl, ?_⟩
      rw [Nat.zero_mul, Nat.zero_mul, deinterleave]
      rfl
  | succ todo ih =>
      have block : (todo + 1) * (lbaSize + ms) = lbaSize + (ms + todo * (lbaSize + ms)) := by ring
      rw [fits.readLoop]
      obtain ⟨rdata', rmdata', eq, before, before', rest⟩ :=
        ih (memcpy rdata (i * lbaSize) buf offset lbaSize)
          (memcpy rmdata (i * ms) buf (offset + lbaSize) ms) fits.next
      rw [Nat.succ_mul] at before before'
      rw [Nat.succ_mul, Nat.succ_mul] at rest
      refine ⟨rdata', rmdata', eq, ?_, ?_, ?_⟩
      · intro k less
        rw [before k (by omega), memcpy_other (.inl less)]
      · intro k less
        rw [before' k (by omega), memcpy_other (.inl less)]
      · have data : slice rdata' (i * lbaSize) lbaSize = slice buf offset lbaSize := by
          rw [← slice_memcpy rdata buf (i * lbaSize) offset lbaSize]
          exact slice_congr fun k _ high => before k high
        have metadata : slice rmdata' (i * ms) ms = slice buf (offset + lbaSize) ms := by
          rw [← slice_memcpy rmdata buf (i * ms) (offset + lbaSize) ms]
          exact slice_congr fun k _ high => before' k high
        rw [block, slice_add buf, slice_add buf,
          deinterleave_append (length_slice _ _ _) (length_slice _ _ _), ← rest,
          Nat.succ_mul todo lbaSize, Nat.succ_mul todo ms, Nat.add_comm _ lbaSize,
          Nat.add_comm _ ms, slice_add, slice_add rmdata', data, metadata]

end Specs

/-! ### The round trip -/

section Main

variable {h : Heap} {a : Args} {lbaSize ms n : ℕ}

/-- The sizes that a command for `n` blocks gives. They are `int`, so no product in the loops
wraps. -/
structure Whole (a : Args) (lbaSize ms n : ℕ) : Prop where
  nlb : a.nlb.toInt + 1 = n
  data : a.dataSize.toInt = (n * lbaSize : ℕ)
  metadata : a.metadataSize.toInt = (n * ms : ℕ)
  ms_pos : 0 < ms

theorem Whole.data_lt (whole : Whole a lbaSize ms n) : n * lbaSize < 2 ^ 31 := by
  have high := BitVec.toInt_lt (x := a.dataSize)
  have size := whole.data
  omega

theorem Whole.metadata_lt (whole : Whole a lbaSize ms n) : n * ms < 2 ^ 31 := by
  have high := BitVec.toInt_lt (x := a.metadataSize)
  have size := whole.metadata
  omega

theorem Whole.nrBlocks (whole : Whole a lbaSize ms n) : nrBlocks a = n := by
  have le : n ≤ n * ms := Nat.le_mul_of_pos_right n whole.ms_pos
  have small := whole.metadata_lt
  have nlb := whole.nlb
  have one : (1 : BitVec 32).toInt = 1 := rfl
  have sum : (a.nlb + 1).toInt = n := by
    rw [BitVec.toInt_add, one, nlb]
    exact Int.bmod_eq_of_le (by omega) (by omega)
  rw [ReadWrite.nrBlocks, sum, Int.toNat_natCast]

theorem Whole.sizeT_data (whole : Whole a lbaSize ms n) : sizeT a.dataSize.toInt = n * lbaSize := by
  have small := whole.data_lt
  rw [whole.data, ReadWrite.sizeT_of_nonneg (by omega) (by omega), Int.toNat_natCast]

theorem Whole.sizeT_metadata (whole : Whole a lbaSize ms n) :
    sizeT a.metadataSize.toInt = n * ms := by
  have small := whole.metadata_lt
  rw [whole.metadata, ReadWrite.sizeT_of_nonneg (by omega) (by omega), Int.toNat_natCast]

theorem Whole.inWords (whole : Whole a lbaSize ms n) : InWords lbaSize ms n 0 0 := by
  have small := whole.data_lt
  have small' := whole.metadata_lt
  constructor
  · rw [Nat.zero_add]
    omega
  · rw [Nat.mul_add]
    omega

/-- `unvme_write` interleaves the files. -/
theorem interleaved_eq (whole : Whole a lbaSize ms n) {data metadata : List Byte}
    (len : data.length = n * lbaSize) (len' : metadata.length = n * ms) :
    interleaved h a lbaSize ms data metadata = interleave lbaSize ms n data metadata := by
  obtain ⟨buf, eq, -, built⟩ :=
    writeLoop_spec (load data h.wdata) (load metadata h.wmdata) h.buf whole.inWords
  simp only [Nat.zero_mul] at built
  rw [interleaved, whole.nrBlocks, eq]
  change slice buf 0 (0 + n * (lbaSize + ms)) = _
  rw [Nat.zero_add, built, ← len, slice_load, ← len', slice_load]

/-- `unvme_read` deinterleaves the buffer. -/
theorem deinterleaved_eq (whole : Whole a lbaSize ms n) {buf : List Byte}
    (len : buf.length = n * (lbaSize + ms)) :
    deinterleaved h a lbaSize ms buf = deinterleave lbaSize ms n buf := by
  obtain ⟨rdata, rmdata, eq, -, -, taken⟩ :=
    readLoop_spec (load buf h.buf) h.rdata h.rmdata whole.inWords
  simp only [Nat.zero_mul] at taken
  rw [deinterleaved, whole.nrBlocks, eq]
  change (slice rdata 0 (sizeT a.dataSize.toInt), slice rmdata 0 (sizeT a.metadataSize.toInt)) = _
  rw [whole.sizeT_data, whole.sizeT_metadata, taken, ← len, slice_load]

/-- For every number of blocks and every format with metadata, the buffer that `unvme_write` builds
has the bytes of all blocks, `unvme_read` gets the files back from it, and `unvme_write` gets any
such buffer back from what `unvme_read` takes out of it. -/
theorem extended_round_trip (h h' : Heap) (a : Args) (lbaSize ms : ℕ) (pos : 0 < ms)
    (dataSize : a.dataSize.toInt = (a.nlb.toInt + 1) * lbaSize)
    (metadataSize : a.metadataSize.toInt = (a.nlb.toInt + 1) * ms) :
    (∀ data metadata : List Byte, (data.length : ℤ) = a.dataSize.toInt →
      (metadata.length : ℤ) = a.metadataSize.toInt →
      ((interleaved h a lbaSize ms data metadata).length : ℤ) =
          (a.nlb.toInt + 1) * (lbaSize + ms) ∧
        deinterleaved h' a lbaSize ms (interleaved h a lbaSize ms data metadata) =
          (data, metadata)) ∧
      ∀ buf : List Byte, (buf.length : ℤ) = (a.nlb.toInt + 1) * (lbaSize + ms) →
        interleaved h a lbaSize ms (deinterleaved h' a lbaSize ms buf).1
          (deinterleaved h' a lbaSize ms buf).2 = buf := by
  -- a negative number of blocks has no files
  have whole (nonneg : 0 ≤ a.nlb.toInt + 1) :
      ∃ n : ℕ, a.nlb.toInt + 1 = n ∧ Whole a lbaSize ms n := by
    obtain ⟨n, nlb⟩ := Int.eq_ofNat_of_zero_le nonneg
    refine ⟨n, nlb, nlb, ?_, ?_, pos⟩
    · rw [dataSize, nlb, Nat.cast_mul]
    · rw [metadataSize, nlb, Nat.cast_mul]
  constructor
  · intro data metadata len len'
    have nonneg : 0 ≤ a.nlb.toInt + 1 := by
      refine nonneg_of_mul_nonneg_left (b := (ms : ℤ)) ?_ (by omega)
      omega
    obtain ⟨n, nlb, whole⟩ := whole nonneg
    have len : data.length = n * lbaSize := by
      have size := whole.data
      omega
    have len' : metadata.length = n * ms := by
      have size := whole.metadata
      omega
    have built := interleaved_eq (h := h) whole len len'
    have length := length_interleave len len'
    rw [built]
    constructor
    · rw [length, nlb, Nat.cast_mul, Nat.cast_add]
    · rw [deinterleaved_eq whole length, deinterleave_interleave len len']
  · intro buf len
    have nonneg : 0 ≤ a.nlb.toInt + 1 := by
      refine nonneg_of_mul_nonneg_left (b := ((lbaSize : ℤ) + ms)) ?_ (by omega)
      omega
    obtain ⟨n, nlb, whole⟩ := whole nonneg
    have len : buf.length = n * (lbaSize + ms) := by
      rw [nlb] at len
      exact_mod_cast len
    obtain ⟨first, second⟩ := length_deinterleave len
    rw [deinterleaved_eq whole len, interleaved_eq whole first second,
      interleave_deinterleave len]

/-- Two blocks of 2 bytes with 1 byte of metadata. -/
theorem extended_round_trip_two :
    let h : Heap := ⟨fun _ => 0, fun _ => 0, fun _ => 0, fun _ => 0, fun _ => 0⟩
    let a : Args :=
      { nlb := 1, dataSize := 4, metadataSize := 2, prp1Offset := 0, metadata := true }
    interleaved h a 2 1 [1, 2, 3, 4] [8, 9] = [1, 2, 8, 3, 4, 9] ∧
      deinterleaved h a 2 1 (interleaved h a 2 1 [1, 2, 3, 4] [8, 9]) = ([1, 2, 3, 4], [8, 9]) :=
  ⟨by decide, ((extended_round_trip _ _ _ 2 1 (by decide) (by decide) (by decide)).1
    [1, 2, 3, 4] [8, 9] (by decide) (by decide)).2⟩

end Main

end Unvmed.ExtendedLba
