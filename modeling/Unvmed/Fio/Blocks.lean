import Unvmed.Fio.PrpList
import Unvmed.Fio.Protect
import Unvmed.Fio.Split

/-!
Block ranges of the fio engine (`src/app/fio/libunvmed-engine.c`).

`libunvmed_init_data` accepts block sizes up to the maximum transfer size of the controller,
`fio_libunvmed_get_file_size` reports the bytes of the namespace without its metadata, and
`fio_libunvmed_rw` and `fio_libunvmed_trim` turn the bytes of an I/O into blocks.

* `encoding_iff`: a read or write denotes its bytes if and only if it has at most 65536 blocks and a
  length of 32 bits; a trim does so if and only if every range has a length of 32 bits.
* `large_write_is_shortened`: with 14 for MDTS, a block size of 64 MiB is accepted, and the number
  of its blocks runs into the directive type.
-/

namespace Unvmed.Blocks

open Lib Unvmed.Pi Unvmed.Protect

/-! ### The job -/

inductive Ddir where
  | read
  | write
  | trim
  deriving DecidableEq, Repr

/-- What `libunvmed_init_data` reads of the options of a job. -/
structure Job where
  minBs : Ddir → ℕ
  maxBs : Ddir → ℕ
  mdPerIoSize : ℕ

/-- Both are `-EINVAL`, like a failure of `unvmed_get_max_xfer_size`. -/
inductive Fail where
  /-- `failed to get maximum transfer size` -/
  | noMaxXferSize
  /-- `bs must be smaller than max_xfer_size (%ld bytes)` -/
  | tooLarge (maxXferSize : ℕ)
  /-- `bs must be multiple of %d` -/
  | notMultiple (lbaSize : ℕ)
  deriving DecidableEq, Repr

/-- `unvmed_get_max_xfer_size` -/
def maxXferSize (mdts mps : ℕ) : BitVec 64 := (1#64 <<< mdts) * PrpList.pagesize mps

/-- The `lba_size` that the block sizes are multiples of. -/
def lbaUnit (ns : Ns) : ℕ := ns.stride % 2 ^ 32

/-- The metadata of the largest transfer of a direction, in 32 bits. -/
def leastMd (ns : Ns) (job : Job) (d : Ddir) : ℕ := job.maxBs d / lbaUnit ns * ns.ms % 2 ^ 32

/-- One round of `for_each_rw_ddir`, with `md_per_io_size` so far. -/
def initDir (ns : Ns) (job : Job) (maxXfer : BitVec 64) (md : ℕ) (d : Ddir) : Except Fail ℕ :=
  if maxXfer.toNat < job.maxBs d then .error (.tooLarge maxXfer.toNat)
  else if job.minBs d % lbaUnit ns ≠ 0 ∨ job.maxBs d % lbaUnit ns ≠ 0 then
    .error (.notMultiple (lbaUnit ns))
  else if d ≠ .trim ∧ ns.ms ≠ 0 ∧ ns.mset = false then .ok (max md (leastMd ns job d))
  else .ok md

/-- The checks of `libunvmed_init_data`: `md_per_io_size` after them. -/
def initBs (ns : Ns) (job : Job) (maxXfer : BitVec 64) : Except Fail ℕ :=
  if maxXfer.msb then .error .noMaxXferSize
  else [Ddir.read, .write, .trim].foldlM (initDir ns job maxXfer) job.mdPerIoSize

/-- `fio_libunvmed_get_file_size` -/
def realFileSize (ns : Ns) (nrLbas : ℕ) : ℕ := ns.lbaSize * nrLbas % 2 ^ 64

/-! ### The flags -/

/-- What `fio_libunvmed_init` reads for `cdw12_flags`. -/
structure FlagOptions extends Split.Options where
  /-- `td_write(td)` -/
  tdWrite : Bool
  dtype : BitVec 32
  readfua : Bool
  lr : Bool

def nvmeIoDtypeStreams : BitVec 32 := 1 <<< 4
def nvmeIoLr : BitVec 32 := 1 <<< 15

/-- The flags of `write_mode`. -/
def modeFlags (f : FlagOptions) : BitVec 32 :=
  match f.writeMode with
  | .zeroes => if f.deac then Split.nvmeIoDeac <<< 16 else 0
  | .write => if f.dtype ≠ 0 then (f.dtype * nvmeIoDtypeStreams) <<< 16 else 0
  | .uncor | .verify => 0

/-- `ld->cdw12_flags` after `fio_libunvmed_init`. -/
def initCdw12 (f : FlagOptions) (d : Ddir) : BitVec 32 :=
  (match d with
    | .read => if f.readfua then Split.nvmeIoFua <<< 16 else 0
    | .write =>
        (if f.tdWrite ∧ f.wmodeSplit.length ≤ 1 then modeFlags f else 0) |||
          if f.writefua ∧ f.wmodeSplit.length ≤ 1 then Split.nvmeIoFua <<< 16 else 0
    | .trim => 0) |||
    if f.lr then nvmeIoLr <<< 16 else 0

/-- The values of `ld->cdw12_flags[d]`: the first one, and what `fio_libunvmed_prep` copies from an
entry of a split. -/
def Cdw12Flags (f : FlagOptions) (d : Ddir) (flags : BitVec 32) : Prop :=
  flags = initCdw12 f d ∨ d = .write ∧ ∃ opcode, flags = Split.cdw12Flag f.toOptions opcode

/-! ### The ranges of a trim -/

/-- `struct trim_range` of fio. -/
structure TrimRange where
  start : ℕ
  len : ℕ
  deriving DecidableEq, Repr

/-- `struct nvme_dsm_range` -/
structure DsmRange where
  cattr : BitVec 32
  nlb : BitVec 32
  slba : BitVec 64
  deriving DecidableEq, Repr

def dsmRange (ns : Ns) (r : TrimRange) : DsmRange :=
  ⟨0, BitVec.ofNat 32 (getNlba ns r.len + 1), BitVec.ofNat 64 (getSlba ns r.start)⟩

/-- The ranges that an I/O asks for: its own bytes, or those in its buffer. -/
def requested (numRange : ℕ) (io : IoU) (ranges : List TrimRange) : List TrimRange :=
  if numRange = 1 then [⟨io.offset, io.xferBuflen⟩] else ranges

/-- `fio_libunvmed_trim`: `cdw10` and the ranges, if there is a command and it is mapped. -/
def trim (ns : Ns) (allocCmd mapv : Bool) (numRange : ℕ) (io : IoU) (ranges : List TrimRange) :
    Option (BitVec 32 × List DsmRange) :=
  if allocCmd && mapv then
    some (if numRange = 1 then 0 else BitVec.ofNat 32 ranges.length - 1,
      (requested numRange io ranges).map (dsmRange ns))
  else none

/-! ### What the device should get -/

/-- Bytes of the file, by whole blocks. -/
structure InFile (ns : Ns) (nrLbas offset len : ℕ) : Prop where
  pos : 0 < len
  inside : offset + len ≤ realFileSize ns nrLbas
  offset : ns.stride ∣ offset
  len : ns.stride ∣ len

/-- The command has the blocks of these bytes, and its flags. The lower half of CDW12 is NLB. -/
structure RwDenotes (ns : Ns) (nrLbas offset len : ℕ) (flags : BitVec 32) (sqe : Sqe) : Prop where
  start : sqe.slba.toNat * ns.stride = offset
  length : ((sqe.cdw12.setWidth 16).toNat + 1) * ns.stride = len
  inside : sqe.slba.toNat + (sqe.cdw12.setWidth 16).toNat < nrLbas
  fits : getNlba ns len < 2 ^ 16
  flags : sqe.cdw12 >>> 16 = flags >>> 16

/-- The range has the blocks of these bytes; its count is not zero-based. -/
structure RangeDenotes (ns : Ns) (nrLbas : ℕ) (r : TrimRange) (d : DsmRange) : Prop where
  start : d.slba.toNat * ns.stride = r.start
  length : d.nlb.toNat * ns.stride = r.len
  inside : d.slba.toNat + d.nlb.toNat ≤ nrLbas

/-! ### Blocks of bytes -/

section Units

variable {ns : Ns} {nrLbas offset len : ℕ}

theorem stride_bounds (formatted : Formatted ns) :
    0 < ns.stride ∧ ns.lbaSize ≤ ns.stride ∧ ns.stride < 2 ^ 32 := by
  obtain ⟨⟨ds, small, size⟩, ms⟩ := formatted
  have pos : 0 < ns.lbaSize := by
    rw [size]
    exact Nat.two_pow_pos ds
  have lba : ns.lbaSize ≤ 2 ^ 31 := by
    rw [size]
    exact Nat.pow_le_pow_right Nat.two_pos (by omega)
  unfold Ns.stride
  split <;> omega

theorem dif_unit (formatted : Formatted ns) (dif : ns.mset = true) :
    (ns.lbaSize + ns.ms) % 2 ^ 32 = ns.stride := by
  obtain ⟨-, -, lt⟩ := stride_bounds formatted
  rw [Ns.stride, if_pos dif] at lt ⊢
  exact Nat.mod_eq_of_lt lt

theorem dix_shift (formatted : Formatted ns) (dix : ns.mset = false) (x : ℕ) :
    x >>> ns.lbaSize.log2 = x / ns.stride := by
  obtain ⟨⟨ds, -, size⟩, -⟩ := formatted
  rw [Ns.stride, dix, if_neg Bool.false_ne_true, size, Nat.log2_two_pow,
    Nat.shiftRight_eq_div_pow]

theorem getSlba_eq (formatted : Formatted ns) : getSlba ns offset = offset / ns.stride := by
  unfold getSlba
  split
  · rename_i dif
    rw [dif_unit formatted dif]
  · rename_i dix
    exact dix_shift formatted (by simpa using dix) offset

theorem blocks_eq (formatted : Formatted ns) : ns.blocks len = len % 2 ^ 32 / ns.stride := by
  unfold Ns.blocks
  split
  · rename_i dif
    rw [dif_unit formatted dif]
  · rename_i dix
    exact dix_shift formatted (by simpa using dix) _

/-- The bytes are a number of blocks inside the namespace. -/
theorem InFile.blocks (formatted : Formatted ns) (file : InFile ns nrLbas offset len) :
    ∃ slba n, offset = slba * ns.stride ∧ len = n * ns.stride ∧ 0 < n ∧ slba + n ≤ nrLbas ∧
      slba < 2 ^ 64 := by
  obtain ⟨slba, start⟩ := file.offset
  obtain ⟨n, length⟩ := file.len
  obtain ⟨pos, larger, -⟩ := stride_bounds formatted
  have size_lt : realFileSize ns nrLbas < 2 ^ 64 := Nat.mod_lt _ (Nat.two_pow_pos 64)
  have size_le : realFileSize ns nrLbas ≤ ns.stride * nrLbas :=
    (Nat.mod_le _ _).trans (Nat.mul_le_mul_right nrLbas larger)
  have inside := file.inside
  have some_ : 0 < n := by
    refine Nat.pos_of_ne_zero ?_
    rintro rfl
    have none := file.pos
    omega
  have sum : ns.stride * (slba + n) ≤ ns.stride * nrLbas := by
    rw [Nat.mul_add]
    omega
  have low : slba ≤ ns.stride * slba := Nat.le_mul_of_pos_left slba pos
  refine ⟨slba, n, ?_, ?_, some_, Nat.le_of_mul_le_mul_left sum pos, by omega⟩
  · rw [start, Nat.mul_comm]
  · rw [length, Nat.mul_comm]

theorem toNat_slba (formatted : Formatted ns) {slba : ℕ} (small : slba < 2 ^ 64) :
    (BitVec.ofNat 64 (getSlba ns (slba * ns.stride))).toNat = slba := by
  rw [getSlba_eq formatted, Nat.mul_div_cancel _ (stride_bounds formatted).1, BitVec.toNat_ofNat,
    Nat.mod_eq_of_lt small]

/-- A length of 32 bits is divided as it is. -/
theorem blocks_of_small (formatted : Formatted ns) {n : ℕ} (small : n * ns.stride < 2 ^ 32) :
    ns.blocks (n * ns.stride) = n := by
  rw [blocks_eq formatted, Nat.mod_eq_of_lt small,
    Nat.mul_div_cancel _ (stride_bounds formatted).1]

/-- A longer one loses blocks. -/
theorem blocks_of_large (formatted : Formatted ns) {n : ℕ} (large : 2 ^ 32 ≤ n * ns.stride) :
    ns.blocks (n * ns.stride) < n := by
  obtain ⟨pos, -, lt⟩ := stride_bounds formatted
  have less : n * ns.stride % 2 ^ 32 < n * ns.stride := by
    have below := Nat.mod_lt (n * ns.stride) (Nat.two_pow_pos 32)
    omega
  rw [blocks_eq formatted]
  rw [Nat.mul_comm n] at less ⊢
  exact Nat.div_lt_of_lt_mul less

end Units

/-! ### The flags beside the count -/

section Words

variable {f : FlagOptions} {d : Ddir} {flags x y : BitVec 32} {n : ℕ}

/-- Nothing is in the lower half of CDW12. -/
def LowZero (x : BitVec 32) : Prop := x.toNat % 2 ^ 16 = 0

instance : DecidablePred LowZero := fun x => inferInstanceAs (Decidable (x.toNat % 2 ^ 16 = 0))

theorem LowZero.or (hx : LowZero x) (hy : LowZero y) : LowZero (x ||| y) := by
  unfold LowZero at *
  rw [BitVec.toNat_or, Nat.or_mod_two_pow, hx, hy]
  rfl

theorem LowZero.ite {c : Prop} [Decidable c] (hx : LowZero x) : LowZero (if c then x else 0) := by
  split
  · exact hx
  · rfl

theorem lowZero_dtype (dtype : BitVec 32) : LowZero ((dtype * nvmeIoDtypeStreams) <<< 16) := by
  have streams : nvmeIoDtypeStreams.toNat = 16 := rfl
  rw [LowZero, BitVec.toNat_shiftLeft, BitVec.toNat_mul, streams, Nat.shiftLeft_eq]
  omega

theorem modeFlags_low (f : FlagOptions) : LowZero (modeFlags f) := by
  unfold modeFlags
  cases f.writeMode with
  | zeroes => exact LowZero.ite (by decide)
  | write => exact LowZero.ite (lowZero_dtype f.dtype)
  | uncor | verify => rfl

theorem cdw12Flags_low (set : Cdw12Flags f d flags) : LowZero flags := by
  rcases set with rfl | ⟨-, opcode, rfl⟩
  · unfold initCdw12
    refine LowZero.or ?_ (LowZero.ite (by decide))
    cases d with
    | read => exact LowZero.ite (by decide)
    | write => exact (LowZero.ite (modeFlags_low f)).or (LowZero.ite (by decide))
    | trim => rfl
  · unfold Split.cdw12Flag
    split
    · decide
    · exact LowZero.ite (by decide)

theorem nlb_field (low : LowZero flags) :
    ((flags ||| BitVec.ofNat 32 n).setWidth 16).toNat = n % 2 ^ 16 := by
  unfold LowZero at low
  rw [BitVec.toNat_setWidth, BitVec.toNat_or, Nat.or_mod_two_pow, low, Nat.zero_or,
    BitVec.toNat_ofNat]
  omega

theorem flags_kept (small : n < 2 ^ 16) :
    (flags ||| BitVec.ofNat 32 n) >>> 16 = flags >>> 16 := by
  have none : BitVec.ofNat 32 n >>> 16 = 0#32 := by
    apply BitVec.eq_of_toNat_eq
    rw [BitVec.toNat_ushiftRight, BitVec.toNat_ofNat, Nat.shiftRight_eq_div_pow]
    change n % 2 ^ 32 / 2 ^ 16 = 0
    omega
  rw [BitVec.ushiftRight_or_distrib, none, BitVec.or_zero]

end Words

/-! ### Reads and writes -/

section Rw

variable {crc : Crc} {env : Env} {pif : Pif} {ns : Ns} {o : Config} {io : IoU} {mo : MetaOptions}
  {s : Buffers} {call : Call} {sqe sqe' : Sqe} {slba : BitVec 64} {nrLbas offset len : ℕ}
  {flags : BitVec 32}

/-- The tags leave the range alone. -/
theorem fillTags_range : (fillTags pif ns o slba sqe).slba = sqe.slba ∧
    (fillTags pif ns o slba sqe).cdw12 = sqe.cdw12 := by
  cases pif <;> simp only [fillTags, apply_ite Sqe.slba, apply_ite Sqe.cdw12, ite_self, and_self]

theorem handOver_sqe {iov : Iov} (posted : (handOver env o iov mo s sqe).sqe = some sqe') :
    sqe'.slba = sqe.slba ∧ sqe'.cdw12 = sqe.cdw12 := by
  unfold handOver at posted
  cases failed : env.mapv o.enableSgl iov with
  | some errno =>
      rw [failed] at posted
      cases posted
  | none =>
      rw [failed] at posted
      cases mbuf : env.hasMbuf with
      | false =>
          rw [mbuf] at posted
          cases posted
          exact ⟨rfl, rfl⟩
      | true =>
          rw [mbuf] at posted
          cases sgl : o.enableSgl with
          | false =>
              simp only [sgl] at posted
              cases posted
              exact ⟨rfl, rfl⟩
          | true =>
              simp only [sgl] at posted
              cases posted

/-- What `fio_libunvmed_rw` posts. -/
theorem rw_sqe (done : rw crc env pif ns o io mo s = some call) (posted : call.sqe = some sqe) :
    sqe.slba = BitVec.ofNat 64 (getSlba ns io.offset) ∧
      sqe.cdw12 = env.cdw12Flags ||| BitVec.ofNat 32 (getNlba ns io.xferBuflen) := by
  unfold rw at done
  by_cases noCmd : env.allocCmd = false
  · simp only [noCmd, if_true] at done
    cases done
    cases posted
  · simp only [noCmd, Bool.true_eq_false, if_false] at done
    rw [Option.map_eq_some_iff] at done
    obtain ⟨⟨mo', b, filled⟩, fills, rfl⟩ := done
    have range : filled.slba = BitVec.ofNat 64 (getSlba ns io.offset) ∧
        filled.cdw12 = env.cdw12Flags ||| BitVec.ofNat 32 (getNlba ns io.xferBuflen) := by
      split at fills
      · rw [fill, Option.map_eq_some_iff] at fills
        obtain ⟨r, -, same⟩ := fills
        cases same
        exact fillTags_range
      · cases fills
        exact ⟨rfl, rfl⟩
    obtain ⟨start, word⟩ := handOver_sqe posted
    exact ⟨start.trans range.1, word.trans range.2⟩

/-- The command denotes its bytes exactly if the number of blocks fits. -/
theorem rwDenotes_iff (formatted : Formatted ns) (low : LowZero flags)
    (file : InFile ns nrLbas offset len)
    (start : sqe.slba = BitVec.ofNat 64 (getSlba ns offset))
    (word : sqe.cdw12 = flags ||| BitVec.ofNat 32 (getNlba ns len)) :
    RwDenotes ns nrLbas offset len flags sqe ↔ len < 2 ^ 32 ∧ len ≤ 65536 * ns.stride := by
  obtain ⟨slba, n, rfl, rfl, some_, inside, slba_lt⟩ := file.blocks formatted
  obtain ⟨pos, -, -⟩ := stride_bounds formatted
  have from_ : sqe.slba.toNat = slba := by rw [start, toNat_slba formatted slba_lt]
  have field : (sqe.cdw12.setWidth 16).toNat = getNlba ns (n * ns.stride) % 2 ^ 16 := by
    rw [word, nlb_field low]
  constructor
  · rintro ⟨-, length, -, fits, -⟩
    have count : getNlba ns (n * ns.stride) + 1 = n := by
      rw [field, Nat.mod_eq_of_lt fits] at length
      exact Nat.eq_of_mul_eq_mul_right pos length
    have whole : ns.blocks (n * ns.stride) = n := by
      have small := blocks_lt ns (n * ns.stride)
      unfold getNlba at count fits
      omega
    constructor
    · by_contra large
      have fewer := blocks_of_large formatted (Nat.le_of_not_lt large)
      omega
    · exact Nat.mul_le_mul_right _ (by omega)
  · rintro ⟨small, few⟩
    have whole := blocks_of_small formatted small
    have le : n ≤ 65536 := Nat.le_of_mul_le_mul_right few pos
    have count : getNlba ns (n * ns.stride) + 1 = n := by
      rw [getNlba_succ (by omega), whole]
    have fits : getNlba ns (n * ns.stride) < 2 ^ 16 := by omega
    rw [Nat.mod_eq_of_lt fits] at field
    refine ⟨by rw [from_], by rw [field, count], by rw [from_, field]; omega, fits, ?_⟩
    rw [word]
    exact flags_kept fits

end Rw

/-! ### Trims -/

section Trim

variable {ns : Ns} {nrLbas : ℕ} {r : TrimRange}

theorem toNat_nlb (ns : Ns) (len : ℕ) :
    (BitVec.ofNat 32 (getNlba ns len + 1)).toNat = ns.blocks len := by
  have small := blocks_lt ns len
  rw [BitVec.toNat_ofNat]
  unfold getNlba
  omega

theorem rangeDenotes_iff (formatted : Formatted ns) (file : InFile ns nrLbas r.start r.len) :
    RangeDenotes ns nrLbas r (dsmRange ns r) ↔ r.len < 2 ^ 32 := by
  obtain ⟨slba, n, start, length, -, inside, slba_lt⟩ := file.blocks formatted
  obtain ⟨pos, -, -⟩ := stride_bounds formatted
  have from_ : (dsmRange ns r).slba.toNat = slba := by
    rw [dsmRange, start]
    exact toNat_slba formatted slba_lt
  have count : (dsmRange ns r).nlb.toNat = ns.blocks r.len := toNat_nlb ns r.len
  constructor
  · intro denotes
    by_contra large
    have fewer := blocks_of_large formatted (length ▸ Nat.le_of_not_lt large)
    have same := denotes.length
    rw [count, length] at same
    have whole := Nat.eq_of_mul_eq_mul_right pos same
    omega
  · intro small
    have whole := blocks_of_small formatted (length ▸ small)
    rw [← length] at whole
    refine ⟨by rw [from_, start], by rw [count, whole, length], ?_⟩
    rw [from_, count, whole]
    exact inside

end Trim

section Encoding

variable {env : Env} {ns : Ns} {f : FlagOptions} {d : Ddir} {nrLbas : ℕ}

/-- **Encoding.** For every format, every position in the file and all options, the command of a
read or write denotes its bytes if and only if they are at most 65536 blocks and their number has 32
bits, and the ranges of a trim denote theirs if and only if every length has 32 bits. -/
theorem encoding_iff (formatted : Formatted ns) (flags : Cdw12Flags f d env.cdw12Flags) :
    (∀ crc pif o mo s io call sqe, InFile ns nrLbas io.offset io.xferBuflen →
      rw crc env pif ns o io mo s = some call → call.sqe = some sqe →
        (RwDenotes ns nrLbas io.offset io.xferBuflen env.cdw12Flags sqe ↔
          io.xferBuflen < 2 ^ 32 ∧ io.xferBuflen ≤ 65536 * ns.stride)) ∧
      ∀ numRange ranges io allocCmd mapv cdw10 ds,
        (∀ r ∈ requested numRange io ranges, InFile ns nrLbas r.start r.len) →
          trim ns allocCmd mapv numRange io ranges = some (cdw10, ds) →
            (List.Forall₂ (RangeDenotes ns nrLbas) (requested numRange io ranges) ds ↔
              ∀ r ∈ requested numRange io ranges, r.len < 2 ^ 32) := by
  constructor
  · intro crc pif o mo s io call sqe file done posted
    obtain ⟨start, word⟩ := rw_sqe done posted
    exact rwDenotes_iff formatted (cdw12Flags_low flags) file start word
  · intro numRange ranges io allocCmd mapv cdw10 ds file done
    unfold trim at done
    split at done
    · cases done
      rw [List.forall₂_map_right_iff, List.forall₂_same]
      constructor
      · exact fun all r mem => (rangeDenotes_iff formatted (file r mem)).mp (all r mem)
      · exact fun all r mem => (rangeDenotes_iff formatted (file r mem)).mpr (all r mem)
    · cases done

/-- Blocks of 512 bytes without metadata. -/
def plainNs : Ns := ⟨512, 0, false, 0⟩

theorem plainNs_formatted : Formatted plainNs := ⟨⟨9, by decide, rfl⟩, by decide⟩

def plainFlags : FlagOptions where
  tdWrite := true
  dtype := 0
  readfua := false
  lr := false

def plainConfig : Config where
  toOptions := { prchkGuard := false, prchkApp := false, prchkRef := false }
  prp1Offset := 0
  enableSgl := false
  piAct := true
  apptag := 0
  apptagMask := 0

def emptyBuffers : Buffers := ⟨fun _ => 0, fun _ => 0, fun _ => 0⟩

/-- A mebibyte at the end of a namespace of 2 MiB. -/
theorem mebibyte_denoted :
    ∃ call sqe, rw sampleCrc (sampleEnv false) .guard16b plainNs plainConfig
        ⟨false, 0x100000, 0x100000⟩ ⟨0, 0, 0⟩ emptyBuffers = some call ∧
      call.sqe = some sqe ∧ RwDenotes plainNs 4096 0x100000 0x100000 0 sqe ∧
      List.Forall₂ (RangeDenotes plainNs 4096) [⟨0x100000, 0x100000⟩]
        [dsmRange plainNs ⟨0x100000, 0x100000⟩] := by
  have file : InFile plainNs 4096 0x100000 0x100000 :=
    ⟨by decide, by decide, ⟨0x800, rfl⟩, ⟨0x800, rfl⟩⟩
  have flags : Cdw12Flags plainFlags .write (sampleEnv false).cdw12Flags := .inl rfl
  refine ⟨_, _, rfl, rfl, ?_, ?_⟩
  · exact ((encoding_iff plainNs_formatted flags).1 sampleCrc .guard16b plainConfig ⟨0, 0, 0⟩
      emptyBuffers ⟨false, 0x100000, 0x100000⟩ _ _ file rfl rfl).mpr ⟨by decide, by decide⟩
  · exact ((encoding_iff plainNs_formatted flags).2 1 [] ⟨false, 0x100000, 0x100000⟩ true true _ _
      (fun _ mem => List.mem_singleton.mp mem ▸ file) rfl).mpr
        (fun _ mem => List.mem_singleton.mp mem ▸ by decide)

/-- All block sizes are 64 MiB. -/
def largeJob : Job := ⟨fun _ => 0x4000000, fun _ => 0x4000000, 0⟩

/-- The job is accepted for a controller of 14 for MDTS. A write has 131072 blocks, of which NLB
keeps 65536, and bit 16 of CDW12 is set. -/
theorem large_write_is_shortened :
    initBs plainNs largeJob (maxXferSize 14 0) = .ok 0 ∧ InFile plainNs 0x20000 0 0x4000000 ∧
      ∃ call sqe, rw sampleCrc (sampleEnv false) .guard16b plainNs plainConfig
          ⟨false, 0, 0x4000000⟩ ⟨0, 0, 0⟩ emptyBuffers = some call ∧
        call.sqe = some sqe ∧ sqe.cdw12 = 0x1ffff ∧
        ¬ RwDenotes plainNs 0x20000 0 0x4000000 (sampleEnv false).cdw12Flags sqe := by
  refine ⟨by decide, ⟨by decide, by decide, Nat.dvd_zero _, ⟨0x20000, rfl⟩⟩, ?_⟩
  refine ⟨_, _, rfl, rfl, rfl, ?_⟩
  intro denotes
  exact absurd denotes.fits (by decide)

end Encoding

end Unvmed.Blocks
