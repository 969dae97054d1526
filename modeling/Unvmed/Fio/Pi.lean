import Unvmed.Lib.Bytes

/-!
Protection information in the fio engine (`src/app/fio/libunvmed-engine.c`).

Before a write the engine puts a guard, an application tag and a reference tag into every
block, and after a read it checks them. The three guard formats run the same loop over tuples of
different layout (`Format`). The CRC functions are those of fio, and any functions here. The host
is little-endian, so a big-endian field holds the swapped value.

* `pi_roundTrip_iff`: what was filled in is verified if and only if no bit of the application tag
  is selected by the mask and not by the mask with its bytes swapped.
* `masked_apptag_refused`: tag 0x1200 with mask 0xff00 is not.
-/

namespace Unvmed.Pi

open Lib

/-- The CRC functions of fio. -/
structure Crc where
  /-- `fio_crc_t10dif` -/
  t10dif : BitVec 16 → List Byte → BitVec 16
  /-- `fio_crc32c` -/
  crc32c : List Byte → BitVec 32
  /-- `fio_crc64_nvme` -/
  crc64 : BitVec 64 → List Byte → BitVec 64

/-- The fields of `struct unvme_ns` that lay out the metadata. -/
structure Ns where
  lbaSize : Nat
  ms : Nat
  /-- Metadata follows the data of its block: `libunvmed_ns_meta_is_dif`. -/
  mset : Bool
  dps : BitVec 8

/-- `ns->dps & NVME_NS_DPS_PI_MASK` -/
def Ns.piType (ns : Ns) : BitVec 8 := ns.dps &&& 7

/-- `ns->dps & NVME_NS_DPS_PI_FIRST` -/
def Ns.piFirst (ns : Ns) : Bool := ns.dps.getLsbD 3

/-- `o->prchk` and `o->meta_err_injection`. -/
structure Options where
  prchkGuard : Bool
  prchkApp : Bool
  prchkRef : Bool
  errGuard : Bool := false
  errReftag : Bool := false

/-- `struct libunvmed_meta_options`. -/
structure MetaOptions where
  interval : Nat
  apptag : BitVec 16
  apptagMask : BitVec 16

structure IoU where
  /-- `ddir == DDIR_READ` -/
  read : Bool
  offset : Nat
  xferBuflen : Nat

/-- The memory at `io_u->xfer_buf` and at `mo->mbuf`. -/
structure Bufs where
  data : Mem
  md : Mem

/-! ### Blocks -/

/-- The bytes from one block to the next in the data buffer. -/
def Ns.stride (ns : Ns) : Nat := if ns.mset then ns.lbaSize + ns.ms else ns.lbaSize

/-- The bytes from one block to the next in the metadata buffer. -/
def Ns.mdStride (ns : Ns) : Nat := if ns.mset then 0 else ns.ms

/-- `libunvmed_get_slba` -/
def getSlba (ns : Ns) (offset : Nat) : Nat :=
  if ns.mset then offset / ((ns.lbaSize + ns.ms) % 2 ^ 32) else offset >>> ns.lbaSize.log2

/-- The blocks of a transfer, whose length has 32 bits. -/
def Ns.blocks (ns : Ns) (len : Nat) : Nat :=
  if ns.mset then len % 2 ^ 32 / ((ns.lbaSize + ns.ms) % 2 ^ 32)
  else (len % 2 ^ 32) >>> ns.lbaSize.log2

/-- `libunvmed_get_nlba` -/
def getNlba (ns : Ns) (len : Nat) : Nat := (ns.blocks len + (2 ^ 32 - 1)) % 2 ^ 32

/-- How often the loops run: up to `lba_idx <= nlb`, in 32 bits, so they do not end for the largest
`nlb`. -/
def rounds (nlb : Nat) : Option Nat := if nlb = 2 ^ 32 - 1 then none else some (nlb + 1)

/-! ### Fields in memory -/

/-- `cpu_to_be16`, `be16_to_cpu` -/
def bswap16 (x : BitVec 16) : BitVec 16 := x.extractLsb' 0 8 ++ x.extractLsb' 8 8

/-- A native 16-bit store. -/
def store16 (m : Mem) (a : Nat) (x : BitVec 16) : Mem :=
  Function.update (Function.update m a (x.extractLsb' 0 8)) (a + 1) (x.extractLsb' 8 8)

/-- A native 16-bit load. -/
def load16 (m : Mem) (a : Nat) : BitVec 16 := m (a + 1) ++ m a

/-- `libunvmed_inject_err_to_meta`, where an error is asked for. -/
def inject (err : Bool) (m : Mem) (a : Nat) : Mem :=
  if err then Function.update m a (m a ^^^ 1) else m

/-- A layout of the tuple: a guard of `guardLen` bytes, the application tag, `zeros` bytes that
are cleared, and a reference tag of `refLen` bytes. -/
structure Format where
  /-- `sizeof` the tuple -/
  size : Nat
  guardLen : Nat
  zeros : Nat
  refLen : Nat
  layout : guardLen + 2 + zeros + refLen = size
  /-- The guard of a block with its metadata behind it. -/
  guardDif : List Byte → Nat
  /-- The guard of a block and of metadata of its own. -/
  guardDix : List Byte → List Byte → Nat
  guardDif_lt : ∀ bytes, guardDif bytes < 256 ^ guardLen
  guardDix_lt : ∀ bytes md, guardDix bytes md < 256 ^ guardLen
  /-- The reference tag of the block `lbaIdx`. -/
  reftag : Nat → Nat → Nat
  reftag_lt : ∀ slba lbaIdx, slba + lbaIdx < 2 ^ 48 → reftag slba lbaIdx < 256 ^ refLen
  /-- The check for type 3 before the tags are compared with all ones. -/
  type3 : BitVec 8 → Bool
  /-- A read gets nothing filled in. -/
  readReturns : Bool

/-- Where the reference tag is in the tuple. -/
def Format.refAt (f : Format) : Nat := f.guardLen + 2 + f.zeros

/-- `struct nvme_16b_guard_dif` -/
def guard16 (crc : Crc) : Format where
  size := 8
  guardLen := 2
  zeros := 0
  refLen := 4
  layout := rfl
  guardDif bytes := (crc.t10dif 0 bytes).toNat
  guardDix bytes md := (crc.t10dif (crc.t10dif 0 bytes) md).toNat
  guardDif_lt _ := BitVec.isLt _
  guardDix_lt _ _ := BitVec.isLt _
  reftag slba lbaIdx := (slba % 2 ^ 32 + lbaIdx) % 2 ^ 32
  reftag_lt _ _ _ := Nat.mod_lt _ (by decide)
  type3 dps := dps &&& 3 == 3
  readReturns := true

/-- `struct nvme_32b_guard_dif`; `libunvmed_crc32c_sep` takes the CRC of both buffers in a row. -/
def guard32 (crc : Crc) : Format where
  size := 16
  guardLen := 4
  zeros := 4
  refLen := 6
  layout := rfl
  guardDif bytes := (crc.crc32c bytes ^^^ 0xffffffff).toNat
  guardDix bytes md := (crc.crc32c (bytes ++ md) ^^^ 0xffffffff).toNat
  guardDif_lt _ := BitVec.isLt _
  guardDix_lt _ _ := BitVec.isLt _
  reftag slba lbaIdx := (slba + lbaIdx) % 2 ^ 64
  reftag_lt _ _ fits := (Nat.mod_le _ _).trans_lt fits
  type3 dps := dps &&& 7 == 3
  readReturns := true

/-- `struct nvme_64b_guard_dif` -/
def guard64 (crc : Crc) : Format where
  size := 16
  guardLen := 8
  zeros := 0
  refLen := 6
  layout := rfl
  guardDif bytes := (crc.crc64 0 bytes).toNat
  guardDix bytes md := (crc.crc64 (crc.crc64 0 bytes) md).toNat
  guardDif_lt _ := BitVec.isLt _
  guardDix_lt _ _ := BitVec.isLt _
  reftag slba lbaIdx := (slba + lbaIdx) % 2 ^ 64
  reftag_lt _ _ fits := (Nat.mod_le _ _).trans_lt fits
  type3 dps := dps &&& 7 == 3
  readReturns := false

/-- The guard format: `ns->pif`. -/
inductive Pif where
  | guard16b
  | guard32b
  | guard64b
  deriving DecidableEq, Repr

def Pif.format (crc : Crc) : Pif → Format
  | .guard16b => guard16 crc
  | .guard32b => guard32 crc
  | .guard64b => guard64 crc

/-! ### Fill and verify -/

section Loops

variable (f : Format) (ns : Ns) (o : Options) (mo : MetaOptions) (slba : Nat)

/-- What `mo->interval` is set to. -/
def Format.interval : Nat :=
  if ns.piFirst then if ns.mset then ns.lbaSize else 0
  else if ns.mset then (ns.lbaSize + ns.ms + 2 ^ 32 - f.size) % 2 ^ 32
  else (ns.ms + 2 ^ 32 - f.size) % 2 ^ 32

/-- The buffer that the tuples are in. -/
def Bufs.pi (b : Bufs) : Mem := if ns.mset then b.data else b.md

def Bufs.setPi (b : Bufs) (m : Mem) : Bufs :=
  if ns.mset then { b with data := m } else { b with md := m }

/-- The guard of the block at `buf` and `mbuf`. -/
def Format.guardOf (buf mbuf : Nat) (b : Bufs) : Nat :=
  if ns.mset then f.guardDif (slice b.data buf mo.interval)
  else f.guardDix (slice b.data buf ns.lbaSize) (slice b.md mbuf mo.interval)

/-- Where the tuple of the block is. -/
def piAt (buf mbuf : Nat) : Nat := (if ns.mset then buf else mbuf) + mo.interval

/-- The tuple that is written over `m` at `pi`. -/
def Format.fillTuple (lbaIdx guard pi : Nat) (m : Mem) : Mem :=
  let m := if o.prchkGuard then inject o.errGuard (putBe f.guardLen m pi guard) pi else m
  let m := if o.prchkApp then
      store16 m (pi + f.guardLen) (bswap16 (mo.apptag &&& mo.apptagMask))
    else m
  if o.prchkRef then
    inject o.errReftag
      (putBe f.refLen (putBe f.zeros m (pi + (f.guardLen + 2)) 0) (pi + f.refAt)
        (f.reftag slba lbaIdx))
      (pi + f.refAt)
  else m

/-- One round of the loop that fills. -/
def Format.fillBlock (lbaIdx buf mbuf : Nat) (b : Bufs) : Bufs :=
  b.setPi ns (f.fillTuple o mo slba lbaIdx (f.guardOf ns mo buf mbuf b) (piAt ns mo buf mbuf)
    (b.pi ns))

def Format.fillLoop : Nat → Nat → Nat → Nat → Bufs → Bufs
  | 0, _, _, _, b => b
  | n + 1, lbaIdx, buf, mbuf, b =>
      Format.fillLoop n (lbaIdx + 1) (buf + ns.stride) (mbuf + ns.mdStride)
        (f.fillBlock ns o mo slba lbaIdx buf mbuf b)

/-- `-EIO` -/
def eio : Int := -5

/-- One round of the loop that verifies: 0 to go on, `none` where the assertion fails. -/
def Format.verifyBlock (lbaIdx buf mbuf : Nat) (b : Bufs) : Option Int :=
  let pi := piAt ns mo buf mbuf
  let raw := load16 (b.pi ns) (pi + f.guardLen)
  let srtag := getBe f.refLen (b.pi ns) (pi + f.refAt)
  if (ns.piType = 1 ∨ ns.piType = 2) ∧ bswap16 raw = 0xffff then some 0
  else if f.type3 ns.dps ∧ bswap16 raw = 0xffff ∧ srtag = 256 ^ f.refLen - 1 then some 0
  else if o.prchkGuard ∧ getBe f.guardLen (b.pi ns) pi ≠ f.guardOf ns mo buf mbuf b then some eio
  -- The mask is not swapped: it meets the raw field.
  else if o.prchkApp ∧ bswap16 (raw &&& mo.apptagMask) ≠ mo.apptag &&& mo.apptagMask then some eio
  else if o.prchkRef then
    if ns.piType = 1 ∨ ns.piType = 2 then if srtag ≠ f.reftag slba lbaIdx then some eio else some 0
    else if ns.piType = 3 then some 0
    else none
  else some 0

def Format.verifyLoop : Nat → Nat → Nat → Nat → Bufs → Option Int
  | 0, _, _, _, _ => some 0
  | n + 1, lbaIdx, buf, mbuf, b =>
      if f.verifyBlock ns o mo slba lbaIdx buf mbuf b = some 0 then
        Format.verifyLoop n (lbaIdx + 1) (buf + ns.stride) (mbuf + ns.mdStride) b
      else f.verifyBlock ns o mo slba lbaIdx buf mbuf b

end Loops

/-- The shape of `libunvmed_fill_pi_*_guard`. -/
def Format.fillPi (f : Format) (ns : Ns) (o : Options) (io : IoU) (mo : MetaOptions) (b : Bufs) :
    Option (MetaOptions × Bufs) :=
  let mo := { mo with interval := f.interval ns }
  if io.read && f.readReturns then some (mo, b)
  else (rounds (getNlba ns io.xferBuflen)).map fun n =>
    (mo, f.fillLoop ns o mo (getSlba ns io.offset) n 0 0 0 b)

/-- The shape of `libunvmed_verify_pi_*_guard`. -/
def Format.verifyPi (f : Format) (ns : Ns) (o : Options) (io : IoU) (mo : MetaOptions) (b : Bufs) :
    Option Int :=
  (rounds (getNlba ns io.xferBuflen)).bind fun n =>
    f.verifyLoop ns o mo (getSlba ns io.offset) n 0 0 0 b

section Members

variable (crc : Crc)

/-- `libunvmed_fill_pi_16b_guard` -/
def fillPi16bGuard := (guard16 crc).fillPi

/-- `libunvmed_fill_pi_32b_guard` -/
def fillPi32bGuard := (guard32 crc).fillPi

/-- `libunvmed_fill_pi_64b_guard` -/
def fillPi64bGuard := (guard64 crc).fillPi

/-- `libunvmed_verify_pi_16b_guard` -/
def verifyPi16bGuard := (guard16 crc).verifyPi

/-- `libunvmed_verify_pi_32b_guard` -/
def verifyPi32bGuard := (guard32 crc).verifyPi

/-- `libunvmed_verify_pi_64b_guard` -/
def verifyPi64bGuard := (guard64 crc).verifyPi

/-- The switch of `libunvmed_fill_pi`. -/
def fillPi : Pif → Ns → Options → IoU → MetaOptions → Bufs → Option (MetaOptions × Bufs)
  | .guard16b => fillPi16bGuard crc
  | .guard32b => fillPi32bGuard crc
  | .guard64b => fillPi64bGuard crc

/-- `libunvmed_verify_pi` -/
def verifyPi : Pif → Ns → Options → IoU → MetaOptions → Bufs → Option Int
  | .guard16b => verifyPi16bGuard crc
  | .guard32b => verifyPi32bGuard crc
  | .guard64b => verifyPi64bGuard crc

theorem fillPi_eq (pif : Pif) : fillPi crc pif = (pif.format crc).fillPi := by cases pif <;> rfl

theorem verifyPi_eq (pif : Pif) : verifyPi crc pif = (pif.format crc).verifyPi := by
  cases pif <;> rfl

end Members

/-! ### The tuple -/

section Tuple

theorem bswap16_getLsbD (x : BitVec 16) (i : Fin 16) :
    (bswap16 x).getLsbD i = x.getLsbD ((i + 8) % 16) := by
  have bits : ∀ i : Fin 16, (if (i : Nat) < 8 then (8 + (i : Nat)) else i - 8) = (i + 8) % 16 := by
    decide
  rw [← bits i, bswap16, BitVec.getLsbD_append]
  by_cases low : (i : Nat) < 8
  · simp [low]
  · have within : (i : Nat) - 8 < 8 := by omega
    simp [low, within]

theorem bswap16_bswap16 (x : BitVec 16) : bswap16 (bswap16 x) = x := by
  refine BitVec.eq_of_getLsbD_eq fun i hi => ?_
  have once := bswap16_getLsbD (bswap16 x) ⟨i, hi⟩
  have twice := bswap16_getLsbD x ⟨(i + 8) % 16, Nat.mod_lt _ (by decide)⟩
  have back : ((i + 8) % 16 + 8) % 16 = i := by omega
  simp only [back] at once twice
  rw [once, twice]

theorem bswap16_and (x y : BitVec 16) : bswap16 (x &&& y) = bswap16 x &&& bswap16 y := by
  refine BitVec.eq_of_getLsbD_eq fun i hi => ?_
  have both := bswap16_getLsbD (x &&& y) ⟨i, hi⟩
  have left := bswap16_getLsbD x ⟨i, hi⟩
  have right := bswap16_getLsbD y ⟨i, hi⟩
  rw [BitVec.getLsbD_and, both, left, right, BitVec.getLsbD_and]

theorem load16_store16 (m : Mem) (a : Nat) (x : BitVec 16) : load16 (store16 m a x) a = x := by
  have low : store16 m a x a = x.extractLsb' 0 8 := by
    rw [store16, Function.update_of_ne (by omega), Function.update_self]
  have high : store16 m a x (a + 1) = x.extractLsb' 8 8 := Function.update_self ..
  rw [load16, low, high]
  refine BitVec.eq_of_getLsbD_eq fun i hi => ?_
  rw [BitVec.getLsbD_append]
  by_cases lower : i < 8
  · simp [lower]
  · have within : i - 8 < 8 := by omega
    have whole : 8 + (i - 8) = i := by omega
    simp [lower, within, whole]

theorem store16_other {m : Mem} {a i : Nat} (x : BitVec 16) (outside : i < a ∨ a + 2 ≤ i) :
    store16 m a x i = m i := by
  rw [store16, Function.update_of_ne (by omega), Function.update_of_ne (by omega)]

theorem load16_putBe_of_disjoint {m : Mem} {a v b n : Nat} (apart : a + 2 ≤ b ∨ b + v ≤ a) :
    load16 (putBe v m b n) a = load16 m a := by
  rw [load16, putBe_other (by omega), putBe_other (by omega), load16]

variable {f : Format} {ns : Ns} {o : Options} {mo : MetaOptions} {slba lbaIdx guard pi : Nat}
  {m : Mem}

/-- A tuple is written within its bytes. -/
theorem Format.fillTuple_other {i : Nat} (noErrGuard : o.errGuard = false)
    (noErrReftag : o.errReftag = false) (outside : i < pi ∨ pi + f.size ≤ i) :
    f.fillTuple o mo slba lbaIdx guard pi m i = m i := by
  have layout := f.layout
  have refAt : f.refAt = f.guardLen + 2 + f.zeros := rfl
  simp only [Format.fillTuple, inject, noErrGuard, noErrReftag, Bool.false_eq_true, if_false]
  have guarded : (if o.prchkGuard then putBe f.guardLen m pi guard else m) i = m i := by
    split
    · exact putBe_other (by omega)
    · rfl
  have tagged : ∀ m : Mem, (if o.prchkApp then
      store16 m (pi + f.guardLen) (bswap16 (mo.apptag &&& mo.apptagMask)) else m) i = m i := by
    intro m
    split
    · exact store16_other _ (by omega)
    · rfl
  split
  · rw [putBe_other (by omega), putBe_other (by omega), tagged, guarded]
  · rw [tagged, guarded]

/-- The guard that is read back. -/
theorem Format.fillTuple_guard (noErrGuard : o.errGuard = false) (noErrReftag : o.errReftag = false)
    (chk : o.prchkGuard = true) :
    getBe f.guardLen (f.fillTuple o mo slba lbaIdx guard pi m) pi = guard % 256 ^ f.guardLen := by
  have refAt : f.refAt = f.guardLen + 2 + f.zeros := rfl
  simp only [Format.fillTuple, inject, noErrGuard, noErrReftag, chk, Bool.false_eq_true, if_false,
    if_true]
  have tagged : getBe f.guardLen (if o.prchkApp then
      store16 (putBe f.guardLen m pi guard) (pi + f.guardLen)
        (bswap16 (mo.apptag &&& mo.apptagMask))
      else putBe f.guardLen m pi guard) pi = guard % 256 ^ f.guardLen := by
    split
    · rw [← getBe_putBe (m := m) (a := pi)]
      exact getBe_congr fun _ _ _ => store16_other _ (by omega)
    · exact getBe_putBe _ _
  split
  · rw [getBe_putBe_of_disjoint (by omega), getBe_putBe_of_disjoint (by omega), tagged]
  · exact tagged

/-- The application tag that is read back. -/
theorem Format.fillTuple_apptag (noErrReftag : o.errReftag = false) (chk : o.prchkApp = true) :
    load16 (f.fillTuple o mo slba lbaIdx guard pi m) (pi + f.guardLen) =
      bswap16 (mo.apptag &&& mo.apptagMask) := by
  have refAt : f.refAt = f.guardLen + 2 + f.zeros := rfl
  simp only [Format.fillTuple, noErrReftag, chk, if_true]
  split
  · rw [inject, if_neg (by decide), load16_putBe_of_disjoint (by omega),
      load16_putBe_of_disjoint (by omega), load16_store16]
  · exact load16_store16 _ _ _

/-- An application tag that is not checked stays. -/
theorem Format.fillTuple_apptag_kept (noErrGuard : o.errGuard = false)
    (noErrReftag : o.errReftag = false) (off : o.prchkApp = false) :
    load16 (f.fillTuple o mo slba lbaIdx guard pi m) (pi + f.guardLen) =
      load16 m (pi + f.guardLen) := by
  have refAt : f.refAt = f.guardLen + 2 + f.zeros := rfl
  have guarded : load16 (if o.prchkGuard then putBe f.guardLen m pi guard else m)
      (pi + f.guardLen) = load16 m (pi + f.guardLen) := by
    split
    · exact load16_putBe_of_disjoint (by omega)
    · rfl
  simp only [Format.fillTuple, inject, noErrGuard, noErrReftag, off, Bool.false_eq_true, if_false]
  split
  · rw [load16_putBe_of_disjoint (by omega), load16_putBe_of_disjoint (by omega), guarded]
  · exact guarded

/-- The reference tag that is read back. -/
theorem Format.fillTuple_srtag (noErrReftag : o.errReftag = false) (chk : o.prchkRef = true) :
    getBe f.refLen (f.fillTuple o mo slba lbaIdx guard pi m) (pi + f.refAt) =
      f.reftag slba lbaIdx % 256 ^ f.refLen := by
  simp only [Format.fillTuple, inject, noErrReftag, chk, Bool.false_eq_true, if_true, if_false]
  exact getBe_putBe _ _

end Tuple

/-! ### One block -/

section Block

variable {f : Format} {ns : Ns} {o : Options} {mo : MetaOptions} {slba lbaIdx buf mbuf : Nat}
  {b : Bufs}

/-- A bit of the tag that the mask selects is selected by the mask with its bytes swapped. -/
def MetaOptions.MaskFits (mo : MetaOptions) : Prop :=
  ∀ i : Fin 16, mo.apptag.getLsbD i = true → mo.apptagMask.getLsbD i = true →
    mo.apptagMask.getLsbD ((i + 8) % 16) = true

/-- The application tag of a block before it is filled in. -/
def Format.tagOf (f : Format) (ns : Ns) (mo : MetaOptions) (buf mbuf : Nat) (b : Bufs) :
    BitVec 16 :=
  bswap16 (load16 (b.pi ns) (piAt ns mo buf mbuf + f.guardLen))

/-- The application tag that the block is filled in with. -/
def Format.storedTag (f : Format) (ns : Ns) (o : Options) (mo : MetaOptions) (buf mbuf : Nat)
    (b : Bufs) : BitVec 16 :=
  if o.prchkApp then mo.apptag &&& mo.apptagMask else f.tagOf ns mo buf mbuf b

/-- A reference tag that is compared fits into its field, or the application tag turns the
verification of the block off. -/
def Format.RefFits (f : Format) (ns : Ns) (o : Options) (mo : MetaOptions)
    (slba lbaIdx buf mbuf : Nat) (b : Bufs) : Prop :=
  o.prchkRef = true → ns.piType = 1 ∨ ns.piType = 2 →
    f.reftag slba lbaIdx < 256 ^ f.refLen ∨ f.storedTag ns o mo buf mbuf b = 0xffff

theorem MetaOptions.maskFits_iff : mo.MaskFits ↔
    bswap16 (bswap16 (mo.apptag &&& mo.apptagMask) &&& mo.apptagMask) =
      mo.apptag &&& mo.apptagMask := by
  rw [bswap16_and, bswap16_bswap16]
  constructor
  · intro fits
    refine BitVec.eq_of_getLsbD_eq fun i hi => ?_
    have swapped := bswap16_getLsbD mo.apptagMask ⟨i, hi⟩
    have bit := fits ⟨i, hi⟩
    simp only [BitVec.getLsbD_and, swapped]
    cases tag : mo.apptag.getLsbD i with
    | false => simp
    | true =>
        cases mask : mo.apptagMask.getLsbD i with
        | false => simp
        | true => simpa using bit tag mask
  · intro same i tag mask
    have bit := congrArg (BitVec.getLsbD · i) same
    rw [← bswap16_getLsbD mo.apptagMask i]
    simpa only [BitVec.getLsbD_and, tag, mask, Bool.true_and] using bit

/-- A tag of all ones is written only under a mask of all ones. -/
theorem MetaOptions.maskFits_of_ones (ones : mo.apptag &&& mo.apptagMask = 0xffff) :
    mo.MaskFits := by
  intro i _ _
  have within : ((i : Nat) + 8) % 16 < 16 := Nat.mod_lt _ (by decide)
  have all : ∀ j : Fin 16, (0xffff : BitVec 16).getLsbD j = true := by decide
  have bit := all ⟨_, within⟩
  rw [← ones, BitVec.getLsbD_and, Bool.and_eq_true] at bit
  exact bit.2

theorem Bufs.pi_setPi (b : Bufs) (m : Mem) : (b.setPi ns m).pi ns = m := by
  unfold Bufs.setPi Bufs.pi
  split <;> rfl

/-- The tuple is in the metadata of its block. -/
theorem Format.interval_le (room : f.size ≤ ns.ms) :
    f.interval ns + f.size ≤ if ns.mset then ns.lbaSize + ns.ms else ns.ms := by
  unfold Format.interval
  split <;> split <;> omega

/-- The guard covers nothing of the tuple. -/
theorem Format.guardOf_fillBlock (noErrGuard : o.errGuard = false)
    (noErrReftag : o.errReftag = false) :
    f.guardOf ns mo buf mbuf (f.fillBlock ns o mo slba lbaIdx buf mbuf b) =
      f.guardOf ns mo buf mbuf b := by
  have before : ∀ i, i < piAt ns mo buf mbuf → (f.fillTuple o mo slba lbaIdx
      (f.guardOf ns mo buf mbuf b) (piAt ns mo buf mbuf) (b.pi ns)) i = b.pi ns i :=
    fun i below => Format.fillTuple_other noErrGuard noErrReftag (.inl below)
  simp only [piAt, Bufs.pi] at before
  simp only [Format.guardOf, Format.fillBlock, Bufs.setPi, piAt, Bufs.pi] at before ⊢
  cases mset : ns.mset with
  | true =>
      simp only [mset, if_true] at before ⊢
      exact congrArg _ (slice_congr fun i _ high => before i high)
  | false =>
      simp only [mset, Bool.false_eq_true, if_false] at before ⊢
      exact congrArg _ (slice_congr fun i _ high => before i high)

/-- The application tag after the block was filled in. -/
theorem Format.tagOf_fillBlock (noErrGuard : o.errGuard = false)
    (noErrReftag : o.errReftag = false) :
    f.tagOf ns mo buf mbuf (f.fillBlock ns o mo slba lbaIdx buf mbuf b) =
      f.storedTag ns o mo buf mbuf b := by
  rw [Format.tagOf, Format.fillBlock, Bufs.pi_setPi, Format.storedTag]
  split
  · rename_i app
    rw [Format.fillTuple_apptag noErrReftag app, bswap16_bswap16]
  · rename_i off
    rw [Format.fillTuple_apptag_kept noErrGuard noErrReftag (Bool.eq_false_iff.mpr off)]
    rfl

/-- A block that was filled in is verified if and only if the mask and the reference tag fit. -/
theorem Format.verifyBlock_fillBlock (noErrGuard : o.errGuard = false)
    (noErrReftag : o.errReftag = false)
    (type : ns.piType = 1 ∨ ns.piType = 2 ∨ ns.piType = 3) :
    f.verifyBlock ns o mo slba lbaIdx buf mbuf (f.fillBlock ns o mo slba lbaIdx buf mbuf b) =
      some 0 ↔ (o.prchkApp = true → mo.MaskFits) ∧ f.RefFits ns o mo slba lbaIdx buf mbuf b := by
  have guardSame : f.guardOf ns mo buf mbuf (f.fillBlock ns o mo slba lbaIdx buf mbuf b) =
      f.guardOf ns mo buf mbuf b := Format.guardOf_fillBlock noErrGuard noErrReftag
  have after : f.tagOf ns mo buf mbuf (f.fillBlock ns o mo slba lbaIdx buf mbuf b) =
      f.storedTag ns o mo buf mbuf b := Format.tagOf_fillBlock noErrGuard noErrReftag
  have tag : bswap16 (load16 (f.fillTuple o mo slba lbaIdx (f.guardOf ns mo buf mbuf b)
      (piAt ns mo buf mbuf) (b.pi ns)) (piAt ns mo buf mbuf + f.guardLen)) =
      f.storedTag ns o mo buf mbuf b := by
    rw [← after, Format.tagOf, Format.fillBlock, Bufs.pi_setPi]
  have tuple : (f.fillBlock ns o mo slba lbaIdx buf mbuf b).pi ns = f.fillTuple o mo slba lbaIdx
      (f.guardOf ns mo buf mbuf b) (piAt ns mo buf mbuf) (b.pi ns) := Bufs.pi_setPi _ _
  have guard_lt : f.guardOf ns mo buf mbuf b < 256 ^ f.guardLen := by
    unfold Format.guardOf
    split
    · exact f.guardDif_lt _
    · exact f.guardDix_lt _ _
  have mask_of_ones (ones : f.storedTag ns o mo buf mbuf b = 0xffff) (app : o.prchkApp = true) :
      mo.MaskFits := by
    rw [Format.storedTag, if_pos app] at ones
    exact MetaOptions.maskFits_of_ones ones
  simp only [Format.verifyBlock, guardSame, tuple, tag]
  split
  · rename_i skipped
    exact iff_of_true rfl ⟨mask_of_ones skipped.2, fun _ _ => .inr skipped.2⟩
  rename_i compared
  split
  · rename_i skipped
    exact iff_of_true rfl ⟨mask_of_ones skipped.2.1, fun _ _ => .inr skipped.2.1⟩
  split
  · rename_i bad
    obtain ⟨chk, differs⟩ := bad
    rw [Format.fillTuple_guard noErrGuard noErrReftag chk, Nat.mod_eq_of_lt guard_lt] at differs
    exact absurd rfl differs
  split
  · rename_i bad
    obtain ⟨app, differs⟩ := bad
    rw [Format.fillTuple_apptag noErrReftag app] at differs
    exact iff_of_false (by decide) fun fits => differs (MetaOptions.maskFits_iff.mp (fits.1 app))
  · rename_i good
    have mask : o.prchkApp = true → mo.MaskFits := by
      intro app
      rw [MetaOptions.maskFits_iff]
      by_contra differs
      refine good ⟨app, ?_⟩
      rwa [Format.fillTuple_apptag noErrReftag app]
    rw [and_iff_right mask]
    split
    · rename_i chk
      rw [Format.fillTuple_srtag noErrReftag chk]
      split
      · rename_i plain
        have reads : f.RefFits ns o mo slba lbaIdx buf mbuf b ↔
            f.reftag slba lbaIdx < 256 ^ f.refLen := by
          constructor
          · intro fits
            exact (fits chk plain).resolve_right fun ones => compared ⟨plain, ones⟩
          · exact fun below _ _ => .inl below
        rw [reads]
        by_cases below : f.reftag slba lbaIdx < 256 ^ f.refLen
        · exact iff_of_true (if_neg (not_not.mpr (Nat.mod_eq_of_lt below))) below
        · have differs : f.reftag slba lbaIdx % 256 ^ f.refLen ≠ f.reftag slba lbaIdx := by
            intro same
            exact below (Nat.mod_eq_iff_lt (by positivity) |>.mp same)
          rw [if_pos differs]
          exact iff_of_false (by decide) below
      · rename_i third
        have three : ns.piType = 3 := (type.imp_right id).elim
          (fun one => absurd (.inl one) third)
          fun rest => rest.elim (fun two => absurd (.inr two) third) id
        rw [if_pos three]
        exact iff_of_true rfl fun _ plain => absurd plain third
    · rename_i off
      exact iff_of_true rfl fun chk => absurd chk off

end Block

/-! ### All blocks -/

section All

variable {f : Format} {ns : Ns} {o : Options} {mo : MetaOptions} {slba : Nat}

/-- Filling in a block changes nothing below it. -/
theorem Format.fillBlock_below {lbaIdx buf mbuf : Nat} {b : Bufs} (noErrGuard : o.errGuard = false)
    (noErrReftag : o.errReftag = false) :
    (∀ i < buf, (f.fillBlock ns o mo slba lbaIdx buf mbuf b).data i = b.data i) ∧
      ∀ i < mbuf, (f.fillBlock ns o mo slba lbaIdx buf mbuf b).md i = b.md i := by
  have before : ∀ i, i < piAt ns mo buf mbuf → (f.fillTuple o mo slba lbaIdx
      (f.guardOf ns mo buf mbuf b) (piAt ns mo buf mbuf) (b.pi ns)) i = b.pi ns i :=
    fun i below => Format.fillTuple_other noErrGuard noErrReftag (.inl below)
  simp only [piAt, Bufs.pi] at before
  simp only [Format.fillBlock, Bufs.setPi, piAt, Bufs.pi]
  cases mset : ns.mset with
  | true =>
      simp only [mset, if_true] at before ⊢
      exact ⟨fun i below => before i (by omega), fun _ _ => trivial⟩
  | false =>
      simp only [mset, Bool.false_eq_true, if_false] at before ⊢
      exact ⟨fun _ _ => trivial, fun i below => before i (by omega)⟩

variable (f ns mo slba) in
theorem Format.fillLoop_below (noErrGuard : o.errGuard = false) (noErrReftag : o.errReftag = false) :
    ∀ (n lbaIdx buf mbuf : Nat) (b : Bufs),
      (∀ i < buf, (f.fillLoop ns o mo slba n lbaIdx buf mbuf b).data i = b.data i) ∧
        ∀ i < mbuf, (f.fillLoop ns o mo slba n lbaIdx buf mbuf b).md i = b.md i
  | 0, _, _, _, _ => ⟨fun _ _ => rfl, fun _ _ => rfl⟩
  | n + 1, lbaIdx, buf, mbuf, b => by
      obtain ⟨data, md⟩ := Format.fillLoop_below noErrGuard noErrReftag n (lbaIdx + 1)
        (buf + ns.stride) (mbuf + ns.mdStride) (f.fillBlock ns o mo slba lbaIdx buf mbuf b)
      obtain ⟨data₀, md₀⟩ : _ ∧ _ := Format.fillBlock_below noErrGuard noErrReftag
      exact ⟨fun i below => (data i (by omega)).trans (data₀ i below),
        fun i below => (md i (by omega)).trans (md₀ i below)⟩

/-- A block is verified by its own bytes. -/
theorem Format.verifyBlock_congr {lbaIdx buf mbuf : Nat} {b b' : Bufs} (room : f.size ≤ ns.ms)
    (interval : mo.interval = f.interval ns)
    (data : ∀ i < buf + ns.stride, b.data i = b'.data i)
    (md : ∀ i < mbuf + ns.mdStride, b.md i = b'.md i) :
    f.verifyBlock ns o mo slba lbaIdx buf mbuf b = f.verifyBlock ns o mo slba lbaIdx buf mbuf b' := by
  have fits := Format.interval_le room
  have layout := f.layout
  have refAt : f.refAt = f.guardLen + 2 + f.zeros := rfl
  rw [← interval] at fits
  have guard : f.guardOf ns mo buf mbuf b = f.guardOf ns mo buf mbuf b' := by
    unfold Format.guardOf
    unfold Ns.stride at data
    unfold Ns.mdStride at md
    cases mset : ns.mset with
    | true =>
        simp only [mset, if_true] at fits data ⊢
        rw [slice_congr fun i _ high => data i (by omega)]
    | false =>
        simp only [mset, Bool.false_eq_true, if_false] at fits data md ⊢
        rw [slice_congr fun i _ high => data i (by omega),
          slice_congr fun i _ high => md i (by omega)]
  have tuple : ∀ i, i < piAt ns mo buf mbuf + f.size → b.pi ns i = b'.pi ns i := by
    unfold piAt Bufs.pi
    unfold Ns.stride at data
    unfold Ns.mdStride at md
    intro i within
    cases mset : ns.mset with
    | true =>
        simp only [mset, if_true] at fits data within ⊢
        exact data i (by omega)
    | false =>
        simp only [mset, Bool.false_eq_true, if_false] at fits md within ⊢
        exact md i (by omega)
  have raw : load16 (b.pi ns) (piAt ns mo buf mbuf + f.guardLen) =
      load16 (b'.pi ns) (piAt ns mo buf mbuf + f.guardLen) := by
    rw [load16, load16, tuple _ (by omega), tuple _ (by omega)]
  simp only [Format.verifyBlock, guard, raw]
  rw [getBe_congr fun i _ _ => tuple i (by omega), getBe_congr fun i _ _ => tuple i (by omega)]

/-- Filling in a block leaves the tuples of the later ones. -/
theorem Format.refFits_later {lbaIdx buf mbuf : Nat} {b : Bufs} (noErrGuard : o.errGuard = false)
    (noErrReftag : o.errReftag = false) (room : f.size ≤ ns.ms) (later k : Nat) :
    f.RefFits ns o mo slba later (buf + (k + 1) * ns.stride) (mbuf + (k + 1) * ns.mdStride)
        (f.fillBlock ns o mo slba lbaIdx buf mbuf b) ↔
      f.RefFits ns o mo slba later (buf + (k + 1) * ns.stride) (mbuf + (k + 1) * ns.mdStride)
        b := by
  have apart : piAt ns mo buf mbuf + f.size ≤
      piAt ns mo (buf + (k + 1) * ns.stride) (mbuf + (k + 1) * ns.mdStride) := by
    unfold piAt Ns.stride Ns.mdStride
    cases ns.mset with
    | true =>
        simp only [if_true]
        rw [Nat.succ_mul]
        omega
    | false =>
        simp only [Bool.false_eq_true, if_false]
        rw [Nat.succ_mul]
        omega
  have above : ∀ i, piAt ns mo buf mbuf + f.size ≤ i →
      (f.fillBlock ns o mo slba lbaIdx buf mbuf b).pi ns i = b.pi ns i := by
    intro i outside
    rw [Format.fillBlock, Bufs.pi_setPi]
    exact Format.fillTuple_other noErrGuard noErrReftag (.inr outside)
  have same : f.tagOf ns mo (buf + (k + 1) * ns.stride) (mbuf + (k + 1) * ns.mdStride)
      (f.fillBlock ns o mo slba lbaIdx buf mbuf b) =
      f.tagOf ns mo (buf + (k + 1) * ns.stride) (mbuf + (k + 1) * ns.mdStride) b := by
    rw [Format.tagOf, Format.tagOf, load16, load16, above _ (by omega), above _ (by omega)]
  unfold Format.RefFits Format.storedTag
  rw [same]

/-- What one loop filled in, the other accepts if and only if the mask and the reference tags
fit. -/
theorem Format.verifyLoop_fillLoop (noErrGuard : o.errGuard = false)
    (noErrReftag : o.errReftag = false)
    (type : ns.piType = 1 ∨ ns.piType = 2 ∨ ns.piType = 3) (room : f.size ≤ ns.ms)
    (interval : mo.interval = f.interval ns) :
    ∀ (n lbaIdx buf mbuf : Nat) (b : Bufs),
      (f.verifyLoop ns o mo slba n lbaIdx buf mbuf (f.fillLoop ns o mo slba n lbaIdx buf mbuf b) =
        some 0 ↔ ∀ k < n, (o.prchkApp = true → mo.MaskFits) ∧
          f.RefFits ns o mo slba (lbaIdx + k) (buf + k * ns.stride) (mbuf + k * ns.mdStride) b)
  | 0, _, _, _, _ => iff_of_true rfl fun k none => absurd none (Nat.not_lt_zero k)
  | n + 1, lbaIdx, buf, mbuf, b => by
      have later := Format.verifyLoop_fillLoop noErrGuard noErrReftag type room interval n
        (lbaIdx + 1) (buf + ns.stride) (mbuf + ns.mdStride)
        (f.fillBlock ns o mo slba lbaIdx buf mbuf b)
      have below := f.fillLoop_below ns mo slba noErrGuard noErrReftag n (lbaIdx + 1)
        (buf + ns.stride) (mbuf + ns.mdStride) (f.fillBlock ns o mo slba lbaIdx buf mbuf b)
      have now : f.verifyBlock ns o mo slba lbaIdx buf mbuf
          (f.fillBlock ns o mo slba lbaIdx buf mbuf b) = some 0 ↔
          (o.prchkApp = true → mo.MaskFits) ∧ f.RefFits ns o mo slba lbaIdx buf mbuf b :=
        Format.verifyBlock_fillBlock noErrGuard noErrReftag type
      have place : ∀ k, lbaIdx + 1 + k = lbaIdx + (k + 1) ∧
          buf + ns.stride + k * ns.stride = buf + (k + 1) * ns.stride ∧
          mbuf + ns.mdStride + k * ns.mdStride = mbuf + (k + 1) * ns.mdStride := by
        intro k
        rw [Nat.succ_mul, Nat.succ_mul]
        omega
      rw [Format.fillLoop, Format.verifyLoop, Format.verifyBlock_congr room interval below.1 below.2]
      split
      · rename_i good
        rw [later]
        constructor
        · intro rest k inside
          cases k with
          | zero => simpa using now.mp good
          | succ k =>
              have fits := rest k (by omega)
              rw [(place k).1, (place k).2.1, (place k).2.2,
                Format.refFits_later noErrGuard noErrReftag room] at fits
              exact fits
        · intro all k inside
          rw [(place k).1, (place k).2.1, (place k).2.2,
            Format.refFits_later noErrGuard noErrReftag room]
          exact all (k + 1) (by omega)
      · rename_i bad
        refine iff_of_false bad fun all => bad (now.mpr ?_)
        simpa using all 0 n.succ_pos

end All

/-! ### Round trip -/

theorem blocks_lt (ns : Ns) (len : Nat) : ns.blocks len < 2 ^ 32 := by
  have len_lt : len % 2 ^ 32 < 2 ^ 32 := Nat.mod_lt _ (by decide)
  unfold Ns.blocks
  split
  · exact (Nat.div_le_self _ _).trans_lt len_lt
  · rw [Nat.shiftRight_eq_div_pow]
    exact (Nat.div_le_self _ _).trans_lt len_lt

theorem rounds_of_blocks {ns : Ns} {len : Nat} (some_ : 0 < ns.blocks len) :
    rounds (getNlba ns len) = some (getNlba ns len + 1) := by
  have small := blocks_lt ns len
  have ends : getNlba ns len ≠ 2 ^ 32 - 1 := by
    unfold getNlba
    omega
  rw [rounds, if_neg ends]

theorem getNlba_succ {ns : Ns} {len : Nat} (some_ : 0 < ns.blocks len) :
    getNlba ns len + 1 = ns.blocks len := by
  have small := blocks_lt ns len
  unfold getNlba
  omega

/-- The round trip of one format, for all block numbers. -/
theorem Format.fill_verified_iff {f : Format} {ns : Ns} {o : Options} {io : IoU} {mo : MetaOptions}
    {b : Bufs} (write : io.read = false) (type : ns.piType = 1 ∨ ns.piType = 2 ∨ ns.piType = 3)
    (room : f.size ≤ ns.ms) (some_ : 0 < ns.blocks io.xferBuflen)
    (noErrGuard : o.errGuard = false) (noErrReftag : o.errReftag = false) :
    ((f.fillPi ns o io mo b).bind fun r => f.verifyPi ns o io r.1 r.2) = some 0 ↔
      (o.prchkApp = true → mo.MaskFits) ∧
        ∀ k < ns.blocks io.xferBuflen, f.RefFits ns o { mo with interval := f.interval ns }
          (getSlba ns io.offset) k (k * ns.stride) (k * ns.mdStride) b := by
  rw [Format.fillPi, write, Bool.false_and, if_neg (by decide), rounds_of_blocks some_,
    Option.map_some, Option.bind_some, Format.verifyPi, rounds_of_blocks some_, Option.bind_some,
    Format.verifyLoop_fillLoop noErrGuard noErrReftag type room rfl, getNlba_succ some_]
  simp only [Nat.zero_add]
  constructor
  · intro all
    exact ⟨(all 0 some_).1, fun k inside => (all k inside).2⟩
  · intro both k inside
    exact ⟨both.1, both.2 k inside⟩

/-- The round trip of one format. -/
theorem Format.roundTrip_iff {f : Format} {ns : Ns} {o : Options} {io : IoU} {mo : MetaOptions}
    {b : Bufs} (write : io.read = false) (type : ns.piType = 1 ∨ ns.piType = 2 ∨ ns.piType = 3)
    (room : f.size ≤ ns.ms) (some_ : 0 < ns.blocks io.xferBuflen)
    (fits : getSlba ns io.offset + getNlba ns io.xferBuflen < 2 ^ 48)
    (noErrGuard : o.errGuard = false) (noErrReftag : o.errReftag = false) :
    ((f.fillPi ns o io mo b).bind fun r => f.verifyPi ns o io r.1 r.2) = some 0 ↔
      (o.prchkApp = true → mo.MaskFits) := by
  rw [Format.fill_verified_iff write type room some_ noErrGuard noErrReftag]
  have last := getNlba_succ some_
  refine and_iff_left ?_
  intro k inside _ _
  exact .inl (f.reftag_lt _ _ (by omega))

/-- **Round trip.** For every format, layout, position and type, and for all data, what was filled
in for a write is verified if and only if the application tag is not checked or the mask fits. -/
theorem pi_roundTrip_iff (crc : Crc) (pif : Pif) {ns : Ns} {o : Options} {io : IoU}
    {mo : MetaOptions} {b : Bufs} (write : io.read = false)
    (type : ns.piType = 1 ∨ ns.piType = 2 ∨ ns.piType = 3) (room : (pif.format crc).size ≤ ns.ms)
    (some_ : 0 < ns.blocks io.xferBuflen)
    (fits : getSlba ns io.offset + getNlba ns io.xferBuflen < 2 ^ 48)
    (noErrGuard : o.errGuard = false) (noErrReftag : o.errReftag = false) :
    ((fillPi crc pif ns o io mo b).bind fun r => verifyPi crc pif ns o io r.1 r.2) = some 0 ↔
      (o.prchkApp = true → mo.MaskFits) := by
  rw [fillPi_eq, verifyPi_eq]
  exact Format.roundTrip_iff write type room some_ fits noErrGuard noErrReftag

instance (mo : MetaOptions) : Decidable mo.MaskFits := inferInstanceAs (Decidable (∀ _ : Fin 16, _))

/-- Blocks of 512 bytes with 8 bytes of metadata behind them, protected by type 1. -/
def sampleNs : Ns := ⟨512, 8, true, 1⟩

def checkAll : Options := { prchkGuard := true, prchkApp := true, prchkRef := true }

/-- A write of two blocks at block 3. -/
def sampleWrite : IoU := ⟨false, 3 * 520, 2 * 520⟩

/-- The sum and the length of the bytes in the place of a CRC. -/
def sampleCrc : Crc where
  t10dif seed bytes := bytes.foldl (fun sum byte => sum + byte.setWidth 16) seed
  crc32c bytes := bytes.foldl (fun sum byte => sum + byte.setWidth 32) (BitVec.ofNat 32 bytes.length)
  crc64 seed bytes := bytes.foldl (fun sum byte => sum + byte.setWidth 64) seed

/-- Mask 0xfff0 selects bits of the tag 0x1010 that its swapped value selects too. -/
theorem sample_roundTrip :
    ((fillPi sampleCrc .guard16b sampleNs checkAll sampleWrite ⟨0, 0x1010, 0xfff0⟩
      ⟨fun _ => 0, fun _ => 0⟩).bind fun r =>
        verifyPi sampleCrc .guard16b sampleNs checkAll sampleWrite r.1 r.2) = some 0 :=
  (pi_roundTrip_iff sampleCrc .guard16b rfl (by decide) (by decide) (by decide) (by decide) rfl
    rfl).mpr (by decide)

/-- Under mask 0xff00 the tag 0x1234 is written as 0x1200, and its check reads 0. -/
theorem masked_apptag_refused :
    ((fillPi sampleCrc .guard16b sampleNs checkAll sampleWrite ⟨0, 0x1234, 0xff00⟩
      ⟨fun _ => 0, fun _ => 0⟩).bind fun r =>
        verifyPi sampleCrc .guard16b sampleNs checkAll sampleWrite r.1 r.2) ≠ some 0 := by
  intro verified
  rw [fillPi_eq, verifyPi_eq] at verified
  have fits := (Format.roundTrip_iff rfl (by decide) (by decide) (by decide) (by decide) rfl
    rfl).mp verified
  exact absurd (fits rfl) (by decide)

end Unvmed.Pi
