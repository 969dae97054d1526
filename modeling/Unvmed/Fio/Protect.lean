import Unvmed.Fio.Pi

/-!
A read or write of the fio engine (`fio_libunvmed_rw` in `src/app/fio/libunvmed-engine.c`).

With `prp1_offset` the device gets a buffer of its own (`ld->prp_iomem`), into which the data of a
write is copied. Protection information is filled into `io_u->xfer_buf` afterwards.

* `rw_protects_iff`: the device receives the bytes that were protected if and only if there is no
  offset, or the metadata is apart from the data, or the data has its protection information
  already; and they verify if and only if the mask of the application tag and the reference tags
  fit too.
* `offset_write_unprotected`: with an offset of 4 the device receives no reference tag.
-/

namespace Unvmed.Protect

open Lib Unvmed.Pi

inductive Opcode where
  | read
  | compare
  | write
  | writeUncor
  | writeZeroes
  | verify
  deriving DecidableEq, Repr

/-- `struct libunvmed_options`. -/
structure Config extends Options where
  prp1Offset : Nat
  enableSgl : Bool
  piAct : Bool
  apptag : BitVec 16
  apptagMask : BitVec 16
  /-- `UNVME_ERR_LBAT` of `o->meta_err_injection` -/
  errLbat : Bool := false
  /-- `UNVME_ERR_ILBRT` of `o->meta_err_injection` -/
  errIlbrt : Bool := false
  /-- `o->verify_mode == FIO_URING_CMD_VMODE_COMPARE` -/
  verifyCompare : Bool := false

/-- `struct nvme_cmd_rw`; the protection bits of `control` are fields of their own. -/
structure Sqe where
  opcode : Opcode
  nsid : Nat
  slba : BitVec 64
  cdw12 : BitVec 32
  cdw13 : BitVec 32
  pract : Bool := false
  prchkGuard : Bool := false
  prchkApp : Bool := false
  prchkRef : Bool := false
  apptag : BitVec 16 := 0
  appmask : BitVec 16 := 0
  reftag : BitVec 32 := 0
  cdw3 : BitVec 32 := 0
  /-- The SGL descriptor type in `flags`. -/
  sgl : Bool := false
  mptr : BitVec 64 := 0

/-- The buffers an `iovec` points into. -/
inductive Buf where
  /-- `io_u->xfer_buf` -/
  | xfer
  /-- `libunvmed_prp_iomem(ld, io_u)` -/
  | prpIomem
  deriving DecidableEq, Repr

structure Iov where
  buf : Buf
  base : Nat
  len : Nat
  deriving DecidableEq, Repr

/-- The memory of one `io_u`. -/
structure Buffers where
  xfer : Mem
  prpIomem : Mem
  /-- `mo->mbuf` -/
  md : Mem

def Buffers.mem (s : Buffers) : Buf → Mem
  | .xfer => s.xfer
  | .prpIomem => s.prpIomem

/-- The bytes that the device receives. -/
def Buffers.received (s : Buffers) (iov : Iov) : List Byte := slice (s.mem iov.buf) iov.base iov.len

/-- What else `fio_libunvmed_rw` reads, and how the functions that it calls behave. -/
structure Env where
  nsid : Nat
  /-- `ld->write_opcode` -/
  writeOpcode : Opcode
  /-- `ld->cdw12_flags[io_u->ddir]` -/
  cdw12Flags : BitVec 32
  /-- `ld->cdw13_flags[io_u->ddir]` -/
  cdw13Flags : BitVec 32
  /-- `IO_U_F_VER_LIST` -/
  verList : Bool
  /-- `mo->mbuf` is not `NULL`. -/
  hasMbuf : Bool
  /-- `libunvmed_to_meta_iova` -/
  metaIova : BitVec 64
  /-- `unvmed_alloc_cmd` or `unvmed_alloc_cmd_meta` returns a command. -/
  allocCmd : Bool
  /-- The `errno` of `__unvmed_mapv_sgl_seg` or `__unvmed_mapv_prp_list`, if it fails. -/
  mapv : Bool → Iov → Option Int
  /-- `populate_verify_io_u` -/
  populate : Mem → Mem

inductive Status where
  | queued
  | busy
  | error (ret : Int)
  deriving DecidableEq, Repr

/-- What is left of a call: `iov` is `cmd->buf.iov` and `sqe` is what was posted. -/
structure Call where
  status : Status
  iov : Option Iov
  sqe : Option Sqe
  mo : MetaOptions
  bufs : Buffers

/-- `libunvmed_inject_err_to_meta` on the low byte of a field. -/
def injectWord {w : Nat} (err : Bool) (x : BitVec w) : BitVec w :=
  if err then x ^^^ BitVec.ofNat w 1 else x

/-- The tags and flags that `libunvmed_fill_pi` writes to the command. -/
def fillTags (pif : Pif) (ns : Ns) (o : Config) (slba : BitVec 64) (sqe : Sqe) : Sqe :=
  let sqe := if o.piAct then { sqe with pract := true } else sqe
  let sqe := if sqe.opcode ≠ .writeZeroes then
      { sqe with prchkGuard := o.prchkGuard, prchkApp := o.prchkApp, prchkRef := o.prchkRef }
    else sqe
  let sqe := if o.prchkApp then
      { sqe with apptag := injectWord o.errLbat o.apptag, appmask := o.apptagMask }
    else sqe
  if o.prchkRef then
    let sqe := if ns.piType = 1 ∨ ns.piType = 2 then
        match pif with
        | .guard16b => { sqe with reftag := slba.setWidth 32 }
        | .guard32b | .guard64b =>
            { sqe with reftag := slba.setWidth 32, cdw3 := ((slba >>> 32) &&& 0xffff).setWidth 32 }
      else sqe
    { sqe with reftag := injectWord o.errIlbrt sqe.reftag }
  else sqe

/-- `libunvmed_fill_pi` -/
def fill (crc : Crc) (pif : Pif) (ns : Ns) (o : Config) (io : IoU) (mo : MetaOptions) (b : Bufs)
    (sqe : Sqe) : Option (MetaOptions × Bufs × Sqe) :=
  (if o.piAct then some (mo, b) else fillPi crc pif ns o.toOptions io mo b).map fun r =>
    (r.1, r.2, fillTags pif ns o (BitVec.ofNat 64 (getSlba ns io.offset)) sqe)

/-- `-EINVAL` -/
def einval : Int := -22

/-- The end of `fio_libunvmed_rw`: from the mapping of `cmd->buf.iov` on. -/
def handOver (env : Env) (o : Config) (iov : Iov) (mo : MetaOptions) (s : Buffers) (sqe : Sqe) :
    Call :=
  let sqe := { sqe with sgl := o.enableSgl }
  match env.mapv o.enableSgl iov with
  | some errno => ⟨.error (-errno), some iov, none, mo, s⟩
  | none =>
      if env.hasMbuf then
        if o.enableSgl then ⟨.error einval, some iov, none, mo, s⟩
        else ⟨.queued, some iov, some { sqe with mptr := env.metaIova }, mo, s⟩
      else ⟨.queued, some iov, some sqe, mo, s⟩

/-- `fio_libunvmed_rw`; `none` where a loop over the blocks does not end. -/
def rw (crc : Crc) (env : Env) (pif : Pif) (ns : Ns) (o : Config) (io : IoU) (mo : MetaOptions)
    (s : Buffers) : Option Call :=
  let buf : Buf := if o.prp1Offset ≠ 0 then .prpIomem else .xfer
  if env.allocCmd = false then some ⟨.busy, none, none, mo, s⟩
  else
    let s := if o.prp1Offset ≠ 0 ∧ io.read = false then
        { s with prpIomem := copy s.prpIomem o.prp1Offset s.xfer io.xferBuflen }
      else s
    let compare : Bool := env.verList && io.read && o.verifyCompare
    let s := if compare then { s with xfer := env.populate s.xfer } else s
    let sqe : Sqe :=
      { opcode := if io.read then if compare then .compare else .read else env.writeOpcode
        nsid := env.nsid
        slba := BitVec.ofNat 64 (getSlba ns io.offset)
        cdw12 := env.cdw12Flags ||| BitVec.ofNat 32 (getNlba ns io.xferBuflen)
        cdw13 := env.cdw13Flags }
    let filled := if ns.piType ≠ 0 then fill crc pif ns o io mo ⟨s.xfer, s.md⟩ sqe
      else some (mo, ⟨s.xfer, s.md⟩, sqe)
    filled.map fun r =>
      handOver env o ⟨buf, o.prp1Offset, io.xferBuflen⟩ r.1
        { s with xfer := r.2.1.data, md := r.2.1.md } r.2.2

/-! ### What the device should receive -/

/-- The device receives the protected data, and it verifies if no error is injected. -/
structure Protected (crc : Crc) (pif : Pif) (ns : Ns) (o : Config) (io : IoU) (iov : Iov)
    (mo : MetaOptions) (s : Buffers) : Prop where
  same : s.received iov = slice s.xfer 0 io.xferBuflen
  verified : ns.piType ≠ 0 → o.errGuard = false → o.errReftag = false →
    ∀ dev : Mem, slice dev 0 iov.len = s.received iov →
      verifyPi crc pif ns o.toOptions io mo ⟨dev, s.md⟩ = some 0

/-- The tuple at `pi` holds what would be filled in, with the injected errors. -/
structure TupleHolds (f : Format) (o : Options) (mo : MetaOptions) (slba lbaIdx guard pi : Nat)
    (m : Mem) : Prop where
  guard : o.prchkGuard = true → getBe f.guardLen (inject o.errGuard m pi) pi = guard
  apptag : o.prchkApp = true →
    load16 m (pi + f.guardLen) = bswap16 (mo.apptag &&& mo.apptagMask)
  zeros : o.prchkRef = true → getBe f.zeros m (pi + (f.guardLen + 2)) = 0
  reftag : o.prchkRef = true → getBe f.refLen (inject o.errReftag m (pi + f.refAt)) (pi + f.refAt) =
    f.reftag slba lbaIdx % 256 ^ f.refLen

/-- Every block of the data has its protection information already. -/
def Prefilled (f : Format) (ns : Ns) (o : Options) (io : IoU) (mo : MetaOptions) (b : Bufs) :
    Prop :=
  let mo := { mo with interval := f.interval ns }
  ∀ k < ns.blocks io.xferBuflen,
    TupleHolds f o mo (getSlba ns io.offset) k
      (f.guardOf ns mo (k * ns.stride) (k * ns.mdStride) b) (k * ns.stride + mo.interval) b.data

/-- The reference tags of all blocks fit, or are not compared. -/
def RefTagsFit (f : Format) (ns : Ns) (o : Options) (io : IoU) (mo : MetaOptions) (b : Bufs) :
    Prop :=
  ∀ k < ns.blocks io.xferBuflen, f.RefFits ns o { mo with interval := f.interval ns }
    (getSlba ns io.offset) k (k * ns.stride) (k * ns.mdStride) b

/-! ### Stores that change nothing -/

section Stores

variable {m : Mem} {a w i n : Nat} {err : Bool}

theorem inject_other (other : i ≠ a) : inject err m a i = m i := by
  unfold inject
  split
  · exact Function.update_of_ne other _ _
  · rfl

theorem inject_inject : inject err (inject err m a) a = m := by
  cases err with
  | false => rfl
  | true =>
      simp only [inject, if_true, Function.update_self, Function.update_idem, BitVec.xor_assoc,
        BitVec.xor_self, BitVec.xor_zero, Function.update_eq_self]

/-- A field with an injected error is stored as it is. -/
theorem inject_putBe_eq_self_iff (pos : 0 < w) :
    inject err (putBe w m a n) a = m ↔ getBe w (inject err m a) a = n % 256 ^ w := by
  have place : putBe w m a n = putBe w (inject err m a) a n :=
    putBe_congr fun i outside => (inject_other (by omega)).symm
  rw [← putBe_eq_self_iff, ← place]
  constructor
  · intro same
    conv_rhs => rw [← same, inject_inject]
  · intro same
    rw [same, inject_inject]

theorem store16_eq_self_iff {x : BitVec 16} : store16 m a x = m ↔ load16 m a = x := by
  constructor
  · intro same
    rw [← load16_store16 m a x, same]
  · rintro rfl
    have low : (load16 m a).extractLsb' 0 8 = m a := by
      refine BitVec.eq_of_getLsbD_eq fun i hi => ?_
      rw [BitVec.getLsbD_extractLsb', load16, BitVec.getLsbD_append]
      simp [hi]
    have high : (load16 m a).extractLsb' 8 8 = m (a + 1) := by
      refine BitVec.eq_of_getLsbD_eq fun i hi => ?_
      rw [BitVec.getLsbD_extractLsb', load16, BitVec.getLsbD_append]
      simp [hi]
    rw [store16, low, high, Function.update_eq_self, Function.update_eq_self]

end Stores

/-! ### A tuple that is filled in again -/

section Tuple

variable {f : Format} {ns : Ns} {o : Options} {mo : MetaOptions} {slba lbaIdx guard pi : Nat}
  {m : Mem}

/-- The guard, the application tag and the reference tag of a tuple. -/
def storeGuard (f : Format) (o : Options) (guard pi : Nat) (m : Mem) : Mem :=
  if o.prchkGuard then inject o.errGuard (putBe f.guardLen m pi guard) pi else m

def storeApp (f : Format) (o : Options) (mo : MetaOptions) (pi : Nat) (m : Mem) : Mem :=
  if o.prchkApp then store16 m (pi + f.guardLen) (bswap16 (mo.apptag &&& mo.apptagMask)) else m

def storeZeros (f : Format) (o : Options) (pi : Nat) (m : Mem) : Mem :=
  if o.prchkRef then putBe f.zeros m (pi + (f.guardLen + 2)) 0 else m

def storeRef (f : Format) (o : Options) (slba lbaIdx pi : Nat) (m : Mem) : Mem :=
  if o.prchkRef then
    inject o.errReftag (putBe f.refLen m (pi + f.refAt) (f.reftag slba lbaIdx)) (pi + f.refAt)
  else m

theorem fillTuple_eq : f.fillTuple o mo slba lbaIdx guard pi m =
    storeRef f o slba lbaIdx pi (storeZeros f o pi (storeApp f o mo pi (storeGuard f o guard pi m)))
    := by
  unfold storeRef storeZeros
  by_cases chk : o.prchkRef
  · simp only [Format.fillTuple, chk, if_true]
    rfl
  · simp only [Format.fillTuple, chk, Bool.false_eq_true, if_false]
    rfl

theorem storeGuard_other {i : Nat} (pos : 0 < f.guardLen) (outside : i < pi ∨ pi + f.guardLen ≤ i) :
    storeGuard f o guard pi m i = m i := by
  unfold storeGuard
  split
  · rw [inject_other (by omega), putBe_other outside]
  · rfl

theorem storeApp_other {i : Nat}
    (outside : i < pi + f.guardLen ∨ pi + f.guardLen + 2 ≤ i) : storeApp f o mo pi m i = m i := by
  unfold storeApp
  split
  · exact store16_other _ outside
  · rfl

theorem storeZeros_other {i : Nat}
    (outside : i < pi + (f.guardLen + 2) ∨ pi + (f.guardLen + 2) + f.zeros ≤ i) :
    storeZeros f o pi m i = m i := by
  unfold storeZeros
  split
  · exact putBe_other outside
  · rfl

theorem storeRef_other {i : Nat} (pos : 0 < f.refLen)
    (outside : i < pi + f.refAt ∨ pi + f.refAt + f.refLen ≤ i) :
    storeRef f o slba lbaIdx pi m i = m i := by
  unfold storeRef
  split
  · rw [inject_other (by omega), putBe_other outside]
  · rfl

/-- A tuple is written within its bytes, also with errors. -/
theorem fillTuple_outside {i : Nat} (guardPos : 0 < f.guardLen) (refPos : 0 < f.refLen)
    (outside : i < pi ∨ pi + f.size ≤ i) : f.fillTuple o mo slba lbaIdx guard pi m i = m i := by
  have layout := f.layout
  have refAt : f.refAt = f.guardLen + 2 + f.zeros := rfl
  rw [fillTuple_eq, storeRef_other refPos (by omega), storeZeros_other (by omega),
    storeApp_other (by omega), storeGuard_other guardPos (by omega)]

/-- Filling a tuple in changes nothing if and only if the tuple holds that already. -/
theorem fillTuple_eq_self_iff (guardPos : 0 < f.guardLen) (refPos : 0 < f.refLen)
    (guard_lt : guard < 256 ^ f.guardLen) :
    f.fillTuple o mo slba lbaIdx guard pi m = m ↔
      TupleHolds f o mo slba lbaIdx guard pi m := by
  have refAt : f.refAt = f.guardLen + 2 + f.zeros := rfl
  have ref : storeRef f o slba lbaIdx pi m = m ↔ (o.prchkRef = true →
      getBe f.refLen (inject o.errReftag m (pi + f.refAt)) (pi + f.refAt) =
        f.reftag slba lbaIdx % 256 ^ f.refLen) := by
    unfold storeRef
    split
    · rename_i chk
      rw [inject_putBe_eq_self_iff refPos]
      exact ⟨fun h _ => h, fun h => h chk⟩
    · rename_i off
      exact iff_of_true rfl fun chk => absurd chk off
  have zeros : storeZeros f o pi m = m ↔ (o.prchkRef = true →
      getBe f.zeros m (pi + (f.guardLen + 2)) = 0) := by
    unfold storeZeros
    split
    · rename_i chk
      rw [putBe_eq_self_iff, Nat.zero_mod]
      exact ⟨fun h _ => h, fun h => h chk⟩
    · rename_i off
      exact iff_of_true rfl fun chk => absurd chk off
  have app : storeApp f o mo pi m = m ↔ (o.prchkApp = true →
      load16 m (pi + f.guardLen) = bswap16 (mo.apptag &&& mo.apptagMask)) := by
    unfold storeApp
    split
    · rename_i chk
      rw [store16_eq_self_iff]
      exact ⟨fun h _ => h, fun h => h chk⟩
    · rename_i off
      exact iff_of_true rfl fun chk => absurd chk off
  have own : storeGuard f o guard pi m = m ↔ (o.prchkGuard = true →
      getBe f.guardLen (inject o.errGuard m pi) pi = guard) := by
    unfold storeGuard
    split
    · rename_i chk
      rw [inject_putBe_eq_self_iff guardPos, Nat.mod_eq_of_lt guard_lt]
      exact ⟨fun h _ => h, fun h => h chk⟩
    · rename_i off
      exact iff_of_true rfl fun chk => absurd chk off
  -- The four stores are at different places.
  rw [fillTuple_eq,
    stores_eq_self_iff (u := fun m => storeRef f o slba lbaIdx pi (storeZeros f o pi
      (storeApp f o mo pi m)))
      (fun m i outside => storeGuard_other guardPos outside) (fun m i low high => by
        rw [storeRef_other refPos (by omega), storeZeros_other (by omega),
          storeApp_other (by omega)]),
    stores_eq_self_iff (u := fun m => storeRef f o slba lbaIdx pi (storeZeros f o pi m))
      (fun m i outside => storeApp_other outside) (fun m i low high => by
        rw [storeRef_other refPos (by omega), storeZeros_other (by omega)]),
    stores_eq_self_iff (fun m i outside => storeZeros_other outside) (fun m i low high =>
      storeRef_other refPos (by omega)), own, app, zeros, ref]
  constructor
  · exact fun ⟨guard, app, zeros, ref⟩ => ⟨guard, app, zeros, ref⟩
  · exact fun ⟨guard, app, zeros, ref⟩ => ⟨guard, app, zeros, ref⟩

end Tuple

/-! ### Blocks that are filled in again -/

section Blocks

variable {f : Format} {ns : Ns} {o : Options} {mo : MetaOptions} {slba : Nat}

theorem guardOf_lt (buf mbuf : Nat) (b : Bufs) : f.guardOf ns mo buf mbuf b < 256 ^ f.guardLen := by
  unfold Format.guardOf
  split
  · exact f.guardDif_lt _
  · exact f.guardDix_lt _ _

/-- With the metadata behind the data only the data changes. -/
theorem fillBlock_dif (dif : ns.mset = true) (lbaIdx buf mbuf : Nat) (b : Bufs) :
    f.fillBlock ns o mo slba lbaIdx buf mbuf b =
      { b with
        data := f.fillTuple o mo slba lbaIdx (f.guardOf ns mo buf mbuf b) (buf + mo.interval)
          b.data } := by
  simp [Format.fillBlock, Bufs.setPi, Bufs.pi, piAt, dif]

/-- With the metadata apart the data stays. -/
theorem fillLoop_dix (dix : ns.mset = false) (n lbaIdx buf mbuf : Nat) (b : Bufs) :
    (f.fillLoop ns o mo slba n lbaIdx buf mbuf b).data = b.data := by
  induction n generalizing lbaIdx buf mbuf b with
  | zero => rfl
  | succ n ih =>
      rw [Format.fillLoop, ih]
      simp [Format.fillBlock, Bufs.setPi, dix]

/-- A block is filled in within its bytes. -/
theorem fillBlock_outside (dif : ns.mset = true) (guardPos : 0 < f.guardLen)
    (refPos : 0 < f.refLen) (room : f.size ≤ ns.ms) (interval : mo.interval = f.interval ns)
    {lbaIdx buf mbuf i : Nat} {b : Bufs} (outside : i < buf ∨ buf + ns.stride ≤ i) :
    (f.fillBlock ns o mo slba lbaIdx buf mbuf b).data i = b.data i := by
  have fits := Format.interval_le room
  rw [← interval, if_pos dif] at fits
  rw [Ns.stride, if_pos dif] at outside
  rw [fillBlock_dif dif]
  exact fillTuple_outside guardPos refPos (by omega)

theorem fillLoop_outside (dif : ns.mset = true) (guardPos : 0 < f.guardLen)
    (refPos : 0 < f.refLen) (room : f.size ≤ ns.ms) (interval : mo.interval = f.interval ns)
    {n lbaIdx buf mbuf i : Nat} {b : Bufs} (outside : i < buf ∨ buf + n * ns.stride ≤ i) :
    (f.fillLoop ns o mo slba n lbaIdx buf mbuf b).data i = b.data i := by
  induction n generalizing lbaIdx buf mbuf b with
  | zero => rfl
  | succ n ih =>
      rw [Nat.succ_mul] at outside
      rw [Format.fillLoop, ih (by omega)]
      exact fillBlock_outside dif guardPos refPos room interval (by omega)

/-- Filling the blocks in changes nothing if and only if every tuple is there already. -/
theorem fillLoop_eq_self_iff (dif : ns.mset = true) (guardPos : 0 < f.guardLen)
    (refPos : 0 < f.refLen) (room : f.size ≤ ns.ms) (interval : mo.interval = f.interval ns)
    (n lbaIdx buf mbuf : Nat) (b : Bufs) :
    (f.fillLoop ns o mo slba n lbaIdx buf mbuf b).data = b.data ↔
      ∀ k < n, TupleHolds f o mo slba (lbaIdx + k)
        (f.guardOf ns mo (buf + k * ns.stride) (mbuf + k * ns.mdStride) b)
        (buf + k * ns.stride + mo.interval) b.data := by
  induction n generalizing lbaIdx buf mbuf b with
  | zero => exact iff_of_true rfl fun k none => absurd none (Nat.not_lt_zero k)
  | succ n ih =>
      have first : f.fillBlock ns o mo slba lbaIdx buf mbuf b = b ↔
          TupleHolds f o mo slba lbaIdx (f.guardOf ns mo buf mbuf b) (buf + mo.interval)
            b.data := by
        rw [← fillTuple_eq_self_iff guardPos refPos (guardOf_lt buf mbuf b), fillBlock_dif dif]
        constructor
        · exact fun same => congrArg Bufs.data same
        · intro same
          rw [same]
      have later : ∀ k, lbaIdx + 1 + k = lbaIdx + (k + 1) ∧
          buf + ns.stride + k * ns.stride = buf + (k + 1) * ns.stride ∧
          mbuf + ns.mdStride + k * ns.mdStride = mbuf + (k + 1) * ns.mdStride := by
        intro k
        rw [Nat.add_one_mul, Nat.add_one_mul]
        omega
      rw [Format.fillLoop]
      constructor
      · intro same
        -- The later rounds leave the first block alone.
        have fixed : f.fillBlock ns o mo slba lbaIdx buf mbuf b = b := by
          have data : (f.fillBlock ns o mo slba lbaIdx buf mbuf b).data = b.data := by
            funext i
            by_cases here : i < buf + ns.stride
            · rw [← fillLoop_outside dif guardPos refPos room interval (.inl here), same]
            · exact fillBlock_outside dif guardPos refPos room interval (.inr (by omega))
          rw [fillBlock_dif dif] at data ⊢
          exact congrArg (fun data => { b with data }) data
        rw [fixed, ih] at same
        intro k inside
        cases k with
        | zero => simpa using first.mp fixed
        | succ k =>
            have holds := same k (by omega)
            rw [(later k).1, (later k).2.1, (later k).2.2] at holds
            exact holds
      · intro all
        have fixed : f.fillBlock ns o mo slba lbaIdx buf mbuf b = b :=
          first.mpr (by simpa using all 0 (by omega))
        rw [fixed, ih]
        intro k inside
        rw [(later k).1, (later k).2.1, (later k).2.2]
        exact all (k + 1) (by omega)

/-- The blocks are verified by their own bytes. -/
theorem verifyLoop_congr (room : f.size ≤ ns.ms) (interval : mo.interval = f.interval ns)
    {n lbaIdx buf mbuf : Nat} {b b' : Bufs}
    (data : ∀ i < buf + n * ns.stride, b.data i = b'.data i) (md : b.md = b'.md) :
    f.verifyLoop ns o mo slba n lbaIdx buf mbuf b =
      f.verifyLoop ns o mo slba n lbaIdx buf mbuf b' := by
  induction n generalizing lbaIdx buf mbuf with
  | zero => rfl
  | succ n ih =>
      rw [Nat.succ_mul] at data
      rw [Format.verifyLoop, Format.verifyLoop,
        Format.verifyBlock_congr room interval (fun i inside => data i (by omega))
          (fun i _ => congrFun md i),
        ih (fun i inside => data i (by omega))]

end Blocks

/-- The sizes of a namespace: `1 << lbaf.ds` and 16 bits. -/
structure Formatted (ns : Ns) : Prop where
  lbaSize : ∃ ds < 32, ns.lbaSize = 2 ^ ds
  ms : ns.ms < 2 ^ 16

theorem blocks_le {ns : Ns} (formatted : Formatted ns) (len : Nat) :
    ns.blocks len * ns.stride ≤ len := by
  obtain ⟨⟨ds, small, size⟩, ms⟩ := formatted
  have low : len % 2 ^ 32 ≤ len := Nat.mod_le _ _
  have lba : ns.lbaSize ≤ 2 ^ 31 := by
    rw [size]
    exact Nat.pow_le_pow_right Nat.two_pos (by omega)
  unfold Ns.blocks Ns.stride
  cases ns.mset with
  | true =>
      simp only [if_true]
      rw [Nat.mod_eq_of_lt (b := 2 ^ 32) (a := ns.lbaSize + ns.ms) (by omega)]
      exact (Nat.div_mul_le_self _ _).trans low
  | false =>
      simp only [Bool.false_eq_true, if_false]
      rw [size, Nat.log2_two_pow, Nat.shiftRight_eq_div_pow]
      exact (Nat.div_mul_le_self _ _).trans low

theorem format_pos (crc : Crc) (pif : Pif) :
    0 < (pif.format crc).guardLen ∧ 0 < (pif.format crc).refLen := by
  cases pif <;> exact ⟨Nat.succ_pos _, Nat.succ_pos _⟩

/-! ### The command -/

section Command

variable {crc : Crc} {env : Env} {pif : Pif} {ns : Ns} {o : Config} {io : IoU} {mo : MetaOptions}
  {s : Buffers} {call : Call}

theorem handOver_spec (env : Env) (o : Config) (iov : Iov) (mo : MetaOptions) (s : Buffers)
    (sqe : Sqe) :
    (handOver env o iov mo s sqe).iov = some iov ∧ (handOver env o iov mo s sqe).mo = mo ∧
      (handOver env o iov mo s sqe).bufs = s := by
  unfold handOver
  cases env.mapv o.enableSgl iov with
  | some errno => exact ⟨rfl, rfl, rfl⟩
  | none => cases env.hasMbuf <;> cases o.enableSgl <;> exact ⟨rfl, rfl, rfl⟩

/-- What a write that is queued has done: it has copied the data, then filled it in. -/
theorem rw_queued (write : io.read = false) (noAct : o.piAct = false)
    (done : rw crc env pif ns o io mo s = some call) (queued : call.status = .queued) :
    ∃ r : MetaOptions × Bufs,
      (if ns.piType ≠ 0 then fillPi crc pif ns o.toOptions io mo ⟨s.xfer, s.md⟩
        else some (mo, ⟨s.xfer, s.md⟩)) = some r ∧
      call.iov = some ⟨if o.prp1Offset ≠ 0 then .prpIomem else .xfer, o.prp1Offset,
        io.xferBuflen⟩ ∧
      call.mo = r.1 ∧ call.bufs.xfer = r.2.data ∧ call.bufs.md = r.2.md ∧
      (o.prp1Offset ≠ 0 → call.bufs.prpIomem =
        copy s.prpIomem o.prp1Offset s.xfer io.xferBuflen) := by
  unfold rw at done
  simp only [write, Bool.and_false, Bool.false_and, and_true, Bool.false_eq_true, if_false]
    at done
  split at done
  · cases done
    cases queued
  · generalize copied : (if o.prp1Offset ≠ 0 then
        { s with prpIomem := copy s.prpIomem o.prp1Offset s.xfer io.xferBuflen }
      else s) = s₁ at done
    have same : s₁.xfer = s.xfer ∧ s₁.md = s.md := by
      rw [← copied]
      split <;> exact ⟨rfl, rfl⟩
    rw [Option.map_eq_some_iff, same.1, same.2] at done
    obtain ⟨⟨mo', b, sqe⟩, filled, rfl⟩ := done
    have spec := handOver_spec env o
      ⟨if o.prp1Offset ≠ 0 then .prpIomem else .xfer, o.prp1Offset, io.xferBuflen⟩ mo'
      { s₁ with xfer := b.data, md := b.md } sqe
    refine ⟨(mo', b), ?_, spec.1, spec.2.1, ?_, ?_, ?_⟩
    · split at filled
      · rename_i enabled
        rw [fill, noAct, Option.map_eq_some_iff] at filled
        obtain ⟨r, done, same⟩ := filled
        cases same
        rw [if_pos enabled]
        exact done
      · rename_i disabled
        cases filled
        rw [if_neg disabled]
    · rw [spec.2.2]
    · rw [spec.2.2]
    · intro offset
      rw [spec.2.2, ← copied, if_pos offset]

/-- The loop ends only if there is a block. -/
theorem blocks_pos {r : MetaOptions × Bufs} {b : Bufs} (write : io.read = false)
    (filled : fillPi crc pif ns o.toOptions io mo b = some r) : 0 < ns.blocks io.xferBuflen := by
  rw [fillPi_eq, Format.fillPi, write, Bool.false_and, if_neg (by decide),
    Option.map_eq_some_iff] at filled
  obtain ⟨n, ends, -⟩ := filled
  have small := blocks_lt ns io.xferBuflen
  unfold rounds at ends
  split at ends
  · cases ends
  · rename_i last
    unfold getNlba at last
    omega

/-- What `libunvmed_fill_pi_*_guard` does for a write. -/
theorem fillPi_write {r : MetaOptions × Bufs} {b : Bufs} (write : io.read = false)
    (some_ : 0 < ns.blocks io.xferBuflen)
    (filled : fillPi crc pif ns o.toOptions io mo b = some r) :
    r = ({ mo with interval := (pif.format crc).interval ns },
      (pif.format crc).fillLoop ns o.toOptions
        { mo with interval := (pif.format crc).interval ns } (getSlba ns io.offset)
        (ns.blocks io.xferBuflen) 0 0 0 b) := by
  rw [fillPi_eq, Format.fillPi, write, Bool.false_and, if_neg (by decide),
    rounds_of_blocks some_, getNlba_succ some_, Option.map_some, Option.some.injEq] at filled
  exact filled.symm

/-- Filling in leaves the data as it is if and only if the metadata is apart or the data has its
protection information already. -/
theorem fillPi_data_iff {r : MetaOptions × Bufs} {b : Bufs} (write : io.read = false)
    (room : (pif.format crc).size ≤ ns.ms) (some_ : 0 < ns.blocks io.xferBuflen)
    (formatted : Formatted ns) (filled : fillPi crc pif ns o.toOptions io mo b = some r) :
    slice b.data 0 io.xferBuflen = slice r.2.data 0 io.xferBuflen ↔
      ns.mset = false ∨ Prefilled (pif.format crc) ns o.toOptions io mo b := by
  have blocks := blocks_le formatted io.xferBuflen
  rw [fillPi_write write some_ filled]
  cases layout : ns.mset with
  | false =>
      refine iff_of_true ?_ (.inl rfl)
      rw [fillLoop_dix layout]
  | true =>
      obtain ⟨guardPos, refPos⟩ := format_pos crc pif
      have whole : ((pif.format crc).fillLoop ns o.toOptions
          { mo with interval := (pif.format crc).interval ns } (getSlba ns io.offset)
          (ns.blocks io.xferBuflen) 0 0 0 b).data = b.data ↔
          Prefilled (pif.format crc) ns o.toOptions io mo b := by
        rw [fillLoop_eq_self_iff layout guardPos refPos room rfl, Prefilled]
        simp only [Nat.zero_add]
      rw [slice_eq_iff, or_iff_right (by decide), ← whole]
      simp only [Nat.zero_add]
      constructor
      · intro same
        funext i
        by_cases inside : i < io.xferBuflen
        · exact (same i inside).symm
        · exact fillLoop_outside layout guardPos refPos room rfl (.inr (by omega))
      · intro same i _
        rw [same]

/-- The verification reads no byte behind the transfer. -/
theorem verifyPi_congr {b b' : Bufs} (room : (pif.format crc).size ≤ ns.ms)
    (some_ : 0 < ns.blocks io.xferBuflen) (formatted : Formatted ns)
    (interval : mo.interval = (pif.format crc).interval ns)
    (data : slice b.data 0 io.xferBuflen = slice b'.data 0 io.xferBuflen) (md : b.md = b'.md) :
    verifyPi crc pif ns o.toOptions io mo b = verifyPi crc pif ns o.toOptions io mo b' := by
  have blocks := blocks_le formatted io.xferBuflen
  rw [slice_eq_iff] at data
  simp only [Nat.zero_add] at data
  rw [verifyPi_eq, Format.verifyPi, Format.verifyPi, rounds_of_blocks some_, getNlba_succ some_,
    Option.bind_some, Option.bind_some]
  exact verifyLoop_congr room interval (fun i inside => data i (by omega)) md

/-- What the device receives is protected and verifies if and only if the data did not go through
the buffer of `prp1_offset` before its protection information was filled in, and the mask and the
reference tags fit. -/
theorem rw_protects_iff (write : io.read = false) (noAct : o.piAct = false)
    (formatted : Formatted ns) (type : ns.piType.toNat ≤ 3)
    (room : ns.piType ≠ 0 → (pif.format crc).size ≤ ns.ms)
    (done : rw crc env pif ns o io mo s = some call) (queued : call.status = .queued) :
    (∃ iov, call.iov = some iov ∧ Protected crc pif ns o io iov call.mo call.bufs) ↔
      ns.piType = 0 ∨
        (o.prp1Offset = 0 ∨ ns.mset = false ∨
          Prefilled (pif.format crc) ns o.toOptions io mo ⟨s.xfer, s.md⟩) ∧
        (o.errGuard = false → o.errReftag = false → (o.prchkApp = true → mo.MaskFits) ∧
          RefTagsFit (pif.format crc) ns o.toOptions io mo ⟨s.xfer, s.md⟩) := by
  obtain ⟨r, filled, iov, keptMo, xfer, md, copied⟩ := rw_queued write noAct done queued
  rw [iov]
  simp only [Option.some.injEq, exists_eq_left']
  -- The offset buffer holds the data as it was before.
  have received : call.bufs.received ⟨if o.prp1Offset ≠ 0 then .prpIomem else .xfer, o.prp1Offset,
      io.xferBuflen⟩ =
      if o.prp1Offset = 0 then slice r.2.data 0 io.xferBuflen
      else slice s.xfer 0 io.xferBuflen := by
    by_cases offset : o.prp1Offset = 0
    · simp [Buffers.received, Buffers.mem, offset, xfer]
    · rw [if_neg offset, if_pos offset, Buffers.received, Buffers.mem, copied offset, slice_copy]
  by_cases enabled : ns.piType = 0
  · refine iff_of_true ⟨?_, fun on => absurd enabled on⟩ (.inl enabled)
    rw [if_neg (not_not.mpr enabled), Option.some.injEq] at filled
    rw [received, xfer, ← filled]
    split <;> rfl
  · rw [if_pos enabled] at filled
    have room := room enabled
    have some_ := blocks_pos write filled
    have same : call.bufs.received ⟨if o.prp1Offset ≠ 0 then .prpIomem else .xfer, o.prp1Offset,
        io.xferBuflen⟩ = slice call.bufs.xfer 0 io.xferBuflen ↔
        o.prp1Offset = 0 ∨ ns.mset = false ∨
          Prefilled (pif.format crc) ns o.toOptions io mo ⟨s.xfer, s.md⟩ := by
      rw [received, xfer]
      by_cases offset : o.prp1Offset = 0
      · rw [if_pos offset]
        exact iff_of_true rfl (.inl offset)
      · rw [if_neg offset, or_iff_right offset]
        exact fillPi_data_iff write room some_ formatted filled
    have kind : ns.piType = 1 ∨ ns.piType = 2 ∨ ns.piType = 3 := by
      have some_type : ns.piType.toNat ≠ 0 := fun none => enabled (BitVec.eq_of_toNat_eq none)
      have cases : ns.piType.toNat = 1 ∨ ns.piType.toNat = 2 ∨ ns.piType.toNat = 3 := by omega
      exact cases.imp (fun h => BitVec.eq_of_toNat_eq h)
        (.imp (fun h => BitVec.eq_of_toNat_eq h) fun h => BitVec.eq_of_toNat_eq h)
    have trip : o.errGuard = false → o.errReftag = false →
        (verifyPi crc pif ns o.toOptions io r.1 r.2 = some 0 ↔
          (o.prchkApp = true → mo.MaskFits) ∧
            RefTagsFit (pif.format crc) ns o.toOptions io mo ⟨s.xfer, s.md⟩) := by
      intro noErrGuard noErrReftag
      rw [RefTagsFit, ← Format.fill_verified_iff write kind room some_ noErrGuard noErrReftag,
        ← fillPi_eq, filled, Option.bind_some, verifyPi_eq]
    have interval : r.1.interval = (pif.format crc).interval ns := by
      rw [fillPi_write write some_ filled]
    have verifies : ∀ dev : Mem, slice dev 0 io.xferBuflen = slice call.bufs.xfer 0 io.xferBuflen →
        verifyPi crc pif ns o.toOptions io call.mo ⟨dev, call.bufs.md⟩ =
          verifyPi crc pif ns o.toOptions io r.1 r.2 := by
      intro dev bytes
      rw [keptMo]
      exact verifyPi_congr room some_ formatted interval (bytes.trans (by rw [xfer])) md
    rw [or_iff_right enabled, ← same]
    constructor
    · rintro ⟨bytes, verified⟩
      refine ⟨bytes, fun noErrGuard noErrReftag => (trip noErrGuard noErrReftag).mp ?_⟩
      rw [← verifies call.bufs.xfer rfl]
      exact verified enabled noErrGuard noErrReftag _ bytes.symm
    · rintro ⟨bytes, mask⟩
      refine ⟨bytes, fun _ noErrGuard noErrReftag dev dev_bytes => ?_⟩
      rw [verifies dev (dev_bytes.trans bytes)]
      exact (trip noErrGuard noErrReftag).mpr (mask noErrGuard noErrReftag)

/-- Nothing fails, and there is a metadata buffer. -/
def sampleEnv (hasMbuf : Bool) : Env where
  nsid := 1
  writeOpcode := .write
  cdw12Flags := 0
  cdw13Flags := 0
  verList := false
  hasMbuf := hasMbuf
  metaIova := 0x1000
  allocCmd := true
  mapv _ _ := none
  populate m := m

/-- An offset of 4 bytes. -/
def sampleConfig : Config where
  toOptions := checkAll
  prp1Offset := 4
  enableSgl := false
  piAct := false
  apptag := 0x1010
  apptagMask := 0xfff0

/-- Blocks of 512 bytes with their metadata apart. -/
theorem rw_protects_dix :
    ∃ call, rw sampleCrc (sampleEnv true) .guard16b ⟨512, 8, false, 1⟩ sampleConfig
        ⟨false, 3 * 512, 2 * 512⟩ ⟨0, 0x1010, 0xfff0⟩ ⟨fun _ => 0, fun _ => 0, fun _ => 0⟩ =
          some call ∧
      ∃ iov, call.iov = some iov ∧ Protected sampleCrc .guard16b ⟨512, 8, false, 1⟩ sampleConfig
        ⟨false, 3 * 512, 2 * 512⟩ iov call.mo call.bufs := by
  have queued : ∃ call, rw sampleCrc (sampleEnv true) .guard16b ⟨512, 8, false, 1⟩ sampleConfig
      ⟨false, 3 * 512, 2 * 512⟩ ⟨0, 0x1010, 0xfff0⟩ ⟨fun _ => 0, fun _ => 0, fun _ => 0⟩ =
        some call ∧ call.status = .queued := ⟨_, rfl, rfl⟩
  obtain ⟨call, done, queued⟩ := queued
  have formatted : Formatted ⟨512, 8, false, 1⟩ := ⟨⟨9, by decide, rfl⟩, by decide⟩
  have mask : MetaOptions.MaskFits ⟨0, 0x1010, 0xfff0⟩ := by decide
  have tags : RefTagsFit (guard16 sampleCrc) ⟨512, 8, false, 1⟩ checkAll ⟨false, 3 * 512, 2 * 512⟩
      ⟨0, 0x1010, 0xfff0⟩ ⟨fun _ => 0, fun _ => 0⟩ :=
    fun _ _ _ _ => .inl (Nat.mod_lt _ (by decide))
  exact ⟨call, done, (rw_protects_iff rfl rfl formatted (by decide) (fun _ => by decide)
    done queued).mpr (.inr ⟨.inr (.inl rfl), fun _ _ => ⟨fun _ => mask, tags⟩⟩)⟩

/-- The block 3 is written from a buffer of zeros, so its reference tag is 3. The device receives
a block that ends with 0. -/
theorem offset_write_unprotected :
    ∃ call, rw sampleCrc (sampleEnv false) .guard16b sampleNs sampleConfig
        ⟨false, 3 * 520, 520⟩ ⟨0, 0x1010, 0xfff0⟩ ⟨fun _ => 0, fun _ => 0, fun _ => 0⟩ =
          some call ∧
      call.status = .queued ∧ call.iov = some ⟨.prpIomem, 4, 520⟩ ∧
      call.bufs.received ⟨.prpIomem, 4, 520⟩ ≠ slice call.bufs.xfer 0 520 := by
  refine ⟨_, rfl, rfl, rfl, ?_⟩
  rw [Ne, Buffers.received, slice_eq_iff]
  intro same
  exact absurd (same 519 (by decide)) (by decide)

end Command

end Unvmed.Protect
