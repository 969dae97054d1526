import Mathlib.Data.Int.Basic
import Mathlib.Logic.Function.Basic
import Mathlib.Tactic.Ring
import Unvmed.Lib.Layout

/-!
The buffers of the read and write commands (`unvme_read` and `unvme_write` in `src/unvmed-cmds.c`).

A command has a data buffer in pages, with `--prp1-offset` bytes left free at its start, perhaps a
metadata buffer, and user buffers on the heap. `unvme_read` moves its pointers to the offset after
the command is allocated, `unvme_write` never does; both subtract the offset when they free the
pages.

* `readWrite_safe_iff`: the conditions under which all copies stay inside and the pages are freed
  with the pointers they were allocated with.
* `plain_safe`: without offset and metadata nothing goes wrong.
* `offset_freed_wrong`: an offset and a queue that is not ready; an offset in a write; a read that
  does not fit behind the offset.
-/

namespace Unvmed.ReadWrite

open Lib

/-! ### Memory -/

inductive Block where
  /-- `buf`, in pages -/
  | buf
  /-- `mbuf`, in pages -/
  | mbuf
  /-- `rdata` or `wdata` -/
  | data
  /-- `rmdata` or `wmdata` -/
  | metadata
  deriving DecidableEq, Repr

/-- A pointer: `none` is `NULL`. -/
structure Ptr where
  block : Option Block := none
  off : ℤ := 0
  deriving DecidableEq, Repr

def Ptr.add (p : Ptr) (n : ℤ) : Ptr := { p with off := p.off + n }

inductive Fault where
  /-- A copy that leaves a block. -/
  | copy
  /-- `unvmed_pgunmap` of a pointer that `unvmed_pgmap` did not return. -/
  | pgunmap
  deriving DecidableEq, Repr

structure Mem where
  /-- The lengths of the blocks that are allocated. -/
  live : Block → Option ℕ := fun _ => none
  faults : List Fault := []

/-- A number as a `size_t`. -/
def sizeT (x : ℤ) : ℕ := (x % 2 ^ 64).toNat

/-- What `unvmed_pgmap` allocates. -/
def pgmapLen (P : ℕ) (size : ℤ) : ℕ := roundUpWord P (sizeT size)

/-- No block is longer than half of the address space. -/
def Mem.alloc (m : Mem) (b : Block) (len : ℕ) (ok : Bool) : Option Mem :=
  if ok = true ∧ len < 2 ^ 63 then some { m with live := Function.update m.live b (some len) }
  else none

/-- `unvmed_pgmap` -/
def Mem.pgmap (m : Mem) (b : Block) (P : ℕ) (size : ℤ) (ok : Bool) : Option Mem :=
  m.alloc b (pgmapLen P size) ok

/-- `malloc`, whose result is not checked. -/
def Mem.malloc (m : Mem) (b : Block) (size : ℤ) (ok : Bool) : Mem × Ptr :=
  match m.alloc b (sizeT size) ok with
  | none => (m, {})
  | some m => (m, { block := b })

/-- The bytes from a pointer on are in its block. -/
def Mem.inside (m : Mem) (p : Ptr) (n : ℕ) : Bool :=
  n == 0 || (p.block.bind m.live).any fun L => 0 ≤ p.off ∧ p.off + n ≤ L

/-- `memcpy` -/
def Mem.copy (m : Mem) (dst src : Ptr) (n : ℕ) : Mem :=
  if m.inside dst n && m.inside src n then m else { m with faults := m.faults ++ [.copy] }

def Mem.pgunmap (m : Mem) (p : Ptr) : Mem :=
  match p.block with
  | none => { m with faults := m.faults ++ [.pgunmap] }
  | some b =>
      if p.off = 0 ∧ (m.live b).isSome then { m with live := Function.update m.live b none }
      else { m with faults := m.faults ++ [.pgunmap] }

/-! ### The commands -/

/-- The options of a command. -/
structure Args where
  nlb : BitVec 32
  dataSize : BitVec 32
  metadataSize : BitVec 32
  prp1Offset : BitVec 32
  /-- `-M` -/
  metadata : Bool

/-- The format of a namespace. -/
structure Format where
  lbaSize : ℕ
  lbaSize_pos : 0 < lbaSize
  ms : ℕ
  /-- `NVME_FORMAT_MSET_EXTENDED` -/
  extended : Bool

/-- What the calls of a command return. -/
structure Outcome where
  ctrl : Bool := true
  ns : Bool := true
  sq : Bool := true
  /-- `unvmed_pgmap` of the data buffer. -/
  pgmap : Bool := true
  /-- `unvmed_pgmap` of the metadata buffer. -/
  mpgmap : Bool := true
  malloc : Bool := true
  mmalloc : Bool := true
  /-- `unvme_read_file` -/
  readFile : Bool := true
  readMetaFile : Bool := true
  /-- `unvmed_sq_ready` -/
  ready : Bool := true
  /-- `unvmed_alloc_cmd_meta` -/
  cmd : Bool := true
  /-- `unvmed_cmd_prep_read` -/
  prep : Bool := true
  /-- The status is 0. -/
  success : Bool := true

/-- `unvmed_pagesize`, for `CC.MPS` -/
def pagesize (mps : Fin 16) : ℕ := 2 ^ (12 + mps.val)

section Commands

variable (mps : Fin 16) (a : Args) (f : Format) (o : Outcome)

/-- `size`, the bytes to transfer from or to the data buffer. -/
def size : ℤ :=
  if a.metadataSize ≠ 0 ∧ f.extended then a.dataSize.toInt + a.metadataSize.toInt
  else a.dataSize.toInt

/-- Metadata in a buffer of its own. -/
def separate : Bool := a.metadataSize ≠ 0 && !f.extended

/-- What is checked before the buffers. -/
def accepted : Bool :=
  o.ctrl && (a.metadataSize == 0 || o.ns && f.ms != 0) && o.sq &&
    a.prp1Offset.toInt < pagesize mps && (a.metadataSize == 0 || a.metadata)

/-- One block of the loops over extended LBAs: with `toUser`, from the device. -/
def move (toUser : Bool) (m : Mem) (user dev : Ptr) (n : ℕ) : Mem :=
  if toUser then m.copy user dev n else m.copy dev user n

/-- The loops over extended LBAs, from block `i` on. The product with `lba_size` is unsigned. -/
def blocks (toUser : Bool) (data metadata buf : Ptr) : ℕ → ℕ → ℕ → Mem → Mem
  | 0, _, _, m => m
  | todo + 1, i, offset, m =>
      let m := move toUser m (data.add (i * f.lbaSize % 2 ^ 32 : ℕ)) (buf.add offset) f.lbaSize
      let offset := offset + f.lbaSize
      let m := move toUser m (metadata.add (i * f.ms : ℕ)) (buf.add offset) f.ms
      let offset := offset + f.ms
      blocks toUser data metadata buf todo (i + 1) offset m

/-- `arg_intv(nlb) + 1`, as far as a loop counts to it. -/
def nrBlocks : ℕ := (a.nlb + 1).toInt.toNat

/-- What follows the label `mbuf`, then `buf`. -/
def release (m : Mem) (mbuf buf : Ptr) : Mem :=
  let m := if separate a f then m.pgunmap (mbuf.add (-a.prp1Offset.toInt)) else m
  m.pgunmap (buf.add (-a.prp1Offset.toInt))

/-- What `unvme_read` copies after the command. -/
def readOut (m : Mem) (mbuf buf : Ptr) : Mem :=
  let (m, rdata) := m.malloc .data a.dataSize.toInt o.malloc
  if a.metadataSize = 0 then m.copy rdata buf (sizeT a.dataSize.toInt)
  else
    let (m, rmdata) := m.malloc .metadata a.metadataSize.toInt o.mmalloc
    if separate a f then
      (m.copy rdata buf (sizeT a.dataSize.toInt)).copy rmdata mbuf (sizeT a.metadataSize.toInt)
    else blocks f true rdata rmdata buf (nrBlocks a) 0 0 m

/-- `unvme_read` -/
def unvmeRead : Mem :=
  let m : Mem := {}
  let off := a.prp1Offset.toInt
  if !accepted mps a f o then m
  else
    match m.pgmap .buf (pagesize mps) (size a f + (pagesize mps - off)) o.pgmap with
    | none => m
    | some m =>
        let buf : Ptr := { block := some .buf }
        match (if separate a f then
            m.pgmap .mbuf (pagesize mps) a.metadataSize.toInt o.mpgmap else some m) with
        | none => m.pgunmap (buf.add (-off))
        | some m =>
            let mbuf : Ptr := if separate a f then { block := some .mbuf } else {}
            if !(o.ready && o.cmd) then release a f m mbuf buf
            else
              let buf := buf.add off
              let mbuf := if separate a f then mbuf.add off else mbuf
              let m := if o.prep && o.success then readOut a f o m mbuf buf else m
              release a f m mbuf buf

/-- `unvme_write` -/
def unvmeWrite : Mem :=
  let m : Mem := {}
  let off := a.prp1Offset.toInt
  if !accepted mps a f o then m
  else
    match m.pgmap .buf (pagesize mps) (size a f + (pagesize mps - off)) o.pgmap with
    | none => m
    | some m =>
        let buf : Ptr := { block := some .buf }
        let buf' := buf.add off
        let (m, wdata) := m.malloc .data a.dataSize.toInt o.malloc
        if !o.readFile then m.pgunmap (buf.add (-off))
        else if a.metadataSize = 0 then
          release a f (m.copy buf' wdata (sizeT a.dataSize.toInt)) {} buf
        else
          let (m, wmdata) := m.malloc .metadata a.metadataSize.toInt o.mmalloc
          if !o.readMetaFile then m.pgunmap (buf.add (-off))
          else if separate a f then
            match m.pgmap .mbuf (pagesize mps)
                (a.metadataSize.toInt + (pagesize mps - off)) o.mpgmap with
            | none => m.pgunmap (buf.add (-off))
            | some m =>
                let mbuf : Ptr := { block := some .mbuf }
                let m := m.copy buf' wdata (sizeT a.dataSize.toInt)
                let m := m.copy (mbuf.add off) wmdata (sizeT a.metadataSize.toInt)
                release a f m mbuf buf
          else release a f (blocks f false wdata wmdata buf' (nrBlocks a) 0 0 m) {} buf

end Commands

/-! ### Checks -/

section Checks

variable {m : Mem} {p q dst src : Ptr} {n L P : ℕ} {b b' : Block} {x : ℤ} {ok : Bool}

/-- The length of the block of a pointer. -/
def Mem.len (m : Mem) (p : Ptr) : Option ℕ := p.block.bind m.live

theorem inside_iff :
    m.inside p n = true ↔ n = 0 ∨ ∃ L, m.len p = some L ∧ 0 ≤ p.off ∧ p.off + n ≤ L := by
  unfold Mem.inside Mem.len
  cases p.block.bind m.live with
  | none => simp
  | some L => simp

@[simp] theorem len_add (k : ℤ) : m.len (p.add k) = m.len p := rfl

theorem inside_congr {m' : Mem} (live : m'.live = m.live) : m'.inside p n = m.inside p n := by
  unfold Mem.inside
  rw [live]

@[simp] theorem copy_live : (m.copy dst src n).live = m.live := by
  unfold Mem.copy
  split <;> rfl

theorem copy_faults :
    (m.copy dst src n).faults = [] ↔
      m.faults = [] ∧ m.inside dst n = true ∧ m.inside src n = true := by
  unfold Mem.copy
  split
  case isTrue both =>
    rw [Bool.and_eq_true] at both
    exact (and_iff_left both).symm
  case isFalse not =>
    rw [Bool.and_eq_true] at not
    simp [not]

theorem move_true : move true m p q n = m.copy p q n := if_pos rfl

theorem move_false : move false m p q n = m.copy q p n := if_neg nofun

theorem move_live (toUser : Bool) : (move toUser m p q n).live = m.live := by
  unfold move
  split <;> exact copy_live

/-- The direction does not matter. -/
theorem move_faults (toUser : Bool) :
    (move toUser m p q n).faults = [] ↔
      m.faults = [] ∧ m.inside p n = true ∧ m.inside q n = true := by
  unfold move
  split
  · exact copy_faults
  · rw [copy_faults, and_comm (a := m.inside q n = true)]

/-- The pointer minus `x` is the one that was allocated. -/
theorem pgunmap_faults (block : p.block = some b) (live : (m.live b).isSome) :
    (m.pgunmap (p.add (-x))).faults = [] ↔ m.faults = [] ∧ p.off = x := by
  simp only [Mem.pgunmap, Ptr.add, block]
  by_cases same : p.off = x
  · rw [if_pos ⟨by omega, live⟩]
    exact (and_iff_left same).symm
  · rw [if_neg fun h => same (by omega)]
    simp [same]

theorem pgunmap_live (block : p.block = some b) (other : b' ≠ b) :
    (m.pgunmap (p.add x)).live b' = m.live b' := by
  simp only [Mem.pgunmap, Ptr.add, block]
  split
  · exact Function.update_of_ne other none m.live
  · rfl

/-! ### Allocations -/

/-- `unvmed_pgmap` succeeds. -/
def Gets (P : ℕ) (x : ℤ) (ok : Bool) : Prop := ok = true ∧ pgmapLen P x < 2 ^ 63

instance (P : ℕ) (x : ℤ) (ok : Bool) : Decidable (Gets P x ok) :=
  inferInstanceAs (Decidable (_ ∧ _))

theorem pgmap_spec (m : Mem) (b : Block) (P : ℕ) (x : ℤ) (ok : Bool) :
    ¬ Gets P x ok ∧ m.pgmap b P x ok = none ∨
      Gets P x ok ∧ ∃ m', m.pgmap b P x ok = some m' ∧ m'.faults = m.faults ∧
        (∀ b' ≠ b, m'.live b' = m.live b') ∧ m'.live b = some (pgmapLen P x) := by
  by_cases gets : Gets P x ok
  · exact .inr ⟨gets, _, if_pos gets, rfl, fun b' other => Function.update_of_ne other _ m.live,
      Function.update_self b _ m.live⟩
  · exact .inl ⟨gets, if_neg gets⟩

theorem sizeT_of_nonneg (pos : 0 ≤ x) (small : x < 2 ^ 63) : sizeT x = x.toNat := by
  unfold sizeT
  omega

theorem sizeT_lt_iff (low : - 2 ^ 62 ≤ x) (high : x < 2 ^ 62) : sizeT x < 2 ^ 63 ↔ 0 ≤ x := by
  unfold sizeT
  omega

/-- The length of a user buffer, if `malloc` gives it. -/
def userLen (x : BitVec 32) (ok : Bool) : Option ℕ :=
  if ok = true ∧ 0 ≤ x.toInt then some x.toInt.toNat else none

/-- `malloc` of an `int`: the other blocks stay, and the block has that length, if there is one. -/
theorem malloc_spec (m : Mem) (b : Block) (x : BitVec 32) (ok : Bool) :
    ∃ m' p, m.malloc b x.toInt ok = (m', p) ∧ m'.faults = m.faults ∧
      (∀ b' ≠ b, m'.live b' = m.live b') ∧ p.off = 0 ∧ (∀ b' ≠ b, p.block ≠ some b') ∧
      m'.len p = userLen x ok := by
  have low := BitVec.le_toInt x
  have high := BitVec.toInt_lt (x := x)
  have small := sizeT_lt_iff (x := x.toInt) (by omega) (by omega)
  by_cases there : ok = true ∧ 0 ≤ x.toInt
  · have got : m.malloc b x.toInt ok =
        ({ m with live := Function.update m.live b (some (sizeT x.toInt)) }, { block := b }) := by
      rw [Mem.malloc, Mem.alloc, if_pos ⟨there.1, small.mpr there.2⟩]
    refine ⟨_, _, got, rfl, fun b' other => Function.update_of_ne other _ m.live, rfl, ?_, ?_⟩
    · exact fun b' other same => other (Option.some.inj same).symm
    · rw [userLen, if_pos there, ← sizeT_of_nonneg there.2 (by omega)]
      exact Function.update_self b _ m.live
  · have got : m.malloc b x.toInt ok = (m, {}) := by
      rw [Mem.malloc, Mem.alloc, if_neg fun h => there ⟨h.1, small.mp h.2⟩]
    refine ⟨_, _, got, rfl, fun _ _ => rfl, rfl, fun _ _ => nofun, ?_⟩
    rw [userLen, if_neg there]
    rfl

/-- The pointers to other blocks keep their lengths. -/
theorem len_other {m' : Mem} (live : ∀ b' ≠ b, m'.live b' = m.live b')
    (other : p.block ≠ some b) : m'.len p = m.len p := by
  unfold Mem.len
  cases block : p.block with
  | none => rfl
  | some b' =>
      rw [Option.bind_some, Option.bind_some, live]
      rintro rfl
      exact other block

end Checks

/-! ### Copies -/

section Copies

variable {a : Args} {f : Format} {o : Outcome} {m : Mem} {data metadata buf mbuf : Ptr}
  {Lb Lm todo i offset : ℕ} {off : ℤ} {toUser : Bool}

/-- The transfer between a user buffer of `n` bytes and a block of `L` bytes, behind the offset. -/
def Fits (n off : ℤ) (L : ℕ) (ok : Bool) : Prop := ok = true ∧ 0 < n ∧ 0 ≤ off ∧ off + n ≤ L

/-- One `memcpy` with the length of the user buffer. -/
theorem memcpy_faults (toUser : Bool) {x : BitVec 32} {user dev : Ptr} {L : ℕ} {ok : Bool}
    (len : m.len user = userLen x ok)
    (userOff : user.off = 0) (devLen : m.len dev = some L) (devOff : dev.off = off) :
    (move toUser m user dev (sizeT x.toInt)).faults = [] ↔
      m.faults = [] ∧ (x = 0 ∨ Fits x.toInt off L ok) := by
  have low := BitVec.le_toInt x
  have high := BitVec.toInt_lt (x := x)
  have zero : x = 0 ↔ x.toInt = 0 := by
    rw [← BitVec.toInt_inj]
    rfl
  rw [move_faults, inside_iff, inside_iff, len, userLen, devLen, devOff, userOff, zero]
  refine and_congr_right fun _ => ?_
  rcases lt_trichotomy x.toInt 0 with neg | same | pos
  · have size : sizeT x.toInt ≠ 0 := by
      unfold sizeT
      omega
    rw [if_neg fun h => absurd h.2 (by omega)]
    constructor
    · rintro ⟨none | ⟨_, no, -⟩, -⟩
      · exact absurd none size
      · cases no
    · rintro (none | ⟨-, pos, -⟩) <;> omega
  · have size : sizeT 0 = 0 := rfl
    simp only [same, size, true_or, and_self]
  · rw [sizeT_of_nonneg pos.le (by omega)]
    have size : x.toInt.toNat ≠ 0 := by omega
    cases ok with
    | false =>
        rw [if_neg fun h => absurd h.1 (by decide)]
        simp [size, pos.ne', Fits]
    | true =>
        rw [if_pos ⟨rfl, pos.le⟩]
        simp only [size, pos.ne', false_or, Option.some.injEq, exists_eq_left', Fits, true_and]
        omega

/-- The blocks from `i` on are inside. -/
theorem blocks_faults_forall :
    (blocks f toUser data metadata buf todo i offset m).faults = [] ↔
      m.faults = [] ∧ ∀ j < todo,
        (m.inside (data.add ((i + j) * f.lbaSize % 2 ^ 32 : ℕ)) f.lbaSize = true ∧
          m.inside (buf.add (offset + j * (f.lbaSize + f.ms) : ℕ)) f.lbaSize = true) ∧
        (m.inside (metadata.add ((i + j) * f.ms : ℕ)) f.ms = true ∧
          m.inside (buf.add (offset + j * (f.lbaSize + f.ms) + f.lbaSize : ℕ)) f.ms = true) := by
  induction todo generalizing i offset m with
  | zero =>
      rw [blocks]
      exact (and_iff_left fun j less => absurd less (Nat.not_lt_zero j)).symm
  | succ todo ih =>
      have live : (move toUser (move toUser m (data.add (i * f.lbaSize % 2 ^ 32 : ℕ))
          (buf.add offset) f.lbaSize) (metadata.add (i * f.ms : ℕ))
          (buf.add (offset + f.lbaSize : ℕ)) f.ms).live = m.live := by
        rw [move_live, move_live]
      rw [blocks, ih, move_faults, move_faults, inside_congr (move_live toUser),
        inside_congr (move_live toUser)]
      simp only [inside_congr live]
      constructor
      · rintro ⟨⟨⟨faults, first⟩, second⟩, rest⟩
        refine ⟨faults, fun j less => ?_⟩
        cases j with
        | zero => simpa using ⟨first, second⟩
        | succ j =>
            have one := rest j (Nat.lt_of_succ_lt_succ less)
            have index : i + 1 + j = i + (j + 1) := by omega
            have place : offset + f.lbaSize + f.ms + j * (f.lbaSize + f.ms) =
                offset + (j + 1) * (f.lbaSize + f.ms) := by ring
            rw [index, place] at one
            exact one
      · rintro ⟨faults, all⟩
        have first := all 0 (Nat.succ_pos todo)
        simp only [Nat.add_zero, Nat.zero_mul] at first
        refine ⟨⟨⟨faults, first.1⟩, first.2⟩, fun j less => ?_⟩
        have one := all (j + 1) (Nat.succ_lt_succ less)
        have index : i + 1 + j = i + (j + 1) := by omega
        have place : offset + f.lbaSize + f.ms + j * (f.lbaSize + f.ms) =
            offset + (j + 1) * (f.lbaSize + f.ms) := by ring
        rw [index, place]
        exact one

/-- All `n` blocks of an extended LBA fit. -/
def BlocksFit (f : Format) (n : ℕ) (z y off : ℤ) (L : ℕ) (ok mok : Bool) : Prop :=
  n = 0 ∨ ok = true ∧ mok = true ∧ (n * f.lbaSize : ℕ) ≤ z ∧ (n * f.ms : ℕ) ≤ y ∧ 0 ≤ off ∧
    off + (n * (f.lbaSize + f.ms) : ℕ) ≤ L

theorem inside_user {z : BitVec 32} {user : Ptr} {ok : Bool} {k n : ℕ} (pos : 0 < n)
    (len : m.len user = userLen z ok) (userOff : user.off = 0) :
    m.inside (user.add k) n = true ↔ ok = true ∧ (k + n : ℕ) ≤ z.toInt := by
  rw [inside_iff, len_add, len, userLen, Ptr.add, userOff]
  split
  case isTrue there =>
    simp only [Nat.pos_iff_ne_zero.mp pos, false_or, Option.some.injEq, exists_eq_left', there.1,
      true_and]
    omega
  case isFalse not =>
    constructor
    · rintro (none | ⟨_, no, -⟩)
      · omega
      · cases no
    · rintro ⟨ok, room⟩
      exact absurd ⟨ok, by omega⟩ not

theorem inside_dev {dev : Ptr} {L k n : ℕ} (pos : 0 < n) (devLen : m.len dev = some L)
    (devOff : dev.off = off) :
    m.inside (dev.add k) n = true ↔ 0 ≤ off + k ∧ off + (k + n : ℕ) ≤ L := by
  rw [inside_iff, len_add, devLen, Ptr.add, devOff]
  simp only [Nat.pos_iff_ne_zero.mp pos, false_or, Option.some.injEq, exists_eq_left']
  omega

/-- The loop stays inside exactly if its last block does. The product that wraps goes past the end
of the user buffer first. -/
theorem blocks_faults {n : ℕ} {z y : BitVec 32} {ok mok : Bool} (ms : 0 < f.ms)
    (dataLen : m.len data = userLen z ok) (dataOff : data.off = 0)
    (metaLen : m.len metadata = userLen y mok) (metaOff : metadata.off = 0)
    (bufLen : m.len buf = some Lb) (bufOff : buf.off = off) :
    (blocks f toUser data metadata buf n 0 0 m).faults = [] ↔
      m.faults = [] ∧ BlocksFit f n z.toInt y.toInt off Lb ok mok := by
  have high := BitVec.toInt_lt (x := z)
  rw [blocks_faults_forall]
  simp only [inside_user f.lbaSize_pos dataLen dataOff, inside_user ms metaLen metaOff,
    inside_dev f.lbaSize_pos bufLen bufOff, inside_dev ms bufLen bufOff, Nat.zero_add]
  refine and_congr_right fun _ => ?_
  constructor
  · intro all
    rcases Nat.eq_zero_or_pos n with zero | pos
    · exact .inl zero
    · right
      have whole (j : ℕ) (le : j ≤ n) : (j * f.lbaSize : ℕ) ≤ z.toInt := by
        induction j with
        | zero =>
            have first := (all 0 pos).1.1.2
            omega
        | succ j ih =>
            have before := ih (Nat.le_of_succ_le le)
            have one := (all j le).1.1.2
            rw [Nat.mod_eq_of_lt (by omega)] at one
            rw [Nat.succ_mul]
            exact one
      have first := all 0 pos
      have last := all (n - 1) (Nat.sub_lt pos Nat.one_pos)
      have data := whole n le_rfl
      obtain ⟨k, rfl⟩ := Nat.exists_eq_succ_of_ne_zero pos.ne'
      rw [Nat.succ_sub_one] at last
      refine ⟨first.1.1.1, first.2.1.1, data, ?_, ?_, ?_⟩
      · rw [Nat.succ_mul]
        exact last.2.1.2
      · simpa using first.1.2.1
      · rw [Nat.succ_mul, ← Nat.add_assoc]
        exact last.2.2.2
  · rintro (rfl | ⟨rfl, rfl, data, metadata, above, room⟩) j less
    · exact absurd less (Nat.not_lt_zero j)
    · have data' := Nat.mul_le_mul_right f.lbaSize (Nat.succ_le_of_lt less)
      have metadata' := Nat.mul_le_mul_right f.ms (Nat.succ_le_of_lt less)
      have room' := Nat.mul_le_mul_right (f.lbaSize + f.ms) (Nat.succ_le_of_lt less)
      have wrapped := Nat.mod_le (j * f.lbaSize) (2 ^ 32)
      rw [Nat.succ_mul] at data' metadata' room'
      refine ⟨⟨⟨rfl, ?_⟩, ?_, ?_⟩, ⟨rfl, ?_⟩, ?_, ?_⟩ <;> omega

theorem blocks_live {n : ℕ} :
    (blocks f toUser data metadata buf n i offset m).live = m.live := by
  induction n generalizing i offset m with
  | zero => rfl
  | succ n ih => rw [blocks, ih, move_live, move_live]

/-- What a command copies fits, with `Lb` and `Lm` bytes in the pages. -/
def CopyFits (a : Args) (f : Format) (o : Outcome) (Lb Lm : ℕ) (off : ℤ) : Prop :=
  if a.metadataSize = 0 then a.dataSize = 0 ∨ Fits a.dataSize.toInt off Lb o.malloc
  else if separate a f then
    (a.dataSize = 0 ∨ Fits a.dataSize.toInt off Lb o.malloc) ∧
      Fits a.metadataSize.toInt off Lm o.mmalloc
  else BlocksFit f (nrBlocks a) a.dataSize.toInt a.metadataSize.toInt off Lb o.malloc o.mmalloc

/-- What follows the labels frees the pages exactly if the pointers are at the offset. -/
theorem release_faults (bufBlock : buf.block = some .buf) (bufLive : (m.live .buf).isSome)
    (mbufBlock : separate a f = true → mbuf.block = some .mbuf ∧ (m.live .mbuf).isSome) :
    (release a f m mbuf buf).faults = [] ↔
      m.faults = [] ∧ (separate a f = true → mbuf.off = a.prp1Offset.toInt) ∧
        buf.off = a.prp1Offset.toInt := by
  unfold release
  cases sep : separate a f with
  | false =>
      simp only [Bool.false_eq_true, if_false]
      rw [pgunmap_faults bufBlock bufLive, false_imp_iff, true_and]
  | true =>
      obtain ⟨block, live⟩ := mbufBlock sep
      have other : Block.buf ≠ .mbuf := by decide
      have bufLive' : ((m.pgunmap (mbuf.add (-a.prp1Offset.toInt))).live .buf).isSome := by
        rw [pgunmap_live block other]
        exact bufLive
      simp only [if_true]
      rw [pgunmap_faults bufBlock bufLive', pgunmap_faults block live, and_assoc, true_imp_iff]

/-- Data and metadata with a buffer each. -/
theorem separate_faults (toUser : Bool) {z y : BitVec 32} {ok mok : Bool} (some_ : y ≠ 0)
    (dataLen : m.len data = userLen z ok) (dataOff : data.off = 0)
    (metaLen : m.len metadata = userLen y mok) (metaOff : metadata.off = 0)
    (bufLen : m.len buf = some Lb) (bufOff : buf.off = off)
    (mbufLen : m.len mbuf = some Lm) (mbufOff : mbuf.off = off) :
    (move toUser (move toUser m data buf (sizeT z.toInt)) metadata mbuf (sizeT y.toInt)).faults =
        [] ↔
      m.faults = [] ∧ (z = 0 ∨ Fits z.toInt off Lb ok) ∧ Fits y.toInt off Lm mok := by
  have same (p : Ptr) : (move toUser m data buf (sizeT z.toInt)).len p = m.len p := by
    rw [Mem.len, Mem.len, move_live]
  rw [memcpy_faults toUser ((same metadata).trans metaLen) metaOff ((same mbuf).trans mbufLen)
      mbufOff,
    memcpy_faults toUser dataLen dataOff bufLen bufOff, and_assoc, or_iff_right some_]

/-- The copies of `unvme_read`. -/
theorem readOut_faults (ms : a.metadataSize ≠ 0 → 0 < f.ms) (bufBlock : buf.block = some .buf)
    (bufLen : m.len buf = some Lb) (bufOff : buf.off = off)
    (mbufLen : separate a f = true →
      mbuf.block = some .mbuf ∧ m.len mbuf = some Lm ∧ mbuf.off = off) :
    (readOut a f o m mbuf buf).faults = [] ↔ m.faults = [] ∧ CopyFits a f o Lb Lm off := by
  obtain ⟨m₁, data, got, faults, live, dataOff, dataBlock, dataLen⟩ :=
    malloc_spec m .data a.dataSize o.malloc
  have bufLen₁ : m₁.len buf = some Lb := by
    rw [len_other live (by rw [bufBlock]; decide), bufLen]
  unfold readOut CopyFits
  rw [got]
  by_cases none : a.metadataSize = 0
  · have one := memcpy_faults true dataLen dataOff bufLen₁ bufOff
    rw [move_true, faults] at one
    simp only [if_pos none]
    exact one
  · obtain ⟨m₂, metadata, got₂, faults₂, live₂, metaOff, -, metaLen⟩ :=
      malloc_spec m₁ .metadata a.metadataSize o.mmalloc
    have dataLen₂ := (len_other live₂ (dataBlock .metadata (by decide))).trans dataLen
    have bufLen₂ := (len_other live₂ (by rw [bufBlock]; decide)).trans bufLen₁
    simp only [if_neg none, got₂]
    cases sep : separate a f with
    | true =>
        obtain ⟨mbufBlock, mbufLen, mbufOff⟩ := mbufLen sep
        have mbufLen₂ : m₂.len mbuf = some Lm := by
          rw [len_other live₂ (by rw [mbufBlock]; decide),
            len_other live (by rw [mbufBlock]; decide), mbufLen]
        have both := separate_faults true none dataLen₂ dataOff metaLen metaOff bufLen₂ bufOff
          mbufLen₂ mbufOff
        rw [move_true, move_true, faults₂, faults] at both
        exact both
    | false =>
        simp only [Bool.false_eq_true, if_false]
        rw [blocks_faults (ms none) dataLen₂ dataOff metaLen metaOff bufLen₂ bufOff, faults₂,
          faults]

theorem readOut_live {b : Block} (notData : b ≠ .data) (notMeta : b ≠ .metadata) :
    (readOut a f o m mbuf buf).live b = m.live b := by
  obtain ⟨m₁, data, got, -, live, -⟩ := malloc_spec m .data a.dataSize o.malloc
  obtain ⟨m₂, metadata, got₂, -, live₂, -⟩ := malloc_spec m₁ .metadata a.metadataSize o.mmalloc
  simp only [readOut, got, got₂]
  split
  · rw [copy_live, live b notData]
  · split
    · rw [copy_live, copy_live, live₂ b notMeta, live b notData]
    · rw [blocks_live, live₂ b notMeta, live b notData]

end Copies

/-! ### The conditions -/

section Main

variable (mps : Fin 16) (a : Args) (f : Format) (o : Outcome)

/-- The pages of the data buffer are there. -/
def GetsBuf : Prop :=
  Gets (pagesize mps) (size a f + (pagesize mps - a.prp1Offset.toInt)) o.pgmap

/-- The bytes of the data buffer. -/
def bufLen : ℕ := pgmapLen (pagesize mps) (size a f + (pagesize mps - a.prp1Offset.toInt))

/-- `unvme_read` once it has its data buffer: it may stop only without an offset, and what it copies
must fit. -/
def ReadMeets : Prop :=
  accepted mps a f o = true → GetsBuf mps a f o →
    if separate a f = true ∧ ¬ Gets (pagesize mps) a.metadataSize.toInt o.mpgmap ∨
        (o.ready && o.cmd) = false then a.prp1Offset = 0
    else (o.prep && o.success) = true →
      CopyFits a f o (bufLen mps a f) (pgmapLen (pagesize mps) a.metadataSize.toInt)
        a.prp1Offset.toInt

/-- `unvme_write` once it has its data buffer: there is no offset, and what it copies must fit. -/
def WriteMeets : Prop :=
  accepted mps a f o = true → GetsBuf mps a f o →
    a.prp1Offset = 0 ∧
      (o.readFile = true → (a.metadataSize ≠ 0 → o.readMetaFile = true) →
        (separate a f = true →
          Gets (pagesize mps) (a.metadataSize.toInt + pagesize mps) o.mpgmap) →
        CopyFits a f o (bufLen mps a f)
          (pgmapLen (pagesize mps) (a.metadataSize.toInt + pagesize mps)) 0)

variable {mps a f o}

theorem ms_pos (acc : accepted mps a f o = true) (some_ : a.metadataSize ≠ 0) : 0 < f.ms := by
  simp only [accepted, Bool.and_eq_true, Bool.or_eq_true, beq_iff_eq, bne_iff_ne] at acc
  rcases acc.1.1.1.2 with none | ⟨-, ms⟩
  · exact absurd none some_
  · exact Nat.pos_of_ne_zero ms

theorem offset_eq_zero_iff : (0 : ℤ) = a.prp1Offset.toInt ↔ a.prp1Offset = 0 := by
  rw [← BitVec.toInt_inj, eq_comm]
  rfl

/-- `unvme_read` with its buffers. -/
theorem read_tail {m : Mem} {Lb : ℕ} (mbuf : Ptr) (Lm : ℕ) (acc : accepted mps a f o = true)
    (clean : m.faults = []) (live : m.live .buf = some Lb)
    (mbufLive : separate a f = true → mbuf = { block := some .mbuf } ∧ m.live .mbuf = some Lm) :
    (if !(o.ready && o.cmd) then release a f m mbuf { block := some .buf }
      else release a f
        (if o.prep && o.success then
          readOut a f o m (if separate a f then mbuf.add a.prp1Offset.toInt else mbuf)
            (Ptr.add { block := some .buf } a.prp1Offset.toInt)
        else m)
        (if separate a f then mbuf.add a.prp1Offset.toInt else mbuf)
        (Ptr.add { block := some .buf } a.prp1Offset.toInt)).faults = [] ↔
      if (o.ready && o.cmd) = false then a.prp1Offset = 0
      else (o.prep && o.success) = true → CopyFits a f o Lb Lm a.prp1Offset.toInt := by
  have there : (m.live .buf).isSome := by
    rw [live]
    rfl
  have mthere (sep : separate a f = true) : mbuf.block = some .mbuf ∧ (m.live .mbuf).isSome := by
    rw [(mbufLive sep).1, (mbufLive sep).2]
    exact ⟨rfl, rfl⟩
  cases sent : o.ready && o.cmd with
  | false =>
      simp only [Bool.not_false, if_true]
      rw [release_faults rfl there mthere, clean, ← offset_eq_zero_iff]
      constructor
      · exact fun h => h.2.2
      · refine fun zero => ⟨rfl, fun sep => ?_, zero⟩
        rw [(mbufLive sep).1]
        exact zero
  | true =>
      simp only [Bool.not_true, Bool.false_eq_true, if_false, Bool.true_eq_false]
      have ptr (sep : separate a f = true) :
          (if separate a f = true then mbuf.add a.prp1Offset.toInt else mbuf) =
            { block := some .mbuf, off := a.prp1Offset.toInt } := by
        rw [if_pos sep, (mbufLive sep).1, Ptr.add, Int.zero_add]
      have copied : (readOut a f o m
          (if separate a f = true then mbuf.add a.prp1Offset.toInt else mbuf)
          (Ptr.add { block := some .buf } a.prp1Offset.toInt)).faults = [] ↔
            CopyFits a f o Lb Lm a.prp1Offset.toInt := by
        have bufLen : m.len (Ptr.add { block := some .buf } a.prp1Offset.toInt) = some Lb := live
        have mbufLen (sep : separate a f = true) :
            (if separate a f = true then mbuf.add a.prp1Offset.toInt else mbuf).block =
                some .mbuf ∧
              m.len (if separate a f = true then mbuf.add a.prp1Offset.toInt else mbuf) =
                some Lm ∧
              (if separate a f = true then mbuf.add a.prp1Offset.toInt else mbuf).off =
                a.prp1Offset.toInt := by
          rw [ptr sep]
          exact ⟨rfl, (mbufLive sep).2, rfl⟩
        exact (readOut_faults (ms_pos acc) rfl bufLen (Int.zero_add _) mbufLen).trans
          (and_iff_right clean)
      generalize after : (if (o.prep && o.success) = true then
        readOut a f o m (if separate a f = true then mbuf.add a.prp1Offset.toInt else mbuf)
          (Ptr.add { block := some .buf } a.prp1Offset.toInt) else m) = m'
      have kept {b : Block} (notData : b ≠ .data) (notMeta : b ≠ .metadata) :
          m'.live b = m.live b := by
        rw [← after]
        split
        · exact readOut_live notData notMeta
        · rfl
      have bufThere : (m'.live .buf).isSome := by
        rw [kept (by decide) (by decide)]
        exact there
      rw [release_faults rfl bufThere fun sep => ?_]
      · have offsets : (separate a f = true →
            (if separate a f = true then mbuf.add a.prp1Offset.toInt else mbuf).off =
              a.prp1Offset.toInt) ∧
            (Ptr.add { block := some .buf } a.prp1Offset.toInt).off = a.prp1Offset.toInt :=
          ⟨fun sep => by rw [ptr sep], Int.zero_add _⟩
        rw [and_iff_left offsets, ← after]
        split
        case isTrue done => exact copied.trans ⟨fun h _ => h, fun h => h done⟩
        case isFalse not => exact ⟨fun _ done => absurd done not, fun _ => clean⟩
      · rw [ptr sep, kept (by decide) (by decide)]
        exact ⟨rfl, (mthere sep).2⟩

theorem read_safe_iff : (unvmeRead mps a f o).faults = [] ↔ ReadMeets mps a f o := by
  cases acc : accepted mps a f o with
  | false => simp [unvmeRead, ReadMeets, acc]
  | true =>
      unfold unvmeRead ReadMeets
      simp only [acc, Bool.not_true, Bool.false_eq_true, if_false, true_imp_iff]
      rcases pgmap_spec {} .buf (pagesize mps) (size a f + (pagesize mps - a.prp1Offset.toInt))
        o.pgmap with ⟨fails, none⟩ | ⟨gets, m, got, faults, -, live⟩
      · rw [none]
        exact ⟨fun _ gets => absurd gets fails, fun _ => rfl⟩
      · have clean : m.faults = [] := faults
        have gets : GetsBuf mps a f o := gets
        simp only [got, gets, true_imp_iff]
        cases sep : separate a f with
        | false =>
            have tail := read_tail (o := o) {} (pgmapLen (pagesize mps) a.metadataSize.toInt) acc
              clean live fun no => absurd no (by rw [sep]; decide)
            simp only [sep, Bool.false_eq_true, if_false, false_and, false_or] at tail ⊢
            exact tail
        | true =>
            simp only [if_true, true_and]
            rcases pgmap_spec m .mbuf (pagesize mps) a.metadataSize.toInt o.mpgmap with
              ⟨fails, none⟩ | ⟨mgets, m', got, faults', live', mlive⟩
            · rw [none, if_pos (.inl fails)]
              have there : (m.live .buf).isSome := by
                rw [live]
                rfl
              exact (pgunmap_faults rfl there).trans
                ((and_iff_right clean).trans offset_eq_zero_iff)
            · have tail := read_tail (o := o) { block := some .mbuf }
                (pgmapLen (pagesize mps) a.metadataSize.toInt) acc (faults'.trans clean)
                ((live' .buf (by decide)).trans live) fun _ => ⟨rfl, mlive⟩
              simp only [sep, if_true] at tail
              simp only [got, mgets, not_true_eq_false, false_or]
              exact tail

/-- After a write the pages are freed with the pointers as they were allocated. -/
theorem write_release {m : Mem} {mbuf : Ptr} (live : (m.live .buf).isSome)
    (mbufLive : separate a f = true → mbuf = { block := some .mbuf } ∧ (m.live .mbuf).isSome) :
    (release a f m mbuf { block := some .buf }).faults = [] ↔
      a.prp1Offset = 0 ∧ m.faults = [] := by
  rw [release_faults rfl live fun sep => ?_, ← offset_eq_zero_iff]
  · constructor
    · exact fun h => ⟨h.2.2, h.1⟩
    · refine fun h => ⟨h.2, fun sep => ?_, h.1⟩
      rw [(mbufLive sep).1]
      exact h.1
  · rw [(mbufLive sep).1]
    exact ⟨rfl, (mbufLive sep).2⟩

section Writes

variable {m : Mem} {data metadata : Ptr} {Lb Lm : ℕ}

/-- Where the pointers into the pages are. -/
def devPtr (b : Block) (a : Args) : Ptr := { block := some b, off := a.prp1Offset.toInt }

theorem add_eq_devPtr (b : Block) (a : Args) :
    Ptr.add { block := some b } a.prp1Offset.toInt = devPtr b a := by
  rw [Ptr.add, Int.zero_add]
  rfl

theorem devPtr_len {b : Block} {L : ℕ} (live : m.live b = some L) :
    m.len (devPtr b a) = some L := live

/-- A write without metadata. -/
theorem write_plain (none : a.metadataSize = 0) (clean : m.faults = [])
    (live : m.live .buf = some Lb) (dataOff : data.off = 0)
    (dataLen : m.len data = userLen a.dataSize o.malloc) :
    (release a f (m.copy (devPtr .buf a) data (sizeT a.dataSize.toInt)) {}
        { block := some .buf }).faults = [] ↔
      a.prp1Offset = 0 ∧ CopyFits a f o Lb Lm 0 := by
  have notSep : separate a f = false := by simp [separate, none]
  have there : ((m.copy (devPtr .buf a) data (sizeT a.dataSize.toInt)).live .buf).isSome := by
    rw [copy_live, live]
    rfl
  refine (write_release there fun sep => absurd sep (by rw [notSep]; decide)).trans
    (and_congr_right fun zero => ?_)
  rw [← offset_eq_zero_iff] at zero
  have copied := memcpy_faults false dataLen dataOff (devPtr_len live) zero.symm
  rw [move_false] at copied
  rw [CopyFits, if_pos none]
  exact copied.trans (and_iff_right clean)

/-- A write of extended LBAs. -/
theorem write_extended (ms : 0 < f.ms) (some_ : a.metadataSize ≠ 0) (notSep : separate a f = false)
    (clean : m.faults = []) (live : m.live .buf = some Lb) (dataOff : data.off = 0)
    (dataLen : m.len data = userLen a.dataSize o.malloc) (metaOff : metadata.off = 0)
    (metaLen : m.len metadata = userLen a.metadataSize o.mmalloc) :
    (release a f (blocks f false data metadata (devPtr .buf a) (nrBlocks a) 0 0 m) {}
        { block := some .buf }).faults = [] ↔
      a.prp1Offset = 0 ∧ CopyFits a f o Lb Lm 0 := by
  have there : ((blocks f false data metadata (devPtr .buf a) (nrBlocks a) 0 0 m).live
      .buf).isSome := by
    rw [blocks_live, live]
    rfl
  refine (write_release there fun sep => absurd sep (by rw [notSep]; decide)).trans
    (and_congr_right fun zero => ?_)
  rw [← offset_eq_zero_iff] at zero
  rw [CopyFits, if_neg some_, notSep, if_neg (by decide),
    blocks_faults ms dataLen dataOff metaLen metaOff (devPtr_len live) zero.symm]
  exact and_iff_right clean

/-- A write with its metadata in a buffer. -/
theorem write_separate (some_ : a.metadataSize ≠ 0) (sep : separate a f = true)
    (clean : m.faults = []) (live : m.live .buf = some Lb) (mlive : m.live .mbuf = some Lm)
    (dataOff : data.off = 0) (dataLen : m.len data = userLen a.dataSize o.malloc)
    (metaOff : metadata.off = 0) (metaLen : m.len metadata = userLen a.metadataSize o.mmalloc) :
    (release a f ((m.copy (devPtr .buf a) data (sizeT a.dataSize.toInt)).copy (devPtr .mbuf a)
        metadata (sizeT a.metadataSize.toInt)) { block := some .mbuf }
          { block := some .buf }).faults = [] ↔
      a.prp1Offset = 0 ∧ CopyFits a f o Lb Lm 0 := by
  refine (write_release ?_ fun _ => ⟨rfl, ?_⟩).trans (and_congr_right fun zero => ?_)
  · rw [copy_live, copy_live, live]
    rfl
  · rw [copy_live, copy_live, mlive]
    rfl
  · rw [← offset_eq_zero_iff] at zero
    have copied := separate_faults false some_ dataLen dataOff metaLen metaOff (devPtr_len live)
      zero.symm (devPtr_len mlive) zero.symm
    rw [move_false, move_false] at copied
    rw [CopyFits, if_neg some_, if_pos sep]
    exact copied.trans (and_iff_right clean)

end Writes

theorem write_safe_iff : (unvmeWrite mps a f o).faults = [] ↔ WriteMeets mps a f o := by
  cases acc : accepted mps a f o with
  | false => simp [unvmeWrite, WriteMeets, acc]
  | true =>
      unfold unvmeWrite WriteMeets
      simp only [acc, Bool.not_true, Bool.false_eq_true, if_false, true_imp_iff]
      rcases pgmap_spec {} .buf (pagesize mps) (size a f + (pagesize mps - a.prp1Offset.toInt))
        o.pgmap with ⟨fails, none⟩ | ⟨gets, m, got, faults, -, live⟩
      · rw [none]
        exact ⟨fun _ gets => absurd gets fails, fun _ => rfl⟩
      · have gets : GetsBuf mps a f o := gets
        obtain ⟨m₁, data, got₁, faults₁, live₁, dataOff, dataBlock, dataLen⟩ :=
          malloc_spec m .data a.dataSize o.malloc
        have bufLive₁ : m₁.live .buf = some (bufLen mps a f) := (live₁ .buf (by decide)).trans live
        have clean₁ : m₁.faults = [] := faults₁.trans faults
        have early {m : Mem} (clean : m.faults = []) (live : m.live .buf = some (bufLen mps a f)) :
            (m.pgunmap (Ptr.add { block := some .buf } (-a.prp1Offset.toInt))).faults = [] ↔
              a.prp1Offset = 0 := by
          have there : (m.live .buf).isSome := by
            rw [live]
            rfl
          exact (pgunmap_faults rfl there).trans ((and_iff_right clean).trans offset_eq_zero_iff)
        simp only [got, gets, true_imp_iff, got₁, add_eq_devPtr]
        cases o.readFile with
        | false =>
            simp only [Bool.not_false, if_true, Bool.false_eq_true, false_imp_iff, and_true]
            exact early clean₁ bufLive₁
        | true =>
            simp only [Bool.not_true, Bool.false_eq_true, if_false, true_imp_iff]
            by_cases none : a.metadataSize = 0
            · have notSep : separate a f = false := by simp [separate, none]
              rw [if_pos none, write_plain none clean₁ bufLive₁ dataOff dataLen]
              refine and_congr_right fun _ => ⟨fun h _ _ => h, fun h => h ?_ ?_⟩
              · exact fun some_ => absurd none some_
              · exact fun sep => absurd sep (by rw [notSep]; decide)
            · obtain ⟨m₂, metadata, got₂, faults₂, live₂, metaOff, metaBlock, metaLen⟩ :=
                malloc_spec m₁ .metadata a.metadataSize o.mmalloc
              have dataLen₂ := (len_other live₂ (dataBlock .metadata (by decide))).trans dataLen
              have bufLive₂ : m₂.live .buf = some (bufLen mps a f) :=
                (live₂ .buf (by decide)).trans bufLive₁
              have clean₂ : m₂.faults = [] := faults₂.trans clean₁
              simp only [none, if_false, got₂, ne_eq, not_false_eq_true, true_imp_iff]
              cases o.readMetaFile with
              | false =>
                  simp only [Bool.not_false, if_true, Bool.false_eq_true, false_imp_iff, and_true]
                  exact early clean₂ bufLive₂
              | true =>
                  simp only [Bool.not_true, Bool.false_eq_true, if_false, true_imp_iff]
                  cases sep : separate a f with
                  | false =>
                      rw [if_neg (by decide), write_extended (ms_pos acc none) none sep clean₂
                        bufLive₂ dataOff dataLen₂ metaOff metaLen]
                      exact and_congr_right fun _ => ⟨fun h _ => h, fun h => h nofun⟩
                  | true =>
                      have request (zero : a.prp1Offset = 0) :
                          a.metadataSize.toInt + (pagesize mps - a.prp1Offset.toInt) =
                            a.metadataSize.toInt + pagesize mps := by
                        rw [← offset_eq_zero_iff.mpr zero, Int.sub_zero]
                      rw [if_pos rfl]
                      rcases pgmap_spec m₂ .mbuf (pagesize mps)
                          (a.metadataSize.toInt + (pagesize mps - a.prp1Offset.toInt)) o.mpgmap with
                        ⟨fails, failed⟩ | ⟨mgets, m₃, got₃, faults₃, live₃, mlive⟩
                      · rw [failed]
                        refine (early clean₂ bufLive₂).trans ⟨fun zero => ⟨zero, ?_⟩, fun h => h.1⟩
                        rw [← request zero]
                        exact fun gets => absurd (gets rfl) fails
                      · rw [got₃]
                        have dataLen₃ := (len_other live₃ (dataBlock .mbuf (by decide))).trans
                          dataLen₂
                        have metaLen₃ := (len_other live₃ (metaBlock .mbuf (by decide))).trans
                          metaLen
                        refine (write_separate none sep (faults₃.trans clean₂)
                          ((live₃ .buf (by decide)).trans bufLive₂) mlive dataOff dataLen₃ metaOff
                            metaLen₃).trans (and_congr_right fun zero => ?_)
                        rw [← request zero]
                        exact ⟨fun h _ => h, fun h => h fun _ => mgets⟩

/-- **The buffers of reads and writes.** For all arguments, formats and outcomes of the calls, all
copies of a command stay inside and its pages are freed with the pointers they were allocated with,
exactly if the command meets its condition. -/
theorem readWrite_safe_iff (mps : Fin 16) (a : Args) (f : Format) (o : Outcome) :
    ((unvmeRead mps a f o).faults = [] ↔ ReadMeets mps a f o) ∧
      ((unvmeWrite mps a f o).faults = [] ↔ WriteMeets mps a f o) :=
  ⟨read_safe_iff, write_safe_iff⟩

/-- A size that is not negative is rounded up to whole pages. -/
theorem pgmapLen_eq {x : ℤ} (pos : 0 ≤ x) (small : x < 2 ^ 62) :
    pgmapLen (pagesize mps) x = roundUp (pagesize mps) x.toNat := by
  have page : pagesize mps ∣ 2 ^ 27 := Nat.pow_dvd_pow 2 (by omega)
  have page_pos : 0 < pagesize mps := Nat.two_pow_pos _
  have page_le := Nat.le_of_dvd (by decide) page
  have below := roundUp_lt_add (x := x.toNat) page_pos
  rw [pgmapLen, sizeT_of_nonneg pos (by omega),
    roundUpWord_eq page_pos (page.trans (Nat.pow_dvd_pow 2 (by decide))) (by omega)]

/-- Without an offset and without metadata both commands are safe. -/
theorem plain_safe (noOffset : a.prp1Offset = 0) (noMeta : a.metadataSize = 0)
    (pos : 0 ≤ a.dataSize.toInt) (malloc : o.malloc = true) :
    (unvmeRead mps a f o).faults = [] ∧ (unvmeWrite mps a f o).faults = [] := by
  have high := BitVec.toInt_lt (x := a.dataSize)
  have zero : a.prp1Offset.toInt = 0 := (offset_eq_zero_iff.mpr noOffset).symm
  have notSep : separate a f = false := by simp [separate, noMeta]
  have whole : size a f = a.dataSize.toInt := if_neg fun h => h.1 noMeta
  have page_pos : 0 < pagesize mps := Nat.two_pow_pos _
  have page_le : pagesize mps ≤ 2 ^ 27 := Nat.pow_le_pow_right (by decide) (by omega)
  have room : a.dataSize.toInt ≤ bufLen mps a f := by
    rw [bufLen, whole, zero, pgmapLen_eq (by omega) (by omega)]
    have rounded := le_roundUp (x := (a.dataSize.toInt + (pagesize mps - 0)).toNat) page_pos
    omega
  have fits (Lm : ℕ) : CopyFits a f o (bufLen mps a f) Lm 0 := by
    rw [CopyFits, if_pos noMeta]
    rcases pos.eq_or_lt with none | some_
    · left
      rw [← BitVec.toInt_inj]
      exact none.symm
    · exact .inr ⟨malloc, some_, le_rfl, by omega⟩
  constructor
  · refine read_safe_iff.mpr fun _ _ => ?_
    rw [zero]
    split
    · exact noOffset
    · exact fun _ => fits _
  · exact write_safe_iff.mpr fun _ _ => ⟨noOffset, fun _ _ _ => fits _⟩

/-- Blocks of 512 bytes. -/
def plain : Format := ⟨512, by decide, 0, false⟩

/-- Blocks of 512 bytes with 8 bytes of metadata behind each. -/
def interleaved : Format := ⟨512, by decide, 8, true⟩

/-- The offset is subtracted where it was not added: by `unvme_read` with a queue that is not ready,
and by every `unvme_write`. A read of 512 bytes at offset 4000 leaves its page, and a read of two
extended blocks leaves the buffers for one. -/
theorem offset_freed_wrong :
    (unvmeRead 0 ⟨0, 512, 0, 512, false⟩ plain { ready := false }).faults = [.pgunmap] ∧
      (unvmeWrite 0 ⟨0, 512, 0, 512, false⟩ plain {}).faults = [.pgunmap] ∧
      (unvmeRead 0 ⟨0, 512, 0, 4000, false⟩ plain {}).faults = [.copy] ∧
      (unvmeRead 0 ⟨1, 512, 8, 0, true⟩ interleaved {}).faults = [.copy, .copy] := by
  decide

end Main

end Unvmed.ReadWrite
