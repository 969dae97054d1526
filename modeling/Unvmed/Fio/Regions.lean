import Unvmed.Fio.Blocks
import Unvmed.Lib.Layout

/-!
The memory of the I/Os in flight (`src/app/fio/libunvmed-engine.c`).

A job has up to four families of regions, one region for every `io_u`: the PRP lists, the buffers
for an offset in PRP1, the metadata and the ranges of a trim. Every family has an allocation of its
own, whose size `libunvmed_init_data` and `fio_libunvmed_iomem_alloc` compute; `fio_libunvmed_rw` and
`fio_libunvmed_io_u_init` compute where the region of an `io_u` is.

* `regions_laid_iff`: the regions are in their allocations and apart, if and only if the list is not
  shared in the CMB, the offset leaves room in its buffer, and the metadata has at most 32 bits.
* `cmb_lists_are_shared`: with `cmb_list` two I/Os have one list.
-/

namespace Unvmed.Regions

open Lib Unvmed.Pi Unvmed.Protect Unvmed.Blocks

/-! ### The allocations -/

/-- The options of a job. -/
structure Config where
  /-- `u->mps` -/
  mps : ℕ
  iodepth : ℕ
  /-- The block sizes and `md_per_io_size`. -/
  job : Job
  prp1Offset : ℕ
  cmbData : Bool
  cmbList : Bool
  /-- `TD_DDIR_TRIM` or `TD_DDIR_RANDTRIM` -/
  trim : Bool

/-- `unvmed_pagesize` -/
def Config.pagesize (c : Config) : ℕ := (PrpList.pagesize c.mps).toNat

/-- `td_max_bs`, which has 64 bits. -/
def Config.maxBs (c : Config) : ℕ :=
  max (max (c.job.maxBs .read) (c.job.maxBs .write)) (c.job.maxBs .trim) % 2 ^ 64

/-- The calls that may fail; a buffer is allocated by `unvmed_pgmap` or `libunvmed_cmb_alloc`. -/
inductive Call where
  | metaBuffer
  | metaMap
  | trimBuffer
  | trimMap
  | origBuffer
  | prpIomem
  | prpList
  deriving DecidableEq, Repr

/-- What `unvmed_pgmap` returns, as a `size_t`: the rounded size or -1. -/
def pgmap (P : ℕ) (ok : Bool) (size : ℕ) : ℕ := if ok then roundUp P size % 2 ^ 64 else 2 ^ 64 - 1

/-- The fields of `struct libunvmed_data` that `fio_libunvmed_iomem_alloc` sets. -/
structure Iomem where
  origBufferSize : ℕ
  prpIomemUsize : ℕ
  prpIomemSize : ℕ
  prpListUsize : ℕ
  prpListSize : ℕ
  prpListNrLists : ℕ

/-- The buffer of the I/Os: its size is compared as a `size_t`, so a failure of `unvmed_pgmap` is
not seen. -/
def origBuffer (c : Config) (totalMem : ℕ) (ok : Bool) : Option ℕ :=
  if c.cmbData then if ok then some totalMem else none
  else if pgmap c.pagesize ok totalMem < totalMem then none
  else some (pgmap c.pagesize ok totalMem)

/-- `fio_libunvmed_iomem_alloc`; `none` where it returns 1. It does not check that there is a buffer
for the offset. -/
def iomemAlloc (c : Config) (totalMem : ℕ) (ok : Call → Bool) : Option Iomem :=
  (origBuffer c totalMem (ok .origBuffer)).bind fun orig =>
    let P := c.pagesize
    let prpUsize := if c.prp1Offset ≠ 0 then (c.maxBs + P) % 2 ^ 64 else 0
    let prpSize := if c.prp1Offset ≠ 0 then
        pgmap P (ok .prpIomem) (prpUsize * c.iodepth % 2 ^ 64) else 0
    if c.cmbList then
      if ok .prpList then some ⟨orig, prpUsize, prpSize, 0, P * c.iodepth % 2 ^ 64, 1⟩ else none
    else
      let usize := (PrpList.usize (PrpList.pagesize c.mps) (BitVec.ofNat 64 c.maxBs)).toNat
      let size := pgmap P (ok .prpList) (usize * c.iodepth % 2 ^ 64)
      if 2 ^ 63 ≤ size then none
      else some ⟨orig, prpUsize, prpSize, usize, size,
        (PrpList.nrLists (PrpList.pagesize c.mps) (BitVec.ofNat 64 c.maxBs)).toNat⟩

/-- `sizeof(struct nvme_dsm_range) * NVME_DSM_MAX_RANGES` -/
def dsmSize : ℕ := 16 * 256

/-- A job that is set up. -/
structure Layout where
  c : Config
  ns : Ns
  /-- `o->md_per_io_size`, adjusted. -/
  md : ℕ
  metaSize : ℕ
  trimSize : ℕ
  iomem : Iomem
  /-- `ld->prp_iomem` is allocated. -/
  bounce : Bool

/-- The allocations of `libunvmed_init_data` and of `fio_libunvmed_iomem_alloc`. The product for
the metadata has 32 bits. -/
def setUp (c : Config) (ns : Ns) (maxXfer : BitVec 64) (totalMem : ℕ) (ok : Call → Bool) :
    Option Layout :=
  match initBs ns c.job maxXfer with
  | .error _ => none
  | .ok md =>
      let separate := ns.mset = false ∧ md ≠ 0
      if separate ∧ ¬ (ok .metaBuffer ∧ ok .metaMap) then none
      else if c.trim ∧ ¬ (ok .trimBuffer ∧ ok .trimMap) then none
      else (iomemAlloc c totalMem ok).map fun iomem =>
        { c, ns, md, iomem
          metaSize := if separate then pgmap c.pagesize true (md * c.iodepth % 2 ^ 32) else 0
          trimSize := if c.trim then pgmap c.pagesize true (c.iodepth * dsmSize % 2 ^ 64) else 0
          bounce := ok .prpIomem }

/-! ### The regions -/

inductive Family where
  /-- `ld->prp_list_iomem` -/
  | prpList
  /-- `ld->prp_iomem` -/
  | bounce
  /-- `ld->meta_iomem` -/
  | metadata
  /-- `ld->trim_iomem` -/
  | dsm
  deriving DecidableEq, Repr

/-- The bytes of an allocation. -/
def Layout.size (l : Layout) : Family → ℕ
  | .prpList => l.iomem.prpListSize
  | .bounce => if l.bounce then l.iomem.prpIomemSize else 0
  | .metadata => l.metaSize
  | .dsm => l.trimSize

/-- The bytes that the `io_u` of an index uses, for transfers of these lengths. -/
def Layout.region (l : Layout) (lens : ℕ → ℕ) : Family → ℕ → Finset ℕ
  | .prpList, i => bytes (i * l.iomem.prpListUsize % 2 ^ 64) (l.iomem.prpListNrLists * l.c.pagesize)
  | .bounce, i =>
      if l.c.prp1Offset ≠ 0 then
        bytes (i * l.iomem.prpIomemUsize % 2 ^ 64) (l.c.prp1Offset + lens i)
      else ∅
  | .metadata, i => if l.ns.mset then ∅ else bytes (i * l.md % 2 ^ 32) l.md
  | .dsm, i => if l.c.trim then bytes (i * dsmSize % 2 ^ 64) dsmSize else ∅

/-- Every region is in its allocation, and two of one family are apart. -/
def Layout.Laid (l : Layout) (longest : ℕ) : Prop :=
  ∀ lens : ℕ → ℕ, (∀ i, lens i ≤ longest) →
    ∀ family, Lib.Laid l.c.iodepth (l.size family) (l.region lens family)

/-- The blocks of all `io_u` fit in the address space; MPS has four bits, `iodepth` has 32. -/
structure Running (c : Config) : Prop where
  mps : c.mps < 16
  pos : 0 < c.iodepth
  depth : c.iodepth < 2 ^ 32
  memory : c.maxBs * c.iodepth < 2 ^ 48

/-- The lists are not shared, the offset has room, and the metadata does not wrap. -/
structure Apart (c : Config) (ns : Ns) (ok : Call → Bool) (longest : ℕ) : Prop where
  lists : c.cmbList = true → c.iodepth = 1
  offset : c.prp1Offset ≠ 0 → ok .prpIomem = true ∧ c.prp1Offset + longest ≤
    if c.iodepth = 1 then roundUp c.pagesize (c.maxBs + c.pagesize) else c.maxBs + c.pagesize
  metadata : ns.mset = false → ∀ md ∈ [c.job.mdPerIoSize, leastMd ns c.job .read,
    leastMd ns c.job .write], c.iodepth * md < 2 ^ 32

/-! ### What is set up -/

section SetUp

variable {c : Config} {ns : Ns} {maxXfer : BitVec 64} {totalMem md md' : ℕ} {ok : Call → Bool}
  {l : Layout} {m : Iomem} {d : Ddir}

theorem initDir_ok (accepted : initDir ns c.job maxXfer md d = .ok md') :
    md' = if ns.mset = false ∧ d ≠ .trim then max md (leastMd ns c.job d) else md := by
  unfold initDir at accepted
  split at accepted
  · cases accepted
  split at accepted
  · cases accepted
  split at accepted
  · rename_i adjusts
    cases accepted
    rw [if_pos ⟨adjusts.2.2, adjusts.1⟩]
  · rename_i keeps
    cases accepted
    split
    · rename_i separate
      have none : ns.ms = 0 := by
        by_contra some_
        exact keeps ⟨separate.2, some_, separate.1⟩
      rw [leastMd, none, Nat.mul_zero, Nat.zero_mod, Nat.max_zero]
    · rfl

/-- `md_per_io_size` after the adjustments. -/
theorem initBs_ok (accepted : initBs ns c.job maxXfer = .ok md) :
    md = if ns.mset = false then
        max (max c.job.mdPerIoSize (leastMd ns c.job .read)) (leastMd ns c.job .write)
      else c.job.mdPerIoSize := by
  unfold initBs at accepted
  split at accepted
  · cases accepted
  simp only [List.foldlM_cons, List.foldlM_nil, bind, Except.bind, pure, Except.pure] at accepted
  cases read : initDir ns c.job maxXfer c.job.mdPerIoSize .read with
  | error fail =>
      rw [read] at accepted
      cases accepted
  | ok first =>
      simp only [read] at accepted
      cases write : initDir ns c.job maxXfer first .write with
      | error fail =>
          rw [write] at accepted
          cases accepted
      | ok second =>
          simp only [write] at accepted
          cases trim : initDir ns c.job maxXfer second .trim with
          | error fail =>
              rw [trim] at accepted
              cases accepted
          | ok third =>
              simp only [trim] at accepted
              cases accepted
              rw [initDir_ok trim, initDir_ok write, initDir_ok read]
              by_cases separate : ns.mset = false <;> simp [separate]

theorem setUp_ok (done : setUp c ns maxXfer totalMem ok = some l) :
    l.c = c ∧ l.ns = ns ∧ initBs ns c.job maxXfer = .ok l.md ∧
      iomemAlloc c totalMem ok = some l.iomem ∧ l.bounce = ok .prpIomem ∧
      l.metaSize = (if ns.mset = false ∧ l.md ≠ 0 then
        pgmap c.pagesize true (l.md * c.iodepth % 2 ^ 32) else 0) ∧
      l.trimSize = if c.trim then pgmap c.pagesize true (c.iodepth * dsmSize % 2 ^ 64) else 0 := by
  unfold setUp at done
  cases accepted : initBs ns c.job maxXfer with
  | error fail =>
      rw [accepted] at done
      cases done
  | ok md =>
      simp only [accepted] at done
      split at done
      · cases done
      split at done
      · cases done
      obtain ⟨iomem, alloc, rfl⟩ := Option.map_eq_some_iff.mp done
      exact ⟨rfl, rfl, rfl, alloc, rfl, rfl, rfl⟩

theorem iomemAlloc_ok (done : iomemAlloc c totalMem ok = some m) :
    (c.prp1Offset ≠ 0 → m.prpIomemUsize = (c.maxBs + c.pagesize) % 2 ^ 64 ∧
      m.prpIomemSize =
        pgmap c.pagesize (ok .prpIomem) (m.prpIomemUsize * c.iodepth % 2 ^ 64)) ∧
      (c.cmbList = true → m.prpListUsize = 0 ∧ m.prpListNrLists = 1 ∧
        m.prpListSize = c.pagesize * c.iodepth % 2 ^ 64) ∧
      (c.cmbList = false →
        m.prpListUsize =
          (PrpList.usize (PrpList.pagesize c.mps) (BitVec.ofNat 64 c.maxBs)).toNat ∧
        m.prpListNrLists =
          (PrpList.nrLists (PrpList.pagesize c.mps) (BitVec.ofNat 64 c.maxBs)).toNat ∧
        m.prpListSize = pgmap c.pagesize true (m.prpListUsize * c.iodepth % 2 ^ 64)) := by
  unfold iomemAlloc at done
  obtain ⟨orig, -, done⟩ := Option.bind_eq_some_iff.mp done
  simp only at done
  split at done
  · rename_i cmb
    split at done
    · cases done
      refine ⟨fun offset => ?_, fun _ => ⟨rfl, rfl, rfl⟩, fun host => ?_⟩
      · rw [if_pos offset, if_pos offset]
        exact ⟨rfl, rfl⟩
      · rw [host] at cmb
        cases cmb
    · cases done
  · rename_i host
    split at done
    · cases done
    · rename_i mapped
      have allocated : ok .prpList = true := by
        by_contra failed
        refine mapped ?_
        rw [pgmap, if_neg failed]
        decide
      cases done
      refine ⟨fun offset => ?_, fun cmb => absurd cmb host, fun _ => ⟨rfl, rfl, ?_⟩⟩
      · rw [if_pos offset, if_pos offset]
        exact ⟨rfl, rfl⟩
      · rw [allocated]

end SetUp

/-! ### Sizes that do not wrap -/

section Bounds

variable {c : Config} {P x : ℕ}

theorem pgmap_of_small (pos : 0 < P) (small : x + P < 2 ^ 64) : pgmap P true x = roundUp P x := by
  have below := roundUp_lt_add (x := x) pos
  rw [pgmap, if_pos rfl, Nat.mod_eq_of_lt (below.trans small)]

theorem Running.pagesize (running : Running c) :
    c.pagesize = 2 ^ (12 + c.mps) ∧ 4096 ≤ c.pagesize ∧ c.pagesize ≤ 2 ^ 27 := by
  have mps := running.mps
  have value : c.pagesize = 2 ^ (12 + c.mps) := PrpList.toNat_pagesize (by omega)
  have least : 2 ^ 12 ≤ 2 ^ (12 + c.mps) := Nat.pow_le_pow_right (by decide) (by omega)
  have most : 2 ^ (12 + c.mps) ≤ 2 ^ 27 := Nat.pow_le_pow_right (by decide) (by omega)
  exact ⟨value, by omega, by omega⟩

theorem Running.pagesize_dvd (running : Running c) : c.pagesize ∣ 2 ^ 32 := by
  rw [running.pagesize.1]
  have mps := running.mps
  exact Nat.pow_dvd_pow 2 (by omega)

theorem Running.pages (running : Running c) : c.iodepth * c.pagesize < 2 ^ 59 := by
  calc c.iodepth * c.pagesize ≤ c.iodepth * 2 ^ 27 :=
        Nat.mul_le_mul_left _ running.pagesize.2.2
    _ < 2 ^ 32 * 2 ^ 27 := Nat.mul_lt_mul_of_pos_right running.depth (by decide)

theorem Running.maxBs_lt (running : Running c) : c.maxBs < 2 ^ 48 :=
  (Nat.le_mul_of_pos_right _ running.pos).trans_lt running.memory

/-- All buffers with an offset are less than the address space. -/
theorem Running.bounces (running : Running c) : c.iodepth * (c.maxBs + c.pagesize) < 2 ^ 60 := by
  have memory := running.memory
  have pages := running.pages
  rw [Nat.mul_comm] at memory
  rw [Nat.mul_add]
  omega

/-- The pages of the lists, with their count and their bytes. -/
theorem Running.lists (running : Running c) : ∃ nr,
    (PrpList.nrLists (PrpList.pagesize c.mps) (BitVec.ofNat 64 c.maxBs)).toNat = nr ∧
      (PrpList.usize (PrpList.pagesize c.mps) (BitVec.ofNat 64 c.maxBs)).toNat =
        nr * c.pagesize ∧
      c.iodepth * (nr * c.pagesize) < 2 ^ 62 := by
  obtain ⟨-, ge, le⟩ := running.pagesize
  have word : c.mps < 52 := by
    have mps := running.mps
    omega
  have small := running.maxBs_lt
  have pos := running.pos
  have quotient : (BitVec.ofNat 64 c.maxBs / PrpList.pagesize c.mps).toNat =
      c.maxBs / c.pagesize := by
    rw [BitVec.toNat_udiv, BitVec.toNat_ofNat, Nat.mod_eq_of_lt (by omega)]
    rfl
  -- A list page holds 8 bytes for each page of a block.
  have few : c.maxBs / c.pagesize * c.pagesize ≤ c.maxBs := Nat.div_mul_le_self _ _
  have fewer : c.maxBs / c.pagesize * 4096 ≤ c.maxBs :=
    (Nat.mul_le_mul_left _ ge).trans few
  have rounded := Nat.div_mul_le_self (c.maxBs / c.pagesize * 8 + (c.pagesize - 1)) c.pagesize
  generalize count : (c.maxBs / c.pagesize * 8 + (c.pagesize - 1)) / c.pagesize = q at rounded
  have long : q * 4096 ≤ q * c.pagesize := Nat.mul_le_mul_left q ge
  have page : (PrpList.pagesize c.mps).toNat = c.pagesize := rfl
  have nr : (PrpList.nrLists (PrpList.pagesize c.mps) (BitVec.ofNat 64 c.maxBs)).toNat = q + 1 := by
    rw [PrpList.toNat_nrLists word (by rw [quotient, page, count]; omega), quotient, page, count]
  have sum : (q + 1) * c.pagesize = q * c.pagesize + c.pagesize := Nat.succ_mul _ _
  refine ⟨q + 1, nr, ?_, ?_⟩
  · have positive : (PrpList.nrLists (PrpList.pagesize c.mps) (BitVec.ofNat 64 c.maxBs)).msb =
        false := by
      rw [BitVec.msb_eq_false_iff_two_mul_lt, nr]
      omega
    rw [PrpList.usize, BitVec.toNat_mul, BitVec.signExtend_eq_setWidth_of_msb_false positive,
      BitVec.toNat_setWidth, nr, page, Nat.mod_eq_of_lt (a := q + 1) (by omega),
      Nat.mod_eq_of_lt (by omega)]
  · have eights : c.iodepth * (c.maxBs / c.pagesize * 4096) ≤ c.maxBs * c.iodepth := by
      rw [Nat.mul_comm c.maxBs]
      exact Nat.mul_le_mul_left _ fewer
    have memory := running.memory
    have pages := running.pages
    have each : c.iodepth * ((q + 1) * c.pagesize) ≤
        c.iodepth * (c.maxBs / c.pagesize * 4096 + 2 * c.pagesize) :=
      Nat.mul_le_mul_left _ (by omega)
    rw [Nat.mul_add, Nat.mul_left_comm c.iodepth 2] at each
    omega

end Bounds

/-! ### The four families -/

section Families

variable {c : Config} {ns : Ns} {maxXfer : BitVec 64} {totalMem longest : ℕ} {ok : Call → Bool}
  {l : Layout} {lens : ℕ → ℕ}

/-- Lists of one unit after another are apart; in the CMB the unit is 0. -/
theorem prpList_laid_iff (running : Running c)
    (done : setUp c ns maxXfer totalMem ok = some l) :
    Lib.Laid c.iodepth (l.size .prpList) (l.region lens .prpList) ↔
      (c.cmbList = true → c.iodepth = 1) := by
  obtain ⟨same, -, -, alloc, -, -, -⟩ := setUp_ok done
  obtain ⟨-, shared, own⟩ := iomemAlloc_ok alloc
  obtain ⟨-, ge, le⟩ := running.pagesize
  have pages := running.pages
  have pos := running.pos
  have region : l.region lens .prpList = fun i =>
      bytes (i * l.iomem.prpListUsize % 2 ^ 64) (l.iomem.prpListNrLists * c.pagesize) := by
    funext i
    rw [Layout.region, same]
  rw [region, Layout.size]
  cases cmb : c.cmbList with
  | true =>
      obtain ⟨unit, nr, size⟩ := shared cmb
      rw [unit, nr, size, Nat.mul_comm c.pagesize, Nat.mod_eq_of_lt (by omega)]
      simp only [Nat.mul_zero, Nat.zero_mod, Nat.one_mul, forall_const]
      constructor
      · intro laid
        by_contra many
        have first : 0 ∈ bytes 0 c.pagesize := mem_bytes.mpr (by omega)
        exact Finset.disjoint_left.mp (laid.apart 0 pos 1 (by omega) (by decide)) first first
      · intro one
        rw [one, Nat.one_mul]
        refine ⟨fun i _ => bytes_subset_range (by omega), ?_⟩
        intro i hi j hj other
        omega
  | false =>
      obtain ⟨unit, nr, size⟩ := own cmb
      obtain ⟨n, count, usize, small⟩ := running.lists
      rw [unit, usize] at size
      rw [unit, usize, nr, count, size, Nat.mul_comm _ c.iodepth,
        pgmap_of_small (by omega) (by rw [Nat.mod_eq_of_lt (by omega)]; omega)]
      refine iff_of_true ?_ (fun h => by cases h)
      refine (laid_wrapped_iff (by omega) ?_ (by decide)).mpr (by omega)
      exact running.pagesize_dvd.trans (Nat.pow_dvd_pow 2 (by decide))

/-- The buffers for an offset hold what fits in their unit. -/
theorem bounce_laid_iff (running : Running c)
    (done : setUp c ns maxXfer totalMem ok = some l) :
    (∀ lens : ℕ → ℕ, (∀ i, lens i ≤ longest) →
      Lib.Laid c.iodepth (l.size .bounce) (l.region lens .bounce)) ↔
      (c.prp1Offset ≠ 0 → ok .prpIomem = true ∧ c.prp1Offset + longest ≤
        if c.iodepth = 1 then roundUp c.pagesize (c.maxBs + c.pagesize)
        else c.maxBs + c.pagesize) := by
  obtain ⟨same, -, -, alloc, bounce, -, -⟩ := setUp_ok done
  obtain ⟨offset, -, -⟩ := iomemAlloc_ok alloc
  obtain ⟨-, ge, le⟩ := running.pagesize
  have pos := running.pos
  have small := running.bounces
  by_cases none : c.prp1Offset = 0
  · refine iff_of_true (fun lens _ => ?_) (fun some_ => absurd none some_)
    have region : l.region lens .bounce = fun _ => ∅ := by
      funext i
      rw [Layout.region, same, if_neg (not_not.mpr none)]
    rw [region]
    exact laid_empty
  · obtain ⟨unit, size⟩ := offset none
    have unit_lt : c.maxBs + c.pagesize < 2 ^ 64 := by
      have below : c.maxBs + c.pagesize ≤ c.iodepth * (c.maxBs + c.pagesize) :=
        Nat.le_mul_of_pos_left _ pos
      omega
    rw [Nat.mod_eq_of_lt unit_lt] at unit
    rw [unit] at size
    have region (lens : ℕ → ℕ) : Lib.Laid c.iodepth (l.size .bounce) (l.region lens .bounce) ↔
        Lib.Laid c.iodepth (l.size .bounce)
          fun i => bytes (i * (c.maxBs + c.pagesize)) (c.prp1Offset + lens i) := by
      apply laid_congr
      intro i inside
      have below := Nat.mul_le_mul_right (c.maxBs + c.pagesize) inside.le
      rw [Layout.region, same, if_pos none, unit, Nat.mod_eq_of_lt (by omega)]
    have size' : l.size .bounce = if ok .prpIomem then l.iomem.prpIomemSize else 0 := by
      rw [Layout.size, bounce]
    simp only [region]
    rw [size']
    cases mapped : ok .prpIomem with
    | false =>
        refine iff_of_false ?_ (fun h => by cases (h none).1)
        intro all
        have inside := (all (fun _ => 0) fun _ => Nat.zero_le _).inside 0 pos
        have first : 0 ∈ bytes (0 * (c.maxBs + c.pagesize)) (c.prp1Offset + 0) :=
          mem_bytes.mpr (by omega)
        simpa using inside first
    | true =>
        simp only [if_true]
        rw [size, mapped, Nat.mul_comm _ c.iodepth,
          pgmap_of_small (by omega) (by rw [Nat.mod_eq_of_lt (by omega)]; omega),
          Nat.mod_eq_of_lt (by omega),
          laid_stride_iff pos (Nat.pos_of_ne_zero none) (le_roundUp (by omega))]
        by_cases one : c.iodepth = 1
        · simp [one, none]
        · simp [one, none]

/-- The products for the metadata have 32 bits. -/
theorem metadata_laid_iff (running : Running c)
    (done : setUp c ns maxXfer totalMem ok = some l) :
    Lib.Laid c.iodepth (l.size .metadata) (l.region lens .metadata) ↔
      (ns.mset = false → c.iodepth * l.md < 2 ^ 32) := by
  obtain ⟨-, same, -, -, -, size, -⟩ := setUp_ok done
  obtain ⟨-, ge, le⟩ := running.pagesize
  cases dif : ns.mset with
  | true =>
      refine iff_of_true ?_ (fun h => by cases h)
      have region : l.region lens .metadata = fun _ => ∅ := by
        funext i
        rw [Layout.region, same, dif, if_pos rfl]
      rw [region]
      exact laid_empty
  | false =>
      have region : l.region lens .metadata = fun i => bytes (i * l.md % 2 ^ 32) l.md := by
        funext i
        rw [Layout.region, same, dif, if_neg Bool.false_ne_true]
      have size' : l.size .metadata = roundUp c.pagesize (c.iodepth * l.md % 2 ^ 32) := by
        have small : c.iodepth * l.md % 2 ^ 32 < 2 ^ 32 := Nat.mod_lt _ (by decide)
        rw [Layout.size, size, Nat.mul_comm l.md]
        split
        · rw [pgmap_of_small (by omega) (by omega)]
        · rename_i nothing
          have zero : l.md = 0 := by
            by_contra some_
            exact nothing ⟨dif, some_⟩
          rw [zero, Nat.mul_zero, Nat.zero_mod, roundUp_of_dvd (by omega) (Nat.dvd_zero _)]
      rw [region, size', laid_wrapped_iff (by omega) running.pagesize_dvd (by decide)]
      exact ⟨fun h _ => h, fun h => h rfl⟩

/-- The ranges of every trim have a page of 4 KiB. -/
theorem dsm_laid (running : Running c) (done : setUp c ns maxXfer totalMem ok = some l) :
    Lib.Laid c.iodepth (l.size .dsm) (l.region lens .dsm) := by
  obtain ⟨same, -, -, -, -, -, size⟩ := setUp_ok done
  obtain ⟨-, ge, le⟩ := running.pagesize
  have depth := running.depth
  have four : dsmSize = 4096 := rfl
  cases trim : c.trim with
  | false =>
      have region : l.region lens .dsm = fun _ => ∅ := by
        funext i
        rw [Layout.region, same, trim, if_neg Bool.false_ne_true]
      rw [region]
      exact laid_empty
  | true =>
      have region : l.region lens .dsm = fun i => bytes (i * dsmSize % 2 ^ 64) dsmSize := by
        funext i
        rw [Layout.region, same, trim, if_pos rfl]
      have total : c.iodepth * dsmSize < 2 ^ 44 := by
        rw [four]
        omega
      rw [region, Layout.size, size, trim, if_pos rfl,
        pgmap_of_small (by omega) (by rw [Nat.mod_eq_of_lt (by omega)]; omega),
        laid_wrapped_iff (by omega)
          (running.pagesize_dvd.trans (Nat.pow_dvd_pow 2 (by decide))) (by decide)]
      omega

/-- **Regions.** For all options that are accepted, all lengths up to the longest transfer and all
indices below `iodepth`, the regions of the four families are in their allocations and apart, if and
only if the options leave them so. -/
theorem regions_laid_iff (running : Running c)
    (done : setUp c ns maxXfer totalMem ok = some l) :
    l.Laid longest ↔ Apart c ns ok longest := by
  obtain ⟨same, -, accepted, -, -, -, -⟩ := setUp_ok done
  have adjusted := initBs_ok accepted
  have least : (ns.mset = false → c.iodepth * l.md < 2 ^ 32) ↔
      (ns.mset = false → ∀ md ∈ [c.job.mdPerIoSize, leastMd ns c.job .read,
        leastMd ns c.job .write], c.iodepth * md < 2 ^ 32) := by
    refine forall_congr' fun separate => ?_
    rw [if_pos separate] at adjusted
    rw [adjusted, ← Nat.mul_max_mul_left, ← Nat.mul_max_mul_left]
    simp only [List.forall_mem_cons, List.not_mem_nil, false_implies, implies_true, and_true,
      Nat.max_lt, and_assoc]
  rw [Layout.Laid, same]
  constructor
  · intro all
    have one := all (fun _ => 0) fun _ => Nat.zero_le _
    exact ⟨(prpList_laid_iff running done).mp (one .prpList),
      (bounce_laid_iff running done).mp fun lens short => all lens short .bounce,
      least.mp ((metadata_laid_iff running done).mp (one .metadata))⟩
  · rintro ⟨lists, offset, metadata⟩ lens short family
    cases family with
    | prpList => exact (prpList_laid_iff running done).mpr lists
    | bounce => exact (bounce_laid_iff running done).mpr offset lens short
    | metadata => exact (metadata_laid_iff running done).mpr (least.mpr metadata)
    | dsm => exact dsm_laid running done

/-- Blocks of 4 KiB with an offset of 4 bytes. -/
def sampleConfig (iodepth : ℕ) (cmbList : Bool) : Config where
  mps := 0
  iodepth := iodepth
  job := ⟨fun _ => 4096, fun _ => 4096, 0⟩
  prp1Offset := 4
  cmbData := false
  cmbList := cmbList
  trim := false

theorem sample_laid : ∃ l, setUp (sampleConfig 4 false) plainNs (maxXferSize 5 0) 0x8000
    (fun _ => true) = some l ∧ l.Laid 4096 := by
  have running : Running (sampleConfig 4 false) :=
    ⟨by decide, by decide, by decide, by decide⟩
  have apart : Apart (sampleConfig 4 false) plainNs (fun _ => true) 4096 :=
    ⟨fun cmb => absurd cmb (by decide), fun _ => ⟨rfl, by decide⟩, fun _ => by decide⟩
  obtain ⟨l, done⟩ : ∃ l, setUp (sampleConfig 4 false) plainNs (maxXferSize 5 0) 0x8000
    (fun _ => true) = some l := ⟨_, rfl⟩
  exact ⟨l, done, (regions_laid_iff running done).mpr apart⟩

/-- The two lists are one page. -/
theorem cmb_lists_are_shared : ∃ l, setUp (sampleConfig 2 true) plainNs (maxXferSize 5 0) 0x4000
    (fun _ => true) = some l ∧ l.region (fun _ => 4096) .prpList 0 = bytes 0 4096 ∧
      l.region (fun _ => 4096) .prpList 1 = bytes 0 4096 ∧ ¬ l.Laid 4096 := by
  have running : Running (sampleConfig 2 true) :=
    ⟨by decide, by decide, by decide, by decide⟩
  obtain ⟨l, done, first, second⟩ : ∃ l, setUp (sampleConfig 2 true) plainNs (maxXferSize 5 0)
      0x4000 (fun _ => true) = some l ∧ l.region (fun _ => 4096) .prpList 0 = bytes 0 4096 ∧
      l.region (fun _ => 4096) .prpList 1 = bytes 0 4096 := ⟨_, rfl, rfl, rfl⟩
  refine ⟨l, done, first, second, ?_⟩
  intro laid
  obtain ⟨same, -⟩ := setUp_ok done
  have lists := laid (fun _ => 0) (fun _ => Nat.zero_le _) .prpList
  rw [same] at lists
  exact absurd ((prpList_laid_iff running done).mp lists rfl) (by decide)

end Families

end Unvmed.Regions
