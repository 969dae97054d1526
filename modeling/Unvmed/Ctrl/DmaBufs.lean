import Mathlib.Data.Finset.Image
import Unvmed.Lib.Layout
import Unvmed.Lib.Run

/-!
The registry of DMA buffers (`unvmed_mem_alloc`, `unvmed_mem_get`, `unvmed_mem_free` and
`unvmed_free_mem_all` in `src/lib/libunvmed.c`).

A buffer has pages of the host and a mapping in the IOMMU. The registry is a list without order; a
buffer is looked up by any address in its mapping. Finding and unlinking a buffer happens under the
lock of the list, and it is released after that.

What the allocator and the IOMMU answer is part of a call. They are assumed to return pages that are
not in use and a range of addresses that no mapping has.

* `memAlloc_spec`, `memFree_some`, `memFree_none`, `freeMemAll_spec`: what each call does under the
  invariant.
* `registry`: the registry is the set of the live mappings, after every run.
-/

namespace Unvmed.DmaBufs

open Lib

/-- `struct iommu_dmabuf`. `len` is a `ssize_t`. -/
structure DmaBuf where
  vaddr : BitVec 64
  iova : BitVec 64
  len : BitVec 64
  deriving DecidableEq, Repr

inductive Fault where
  /-- A mapping is released that is not there. -/
  | unmap
  /-- Pages are freed that are not allocated. -/
  | pgunmap
  deriving DecidableEq, Repr

inductive Errno where
  | EINVAL
  deriving DecidableEq, Repr

structure State where
  /-- `u->ctrl.pci.bdf`, which is cleared when the controller is closed. -/
  bdf : Bool
  /-- `u->mem_list` -/
  memList : List DmaBuf := []
  /-- The pages that are allocated. -/
  pages : Finset (BitVec 64) := ∅
  /-- The mappings of the IOMMU. -/
  maps : Finset DmaBuf := ∅
  faults : List Fault := []

/-- What a call of `unvmed_mem_alloc` is answered. -/
structure Answers where
  /-- `posix_memalign` -/
  page : Option (BitVec 64)
  /-- `iommu_map_vaddr_align` -/
  iova : Option (BitVec 64)
  /-- `calloc` -/
  node : Bool

/-! ### The calls -/

/-- `iommu_unmap_vaddr` -/
def State.iommuUnmap (s : State) (vaddr : BitVec 64) : State :=
  if ∃ m ∈ s.maps, m.vaddr = vaddr then { s with maps := s.maps.filter fun m => m.vaddr ≠ vaddr }
  else { s with faults := s.faults ++ [.unmap] }

/-- `unvmed_unmap_vaddr` -/
def State.unmapVaddr (s : State) (vaddr : BitVec 64) : State :=
  if !s.bdf then s else s.iommuUnmap vaddr

/-- `unvmed_pgunmap` -/
def State.pgunmap (s : State) (vaddr : BitVec 64) : State :=
  if vaddr ∈ s.pages then { s with pages := s.pages.erase vaddr }
  else { s with faults := s.faults ++ [.pgunmap] }

/-- The mapping, then the pages. -/
def State.release (s : State) (buf : DmaBuf) : State :=
  (s.unmapVaddr buf.vaddr).pgunmap buf.vaddr

/-- The length that `unvmed_pgmap_aligned` allocates. -/
def pgmapLen (size pagesize : BitVec 64) : BitVec 64 :=
  BitVec.ofNat 64 (roundUpWord pagesize.toNat size.toNat)

/-- `__unvmed_mem_alloc` -/
def mapAlloc (s : State) (size pagesize : BitVec 64) (r : Answers) : Option DmaBuf × State :=
  if !s.bdf then (none, s)
  else
    match r.page with
    | none => (none, s)
    | some vaddr =>
        let len := pgmapLen size pagesize
        let s := { s with pages := insert vaddr s.pages }
        if len.slt 0 then (none, s)
        else
          match r.iova with
          | none => (none, s.pgunmap vaddr)
          | some iova =>
              let buf : DmaBuf := { vaddr, iova, len }
              (some buf, { s with maps := insert buf s.maps })

/-- `unvmed_mem_alloc`, with `unvmed_mem_add` -/
def memAlloc (s : State) (size pagesize : BitVec 64) (r : Answers) : Option DmaBuf × State :=
  match mapAlloc s size pagesize r with
  | (none, s) => (none, s)
  | (some buf, s) =>
      if r.node then (some buf, { s with memList := s.memList ++ [buf] })
      else (none, s.release buf)

/-- The test of `unvmed_mem_get` and `__unvmed_mem_free`, in 64 bits. -/
def DmaBuf.hit (buf : DmaBuf) (iova : BitVec 64) : Bool :=
  buf.iova ≤ iova && iova < buf.iova + buf.len

/-- `unvmed_mem_get` -/
def memGet (s : State) (iova : BitVec 64) : Except Errno DmaBuf :=
  match s.memList.find? (·.hit iova) with
  | some buf => .ok buf
  | none => .error .EINVAL

/-- `unvmed_mem_free` -/
def memFree (s : State) (iova : BitVec 64) : Except Errno Unit × State :=
  match s.memList.find? (·.hit iova) with
  | some dbuf => (.ok (), { s with memList := s.memList.erase dbuf }.release dbuf)
  | none => (.error .EINVAL, s)

/-- `unvmed_free_mem_all` -/
def freeMemAll : ℕ → State → Option State
  | 0, _ => none
  | fuel + 1, s =>
      match s.memList with
      | [] => some s
      | dbuf :: rest => freeMemAll fuel ({ s with memList := rest }.release dbuf)

inductive Op where
  | alloc (size pagesize : BitVec 64) (r : Answers)
  | get (iova : BitVec 64)
  | free (iova : BitVec 64)

def step (s : State) : Op → Option State
  | .alloc size pagesize r => some (memAlloc s size pagesize r).2
  | .get _ => some s
  | .free iova => some (memFree s iova).2

/-! ### The assumptions -/

/-- The addresses of a mapping. -/
def DmaBuf.range (buf : DmaBuf) : Finset ℕ := bytes buf.iova.toNat buf.len.toNat

/-- `posix_memalign` returns memory that is not in use, and no more than half of the address space;
the IOMMU returns a range that does not wrap and that is disjoint from all mappings. -/
def Admitted (s : State) : Op → Prop
  | .alloc size pagesize r =>
      (∀ vaddr ∈ r.page, vaddr ∉ s.pages ∧ (pgmapLen size pagesize).toNat < 2 ^ 63) ∧
      ∀ iova ∈ r.iova, iova.toNat + (pgmapLen size pagesize).toNat < 2 ^ 64 ∧
        ∀ m ∈ s.maps, Disjoint (bytes iova.toNat (pgmapLen size pagesize).toNat) m.range
  | .get _ => True
  | .free _ => True

instance (s : State) : ∀ op, Decidable (Admitted s op)
  -- not by trying every word
  | .alloc _ _ r =>
      @instDecidableAnd _ _ (Option.decidableForallMem r.page) (Option.decidableForallMem r.iova)
  | .get _ => .isTrue trivial
  | .free _ => .isTrue trivial

/-- A registry as `unvmed_init_ctrl` makes it. -/
def start (bdf : Bool) : State := { bdf }

/-! ### The invariant -/

section Invariant

variable {s : State} {buf : DmaBuf} {iova : BitVec 64}

/-- The list has the live mappings, each with its pages, and no two of them share an address. -/
structure Inv (s : State) : Prop where
  maps : s.maps = s.memList.toFinset
  pages : s.pages = (s.memList.map DmaBuf.vaddr).toFinset
  apart : ∀ a ∈ s.memList, ∀ b ∈ s.memList, a ≠ b → Disjoint a.range b.range
  vaddrs : (s.memList.map DmaBuf.vaddr).Nodup
  whole : ∀ buf ∈ s.memList, buf.iova.toNat + buf.len.toNat < 2 ^ 64
  faults : s.faults = []
  closed : s.bdf = false → s.memList = []

theorem inv_start (bdf : Bool) : Inv (start bdf) where
  maps := rfl
  pages := rfl
  apart _ mem := absurd mem List.not_mem_nil
  vaddrs := List.nodup_nil
  whole _ mem := absurd mem List.not_mem_nil
  faults := rfl
  closed _ := rfl

/-- Where the end of the range does not wrap, the test is right. -/
theorem DmaBuf.hit_iff (whole : buf.iova.toNat + buf.len.toNat < 2 ^ 64) :
    buf.hit iova = true ↔ iova.toNat ∈ buf.range := by
  rw [DmaBuf.hit, DmaBuf.range, mem_bytes, Bool.and_eq_true, decide_eq_true_iff,
    decide_eq_true_iff, BitVec.le_def, BitVec.lt_def, BitVec.toNat_add, Nat.mod_eq_of_lt whole]

theorem Inv.nodup (inv : Inv s) : s.memList.Nodup := List.Nodup.of_map _ inv.vaddrs

theorem Inv.mem_maps (inv : Inv s) : buf ∈ s.maps ↔ buf ∈ s.memList := by
  rw [inv.maps, List.mem_toFinset]

theorem Inv.mem_pages (inv : Inv s) {vaddr : BitVec 64} :
    vaddr ∈ s.pages ↔ ∃ buf ∈ s.memList, buf.vaddr = vaddr := by
  rw [inv.pages, List.mem_toFinset, List.mem_map]

/-- A mapping is told by its pages. -/
theorem Inv.vaddr_inj (inv : Inv s) {a b : DmaBuf} (mem : a ∈ s.memList) (mem' : b ∈ s.memList)
    (same : a.vaddr = b.vaddr) : a = b := List.inj_on_of_nodup_map inv.vaddrs mem mem' same

theorem Inv.open (inv : Inv s) (mem : buf ∈ s.memList) : s.bdf = true := by
  by_contra closed
  rw [inv.closed (Bool.eq_false_iff.mpr closed)] at mem
  exact List.not_mem_nil mem

theorem Inv.hit_iff (inv : Inv s) :
    ∀ buf ∈ s.memList, buf.hit iova = true ↔ iova.toNat ∈ buf.range := by
  intro buf mem
  exact DmaBuf.hit_iff (inv.whole buf mem)

/-- What the search finds: the only mapping with the address. -/
theorem Inv.find_eq_some (inv : Inv s) :
    s.memList.find? (·.hit iova) = some buf ↔ buf ∈ s.maps ∧ iova.toNat ∈ buf.range := by
  rw [inv.mem_maps]
  exact find?_region_eq_some inv.apart inv.hit_iff

theorem Inv.find_eq_none (inv : Inv s) :
    s.memList.find? (·.hit iova) = none ↔ ∀ buf ∈ s.maps, iova.toNat ∉ buf.range := by
  simp only [inv.mem_maps]
  exact find?_region_eq_none inv.hit_iff

end Invariant

/-! ### Releasing -/

section Release

variable {s : State} {buf : DmaBuf}

/-- A mapping whose pages no other mapping has goes, and its pages go with it. -/
theorem release_eq (isOpen : s.bdf = true) (mapped : buf ∈ s.maps)
    (sole : ∀ m ∈ s.maps, m.vaddr = buf.vaddr → m = buf) (page : buf.vaddr ∈ s.pages) :
    s.release buf =
      { s with maps := s.maps.erase buf, pages := s.pages.erase buf.vaddr } := by
  have rest : (s.maps.filter fun m => m.vaddr ≠ buf.vaddr) = s.maps.erase buf := by
    ext m
    rw [Finset.mem_filter, Finset.mem_erase, and_comm]
    constructor
    · rintro ⟨differ, mem⟩
      exact ⟨fun same => differ (congrArg DmaBuf.vaddr same), mem⟩
    · rintro ⟨differ, mem⟩
      exact ⟨fun same => differ (sole m mem same), mem⟩
  have found : ∃ m ∈ s.maps, m.vaddr = buf.vaddr := ⟨buf, mapped, rfl⟩
  have unmapped : s.unmapVaddr buf.vaddr = { s with maps := s.maps.erase buf } := by
    rw [State.unmapVaddr, if_neg (by rw [isOpen]; decide), State.iommuUnmap, if_pos found, rest]
  rw [State.release, unmapped]
  exact if_pos page

/-- The state without a buffer. -/
def State.without (s : State) (buf : DmaBuf) : State :=
  { s with
    memList := s.memList.erase buf
    maps := s.maps.erase buf
    pages := s.pages.erase buf.vaddr }

/-- Unlinking a buffer and releasing it. -/
theorem Inv.release (inv : Inv s) (mem : buf ∈ s.memList) :
    { s with memList := s.memList.erase buf }.release buf = s.without buf := by
  apply release_eq
  · exact inv.open mem
  · exact inv.mem_maps.mpr mem
  · intro m mem' same
    exact inv.vaddr_inj (inv.mem_maps.mp mem') mem same
  · exact inv.mem_pages.mpr ⟨buf, mem, rfl⟩

theorem Inv.without (inv : Inv s) (mem : buf ∈ s.memList) : Inv (s.without buf) := by
  have sub {b : DmaBuf} (left : b ∈ s.memList.erase buf) : b ∈ s.memList :=
    List.mem_of_mem_erase left
  exact
    { maps := by
        ext b
        change b ∈ s.maps.erase buf ↔ b ∈ (s.memList.erase buf).toFinset
        rw [Finset.mem_erase, inv.mem_maps, List.mem_toFinset, inv.nodup.mem_erase_iff]
      pages := by
        ext vaddr
        change vaddr ∈ s.pages.erase buf.vaddr ↔
          vaddr ∈ ((s.memList.erase buf).map DmaBuf.vaddr).toFinset
        rw [Finset.mem_erase, inv.mem_pages, List.mem_toFinset, List.mem_map]
        constructor
        · rintro ⟨differ, b, mem', rfl⟩
          refine ⟨b, inv.nodup.mem_erase_iff.mpr ⟨?_, mem'⟩, rfl⟩
          rintro rfl
          exact differ rfl
        · rintro ⟨b, left, rfl⟩
          obtain ⟨differ, mem'⟩ := inv.nodup.mem_erase_iff.mp left
          exact ⟨fun same => differ (inv.vaddr_inj mem' mem same), b, mem', rfl⟩
      apart := fun a memA b memB => inv.apart a (sub memA) b (sub memB)
      vaddrs := inv.vaddrs.sublist (List.erase_sublist.map DmaBuf.vaddr)
      whole := fun b left => inv.whole b (sub left)
      faults := inv.faults
      closed := fun closed => by
        rw [inv.closed closed] at mem
        exact absurd mem List.not_mem_nil }

end Release

/-! ### The calls keep the invariant -/

section Calls

variable {s s' : State} {buf : DmaBuf} {iova : BitVec 64}

/-- The state with a new buffer. -/
def State.with (s : State) (buf : DmaBuf) : State :=
  { s with
    memList := s.memList ++ [buf]
    maps := insert buf s.maps
    pages := insert buf.vaddr s.pages }

/-- A buffer that is new to a state: its pages and its addresses are free. -/
structure New (s : State) (buf : DmaBuf) : Prop where
  isOpen : s.bdf = true
  page : buf.vaddr ∉ s.pages
  whole : buf.iova.toNat + buf.len.toNat < 2 ^ 64
  apart : ∀ m ∈ s.maps, Disjoint buf.range m.range

theorem New.not_mem (new : New s buf) (inv : Inv s) : buf ∉ s.maps := by
  intro mem
  exact new.page (inv.mem_pages.mpr ⟨buf, inv.mem_maps.mp mem, rfl⟩)

theorem Inv.with (inv : Inv s) (new : New s buf) : Inv (s.with buf) := by
  have member {b : DmaBuf} (mem : b ∈ s.memList ++ [buf]) : b ∈ s.memList ∨ b = buf := by
    rwa [List.mem_append, List.mem_singleton] at mem
  exact
    { maps := by
        ext b
        change b ∈ insert buf s.maps ↔ b ∈ (s.memList ++ [buf]).toFinset
        rw [Finset.mem_insert, inv.mem_maps, List.mem_toFinset, List.mem_append,
          List.mem_singleton, or_comm]
      pages := by
        ext vaddr
        change vaddr ∈ insert buf.vaddr s.pages ↔
          vaddr ∈ ((s.memList ++ [buf]).map DmaBuf.vaddr).toFinset
        rw [Finset.mem_insert, inv.pages, List.map_append, List.mem_toFinset, List.mem_toFinset,
          List.mem_append, List.map_singleton, List.mem_singleton, or_comm]
      apart := by
        intro a memA b memB differ
        rcases member memA with old | rfl
        · rcases member memB with old' | rfl
          · exact inv.apart a old b old' differ
          · exact (new.apart a (inv.mem_maps.mpr old)).symm
        · rcases member memB with old' | rfl
          · exact new.apart b (inv.mem_maps.mpr old')
          · exact absurd rfl differ
      vaddrs := by
        change ((s.memList ++ [buf]).map DmaBuf.vaddr).Nodup
        rw [List.map_append]
        refine inv.vaddrs.append (List.nodup_singleton _) ?_
        intro vaddr old same
        rw [List.map_singleton, List.mem_singleton] at same
        apply new.page
        rw [inv.pages, List.mem_toFinset, ← same]
        exact old
      whole := by
        intro b mem
        rcases member mem with old | rfl
        · exact inv.whole b old
        · exact new.whole
      faults := inv.faults
      closed := fun closed => absurd (new.isOpen.symm.trans closed) (by decide) }

theorem slt_zero {len : BitVec 64} (small : len.toNat < 2 ^ 63) : len.slt 0 = false := by
  have positive : len.toInt = len.toNat := BitVec.toInt_eq_toNat_of_lt (by omega)
  have zero : (0 : BitVec 64).toInt = 0 := rfl
  rw [BitVec.slt, positive, zero]
  exact decide_eq_false (by omega)

/-- Mapping a buffer: a new one, or nothing has changed. -/
theorem mapAlloc_spec {size pagesize : BitVec 64} {r : Answers}
    (admitted : Admitted s (.alloc size pagesize r)) :
    mapAlloc s size pagesize r = (none, s) ∨
      ∃ buf, New s buf ∧ buf.len = pgmapLen size pagesize ∧
        mapAlloc s size pagesize r = (some buf,
          { s with maps := insert buf s.maps, pages := insert buf.vaddr s.pages }) := by
  obtain ⟨memalign, iommu⟩ := admitted
  unfold mapAlloc
  by_cases isOpen : s.bdf = true
  · rw [if_neg (by rw [isOpen]; decide)]
    cases page : r.page with
    | none => exact .inl rfl
    | some vaddr =>
        obtain ⟨free, small⟩ := memalign vaddr page
        simp only [slt_zero small, Bool.false_eq_true, if_false]
        cases mapped : r.iova with
        | none =>
            left
            have page : vaddr ∈ insert vaddr s.pages := Finset.mem_insert_self vaddr s.pages
            have undone : State.pgunmap { s with pages := insert vaddr s.pages } vaddr = s := by
              rw [State.pgunmap, if_pos page]
              simp only [Finset.erase_insert free]
            exact congrArg (Prod.mk none) undone
        | some iova =>
            obtain ⟨whole, apart⟩ := iommu iova mapped
            right
            exact ⟨{ vaddr, iova, len := pgmapLen size pagesize },
              ⟨isOpen, free, whole, apart⟩, rfl, rfl⟩
  · rw [if_pos (by rw [Bool.eq_false_iff.mpr isOpen]; decide)]
    exact .inl rfl

/-- A buffer that could not be registered is released again. -/
theorem New.release (new : New s buf) (inv : Inv s) :
    { s with maps := insert buf s.maps, pages := insert buf.vaddr s.pages }.release buf = s := by
  rw [release_eq]
  · simp only [Finset.erase_insert (new.not_mem inv), Finset.erase_insert new.page]
  · exact new.isOpen
  · exact Finset.mem_insert_self buf s.maps
  · intro m mem same
    rcases Finset.mem_insert.mp mem with rfl | old
    · rfl
    · exact absurd (inv.mem_pages.mpr ⟨m, inv.mem_maps.mp old, same⟩) new.page
  · exact Finset.mem_insert_self buf.vaddr s.pages

/-- `unvmed_mem_alloc` registers a new buffer, or nothing has changed. -/
theorem memAlloc_spec (inv : Inv s) {size pagesize : BitVec 64} {r : Answers}
    (admitted : Admitted s (.alloc size pagesize r)) :
    memAlloc s size pagesize r = (none, s) ∨
      ∃ buf, New s buf ∧ buf.len = pgmapLen size pagesize ∧
        memAlloc s size pagesize r = (some buf, s.with buf) := by
  unfold memAlloc
  rcases mapAlloc_spec admitted with fails | ⟨buf, new, len, maps⟩
  · rw [fails]
    exact .inl rfl
  · rw [maps]
    cases r.node with
    | true => exact .inr ⟨buf, new, len, rfl⟩
    | false =>
        left
        exact congrArg (Prod.mk none) (new.release inv)

/-- `unvmed_mem_free` takes out the mapping with the address. -/
theorem memFree_some (inv : Inv s) (mem : buf ∈ s.maps) (inside : iova.toNat ∈ buf.range) :
    memFree s iova = (.ok (), s.without buf) := by
  rw [memFree, inv.find_eq_some.mpr ⟨mem, inside⟩, ← inv.release (inv.mem_maps.mp mem)]

theorem memFree_none (inv : Inv s) (outside : ∀ buf ∈ s.maps, iova.toNat ∉ buf.range) :
    memFree s iova = (.error .EINVAL, s) := by
  rw [memFree, inv.find_eq_none.mpr outside]

/-- Without its first buffer. -/
theorem Inv.uncons (inv : Inv s) {rest : List DmaBuf} (list : s.memList = buf :: rest) :
    buf ∈ s.memList ∧ s.memList.erase buf = rest ∧ Inv (s.without buf) := by
  have mem : buf ∈ s.memList := by
    rw [list]
    exact List.mem_cons_self
  refine ⟨mem, ?_, inv.without mem⟩
  rw [list, List.erase_cons_head]

/-- `unvmed_free_mem_all` releases every buffer, and that without a fault. -/
theorem freeMemAll_spec (inv : Inv s) {fuel : ℕ} (enough : s.memList.length < fuel) :
    freeMemAll fuel s = some { s with memList := [], maps := ∅, pages := ∅ } := by
  induction fuel generalizing s with
  | zero => exact absurd enough (Nat.not_lt_zero _)
  | succ fuel ih =>
      unfold freeMemAll
      cases list : s.memList with
      | nil =>
          have maps : s.maps = ∅ := by rw [inv.maps, list, List.toFinset_nil]
          have pages : s.pages = ∅ := by rw [inv.pages, list, List.map_nil, List.toFinset_nil]
          simp only [← maps, ← pages, ← list]
      | cons dbuf rest =>
          obtain ⟨mem, head, without⟩ := inv.uncons list
          have released := inv.release mem
          rw [head] at released
          rw [list, List.length_cons] at enough
          have enough' : (s.without dbuf).memList.length < fuel := by
            change (s.memList.erase dbuf).length < fuel
            rw [head]
            exact Nat.lt_of_succ_lt_succ enough
          simp only [released]
          exact ih without enough'

theorem step_inv (s : State) (op : Op) (s' : State) (inv : Inv s) (admitted : Admitted s op)
    (hstep : step s op = some s') : Inv s' := by
  cases op with
  | alloc size pagesize r =>
      cases hstep
      rcases memAlloc_spec inv admitted with fails | ⟨buf, new, -, registers⟩
      · rw [fails]
        exact inv
      · rw [registers]
        exact inv.with new
  | get iova =>
      cases hstep
      exact inv
  | free iova =>
      cases hstep
      by_cases some_ : ∃ buf ∈ s.maps, iova.toNat ∈ buf.range
      · obtain ⟨buf, mem, inside⟩ := some_
        rw [memFree_some inv mem inside]
        exact inv.without (inv.mem_maps.mp mem)
      · rw [memFree_none inv fun buf mem inside => some_ ⟨buf, mem, inside⟩]
        exact inv

end Calls

/-! ### Runs -/

/-- After every run of the calls, the pages that are allocated are those of the live mappings, and
nothing was released twice. `unvmed_mem_alloc` adds a new mapping or changes nothing;
`unvmed_mem_get` finds exactly the live mapping that has the address; `unvmed_mem_free` releases it
with its pages, or fails and changes nothing if there is none; `unvmed_free_mem_all` releases
all. -/
theorem registry (bdf : Bool) (ops : List Op) (s : State)
    (admitted : Guarded step Admitted (start bdf) ops)
    (hrun : run step (start bdf) ops = some s) :
    (s.pages = s.maps.image DmaBuf.vaddr ∧ s.faults = []) ∧
      (∀ size pagesize r, Admitted s (.alloc size pagesize r) →
        memAlloc s size pagesize r = (none, s) ∨
          ∃ buf, buf ∉ s.maps ∧ buf.vaddr ∉ s.pages ∧ buf.len = pgmapLen size pagesize ∧
            memAlloc s size pagesize r = (some buf, s.with buf)) ∧
      (∀ iova buf, memGet s iova = .ok buf ↔ buf ∈ s.maps ∧ iova.toNat ∈ buf.range) ∧
      (∀ iova buf, buf ∈ s.maps → iova.toNat ∈ buf.range →
        memFree s iova = (.ok (), s.without buf)) ∧
      (∀ iova, (∀ buf ∈ s.maps, iova.toNat ∉ buf.range) →
        memFree s iova = (.error .EINVAL, s)) ∧
      ∀ fuel, s.memList.length < fuel →
        freeMemAll fuel s = some { s with memList := [], maps := ∅, pages := ∅ } := by
  have inv : Inv s := run_inv step_inv (inv_start bdf) admitted hrun
  refine ⟨⟨?_, inv.faults⟩, ?_, ?_, ?_, ?_, ?_⟩
  · ext vaddr
    rw [inv.mem_pages, Finset.mem_image]
    simp only [inv.mem_maps]
  · intro size pagesize r admitted
    rcases memAlloc_spec inv admitted with fails | ⟨buf, new, len, registers⟩
    · exact .inl fails
    · exact .inr ⟨buf, new.not_mem inv, new.page, len, registers⟩
  · intro iova buf
    rw [← inv.find_eq_some, memGet]
    cases s.memList.find? (·.hit iova) with
    | none => simp
    | some other => simp
  · exact fun iova buf mem inside => memFree_some inv mem inside
  · exact fun iova outside => memFree_none inv outside
  · exact fun fuel enough => freeMemAll_spec inv enough

/-- Two buffers side by side, one that could not be registered, and the first one freed. -/
def sideBySide : List Op :=
  [.alloc 5 8 ⟨some 4096, some 64, true⟩, .alloc 8 8 ⟨some 8192, some 80, false⟩,
    .alloc 8 8 ⟨some 12288, some 72, true⟩, .free 71]

theorem registry_sideBySide :
    ∃ s, run step (start true) sideBySide = some s ∧ s.memList = [⟨12288, 72, 8⟩] ∧
      memGet s 79 = .ok ⟨12288, 72, 8⟩ ∧ memFree s 71 = (.error .EINVAL, s) ∧
      freeMemAll 2 s = some { s with memList := [], maps := ∅, pages := ∅ } := by
  obtain ⟨-, -, get, -, free, all⟩ :=
    registry true sideBySide _ (by decide) rfl
  exact ⟨_, rfl, rfl, (get 79 ⟨12288, 72, 8⟩).mpr (by decide), free 71 (by decide),
    all 2 (by decide)⟩

end Unvmed.DmaBufs
