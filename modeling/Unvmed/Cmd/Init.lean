import Unvmed.Cmd.CidProofs

/-!
Initialisation of a command and its failures (`lib/libunvmed-cmds.c`).

`__unvmed_cmd_init` takes a command id and a request, then prepares the data buffer and
the metadata buffer. A buffer is allocated if the caller gives none, and mapped for the
device if it is not mapped yet; flags record which of both the driver has to undo.

* `init_failure_frees_twice`: when the metadata buffer fails behind a data buffer that the
  call mapped or allocated, the data buffer is unmapped or freed twice.
* `init_failure_clean_iff`: a failed initialisation leaves ids, requests, pages and
  mappings as they were and releases what it took once, if and only if the metadata
  buffer does not fail behind a data buffer that the call allocated or mapped.
-/

namespace Unvmed.Init

open Lib
open Cid (Bitmap cidOf)

/-- `struct unvme_buf`; `va = 0` is `NULL`. -/
structure Buf where
  va : Nat := 0
  len : Nat := 0
  /-- `UNVME_CMD_BUF_F_VA_UNMAP` -/
  vaUnmap : Bool := false
  /-- `UNVME_CMD_BUF_F_IOVA_UNMAP` -/
  iovaUnmap : Bool := false
  deriving DecidableEq, Repr

/-- `struct unvme_cmd` with its buffers. -/
structure Command extends Cmd where
  buf : Buf := {}
  mbuf : Buf := {}

/-- What a call can take and has to give back. -/
inductive Resource where
  | cid (cid : Nat)
  | rq (rq : Nat)
  /-- The pages at an address. -/
  | page (va : Nat)
  /-- The IOMMU mapping of an address. -/
  | mapping (va : Nat)
  deriving DecidableEq, Repr

inductive Op where
  | acquire (r : Resource)
  | release (r : Resource)
  deriving DecidableEq, Repr

/-- The memory services. `M` is the state of the IOMMU mappings. -/
structure Memory (M : Type) where
  /-- `unvmed_pgmap`: the address and the length of new pages. -/
  pgmap : List Nat → Nat → Option (Nat × Nat)
  /-- `iommu_translate_vaddr` -/
  translates : M → Nat → Bool
  /-- `iommu_map_vaddr_align` -/
  map : M → Nat → Nat → Option M
  /-- `iommu_unmap_vaddr` -/
  unmap : M → Nat → M

/-- What the driver relies on of them: new pages are not `NULL` and not in use. -/
structure Memory.Spec {M : Type} (mem : Memory M) : Prop where
  fresh : ∀ pages len va n, mem.pgmap pages len = some (va, n) → va ≠ 0 ∧ va ∉ pages

/-- A queue and the memory it uses. -/
structure State (M : Type) where
  cids : Bitmap
  /-- The free requests of libvfn's queue. -/
  rqs : List Nat
  /-- `usq->nr_cmds` -/
  nrCmds : Int
  cmds : Slot → Command
  /-- The pages that are allocated. -/
  pages : List Nat
  maps : M
  /-- What was taken and given back; for the statements only. -/
  ops : List Op

/-- Undefined behaviour of the source. -/
inductive Fault where
  | doubleFree (va : Nat)
  deriving DecidableEq, Repr

/-! ### Command ids, without interference -/

/-- The fallback scan of `unvmed_cid_alloc`. -/
def cidScan (b : Bitmap) : List Nat → Option (Nat × Bitmap)
  | [] => none
  | i :: is =>
      let old := b.load i
      if old = 0xFF#8 then cidScan b is
      else match findFirstZero old with
        | none => cidScan b is
        | some pos => some (cidOf i pos, { b.store i (old ||| 1#8 <<< pos) with top := i })

/-- `unvmed_cid_alloc` -/
def cidAlloc (b : Bitmap) : Option (Nat × Bitmap) :=
  let old := b.load b.top
  if old = 0xFF#8 then cidScan b (List.range b.nrBytes)
  else match findFirstZero old with
    | none => cidScan b (List.range b.nrBytes)
    | some pos => some (cidOf b.top pos, b.store b.top (old ||| 1#8 <<< pos))

inductive Errno where
  | einval
  | eexist
  deriving DecidableEq, Repr

/-- `unvmed_cid_alloc_n` -/
def cidAllocN (b : Bitmap) (cid : Nat) : Except Errno Bitmap :=
  if cid ≥ b.size then .error .einval
  else
    let old := b.load (cid / 8)
    if old.getLsbD (cid % 8) then .error .eexist
    else .ok (b.store (cid / 8) (old ||| 1#8 <<< (cid % 8)))

/-- `unvmed_cid_free` -/
def cidFree (b : Bitmap) (cid : Nat) : Bitmap :=
  if cid ≥ b.size then b
  else b.store (cid / 8) (b.load (cid / 8) &&& ~~~(1#8 <<< (cid % 8)))

section Model

variable {M : Type}

def State.setCmd (s : State M) (slot : Slot) (cmd : Command) : State M :=
  { s with cmds := Function.update s.cmds slot cmd }

def State.log (s : State M) (op : Op) : State M := { s with ops := s.ops ++ [op] }

/-- `unvmed_cid_free` of the queue -/
def State.cidFree (s : State M) (cid : Nat) : State M :=
  { s with cids := Init.cidFree s.cids cid }.log (.release (.cid cid))

/-- `nvme_rq_release_atomic` -/
def State.rqRelease (s : State M) (rq : Option Nat) : State M :=
  match rq with
  | none => s
  | some rq => { s with rqs := rq :: s.rqs }.log (.release (.rq rq))

/-- `__unvmed_conflict_cmd_alloc` -/
def State.conflictCmdAlloc (s : State M) (cid vcqId : Nat) : Option Slot × State M :=
  let cmd := s.cmds .conflict
  if cmd.state ≠ .init then (none, s)
  else match s.rqs with
    -- The state goes back to `INIT`.
    | [] => (none, s)
    | rq :: rqs =>
        (some .conflict, ({ s with rqs := rqs, nrCmds := s.nrCmds + 1 }.setCmd .conflict
          { refcnt := 1, state := .allocated, vcq := vcqId, cid := cid, rq := some rq,
            injected := .conflict }).log (.acquire (.rq rq)))

/-- `__unvmed_cmd_alloc` behind the id. -/
def State.cmdAllocRq (s : State M) (cid vcqId : Nat) : Option Slot × State M :=
  match s.rqs with
  | [] => (none, s.cidFree cid)
  | rq :: rqs =>
      (some (.cmd cid), ({ s with rqs := rqs, nrCmds := s.nrCmds + 1 }.setCmd (.cmd cid)
        { refcnt := 1, state := .allocated, vcq := vcqId, cid := cid, rq := some rq }).log
          (.acquire (.rq rq)))

/-- `__unvmed_cmd_alloc` -/
def State.cmdAlloc (s : State M) (cid : Option Nat) (vcqId : Nat) : Option Slot × State M :=
  match cid with
  | some cid => match cidAllocN s.cids cid with
      | .error .eexist => s.conflictCmdAlloc cid vcqId
      | .error .einval => (none, s)
      | .ok cids => ({ s with cids := cids }.log (.acquire (.cid cid))).cmdAllocRq cid vcqId
  | none => match Init.cidAlloc s.cids with
      | none => (none, s)
      | some (cid, cids) =>
          ({ s with cids := cids }.log (.acquire (.cid cid))).cmdAllocRq cid vcqId

/-- `unvmed_pgunmap`, which is `free`. -/
def State.pgunmap (s : State M) (va : Nat) : Except Fault (State M) :=
  if va = 0 then .ok s
  else if va ∈ s.pages then
    .ok ({ s with pages := s.pages.erase va }.log (.release (.page va)))
  else .error (.doubleFree va)

/-- `unvmed_unmap_vaddr` -/
def State.unmapVaddr (s : State M) (mem : Memory M) (va : Nat) : State M :=
  { s with maps := mem.unmap s.maps va }.log (.release (.mapping va))

/-- `uint32_t` -/
def u32 (n : Nat) : Nat := n % 2 ^ 32

/-- `unvmed_buf_init` from the mapping on. `fresh` tells whether the call allocated
the buffer (`__buf`). The last component is `*ubuf`. -/
def State.bufMap (s : State M) (mem : Memory M) (ubuf : Buf) (buf len : Nat) (fresh : Bool) :
    Except Fault (Bool × State M × Buf) :=
  if buf ≠ 0 ∧ len ≠ 0 ∧ mem.translates s.maps buf = false then
    match mem.map s.maps buf len with
    | none =>
        if fresh then do
          let s ← s.pgunmap buf
          pure (false, s, ubuf)
        else .ok (false, s, ubuf)
    | some maps =>
        .ok (true, { s with maps := maps }.log (.acquire (.mapping buf)),
          { ubuf with iovaUnmap := true, va := buf, len := len })
  else .ok (true, s, { ubuf with va := buf, len := len })

/-- `unvmed_buf_init` -/
def State.bufInit (s : State M) (mem : Memory M) (buf len : Nat) :
    Except Fault (Bool × State M × Buf) :=
  let len := u32 len
  if buf = 0 ∧ len ≠ 0 then
    match mem.pgmap s.pages len with
    | none => .ok (false, s, {})
    | some (va, n) =>
        ({ s with pages := va :: s.pages }.log (.acquire (.page va))).bufMap mem
          { vaUnmap := true } va (u32 n) true
  else s.bufMap mem {} buf len false

/-- `unvmed_buf_free` -/
def State.bufFree (s : State M) (mem : Memory M) (buf : Buf) : Except Fault (State M) :=
  let s := if buf.iovaUnmap then s.unmapVaddr mem buf.va else s
  if buf.vaUnmap then s.pgunmap buf.va else .ok s

/-- `__unvmed_cmd_free` -/
def State.cmdFreeInner (s : State M) (slot : Slot) : State M :=
  let cmd := s.cmds slot
  let s := ({ s with nrCmds := s.nrCmds - 1 }.setCmd slot {}).rqRelease cmd.rq
  if cmd.injected = .conflict then s else s.cidFree cmd.cid

/-- `unvmed_cmd_free` -/
def State.cmdFree (s : State M) (mem : Memory M) (slot : Slot) : Except Fault (State M) := do
  let s₁ ← s.bufFree mem (s.cmds slot).buf
  let s₂ ← s₁.bufFree mem (s.cmds slot).mbuf
  pure (s₂.cmdFreeInner slot)

/-- `unvmed_cmd_put` -/
def State.cmdPut (s : State M) (mem : Memory M) (slot : Slot) : Except Fault (State M) :=
  let refcnt := (s.cmds slot).refcnt - 1
  let s := s.setCmd slot { s.cmds slot with refcnt := refcnt }
  if refcnt = 0 then s.cmdFree mem slot else .ok s

/-- The arguments of `__unvmed_cmd_init`. -/
structure Args where
  cid : Option Nat
  buf : Nat
  len : Nat
  mbuf : Nat
  mlen : Nat
  vcqId : Nat

/-- `__unvmed_cmd_init`; `none` is `NULL`. -/
def State.cmdInit (s : State M) (mem : Memory M) (a : Args) :
    Except Fault (Option Slot × State M) :=
  match s.cmdAlloc a.cid a.vcqId with
  | (none, s) => .ok (none, s)
  | (some slot, s) => do
      let (ok, s, buf) ← s.bufInit mem a.buf a.len
      let s := s.setCmd slot { s.cmds slot with buf := buf }
      if ok = false then
        let s ← s.cmdPut mem slot
        pure (none, s)
      else
        let (ok, s, mbuf) ← s.bufInit mem a.mbuf a.mlen
        let s := s.setCmd slot { s.cmds slot with mbuf := mbuf }
        if ok = false then
          let s ← s.bufFree mem (s.cmds slot).buf
          let s ← s.cmdPut mem slot
          pure (none, s)
        else pure (some slot, s)

end Model

/-! ### What a clean failure is -/

section Statement

variable {M : Type}

/-- How often a resource was taken and not given back. -/
def due (ops : List Op) (r : Resource) : Int :=
  ops.count (.acquire r) - ops.count (.release r)

/-- The state is as before the call, and what the call took it gave back once. -/
structure Restored (s s' : State M) : Prop where
  bits : s'.cids.bits = s.cids.bits
  rqs : s'.rqs = s.rqs
  nrCmds : s'.nrCmds = s.nrCmds
  pages : s'.pages = s.pages
  maps : s'.maps = s.maps
  due : ∀ r, due s'.ops r = due s.ops r

/-- The call returns a command, or it returns `NULL` and the state is restored. -/
def CleanFailure (mem : Memory M) (s : State M) (a : Args) : Prop :=
  ∃ cmd s', s.cmdInit mem a = .ok (cmd, s') ∧ (cmd = none → Restored s s')

/-- The bitmap of a queue. -/
structure WellFormed (b : Bitmap) : Prop where
  bytes : b.bits.length = b.nrBytes
  size : b.size ≤ 8 * b.nrBytes
  small : 8 * b.nrBytes ≤ 2 ^ 16
  top : b.top < b.nrBytes
  padding : ∀ c, b.Padding c → testBit b.bits c = true

/-- There is a request and an id, or for a pinned id that is in use the conflict slot. -/
def State.Available (s : State M) (cid : Option Nat) : Prop :=
  s.rqs ≠ [] ∧ match cid with
    | none => ∃ c < 8 * s.cids.nrBytes, testBit s.cids.bits c = false
    | some cid => cid < s.cids.size ∧
        (testBit s.cids.bits cid = false ∨ (s.cmds .conflict).state = .init)

/-- The address and the length of a buffer; `none` if it needs pages and gets none. -/
def Memory.target (mem : Memory M) (pages : List Nat) (buf len : Nat) : Option (Nat × Nat) :=
  if buf = 0 then (mem.pgmap pages (u32 len)).map fun (va, n) => (va, u32 n)
  else some (buf, u32 len)

/-- Preparing a buffer fails: its pages cannot be allocated, or it needs a mapping and
cannot be mapped. -/
def Memory.Fails (mem : Memory M) (pages : List Nat) (maps : M) (buf len : Nat) : Prop :=
  u32 len ≠ 0 ∧ match mem.target pages buf len with
    | none => True
    | some (va, n) => n ≠ 0 ∧ mem.translates maps va = false ∧ mem.map maps va n = none

/-- The driver allocates or maps the buffer, and so has to undo that. -/
def Memory.Owns (mem : Memory M) (maps : M) (buf len : Nat) : Prop :=
  u32 len ≠ 0 ∧ (buf = 0 ∨ mem.translates maps buf = false)

/-- The pages once a buffer is prepared. -/
def Memory.pagesWith (mem : Memory M) (pages : List Nat) (buf len : Nat) : List Nat :=
  if buf = 0 ∧ u32 len ≠ 0 then
    match mem.target pages buf len with
    | none => pages
    | some (va, _) => va :: pages
  else pages

/-- The mappings once a buffer is prepared. -/
def Memory.mapsWith (mem : Memory M) (pages : List Nat) (maps : M) (buf len : Nat) : M :=
  match mem.target pages buf len with
  | none => maps
  | some (va, n) =>
      if n ≠ 0 ∧ va ≠ 0 ∧ mem.translates maps va = false then (mem.map maps va n).getD maps
      else maps

/-- The metadata buffer fails behind a data buffer that the driver has to undo. -/
def FailsBehindData (mem : Memory M) (s : State M) (a : Args) : Prop :=
  s.Available a.cid ∧ ¬mem.Fails s.pages s.maps a.buf a.len ∧ mem.Owns s.maps a.buf a.len ∧
    mem.Fails (mem.pagesWith s.pages a.buf a.len) (mem.mapsWith s.pages s.maps a.buf a.len)
      a.mbuf a.mlen

end Statement

/-! ### A data buffer that is freed twice -/

/-- Memory that always has pages, and an IOMMU that maps one buffer. -/
def oneMapping : Memory (List Nat) where
  pgmap pages len := some (4096 * (pages.sum + 1), len)
  translates maps va := va ∈ maps
  map maps va _ := if maps = [] then some [va] else none
  unmap maps va := maps.erase va

theorem oneMapping_spec : oneMapping.Spec where
  fresh pages len va n got := by
    simp only [oneMapping, Option.some.injEq, Prod.mk.injEq] at got
    obtain ⟨rfl, _⟩ := got
    refine ⟨by omega, ?_⟩
    intro mem
    have le := List.le_sum_of_mem mem
    omega

/-- An idle queue of 7 command slots. -/
def idleQueue : State (List Nat) where
  cids := Cid.cidInit 7
  rqs := [0, 1]
  nrCmds := 0
  cmds _ := {}
  pages := []
  maps := []
  ops := []

theorem idleQueue_wellFormed : WellFormed idleQueue.cids where
  bytes := rfl
  size := by decide
  small := by decide
  top := by decide
  padding c pad := by
    obtain ⟨low, high⟩ := pad
    have this : c = 7 := by
      have low : 7 ≤ c := low
      have high : c < 8 := high
      omega
    subst this
    rfl

/-- The caller gives both buffers and the second cannot be mapped: the first is unmapped
by `__unvmed_cmd_init` and again by `unvmed_cmd_free`. Without a data buffer of the
caller its pages are freed twice. -/
theorem init_failure_frees_twice :
    ((idleQueue.cmdInit oneMapping ⟨none, 8192, 4096, 12288, 8, 0⟩).map fun r =>
        (r.1, due r.2.ops (.mapping 8192))) = .ok (none, -1) ∧
      idleQueue.cmdInit oneMapping ⟨none, 0, 4096, 0, 8, 0⟩ = .error (.doubleFree 4096) ∧
      ¬∀ {M : Type} (mem : Memory M), mem.Spec → ∀ s : State M, WellFormed s.cids →
        ∀ a, CleanFailure mem s a := by
  have unmapped : ((idleQueue.cmdInit oneMapping ⟨none, 8192, 4096, 12288, 8, 0⟩).map fun r =>
      (r.1, due r.2.ops (.mapping 8192))) = .ok (none, -1) := by rfl
  refine ⟨unmapped, by rfl, ?_⟩
  intro all
  obtain ⟨cmd, s', done, restored⟩ := all oneMapping oneMapping_spec idleQueue
    idleQueue_wellFormed ⟨none, 8192, 4096, 12288, 8, 0⟩
  rw [done] at unmapped
  simp only [Except.map, Except.ok.injEq, Prod.mk.injEq] at unmapped
  have balance := (restored unmapped.1).due (.mapping 8192)
  rw [unmapped.2] at balance
  have none_held : due idleQueue.ops (.mapping 8192) = 0 := rfl
  omega

/-! ### Ids are given back -/

section Cids

variable {b b' : Bitmap} {cid : Nat}

/-- `cid` was free in `b` and its bit is set in `b'`. -/
structure Claimed (b b' : Bitmap) (cid : Nat) : Prop where
  free : testBit b.bits cid = false
  inside : cid / 8 < b.bits.length
  below : cid < b.size
  size : b'.size = b.size
  bits : b'.bits = b.bits.set (cid / 8) (b.load (cid / 8) ||| 1#8 <<< (cid % 8))

/-- Setting a clear bit and clearing it again gives the byte back. -/
theorem or_andNot {old : BitVec 8} {pos : Nat} (clear : old.getLsbD pos = false) :
    (old ||| 1#8 <<< pos) &&& ~~~(1#8 <<< pos) = old := by
  apply BitVec.eq_of_getLsbD_eq
  intro k low
  rw [BitVec.getLsbD_and, BitVec.getLsbD_or, BitVec.getLsbD_not, getLsbD_mask _ _ low]
  by_cases same : k = pos
  · subst same
    simp [clear]
  · simp [same, low]

theorem Claimed.undo (h : Claimed b b' cid) : (cidFree b' cid).bits = b.bits := by
  have below : ¬cid ≥ b'.size := by
    have := h.below
    have := h.size
    omega
  have load : b'.load (cid / 8) = b.load (cid / 8) ||| 1#8 <<< (cid % 8) := by
    simp [Bitmap.load, h.bits, h.inside]
  have inside := h.inside
  have same : b.load (cid / 8) = b.bits[cid / 8] := by
    simp [Bitmap.load, inside]
  have clear : (b.load (cid / 8)).getLsbD (cid % 8) = false := h.free
  rw [cidFree, if_neg below, load, or_andNot clear, Bitmap.store]
  simp only [h.bits, List.set_set]
  rw [same, List.set_getElem_self]

/-- A byte with a clear bit gives the id of that bit. -/
theorem Claimed.of_byte (wf : WellFormed b) {i pos : Nat} (byte : i < b.nrBytes)
    (found : findFirstZero (b.load i) = some pos) (size : b'.size = b.size)
    (bits : b'.bits = b.bits.set i (b.load i ||| 1#8 <<< pos)) : Claimed b b' (cidOf i pos) := by
  obtain ⟨low, clear⟩ := findFirstZero_some found
  have small := wf.small
  have id : cidOf i pos = i * 8 + pos := Nat.mod_eq_of_lt (by omega)
  have quotient : (i * 8 + pos) / 8 = i := by omega
  have rest : (i * 8 + pos) % 8 = pos := by omega
  have free : testBit b.bits (i * 8 + pos) = false := by
    rw [testBit_of_byte low]
    exact clear
  rw [id]
  refine ⟨free, ?_, ?_, size, ?_⟩
  · rw [quotient, wf.bytes]
    exact byte
  · by_contra padded
    rw [wf.padding _ ⟨by omega, by omega⟩] at free
    cases free
  · rw [quotient, rest]
    exact bits

/-- The scan takes the first byte with a clear bit. -/
theorem cidScan_some {is : List Nat} (found : cidScan b is = some (cid, b')) :
    ∃ i ∈ is, ∃ pos, findFirstZero (b.load i) = some pos ∧ cid = cidOf i pos ∧
      b'.size = b.size ∧ b'.bits = b.bits.set i (b.load i ||| 1#8 <<< pos) := by
  induction is with
  | nil => cases found
  | cons i is ih =>
      rw [cidScan] at found
      split at found
      · obtain ⟨j, mem, rest⟩ := ih found
        exact ⟨j, List.mem_cons_of_mem _ mem, rest⟩
      · split at found
        · obtain ⟨j, mem, rest⟩ := ih found
          exact ⟨j, List.mem_cons_of_mem _ mem, rest⟩
        · rename_i pos first
          cases found
          exact ⟨i, List.mem_cons_self, pos, first, rfl, rfl, rfl⟩

/-- If the scan finds nothing every bit of its bytes is set. -/
theorem cidScan_none {is : List Nat} (missed : cidScan b is = none) {i : Nat} (mem : i ∈ is)
    {pos : Nat} (low : pos < 8) : (b.load i).getLsbD pos = true := by
  induction is with
  | nil => cases mem
  | cons j is ih =>
      rw [cidScan] at missed
      split at missed
      · rename_i full
        rcases List.mem_cons.mp mem with rfl | later
        · rw [full]
          have ones : (0xFF#8) = BitVec.allOnes 8 := by decide
          rw [ones, BitVec.getLsbD_allOnes]
          exact decide_eq_true low
        · exact ih missed later
      · split at missed
        · rename_i none
          rcases List.mem_cons.mp mem with rfl | later
          · exact findFirstZero_none none low
          · exact ih missed later
        · cases missed

theorem cidAlloc_some (wf : WellFormed b) (found : cidAlloc b = some (cid, b')) :
    Claimed b b' cid := by
  have scanned : cidScan b (List.range b.nrBytes) = some (cid, b') → Claimed b b' cid := by
    intro found
    obtain ⟨i, mem, pos, first, rfl, size, bits⟩ := cidScan_some found
    exact .of_byte wf (List.mem_range.mp mem) first size bits
  rw [cidAlloc] at found
  split at found
  · exact scanned found
  · split at found
    · exact scanned found
    · rename_i pos first
      cases found
      exact .of_byte wf wf.top first rfl rfl

theorem cidAlloc_none (missed : cidAlloc b = none) {c : Nat} (inside : c < 8 * b.nrBytes) :
    testBit b.bits c = true := by
  have scanned : cidScan b (List.range b.nrBytes) = none := by
    rw [cidAlloc] at missed
    split at missed
    · exact missed
    · split at missed
      · exact missed
      · cases missed
  exact cidScan_none scanned (List.mem_range.mpr (by omega)) (Nat.mod_lt _ (by decide))

/-- The pinned allocation: out of range, in use, or claimed. -/
theorem cidAllocN_cases (wf : WellFormed b) (cid : Nat) :
    b.size ≤ cid ∧ cidAllocN b cid = .error .einval ∨
      cid < b.size ∧ testBit b.bits cid = true ∧ cidAllocN b cid = .error .eexist ∨
      cid < b.size ∧ testBit b.bits cid = false ∧
        ∃ b', cidAllocN b cid = .ok b' ∧ Claimed b b' cid := by
  by_cases range : b.size ≤ cid
  · exact .inl ⟨range, by simp [cidAllocN, range]⟩
  right
  have below : cid < b.size := by omega
  cases bit : testBit b.bits cid with
  | true =>
      have used : (b.load (cid / 8)).getLsbD (cid % 8) = true := bit
      exact .inl ⟨below, rfl, by simp [cidAllocN, range, used]⟩
  | false =>
      have free : (b.load (cid / 8)).getLsbD (cid % 8) = false := bit
      refine .inr ⟨below, rfl, _, by simp only [cidAllocN]; rw [if_neg (by omega), free]; rfl, ?_⟩
      refine ⟨bit, ?_, below, rfl, rfl⟩
      have bytes := wf.bytes
      have size := wf.size
      omega

end Cids

/-! ### The command is given back -/

section Commands

variable {M : Type} {mem : Memory M} {s s₁ t : State M} {slot : Slot}

@[simp] theorem due_acquire (ops : List Op) (r r' : Resource) :
    due (ops ++ [.acquire r]) r' = due ops r' + if r = r' then 1 else 0 := by
  by_cases same : r = r'
  · simp [due, same]
    omega
  · simp [due, same]

@[simp] theorem due_release (ops : List Op) (r r' : Resource) :
    due (ops ++ [.release r]) r' = due ops r' - if r = r' then 1 else 0 := by
  by_cases same : r = r'
  · simp [due, same]
    omega
  · simp [due, same]

/-- The state `s₁` is `s` with a command taken at `slot`. -/
structure Held (s s₁ : State M) (slot : Slot) (rq : Nat) : Prop where
  refcnt : (s₁.cmds slot).refcnt = 1
  mbuf : (s₁.cmds slot).mbuf = {}
  pages : s₁.pages = s.pages
  maps : s₁.maps = s.maps
  nrCmds : s₁.nrCmds = s.nrCmds + 1
  request : (s₁.cmds slot).rq = some rq
  rqs : s.rqs = rq :: s₁.rqs
  cid : (s₁.cmds slot).injected = .conflict ∧ s₁.cids = s.cids ∧
      s₁.ops = s.ops ++ [.acquire (.rq rq)] ∨
    (s₁.cmds slot).injected = .none ∧ Claimed s.cids s₁.cids (s₁.cmds slot).cid ∧
      s₁.ops = s.ops ++ [.acquire (.cid (s₁.cmds slot).cid)] ++ [.acquire (.rq rq)]

/-- The fields of the queue and the command that the free reads are the same. -/
structure SameCommand (s₁ t : State M) (slot : Slot) : Prop where
  cids : t.cids = s₁.cids
  rqs : t.rqs = s₁.rqs
  nrCmds : t.nrCmds = s₁.nrCmds
  cid : (t.cmds slot).cid = (s₁.cmds slot).cid
  rq : (t.cmds slot).rq = (s₁.cmds slot).rq
  injected : (t.cmds slot).injected = (s₁.cmds slot).injected

/-- `t'` is `t` but for what the command held, which is as in `s`. -/
structure GivenBack (s s₁ t t' : State M) : Prop where
  bits : t'.cids.bits = s.cids.bits
  rqs : t'.rqs = s.rqs
  nrCmds : t'.nrCmds = s.nrCmds
  pages : t'.pages = t.pages
  maps : t'.maps = t.maps
  due : ∀ r, due t'.ops r = due t.ops r + due s.ops r - due s₁.ops r

/-- `__unvmed_cmd_free` gives back what the allocation took, whatever was done with the
buffers in between. -/
theorem Held.undo {rq : Nat} (h : Held s s₁ slot rq) (same : SameCommand s₁ t slot) :
    GivenBack s s₁ t (t.cmdFreeInner slot) := by
  have request : (t.cmds slot).rq = some rq := same.rq.trans h.request
  have count : t.nrCmds - 1 = s.nrCmds := by
    rw [same.nrCmds, h.nrCmds]
    omega
  have rqs : rq :: t.rqs = s.rqs := by
    rw [same.rqs, h.rqs]
  rcases h.cid with ⟨conflict, cids, ops⟩ | ⟨regular, claimed, ops⟩
  · have injected := same.injected.trans conflict
    have goes : t.cmdFreeInner slot =
        { t with
          nrCmds := t.nrCmds - 1
          cmds := Function.update t.cmds slot {}
          rqs := rq :: t.rqs
          ops := t.ops ++ [.release (.rq rq)] } := by
      simp [State.cmdFreeInner, request, injected, State.rqRelease, State.setCmd, State.log]
    rw [goes]
    refine ⟨?_, rqs, count, rfl, rfl, ?_⟩
    · exact congrArg Bitmap.bits (same.cids.trans cids)
    · intro r
      simp only [ops, due_acquire, due_release]
      omega
  · have injected := same.injected.trans regular
    have goes : t.cmdFreeInner slot =
        { t with
          cids := Init.cidFree t.cids (t.cmds slot).cid
          nrCmds := t.nrCmds - 1
          cmds := Function.update t.cmds slot {}
          rqs := rq :: t.rqs
          ops := t.ops ++ [.release (.rq rq)] ++ [.release (.cid (t.cmds slot).cid)] } := by
      simp [State.cmdFreeInner, request, injected, State.rqRelease, State.setCmd, State.log,
        State.cidFree]
    rw [goes]
    refine ⟨?_, rqs, count, rfl, rfl, ?_⟩
    · have id := claimed.undo
      rw [← same.cids, ← same.cid] at id
      exact id
    · intro r
      simp only [ops, due_acquire, due_release, same.cid]
      omega

theorem Restored.refl (s : State M) : Restored s s :=
  ⟨rfl, rfl, rfl, rfl, rfl, fun _ => rfl⟩

/-- With an id claimed, the command is there if a request is; else the id goes back. -/
theorem cmdAllocRq_cases {b : Bitmap} {cid : Nat} (claimed : Claimed s.cids b cid)
    (vcqId : Nat) :
    s.rqs = [] ∧ (∃ s₁, ({ s with cids := b }.log (.acquire (.cid cid))).cmdAllocRq cid vcqId =
        (none, s₁) ∧ Restored s s₁) ∨
      s.rqs ≠ [] ∧ ∃ slot s₁ rq,
        ({ s with cids := b }.log (.acquire (.cid cid))).cmdAllocRq cid vcqId =
          (some slot, s₁) ∧ Held s s₁ slot rq := by
  cases rqs : s.rqs with
  | nil =>
      refine .inl ⟨rfl, { s with
        cids := Init.cidFree b cid
        ops := s.ops ++ [.acquire (.cid cid)] ++ [.release (.cid cid)] }, ?_, ?_⟩
      · simp [State.cmdAllocRq, State.log, rqs, State.cidFree]
      · refine ⟨claimed.undo, rfl, rfl, rfl, rfl, ?_⟩
        intro r
        simp only [due_acquire, due_release]
        omega
  | cons rq rest =>
      refine .inr ⟨by simp, .cmd cid, { s with
        cids := b
        rqs := rest
        nrCmds := s.nrCmds + 1
        cmds := Function.update s.cmds (.cmd cid)
          { refcnt := 1, state := .allocated, vcq := vcqId, cid := cid, rq := some rq }
        ops := s.ops ++ [.acquire (.cid cid)] ++ [.acquire (.rq rq)] }, rq, ?_, ?_⟩
      · simp [State.cmdAllocRq, State.log, State.setCmd]
      · refine ⟨?_, ?_, rfl, rfl, rfl, ?_, rqs, .inr ⟨?_, ?_, ?_⟩⟩
        · simp
        · simp
        · simp
        · simp
        · simpa using claimed
        · simp

/-- A pinned id that is in use: the conflict slot, if it and a request are free. -/
theorem conflictCmdAlloc_cases (s : State M) (cid vcqId : Nat) :
    ¬((s.cmds .conflict).state = .init ∧ s.rqs ≠ []) ∧
        s.conflictCmdAlloc cid vcqId = (none, s) ∨
      ((s.cmds .conflict).state = .init ∧ s.rqs ≠ []) ∧ ∃ s₁ rq,
        s.conflictCmdAlloc cid vcqId = (some .conflict, s₁) ∧ Held s s₁ .conflict rq := by
  by_cases idle : (s.cmds .conflict).state = .init
  · cases rqs : s.rqs with
    | nil =>
        left
        simp [State.conflictCmdAlloc, idle, rqs]
    | cons rq rest =>
        refine .inr ⟨⟨idle, by simp⟩, { s with
          rqs := rest
          nrCmds := s.nrCmds + 1
          cmds := Function.update s.cmds .conflict
            { refcnt := 1, state := .allocated, vcq := vcqId, cid := cid, rq := some rq,
              injected := .conflict }
          ops := s.ops ++ [.acquire (.rq rq)] }, rq, ?_, ?_⟩
        · simp [State.conflictCmdAlloc, State.log, idle, rqs, State.setCmd]
        · refine ⟨?_, ?_, rfl, rfl, rfl, ?_, rqs, .inl ⟨?_, rfl, rfl⟩⟩
          · simp
          · simp
          · simp
          · simp
  · left
    simp [State.conflictCmdAlloc, idle]

/-- The allocation gives a command exactly if one is available, and otherwise leaves the
state as it was. -/
theorem cmdAlloc_cases (wf : WellFormed s.cids) (cid : Option Nat) (vcqId : Nat) :
    ¬s.Available cid ∧ (∃ s₁, s.cmdAlloc cid vcqId = (none, s₁) ∧ Restored s s₁) ∨
      s.Available cid ∧ ∃ slot s₁ rq, s.cmdAlloc cid vcqId = (some slot, s₁) ∧
        Held s s₁ slot rq := by
  cases cid with
  | none =>
      cases found : Init.cidAlloc s.cids with
      | none =>
          refine .inl ⟨?_, s, by simp [State.cmdAlloc, found], .refl s⟩
          rintro ⟨_, c, inside, clear⟩
          rw [cidAlloc_none found inside] at clear
          cases clear
      | some claim =>
          obtain ⟨cid, b⟩ := claim
          have claimed := cidAlloc_some wf found
          have goes : s.cmdAlloc none vcqId =
              ({ s with cids := b }.log (.acquire (.cid cid))).cmdAllocRq cid vcqId := by
            simp [State.cmdAlloc, found]
          rw [goes]
          rcases cmdAllocRq_cases claimed vcqId with ⟨empty, failed⟩ | ⟨some, taken⟩
          · exact .inl ⟨fun available => available.1 empty, failed⟩
          · refine .inr ⟨⟨some, cid, ?_, claimed.free⟩, taken⟩
            have inside := claimed.inside
            rw [wf.bytes] at inside
            omega
  | some cid =>
      rcases cidAllocN_cases wf cid with ⟨range, errno⟩ | ⟨range, used, errno⟩ |
        ⟨range, free, b, ok, claimed⟩
      · refine .inl ⟨?_, s, by simp [State.cmdAlloc, errno], .refl s⟩
        rintro ⟨_, below, _⟩
        omega
      · have goes : s.cmdAlloc (some cid) vcqId = s.conflictCmdAlloc cid vcqId := by
          simp [State.cmdAlloc, errno]
        rw [goes]
        rcases conflictCmdAlloc_cases s cid vcqId with ⟨busy, failed⟩ | ⟨idle, s₁, rq, taken⟩
        · refine .inl ⟨?_, s, failed, .refl s⟩
          rintro ⟨some, _, clear | idle⟩
          · rw [used] at clear
            cases clear
          · exact busy ⟨idle, some⟩
        · exact .inr ⟨⟨idle.2, range, .inr idle.1⟩, .conflict, s₁, rq, taken⟩
      · have goes : s.cmdAlloc (some cid) vcqId =
            ({ s with cids := b }.log (.acquire (.cid cid))).cmdAllocRq cid vcqId := by
          simp [State.cmdAlloc, ok]
        rw [goes]
        rcases cmdAllocRq_cases claimed vcqId with ⟨empty, failed⟩ | ⟨some, taken⟩
        · exact .inl ⟨fun available => available.1 empty, failed⟩
        · exact .inr ⟨⟨some, range, .inl free⟩, taken⟩

end Commands

/-! ### The buffers -/

section Buffers

variable {M : Type} {mem : Memory M} {s : State M} {buf len : Nat}

/-- `unvmed_buf_free` has nothing to undo: `free(NULL)` does nothing. -/
def Inert (ubuf : Buf) : Prop := ubuf.iovaUnmap = false ∧ (ubuf.vaUnmap = true → ubuf.va = 0)

theorem bufFree_inert {ubuf : Buf} (inert : Inert ubuf) : s.bufFree mem ubuf = .ok s := by
  obtain ⟨mapped, pages⟩ := inert
  cases owned : ubuf.vaUnmap with
  | false => simp [State.bufFree, mapped, owned]
  | true => simp [State.bufFree, mapped, owned, State.pgunmap, pages owned]

/-- What the flags of a prepared buffer say that the driver has to undo: pages of its
own, or only a mapping. -/
structure OwnPages (s : State M) (pages : List Nat) (ubuf : Buf) : Prop where
  flag : ubuf.vaUnmap = true
  va : ubuf.va ≠ 0
  pages : pages = ubuf.va :: s.pages
  fresh : ubuf.va ∉ s.pages

structure OwnMapping (s : State M) (pages : List Nat) (ops : List Op) (ubuf : Buf) : Prop where
  noPages : ubuf.vaUnmap = false
  flag : ubuf.iovaUnmap = true
  pages : pages = s.pages
  due : ∀ r, due ops r = due s.ops r + if .mapping ubuf.va = r then 1 else 0

/-- `unvmed_buf_init` fails and leaves nothing to undo. -/
def BufFailed (mem : Memory M) (s : State M) (buf len : Nat) : Prop :=
  ∃ ops ubuf, s.bufInit mem buf len = .ok (false, { s with ops := ops }, ubuf) ∧ Inert ubuf ∧
    ∀ r, due ops r = due s.ops r

/-- It succeeds and leaves nothing to undo. -/
def BufGiven (mem : Memory M) (s : State M) (buf len : Nat) : Prop :=
  ∃ ubuf, s.bufInit mem buf len = .ok (true, s, ubuf) ∧ Inert ubuf

/-- It succeeds and leaves something to undo. -/
def BufOwned (mem : Memory M) (s : State M) (buf len : Nat) : Prop :=
  ∃ pages maps ops ubuf,
    s.bufInit mem buf len = .ok (true, { s with pages := pages, maps := maps, ops := ops }, ubuf) ∧
    pages = mem.pagesWith s.pages buf len ∧ maps = mem.mapsWith s.pages s.maps buf len ∧
    (OwnPages s pages ubuf ∨ OwnMapping s pages ops ubuf)

/-- The buffer needs pages. -/
theorem bufInit_pages (spec : mem.Spec) (some_ : u32 len ≠ 0) :
    mem.Fails s.pages s.maps 0 len ∧ BufFailed mem s 0 len ∨
      ¬mem.Fails s.pages s.maps 0 len ∧ BufOwned mem s 0 len := by
  cases got : mem.pgmap s.pages (u32 len) with
  | none =>
      left
      refine ⟨⟨some_, by simp [Memory.target, got]⟩, s.ops, {}, ?_, by simp [Inert], fun _ => rfl⟩
      simp [State.bufInit, some_, got]
  | some new =>
      obtain ⟨va, n⟩ := new
      obtain ⟨va_ne, fresh⟩ := spec.fresh _ _ _ _ got
      by_cases needs : u32 n ≠ 0 ∧ mem.translates s.maps va = false
      · obtain ⟨long, unmapped⟩ := needs
        cases mapped : mem.map s.maps va (u32 n) with
        | none =>
            left
            refine ⟨⟨some_, by simp [Memory.target, got, long, unmapped, mapped]⟩,
              s.ops ++ [.acquire (.page va)] ++ [.release (.page va)], { vaUnmap := true }, ?_,
              by simp [Inert], ?_⟩
            · simp [State.bufInit, some_, got, State.bufMap, va_ne, long, unmapped, mapped,
                State.log, State.pgunmap, bind, Except.bind, pure, Except.pure]
            · intro r
              simp only [due_acquire, due_release]
              omega
        | some maps =>
            right
            refine ⟨?_, va :: s.pages, maps,
              s.ops ++ [.acquire (.page va)] ++ [.acquire (.mapping va)],
              { vaUnmap := true, iovaUnmap := true, va := va, len := u32 n }, ?_, ?_, ?_, .inl ?_⟩
            · simp [Memory.Fails, Memory.target, got, mapped]
            · simp [State.bufInit, some_, got, State.bufMap, va_ne, long, unmapped, mapped,
                State.log]
            · simp [Memory.pagesWith, Memory.target, some_, got]
            · simp [Memory.mapsWith, Memory.target, got, va_ne, long, unmapped, mapped]
            · exact ⟨rfl, va_ne, rfl, fresh⟩
      · right
        have skips : ¬(va ≠ 0 ∧ u32 n ≠ 0 ∧ mem.translates s.maps va = false) :=
          fun all => needs all.2
        refine ⟨?_, va :: s.pages, s.maps, s.ops ++ [.acquire (.page va)],
          { vaUnmap := true, va := va, len := u32 n }, ?_, ?_, ?_, .inl ?_⟩
        · rintro ⟨_, failed⟩
          simp only [Memory.target, got, if_true, Option.map_some] at failed
          exact needs ⟨failed.1, failed.2.1⟩
        · simp only [State.bufInit, some_, got, State.bufMap, State.log, skips, ne_eq,
            not_false_eq_true, and_self, if_true, if_false]
        · simp [Memory.pagesWith, Memory.target, some_, got]
        · have skips' : ¬(u32 n ≠ 0 ∧ va ≠ 0 ∧ mem.translates s.maps va = false) :=
            fun all => needs ⟨all.1, all.2.2⟩
          simp only [Memory.mapsWith, Memory.target, got, if_true, Option.map_some, skips',
            if_false]
        · exact ⟨rfl, va_ne, rfl, fresh⟩

/-- The caller gives the buffer. -/
theorem bufInit_given (buf_ne : buf ≠ 0) (some_ : u32 len ≠ 0)
    (unmapped : mem.translates s.maps buf = false) :
    mem.Fails s.pages s.maps buf len ∧ BufFailed mem s buf len ∨
      ¬mem.Fails s.pages s.maps buf len ∧ BufOwned mem s buf len := by
  cases mapped : mem.map s.maps buf (u32 len) with
  | none =>
      left
      refine ⟨⟨some_, by simp [Memory.target, buf_ne, some_, unmapped, mapped]⟩, s.ops, {}, ?_,
        by simp [Inert], fun _ => rfl⟩
      simp [State.bufInit, State.bufMap, buf_ne, some_, unmapped, mapped]
  | some maps =>
      right
      refine ⟨?_, s.pages, maps, s.ops ++ [.acquire (.mapping buf)],
        { iovaUnmap := true, va := buf, len := u32 len }, ?_, ?_, ?_, .inr ?_⟩
      · simp [Memory.Fails, Memory.target, buf_ne, mapped]
      · simp [State.bufInit, State.bufMap, buf_ne, some_, unmapped, mapped, State.log]
      · simp [Memory.pagesWith, buf_ne]
      · simp [Memory.mapsWith, Memory.target, buf_ne, some_, unmapped, mapped]
      · exact ⟨rfl, rfl, rfl, fun r => due_acquire _ _ _⟩

/-- The three ends of `unvmed_buf_init`. -/
theorem bufInit_cases (spec : mem.Spec) (s : State M) (buf len : Nat) :
    mem.Fails s.pages s.maps buf len ∧ BufFailed mem s buf len ∨
      ¬mem.Fails s.pages s.maps buf len ∧
        (¬mem.Owns s.maps buf len ∧ BufGiven mem s buf len ∨
          mem.Owns s.maps buf len ∧ BufOwned mem s buf len) := by
  by_cases some_ : u32 len = 0
  · refine .inr ⟨fun failed => failed.1 some_, .inl ⟨fun owns => owns.1 some_, ?_⟩⟩
    refine ⟨{ va := buf, len := 0 }, ?_, by simp [Inert]⟩
    simp [State.bufInit, State.bufMap, some_]
  · by_cases null : buf = 0
    · subst null
      rcases bufInit_pages (s := s) spec some_ with failed | ⟨fine, owned⟩
      · exact .inl failed
      · exact .inr ⟨fine, .inr ⟨⟨some_, .inl rfl⟩, owned⟩⟩
    · cases translates : mem.translates s.maps buf with
      | false =>
          rcases bufInit_given null some_ translates with failed | ⟨fine, owned⟩
          · exact .inl failed
          · exact .inr ⟨fine, .inr ⟨⟨some_, .inr translates⟩, owned⟩⟩
      | true =>
          refine .inr ⟨?_, .inl ⟨?_, { va := buf, len := u32 len }, ?_, by simp [Inert]⟩⟩
          · rintro ⟨_, failed⟩
            simp [Memory.target, null, translates] at failed
          · rintro ⟨_, zero | unmapped⟩
            · exact null zero
            · rw [translates] at unmapped
              cases unmapped
          · simp [State.bufInit, State.bufMap, null, translates]

end Buffers

/-! ### The initialisation -/

section Initialisation

variable {M : Type} {mem : Memory M} {s s₁ t : State M} {slot : Slot} {rq : Nat}

/-- `atomic_dec_fetch(&cmd->refcnt)` of the last reference. -/
def State.unreferenced (s : State M) (slot : Slot) : State M :=
  s.setCmd slot { s.cmds slot with refcnt := 0 }

theorem cmdPut_ok {t₁ t₂ : State M} (refcnt : (t.cmds slot).refcnt = 1)
    (buf : (t.unreferenced slot).bufFree mem (t.cmds slot).buf = .ok t₁)
    (mbuf : t₁.bufFree mem (t.cmds slot).mbuf = .ok t₂) :
    t.cmdPut mem slot = .ok (t₂.cmdFreeInner slot) := by
  unfold State.unreferenced State.setCmd at buf
  simp [State.cmdPut, refcnt, State.cmdFree, State.setCmd, buf, mbuf, bind, Except.bind, pure,
    Except.pure]

theorem cmdPut_fault {fault : Fault} (refcnt : (t.cmds slot).refcnt = 1)
    (buf : (t.unreferenced slot).bufFree mem (t.cmds slot).buf = .error fault) :
    t.cmdPut mem slot = .error fault := by
  unfold State.unreferenced State.setCmd at buf
  simp [State.cmdPut, refcnt, State.cmdFree, State.setCmd, buf, bind, Except.bind]

theorem SameCommand.unreferenced (same : SameCommand s₁ t slot) :
    SameCommand s₁ (t.unreferenced slot) slot where
  cids := same.cids
  rqs := same.rqs
  nrCmds := same.nrCmds
  cid := by simpa [State.unreferenced, State.setCmd] using same.cid
  rq := by simpa [State.unreferenced, State.setCmd] using same.rq
  injected := by simpa [State.unreferenced, State.setCmd] using same.injected

/-- What `__unvmed_cmd_init` changes of the state before it gives the command back. -/
structure Prepared (s₁ t : State M) (slot : Slot) : Prop where
  same : SameCommand s₁ t slot
  refcnt : (t.cmds slot).refcnt = (s₁.cmds slot).refcnt
  pages : t.pages = s₁.pages
  maps : t.maps = s₁.maps
  due : ∀ r, due t.ops r = due s₁.ops r

variable (mem) in
/-- With nothing to undo for its buffers the put restores the state before the call. -/
theorem Held.put (h : Held s s₁ slot rq) (ready : Prepared s₁ t slot)
    (buf : Inert (t.cmds slot).buf) (mbuf : Inert (t.cmds slot).mbuf) :
    ∃ s', t.cmdPut mem slot = .ok s' ∧ Restored s s' := by
  have back := h.undo ready.same.unreferenced
  refine ⟨_, cmdPut_ok (ready.refcnt.trans h.refcnt) (bufFree_inert buf) (bufFree_inert mbuf),
    back.bits, back.rqs, back.nrCmds, ?_, ?_, ?_⟩
  · rw [back.pages, ← h.pages, ← ready.pages]
    rfl
  · rw [back.maps, ← h.maps, ← ready.maps]
    rfl
  · intro r
    have now := ready.due r
    have step := back.due r
    have unchanged : due (t.unreferenced slot).ops r = due t.ops r := rfl
    omega

theorem cmdInit_data_failed {a : Args} (alloc : s.cmdAlloc a.cid a.vcqId = (some slot, s₁))
    (h : Held s s₁ slot rq) (data : BufFailed mem s₁ a.buf a.len) : CleanFailure mem s a := by
  obtain ⟨ops, ubuf, failed, inert, due⟩ := data
  have ready : Prepared s₁ (State.setCmd { s₁ with ops := ops } slot
      { s₁.cmds slot with buf := ubuf }) slot := by
    refine ⟨⟨rfl, rfl, rfl, ?_, ?_, ?_⟩, ?_, rfl, rfl, due⟩ <;> simp [State.setCmd]
  obtain ⟨s', put, restored⟩ := h.put mem ready (by simpa [State.setCmd] using inert)
    (by simp [State.setCmd, h.mbuf, Inert])
  refine ⟨none, s', ?_, fun _ => restored⟩
  simp [State.cmdInit, alloc, failed, put, bind, Except.bind, pure, Except.pure]

/-- The command with its data buffer in place. -/
def State.withBuf (s : State M) (slot : Slot) (ubuf : Buf) : State M :=
  s.setCmd slot { s.cmds slot with buf := ubuf }

/-- The command with both buffers in place. -/
def State.withMbuf (s : State M) (slot : Slot) (ubuf : Buf) : State M :=
  s.setCmd slot { s.cmds slot with mbuf := ubuf }

theorem cmdInit_of_meta_failed {a : Args} {s₂ s₃ : State M} {ubuf umbuf : Buf}
    (alloc : s.cmdAlloc a.cid a.vcqId = (some slot, s₁))
    (data : s₁.bufInit mem a.buf a.len = .ok (true, s₂, ubuf))
    (meta_ : (s₂.withBuf slot ubuf).bufInit mem a.mbuf a.mlen = .ok (false, s₃, umbuf)) :
    s.cmdInit mem a =
      ((s₃.withMbuf slot umbuf).bufFree mem ((s₃.withMbuf slot umbuf).cmds slot).buf >>= fun s =>
        s.cmdPut mem slot >>= fun s => pure (none, s)) := by
  unfold State.withBuf at meta_
  simp only [State.cmdInit, alloc, data, bind, Except.bind, Bool.true_eq_false, if_false, meta_,
    if_true]
  rfl

theorem cmdInit_of_both {a : Args} {s₂ s₃ : State M} {ubuf umbuf : Buf}
    (alloc : s.cmdAlloc a.cid a.vcqId = (some slot, s₁))
    (data : s₁.bufInit mem a.buf a.len = .ok (true, s₂, ubuf))
    (meta_ : (s₂.withBuf slot ubuf).bufInit mem a.mbuf a.mlen = .ok (true, s₃, umbuf)) :
    CleanFailure mem s a := by
  unfold State.withBuf at meta_
  refine ⟨some slot, s₃.withMbuf slot umbuf, ?_, fun none => by cases none⟩
  simp only [State.cmdInit, alloc, data, bind, Except.bind, Bool.true_eq_false, if_false, meta_]
  rfl

/-- Behind a data buffer with nothing to undo a failure is clean. -/
theorem cmdInit_meta_failed_given {a : Args}
    (alloc : s.cmdAlloc a.cid a.vcqId = (some slot, s₁)) (h : Held s s₁ slot rq) {ubuf : Buf}
    (data : s₁.bufInit mem a.buf a.len = .ok (true, s₁, ubuf)) (inert : Inert ubuf)
    (failed : BufFailed mem (s₁.withBuf slot ubuf) a.mbuf a.mlen) : CleanFailure mem s a := by
  obtain ⟨ops, umbuf, meta_, minert, due⟩ := failed
  have goes := cmdInit_of_meta_failed alloc data meta_
  set t := (State.withMbuf { s₁.withBuf slot ubuf with ops := ops } slot umbuf) with t_eq
  have ready : Prepared s₁ t slot := by
    refine ⟨⟨rfl, rfl, rfl, ?_, ?_, ?_⟩, ?_, rfl, rfl, due⟩ <;>
      simp [t_eq, State.withMbuf, State.withBuf, State.setCmd]
  have buf : Inert (t.cmds slot).buf := by
    simpa [t_eq, State.withMbuf, State.withBuf, State.setCmd] using inert
  have mbuf : Inert (t.cmds slot).mbuf := by
    simpa [t_eq, State.withMbuf, State.setCmd] using minert
  obtain ⟨s', put, restored⟩ := h.put mem ready buf mbuf
  refine ⟨none, s', ?_, fun _ => restored⟩
  rw [goes, bufFree_inert buf]
  simp [put, bind, Except.bind, pure, Except.pure]

variable (mem) in
/-- The first free of a buffer with pages of its own. -/
theorem bufFree_ownPages {pages : List Nat} {ubuf : Buf} (own : OwnPages s pages ubuf)
    (same : t.pages = pages) :
    ∃ t', t.bufFree mem ubuf = .ok t' ∧ t'.pages = s.pages ∧ t'.cmds = t.cmds := by
  have mem_ : ubuf.va ∈ t.pages := by
    rw [same, own.pages]
    exact List.mem_cons_self
  have rest : t.pages.erase ubuf.va = s.pages := by
    rw [same, own.pages, List.erase_cons_head]
  cases mapped : ubuf.iovaUnmap with
  | false =>
      refine ⟨{ t with pages := t.pages.erase ubuf.va }.log (.release (.page ubuf.va)), ?_, rest, rfl⟩
      simp [State.bufFree, mapped, own.flag, State.pgunmap, own.va, mem_]
  | true =>
      refine ⟨{ t.unmapVaddr mem ubuf.va with pages := t.pages.erase ubuf.va }.log
        (.release (.page ubuf.va)), ?_, rest, rfl⟩
      simp [State.bufFree, mapped, own.flag, State.pgunmap, own.va, mem_, State.unmapVaddr,
        State.log]

/-- The second free of them. -/
theorem bufFree_again {ubuf : Buf} (flag : ubuf.vaUnmap = true) (va : ubuf.va ≠ 0)
    (gone : ubuf.va ∉ t.pages) : t.bufFree mem ubuf = .error (.doubleFree ubuf.va) := by
  cases mapped : ubuf.iovaUnmap with
  | false => simp [State.bufFree, mapped, flag, State.pgunmap, va, gone]
  | true => simp [State.bufFree, mapped, flag, State.pgunmap, va, gone, State.unmapVaddr, State.log]

/-- Pages that `__unvmed_cmd_init` freed are freed again by the put. -/
theorem freed_twice {pages : List Nat} {ubuf : Buf} (own : OwnPages s pages ubuf)
    (same : t.pages = pages) (buf : (t.cmds slot).buf = ubuf)
    (refcnt : (t.cmds slot).refcnt = 1) :
    (t.bufFree mem ubuf >>= fun s => s.cmdPut mem slot >>= fun s =>
      pure ((none : Option Slot), s)) = .error (.doubleFree ubuf.va) := by
  obtain ⟨t₁, freed, left, cmds⟩ := bufFree_ownPages mem (t := t) own same
  have gone : ubuf.va ∉ (t₁.unreferenced slot).pages := by
    show ubuf.va ∉ t₁.pages
    rw [left]
    exact own.fresh
  have again : t₁.cmdPut mem slot = .error (.doubleFree ubuf.va) := by
    apply cmdPut_fault
    · rw [cmds]
      exact refcnt
    · rw [cmds, buf]
      exact bufFree_again own.flag own.va gone
  simp [freed, again, bind, Except.bind]

variable (mem) in
/-- A mapping that `__unvmed_cmd_init` undid is undone again by the put. -/
theorem unmapped_twice {pages : List Nat} {ops : List Op} {ubuf : Buf}
    (h : Held s s₁ slot rq) (own : OwnMapping s₁ pages ops ubuf) (same : SameCommand s₁ t slot)
    (buf : (t.cmds slot).buf = ubuf) (mbuf : Inert (t.cmds slot).mbuf)
    (refcnt : (t.cmds slot).refcnt = 1) (held : ∀ r, due t.ops r = due ops r) :
    ∃ s', (t.bufFree mem ubuf >>= fun s => s.cmdPut mem slot >>= fun s =>
        pure ((none : Option Slot), s)) = .ok (none, s') ∧ ¬Restored s s' := by
  have undo : ∀ u : State M, u.bufFree mem ubuf = .ok (u.unmapVaddr mem ubuf.va) := by
    intro u
    simp [State.bufFree, own.flag, own.noPages]
  set t₁ := t.unmapVaddr mem ubuf.va with t₁_eq
  set t₂ := (t₁.unreferenced slot).unmapVaddr mem ubuf.va with t₂_eq
  have put : t₁.cmdPut mem slot = .ok (t₂.cmdFreeInner slot) := by
    have still : (t₁.cmds slot).buf = ubuf := buf
    have first : (t₁.unreferenced slot).bufFree mem (t₁.cmds slot).buf = .ok t₂ := by
      rw [still]
      exact undo _
    exact cmdPut_ok refcnt first (bufFree_inert mbuf)
  refine ⟨t₂.cmdFreeInner slot, ?_, ?_⟩
  · simp [undo t, ← t₁_eq, put, bind, Except.bind, pure, Except.pure]
  · intro restored
    have same₁ : SameCommand s₁ t₁ slot := ⟨same.1, same.2, same.3, same.4, same.5, same.6⟩
    have same₂ := same₁.unreferenced
    have same₃ : SameCommand s₁ t₂ slot := ⟨same₂.1, same₂.2, same₂.3, same₂.4, same₂.5, same₂.6⟩
    have back := (h.undo same₃).due (.mapping ubuf.va)
    have twice : due t₂.ops (.mapping ubuf.va) = due t.ops (.mapping ubuf.va) - 1 - 1 := by
      have unlogged : t₂.ops =
        t.ops ++ [.release (.mapping ubuf.va)] ++ [.release (.mapping ubuf.va)] := rfl
      rw [unlogged, due_release, due_release, if_pos rfl]
    have once := own.due (.mapping ubuf.va)
    have between := held (.mapping ubuf.va)
    have still := restored.due (.mapping ubuf.va)
    rw [if_pos rfl] at once
    omega

/-- Behind a data buffer with something to undo it is undone twice. -/
theorem cmdInit_meta_failed_owned {a : Args}
    (alloc : s.cmdAlloc a.cid a.vcqId = (some slot, s₁)) (h : Held s s₁ slot rq)
    {pages : List Nat} {maps : M} {ops : List Op} {ubuf : Buf}
    (data : s₁.bufInit mem a.buf a.len =
      .ok (true, { s₁ with pages := pages, maps := maps, ops := ops }, ubuf))
    (owned : OwnPages s₁ pages ubuf ∨ OwnMapping s₁ pages ops ubuf)
    (failed : BufFailed mem
      (State.withBuf { s₁ with pages := pages, maps := maps, ops := ops } slot ubuf)
      a.mbuf a.mlen) : ¬CleanFailure mem s a := by
  obtain ⟨ops', umbuf, meta_, inert, due'⟩ := failed
  have goes := cmdInit_of_meta_failed alloc data meta_
  rintro ⟨cmd, s', done, restored⟩
  rw [goes] at done
  set t := State.withMbuf
    { State.withBuf { s₁ with pages := pages, maps := maps, ops := ops } slot ubuf with
      ops := ops' } slot umbuf with t_eq
  have buf : (t.cmds slot).buf = ubuf := by
    simp [t_eq, State.withMbuf, State.withBuf, State.setCmd]
  have refcnt : (t.cmds slot).refcnt = 1 := by
    simp [t_eq, State.withMbuf, State.withBuf, State.setCmd, h.refcnt]
  rw [buf] at done
  rcases owned with own | own
  · rw [freed_twice own rfl buf refcnt] at done
    cases done
  · have mbuf : Inert (t.cmds slot).mbuf := by
      simpa [t_eq, State.withMbuf, State.setCmd] using inert
    have same : SameCommand s₁ t slot := by
      refine ⟨rfl, rfl, rfl, ?_, ?_, ?_⟩ <;>
        simp [t_eq, State.withMbuf, State.withBuf, State.setCmd]
    obtain ⟨s₂, undone, dirty⟩ := unmapped_twice mem h own same buf mbuf refcnt due'
    rw [undone] at done
    cases done
    exact dirty (restored rfl)

end Initialisation

/-- **Clean failure.** A failed initialisation leaves the ids, the requests, `nr_cmds`, the
pages and the mappings as they were and gives back once what it took, if and only if it
is not the metadata buffer that fails behind a data buffer that the call allocated or
mapped. -/
theorem init_failure_clean_iff {M : Type} (mem : Memory M) (spec : mem.Spec) (s : State M)
    (wf : WellFormed s.cids) (a : Args) : CleanFailure mem s a ↔ ¬FailsBehindData mem s a := by
  rcases cmdAlloc_cases wf a.cid a.vcqId with
    ⟨unavailable, s₁, alloc, restored⟩ | ⟨available, slot, s₁, rq, alloc, held⟩
  · refine iff_of_true ⟨none, s₁, ?_, fun _ => restored⟩ fun behind => unavailable behind.1
    simp [State.cmdInit, alloc]
  have pages := held.pages
  have maps := held.maps
  rcases bufInit_cases spec s₁ a.buf a.len with ⟨fails, data⟩ | ⟨fine, ⟨given, data⟩ | ⟨owns, data⟩⟩
  · refine iff_of_true (cmdInit_data_failed alloc held data) ?_
    rintro ⟨_, fine, _⟩
    rw [pages, maps] at fails
    exact fine fails
  · refine iff_of_true ?_ ?_
    · obtain ⟨ubuf, data, inert⟩ := data
      rcases bufInit_cases spec (s₁.withBuf slot ubuf) a.mbuf a.mlen with
        ⟨_, failed⟩ | ⟨_, ⟨_, umbuf, meta_, _⟩ | ⟨_, _, _, _, umbuf, meta_, _⟩⟩
      · exact cmdInit_meta_failed_given alloc held data inert failed
      · exact cmdInit_of_both alloc data meta_
      · exact cmdInit_of_both alloc data meta_
    · rintro ⟨_, _, owns, _⟩
      rw [maps] at given
      exact given owns
  · obtain ⟨pages', maps', ops, ubuf, data, pages_eq, maps_eq, owned⟩ := data
    rw [pages, maps] at fine
    rw [maps] at owns
    rw [pages] at pages_eq
    rw [pages, maps] at maps_eq
    rcases bufInit_cases spec
        (State.withBuf { s₁ with pages := pages', maps := maps', ops := ops } slot ubuf)
        a.mbuf a.mlen with
      ⟨fails, failed⟩ | ⟨works, ⟨_, umbuf, meta_, _⟩ | ⟨_, _, _, _, umbuf, meta_, _⟩⟩
    · refine iff_of_false (cmdInit_meta_failed_owned alloc held data owned failed) ?_
      rw [not_not]
      refine ⟨available, fine, owns, ?_⟩
      rw [← pages_eq, ← maps_eq]
      exact fails
    · refine iff_of_true (cmdInit_of_both alloc data meta_) ?_
      rintro ⟨_, _, _, fails⟩
      rw [← pages_eq, ← maps_eq] at fails
      exact works fails
    · refine iff_of_true (cmdInit_of_both alloc data meta_) ?_
      rintro ⟨_, _, _, fails⟩
      rw [← pages_eq, ← maps_eq] at fails
      exact works fails

/-- A queue whose IOMMU has no room. -/
def fullIommu : State (List Nat) := { idleQueue with maps := [7] }

/-- Without a data buffer the metadata buffer may fail. -/
theorem init_failure_clean_metadata :
    ((fullIommu.cmdInit oneMapping ⟨some 3, 0, 0, 0, 8, 0⟩).map fun r => r.1) = .ok none ∧
      (CleanFailure oneMapping fullIommu ⟨some 3, 0, 0, 0, 8, 0⟩ ↔
        ¬FailsBehindData oneMapping fullIommu ⟨some 3, 0, 0, 0, 8, 0⟩) :=
  ⟨rfl, init_failure_clean_iff oneMapping oneMapping_spec fullIommu idleQueue_wellFormed _⟩

end Unvmed.Init
