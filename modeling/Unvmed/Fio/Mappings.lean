import Unvmed.Fio.Mems
import Unvmed.Lib.Layout
import Unvmed.Lib.Run

/-!
The life of the DMA mappings of a fio job (`src/app/fio/libunvmed-engine.c`).

`libunvmed_init_data` maps the metadata and trim buffers, `fio_libunvmed_open_file` the others, and
only it and the remap callback record the epoch of the controller in `ld->epoch`. Each call that
unmaps looks at `ld->epoch` to find out whether its buffers are mapped in this instance of the
controller.

* `lifecycle_of_guarded`: what a run does not do if each call meets its condition.
* `trim_released_while_mapped`: a job that only trims never opens its file.
-/

namespace Unvmed.Mappings

open Lib Mems

variable {A : Type*} [DecidableEq A]

/-! ### A job -/

/-- The options of a job. -/
structure Config where
  /-- `unvmed_pagesize` -/
  pagesize : ℕ
  pagesize_pos : 0 < pagesize
  /-- Metadata that is not in the blocks, with `o->md_per_io_size`. -/
  separateMeta : Bool
  /-- `TD_DDIR_TRIM` or `TD_DDIR_RANDTRIM` -/
  trims : Bool
  cmbData : Bool
  cmbList : Bool
  prp1Offset : Bool

/-- Where fio is with the job. -/
inductive Stage where
  /-- `td->io_ops_data` is `NULL`. -/
  | idle
  | live
  /-- There was an error, and the job goes no further. -/
  | stopped
  /-- After `iomem_free`. -/
  | freed
  | cleaned
  deriving DecidableEq, Repr

structure State (A : Type*) where
  /-- `u->epoch` -/
  epoch : BitVec 32
  /-- The mappings in this epoch. -/
  dma : Dma A
  stage : Stage
  job : Job A
  /-- `ld->epoch` -/
  ldEpoch : BitVec 32
  /-- `unvmed_add_thread`, as long as the file is open. -/
  registered : Bool
  sqRefs : ℕ
  cqRefs : ℕ
  /-- The virtual CQs in use. -/
  vcqs : ℕ

/-- A job before its first call. -/
def start (cfg : Config) (epoch : BitVec 32) (sqRefs cqRefs vcqs : ℕ) : State A :=
  { epoch, dma := ⟨∅, []⟩, stage := .idle, job := ⟨fun _ => none, 0, cfg.cmbData⟩, ldEpoch := 0
    registered := false, sqRefs, cqRefs, vcqs }

/-- `unvmed_pgunmap` -/
def release (t : Job A) (b : Buffer) (d : Dma A) : Dma A :=
  match t.ptr b with
  | none => d
  | some a => if a ∈ d.maps then { d with faults := d.faults ++ [.release b] } else d

/-- The address of a buffer. -/
def give (t : Job A) (b : Buffer) (a : Option A) : Job A :=
  { t with ptr := Function.update t.ptr b a }

/-! ### The calls -/

/-- What the calls of `libunvmed_init_data` return. -/
structure InitCalls (A : Type*) where
  /-- An error before the buffers. -/
  early : Bool := false
  metadata : Option A := none
  trim : Option A := none
  fails : Buffer → Bool := fun _ => false

def einval : ℤ := -22

def enomem : ℤ := -12

/-- `libunvmed_init_data`; after an error `ld` is not stored. -/
def initData (cfg : Config) (c : InitCalls A) (s : State A) : ℤ × State A :=
  if c.early then (einval, s)
  else
    let t := if cfg.separateMeta then give s.job .metadata c.metadata else s.job
    match s.dma.mapIf t c.fails cfg.separateMeta .metadata with
    -- without pages for the metadata too: their size is unsigned and never found to be negative
    | none => (einval, { s with dma := release t .metadata s.dma })
    | some d =>
        if cfg.trims && c.trim.isNone then (enomem, { s with dma := d })
        else
          let t := if cfg.trims then give t .trim c.trim else t
          match d.mapIf t c.fails cfg.trims .trim with
          | none => (einval, { s with dma := release t .trim d })
          | some d => (0, { s with dma := d, job := t, stage := .live })

/-- What the calls of `fio_libunvmed_iomem_alloc` return. -/
structure AllocCalls (A : Type*) where
  /-- `total_mem` -/
  total : ℕ
  /-- `ptr`, which is set also if the allocation fails. -/
  orig : A
  origFails : Bool := false
  prp : Option A := none
  prpList : Option A := none

/-- What `unvmed_pgmap` returns, as a `size_t`. -/
def pgmapSize (cfg : Config) (fails : Bool) (len : ℕ) : ℕ :=
  if fails then 2 ^ 64 - 1 else roundUp cfg.pagesize len

/-- `fio_libunvmed_iomem_alloc` -/
def iomemAlloc (cfg : Config) (c : AllocCalls A) (s : State A) : ℤ × State A :=
  let size := if cfg.cmbData then c.total else pgmapSize cfg c.origFails c.total
  if cfg.cmbData && c.origFails || size < c.total then (1, { s with stage := .stopped })
  else
    let t := { give s.job .orig (some c.orig) with origBufferSize := size }
    let t := if cfg.prp1Offset then give t .prp c.prp else t
    match c.prpList with
    | none =>
        let d := if cfg.cmbList then s.dma else release t .orig (release t .prp s.dma)
        (1, { s with job := t, dma := d, stage := .stopped })
    | some a => (0, { s with job := give t .prpList (some a) })

/-- What `fio_libunvmed_open_file` finds. -/
structure Opening where
  sq : Bool := true
  cq : Bool := true
  /-- `td->o.iodepth >= unvmed_sq_size(ld->usq)` -/
  deep : Bool := false
  fails : Buffer → Bool := fun _ => false
  /-- `libunvmed_parse_prchk` -/
  badPrchk : Bool := false
  /-- `verify=` with protection information in the blocks. -/
  verifyPi : Bool := false
  /-- A write mode for a job without writes. -/
  noWrite : Bool := false
  /-- `unvmed_vcq_init` -/
  vcqFails : Bool := false

def State.getSq (s : State A) : State A := { s with sqRefs := s.sqRefs + 1 }

def State.putSq (s : State A) : State A := { s with sqRefs := s.sqRefs - 1 }

def State.getCq (s : State A) : State A := { s with cqRefs := s.cqRefs + 1 }

def State.putCq (s : State A) : State A := { s with cqRefs := s.cqRefs - 1 }

/-- `fio_libunvmed_open_file` -/
def openFile (o : Opening) (s : State A) : ℤ × State A :=
  if !o.sq then (-1, s)
  else
    let s := s.getSq
    if !o.cq then (-1, s.putSq)
    else
      let s := s.getCq
      if o.deep then (-1, s.putCq.putSq)
      else
        let r := mapMems s.job o.fails s.dma
        let s := { s with dma := r.2 }
        if r.1 ≠ 0 then (r.1, s.putCq.putSq)
        else if o.badPrchk then (-1, s.putCq.putSq)
        else if o.verifyPi then (-1, s.putCq.putSq)
        else if o.noWrite then (-1, s.putCq.putSq)
        else if o.vcqFails then (-1, s.putCq.putSq)
        else (0, { s with vcqs := s.vcqs + 1, ldEpoch := s.epoch, registered := true })

/-- The controller is created again (`__unvmed_reinit_ctrl`), with the mappings that fail in the
callback of the job, if the callback is called. -/
def recreate (callback : Option (Buffer → Bool)) (s : State A) : State A :=
  let s := { s with epoch := s.epoch + 1, dma := { s.dma with maps := ∅ } }
  match callback with
  | none => s
  | some fails =>
      if s.registered then
        let r := remapMemsCb s.job fails s.epoch s.ldEpoch s.dma
        { s with dma := r.2.1, ldEpoch := r.2.2 }
      else s

/-- `fio_libunvmed_close_file` -/
def closeFile (s : State A) : State A :=
  let t := s.job
  let s := { s with registered := false }
  let d :=
    if s.ldEpoch ≠ s.epoch then s.dma
    else
      ((s.dma.unmapIf t (t.ptr .prpList).isSome .prpList).unmapIf t (t.ptr .prp).isSome
        .prp).unmapIf t ((t.ptr .orig).isSome && !t.cmbData) .orig
  { ({ s with dma := d }).putCq.putSq with vcqs := s.vcqs - 1 }

/-- `fio_libunvmed_iomem_free` -/
def iomemFree (s : State A) : State A :=
  let d := release s.job .prp (release s.job .prpList s.dma)
  { s with dma := if s.job.cmbData then d else release s.job .orig d, stage := .freed }

/-- `fio_libunvmed_cleanup` -/
def cleanup (cfg : Config) (s : State A) : State A :=
  let matches_ : Bool := s.ldEpoch = s.epoch
  let d := if cfg.trims then release s.job .trim (s.dma.unmapIf s.job matches_ .trim) else s.dma
  let there := (s.job.ptr .metadata).isSome
  let d := if there then release s.job .metadata (d.unmapIf s.job matches_ .metadata) else d
  { s with dma := d, stage := .cleaned }

/-! ### Runs -/

inductive Action (A : Type*) where
  | initData (c : InitCalls A)
  | iomemAlloc (c : AllocCalls A)
  | openFile (o : Opening)
  | recreate (callback : Option (Buffer → Bool))
  | closeFile
  | iomemFree
  | cleanup

/-- An allocated address is in use for nothing else. -/
def New (s : State A) (a : Option A) : Prop :=
  ∀ x, a = some x → x ∉ s.dma.maps ∧ ∀ b, s.job.ptr b ≠ some x

instance (s : State A) (a : Option A) : Decidable (New s a) :=
  match a with
  | none => .isTrue fun _ h => by cases h
  | some x =>
      decidable_of_iff (x ∉ s.dma.maps ∧ s.job.ptr .orig ≠ some x ∧ s.job.ptr .prp ≠ some x ∧
          s.job.ptr .prpList ≠ some x ∧ s.job.ptr .metadata ≠ some x ∧
          s.job.ptr .trim ≠ some x) <| by
        constructor
        · rintro ⟨unmapped, orig, prp, prpList, metadata, trim⟩ _ ⟨⟩
          exact ⟨unmapped, fun b => by cases b <;> assumption⟩
        · intro h
          obtain ⟨unmapped, other⟩ := h x rfl
          exact ⟨unmapped, other _, other _, other _, other _, other _⟩

/-- Two allocations are apart. -/
def Apart (a b : Option A) : Prop := a = none ∨ a ≠ b

instance (a b : Option A) : Decidable (Apart a b) := inferInstanceAs (Decidable (_ ∨ _))

/-- The calls in the order of fio: a file is opened and closed any number of times before the memory
is freed, and the job is cleaned up last. The controller can be created again at any time. -/
def step (cfg : Config) (s : State A) : Action A → Option (State A)
  | .initData c =>
      if s.stage = .idle ∧ New s c.metadata ∧ New s c.trim ∧ Apart c.metadata c.trim then
        some (initData cfg c s).2
      else none
  | .iomemAlloc c =>
      if s.stage = .live ∧ s.registered = false ∧ s.job.ptr .orig = none ∧
          (c.origFails = false → New s (some c.orig) ∧ Apart (some c.orig) c.prp ∧
            Apart (some c.orig) c.prpList) ∧
          New s c.prp ∧ New s c.prpList ∧ Apart c.prp c.prpList then
        some (iomemAlloc cfg c s).2
      else none
  | .openFile o => if s.stage = .live ∧ s.registered = false then some (openFile o s).2 else none
  | .recreate callback => some (recreate callback s)
  | .closeFile => if s.registered then some (closeFile s) else none
  | .iomemFree =>
      if (s.stage = .live ∨ s.stage = .stopped) ∧ s.registered = false then some (iomemFree s)
      else none
  | .cleanup =>
      if (s.stage = .live ∨ s.stage = .freed) ∧ s.registered = false then some (cleanup cfg s)
      else none

/-- The buffers of `libunvmed_map_mems`. -/
def fileBuffers : Finset Buffer := {.orig, .prp, .prpList}

/-- `fio_libunvmed_open_file` goes wrong after `libunvmed_map_mems`. -/
def Opening.late (o : Opening) : Bool := o.badPrchk || o.verifyPi || o.noWrite || o.vcqFails

/-- The condition of a call. -/
def Meets (cfg : Config) (s : State A) : Action A → Prop
  | .initData c =>
      -- The trim buffer does not fail after the metadata buffer.
      c.early = true ∨ ¬ (cfg.separateMeta = true ∧ cfg.trims = true) ∨ c.metadata = none ∨
        c.fails .metadata = true ∨ c.trim.isSome ∧ c.fails .trim = false
  | .iomemAlloc c => (cfg.cmbData = true ∨ c.origFails = false) ∧ 0 < c.total
  | .openFile o =>
      -- Nothing goes wrong once the buffers are mapped.
      o.late = false ∨ o.sq = false ∨ o.cq = false ∨ o.deep = true ∨
        (∃ b ∈ fileBuffers, s.job.mapped b = true ∧ o.fails b = true) ∨
        ∀ b ∈ fileBuffers, s.job.mapped b = false
  | .recreate _ => s.epoch + 1 ≠ s.ldEpoch
  | .cleanup =>
      -- The other two buffers are mapped if and only if the job has the epoch.
      ∀ b ∈ ({.metadata, .trim} : Finset Buffer), ∀ a ∈ s.job.ptr b,
        (a ∈ s.dma.maps ↔ s.ldEpoch = s.epoch)
  | _ => True

instance decidableMeets (cfg : Config) (s : State A) : ∀ a, Decidable (Meets cfg s a)
  | .initData _ => inferInstanceAs (Decidable (_ ∨ _))
  | .iomemAlloc _ => inferInstanceAs (Decidable (_ ∧ _))
  | .openFile _ => inferInstanceAs (Decidable (_ ∨ _))
  | .recreate _ => inferInstanceAs (Decidable (_ ≠ _))
  | .cleanup => inferInstanceAs (Decidable (∀ b ∈ _, ∀ a ∈ s.job.ptr b, _))
  | .closeFile | .iomemFree => .isTrue trivial

/-- The property of a call. -/
structure Proper (s : State A) (a : Action A) (s' : State A) : Prop where
  /-- No page is released while it is mapped, and nothing is unmapped that is not mapped. -/
  faults : s'.dma.faults = []
  failedOpen : ∀ o, a = .openFile o → (openFile o s).1 ≠ 0 →
    s'.dma.maps = s.dma.maps ∧ s'.sqRefs = s.sqRefs ∧ s'.cqRefs = s.cqRefs ∧ s'.vcqs = s.vcqs
  cleaned : a = .cleanup → s'.dma.maps = ∅

/-! ### Mapping and unmapping -/

section Dma

variable {d d' : Dma A} {t : Job A} {b b' : Buffer} {c : Bool} {fails : Buffer → Bool} {x : A}

/-- The buffer is mapped. -/
def Held (t : Job A) (d : Dma A) (b : Buffer) : Prop := ∃ a, t.ptr b = some a ∧ a ∈ d.maps

theorem unmapIf_held (held : c = true → Held t d b) :
    (d.unmapIf t c b).faults = d.faults ∧
      ∀ x, x ∈ (d.unmapIf t c b).maps ↔ x ∈ d.maps ∧ ¬ (c = true ∧ t.ptr b = some x) := by
  cases c with
  | false => simp [Dma.unmapIf]
  | true =>
      obtain ⟨a, ptr, mem⟩ := held rfl
      simp only [Dma.unmapIf, if_true, Dma.unmap, ptr, if_pos mem]
      refine ⟨trivial, fun x => ?_⟩
      rw [Finset.mem_erase, Option.some.injEq, true_and, and_comm, ne_comm]

/-- Unmapping leaves the other buffers as they are. -/
theorem held_unmapIf (distinct : Distinct t) (other : b' ≠ b) (here : c = true → Held t d b)
    (held : Held t d b') : Held t (d.unmapIf t c b) b' := by
  obtain ⟨x, ptr, mem⟩ := held
  refine ⟨x, ptr, ((unmapIf_held here).2 x).mpr ⟨mem, ?_⟩⟩
  rintro ⟨-, same⟩
  exact other (distinct b' b x ptr same)

theorem release_free (free : Free t d b) : release t b d = d := by
  unfold release
  split
  · rfl
  · rw [if_neg (free _ ‹_›)]

/-- One buffer of `fio_libunvmed_cleanup`. -/
theorem unmap_release {m : Bool} (has : c = true ↔ (t.ptr b).isSome)
    (right : ∀ x, t.ptr b = some x → (x ∈ d.maps ↔ m = true)) :
    (if c then release t b (d.unmapIf t m b) else d).faults = d.faults ∧
      ∀ x, x ∈ (if c then release t b (d.unmapIf t m b) else d).maps ↔
        x ∈ d.maps ∧ t.ptr b ≠ some x := by
  cases c with
  | false =>
      have none : t.ptr b = none := by
        rw [← Option.not_isSome_iff_eq_none, ← has]
        decide
      simp [none]
  | true =>
      obtain ⟨a, ptr⟩ := Option.isSome_iff_exists.mp (has.mp rfl)
      have held : m = true → Held t d b := fun same => ⟨a, ptr, (right a ptr).mpr same⟩
      obtain ⟨faults, maps⟩ := unmapIf_held held
      have free : Free t (d.unmapIf t m b) b := by
        intro x there mem
        obtain ⟨old, other⟩ := (maps x).mp mem
        exact other ⟨(right x there).mp old, there⟩
      rw [if_pos rfl, release_free free]
      refine ⟨faults, fun x => (maps x).trans ?_⟩
      refine and_congr_right fun mem => not_congr ⟨fun h => h.2, fun there => ?_⟩
      exact ⟨(right x there).mp mem, there⟩

end Dma

/-! ### The invariant -/

/-- What the buffers have to do with the mappings. -/
structure Core (s : State A) : Prop where
  faults : s.dma.faults = []
  distinct : Distinct s.job
  own : ∀ a ∈ s.dma.maps, ∃ b, s.job.ptr b = some a
  size : (s.job.ptr .orig).isSome → s.job.origBufferSize ≠ 0
  allocated : s.registered = true → s.job.mapped .orig = true → (s.job.ptr .orig).isSome
  origMapped : Held s.job s.dma .orig → s.job.mapped .orig = true
  closed : s.registered = false → ∀ b ∈ fileBuffers, Free s.job s.dma b
  opened : s.registered = true → s.ldEpoch = s.epoch →
    ∀ b ∈ fileBuffers, s.job.mapped b = true → Held s.job s.dma b
  stale : s.registered = true → s.ldEpoch ≠ s.epoch → s.dma.maps = ∅

structure Inv (cfg : Config) (s : State A) : Prop extends Core s where
  idle : s.stage = .idle → s.registered = false ∧ s.dma.maps = ∅ ∧ ∀ b, s.job.ptr b = none
  trims : s.stage ≠ .idle → (cfg.trims = true ↔ (s.job.ptr .trim).isSome)

section Invariant

variable {cfg : Config} {s : State A} {t : Job A} {b b' : Buffer} {a a' : Option A}
  {d d' : Dma A} {fails : Buffer → Bool} {c : Bool}

omit [DecidableEq A] in
theorem give_ptr_self : (give t b a).ptr b = a := by
  simp only [give, Function.update_self]

omit [DecidableEq A] in
theorem give_ptr_of_ne (other : b' ≠ b) : (give t b a).ptr b' = t.ptr b' := by
  simp only [give, Function.update_of_ne other]

omit [DecidableEq A] in
theorem start_inv (epoch : BitVec 32) (sqRefs cqRefs vcqs : ℕ) :
    Inv cfg (start cfg epoch sqRefs cqRefs vcqs : State A) where
  faults := rfl
  distinct := fun _ _ _ h => by cases h
  own := fun _ mem => absurd mem (Finset.notMem_empty _)
  size := fun h => by cases h
  allocated := fun h => by cases h
  origMapped := fun ⟨_, h, _⟩ => by cases h
  closed := fun _ _ _ _ h => by cases h
  opened := fun h => by cases h
  stale := fun h => by cases h
  idle := fun _ => ⟨rfl, rfl, fun _ => rfl⟩
  trims := fun h => absurd rfl h

omit [DecidableEq A] in
theorem distinct_give (distinct : Distinct t) (new : New s a) (job : s.job = t) :
    Distinct (give t b a) := by
  subst job
  intro b₁ b₂ x h₁ h₂
  by_cases first : b₁ = b <;> by_cases second : b₂ = b
  · rw [first, second]
  · rw [first, give_ptr_self] at h₁
    rw [give_ptr_of_ne second] at h₂
    exact absurd h₂ ((new x h₁).2 b₂)
  · rw [second, give_ptr_self] at h₂
    rw [give_ptr_of_ne first] at h₁
    exact absurd h₁ ((new x h₂).2 b₁)
  · rw [give_ptr_of_ne first] at h₁
    rw [give_ptr_of_ne second] at h₂
    exact distinct b₁ b₂ x h₁ h₂

omit [DecidableEq A] in
theorem New.give (new : New s a) (apart : Apart a' a) :
    New { s with job := give s.job b a' } a := by
  intro x same
  refine ⟨(new x same).1, fun b' h => ?_⟩
  by_cases here : b' = b
  · subst here
    rw [give_ptr_self] at h
    rcases apart with none | other
    · rw [none] at h
      cases h
    · exact other (h.trans same.symm)
  · rw [give_ptr_of_ne here] at h
    exact (new x same).2 b' h

theorem New.take (new : New s a) (apart : Apart a' a)
    (job : t = if c then Mappings.give s.job b a' else s.job)
    (mapped : s.dma.mapIf t fails c b = some d) : New { s with job := t, dma := d } a := by
  cases c with
  | false =>
      rw [if_neg (by decide)] at job
      cases mapped
      rw [job]
      exact new
  | true =>
      rw [if_pos rfl] at job
      subst job
      intro x same
      refine ⟨fun mem => ?_, (new.give apart x same).2⟩
      rcases ((mapIf_some mapped).2 x).mp mem with old | ⟨-, there⟩
      · exact (new x same).1 old
      · exact (new.give apart x same).2 b there

omit [DecidableEq A] in
/-- A buffer of the file gets an address. -/
theorem Core.give (h : Core s) (closed : s.registered = false) (file : b ∈ fileBuffers)
    (new : New s a) (size : b = .orig → s.job.origBufferSize ≠ 0) :
    Core { s with job := give s.job b a } := by
  have notOpen {P : Prop} (o : s.registered = true) : P := by
    rw [closed] at o
    cases o
  have free : ∀ b' ∈ fileBuffers, Free (Mappings.give s.job b a) s.dma b' := by
    intro b' file' x ptr
    by_cases here : b' = b
    · subst here
      rw [give_ptr_self] at ptr
      exact (new x ptr).1
    · rw [give_ptr_of_ne here] at ptr
      exact h.closed closed b' file' x ptr
  constructor
  · exact h.faults
  · exact distinct_give h.distinct new rfl
  · intro x mem
    obtain ⟨b', ptr⟩ := h.own x mem
    refine ⟨b', ?_⟩
    rw [← ptr]
    apply give_ptr_of_ne
    rintro rfl
    exact h.closed closed b' file x ptr mem
  · intro there
    by_cases orig : b = .orig
    · exact size orig
    · rw [give_ptr_of_ne (Ne.symm orig)] at there
      exact h.size there
  · exact fun o => notOpen o
  · rintro ⟨x, ptr, mem⟩
    exact absurd mem (free .orig (by decide) x ptr)
  · exact fun _ => free
  · exact fun o => notOpen o
  · exact fun o => notOpen o

/-- Another buffer gets an address and is mapped. -/
theorem Core.take (h : Core s) (closed : s.registered = false) (other : b ∉ fileBuffers)
    (none_ : s.job.ptr b = none) (new : c = true → New s a)
    (job : t = if c then Mappings.give s.job b a else s.job)
    (mapped : s.dma.mapIf t fails c b = some d) : Core { s with job := t, dma := d } := by
  obtain ⟨faults, maps⟩ := mapIf_some mapped
  cases c with
  | false =>
      rw [if_neg (by decide)] at job
      cases mapped
      rw [job]
      exact h
  | true =>
      rw [if_pos rfl] at job
      subst job
      have new := new rfl
      have ptr {b' : Buffer} (file : b' ∈ fileBuffers) :
          (Mappings.give s.job b a).ptr b' = s.job.ptr b' := by
        apply give_ptr_of_ne
        rintro rfl
        exact other file
      have free : ∀ b' ∈ fileBuffers, Free (Mappings.give s.job b a) d b' := by
        intro b' file x there mem
        rw [ptr file] at there
        rcases (maps x).mp mem with old | ⟨-, same⟩
        · exact h.closed closed b' file x there old
        · rw [give_ptr_self] at same
          exact (new x same).2 b' there
      have notOpen {P : Prop} (o : s.registered = true) : P := by
        rw [closed] at o
        cases o
      constructor
      · exact faults.trans h.faults
      · exact distinct_give h.distinct new rfl
      · intro x mem
        rcases (maps x).mp mem with old | ⟨-, same⟩
        · obtain ⟨b', there⟩ := h.own x old
          refine ⟨b', ?_⟩
          rw [← there]
          apply give_ptr_of_ne
          rintro rfl
          rw [none_] at there
          cases there
        · exact ⟨b, same⟩
      · intro there
        rw [ptr (by decide)] at there
        exact h.size there
      · exact fun o => notOpen o
      · rintro ⟨x, there, mem⟩
        exact absurd mem (free .orig (by decide) x there)
      · exact fun _ => free
      · exact fun o => notOpen o
      · exact fun o => notOpen o

omit [DecidableEq A] in
theorem Core.stage (h : Core s) (stage : Stage) : Core { s with stage := stage } :=
  ⟨h.faults, h.distinct, h.own, h.size, h.allocated, h.origMapped, h.closed, h.opened, h.stale⟩

omit [DecidableEq A] in
/-- After `libunvmed_init_data` the job has its trim buffer. -/
theorem Core.inv (h : Core s) (notIdle : s.stage ≠ .idle)
    (trims : cfg.trims = true ↔ (s.job.ptr .trim).isSome) : Inv cfg s where
  toCore := h
  idle := fun no => absurd no notIdle
  trims := fun _ => trims

end Invariant

/-! ### One lemma for each call -/

section Calls

variable {cfg : Config} {s : State A} {callback : Option (Buffer → Bool)}

/-- A failure changes nothing, unless it leaves the metadata buffer behind. -/
theorem initData_inv {c : InitCalls A} (h : Inv cfg s) (idle : s.stage = .idle)
    (newMeta : New s c.metadata) (newTrim : New s c.trim) (apart : Apart c.metadata c.trim)
    (met : Meets cfg s (.initData c)) : Inv cfg (initData cfg c s).2 := by
  obtain ⟨closed, -, ptr⟩ := h.idle idle
  unfold initData
  split
  case isTrue => exact h
  case isFalse notEarly =>
    simp only
    split
    case h_1 failed =>
      -- The pages of a buffer that is not mapped are released.
      have wanted := (mapIf_eq_none.mp failed).1
      rw [if_pos wanted, release_free]
      · exact h
      · intro x there
        rw [give_ptr_self] at there
        exact (newMeta x there).1
    case h_2 d mapped =>
      have core := h.toCore.take closed (by decide) (ptr .metadata) (fun _ => newMeta) rfl mapped
      have failed (bad : c.trim.isSome → c.fails .trim = true) (wanted : cfg.trims = true) :
          cfg.separateMeta = false ∧ d = s.dma := by
        cases separate : cfg.separateMeta with
        | false =>
            rw [separate] at mapped
            cases mapped
            exact ⟨rfl, rfl⟩
        | true =>
            exfalso
            rcases met with early | one | none | fail | ⟨some_, works⟩
            · exact notEarly early
            · exact one ⟨separate, wanted⟩
            · have pages := (mapIf_works mapped separate).1
              rw [if_pos separate, give_ptr_self, none] at pages
              cases pages
            · rw [mapIf_eq_none.mpr ⟨separate, .inr fail⟩] at mapped
              cases mapped
            · rw [bad some_] at works
              cases works
      split
      case isTrue noTrim =>
        rw [Bool.and_eq_true, Option.isNone_iff_eq_none] at noTrim
        rw [(failed (fun some_ => by rw [noTrim.2] at some_; cases some_) noTrim.1).2]
        exact h
      case isFalse gotTrim =>
        split
        case h_1 noMap =>
          obtain ⟨wanted, why⟩ := mapIf_eq_none.mp noMap
          rw [if_pos wanted] at why ⊢
          rw [give_ptr_self] at why
          obtain ⟨-, same⟩ := failed
            (fun some_ => why.resolve_left fun none => by rw [none] at some_; cases some_) wanted
          rw [same, release_free]
          · exact h
          · intro x there
            rw [give_ptr_self] at there
            exact (newTrim x there).1
        case h_2 d' mapped' =>
          have none_ : (if cfg.separateMeta then give s.job .metadata c.metadata
              else s.job).ptr .trim = none := by
            split
            · rw [give_ptr_of_ne (by decide)]
              exact ptr .trim
            · exact ptr .trim
          have core := core.take closed (by decide) none_
            (fun _ => newTrim.take apart rfl mapped) rfl mapped'
          refine (core.stage .live).inv (fun no => by cases no) ?_
          simp only
          cases trims : cfg.trims with
          | false => simp [none_]
          | true =>
              rw [trims, Bool.true_and, Option.isNone_iff_eq_none] at gotTrim
              rw [if_pos rfl, give_ptr_self, Option.isSome_iff_ne_none]
              exact ⟨fun _ => gotTrim, fun _ => rfl⟩

/-- The buffers of the file are there, and nothing is mapped yet. -/
theorem iomemAlloc_inv {c : AllocCalls A} (h : Inv cfg s) (live : s.stage = .live)
    (closed : s.registered = false) (none_ : s.job.ptr .orig = none)
    (newOrig : c.origFails = false → New s (some c.orig) ∧ Apart (some c.orig) c.prp ∧
      Apart (some c.orig) c.prpList)
    (newPrp : New s c.prp) (newList : New s c.prpList) (apart : Apart c.prp c.prpList)
    (met : Meets cfg s (.iomemAlloc c)) : Inv cfg (iomemAlloc cfg c s).2 := by
  obtain ⟨noticed, pos⟩ := met
  have notIdle : s.stage ≠ .idle := fun idle => by
    rw [live] at idle
    cases idle
  have trims := h.trims notIdle
  simp only [iomemAlloc]
  generalize size_ : (if cfg.cmbData then c.total else pgmapSize cfg c.origFails c.total) = size
  split
  case isTrue => exact (h.toCore.stage .stopped).inv (fun no => by cases no) trims
  case isFalse good =>
    rw [Bool.or_eq_true, not_or, Bool.and_eq_true, decide_eq_true_eq, not_lt] at good
    have works : c.origFails = false := by
      rcases noticed with cmb | works
      · exact Bool.eq_false_iff.mpr fun fails => good.1 ⟨cmb, fails⟩
      · exact works
    obtain ⟨newOrig, apartPrp, apartList⟩ := newOrig works
    have positive : size ≠ 0 := (pos.trans_le good.2).ne'
    have sized : Core { s with job := { s.job with origBufferSize := size } } := by
      refine ⟨h.faults, h.distinct, h.own, fun _ => positive, ?_, ?_, h.closed, ?_, h.stale⟩
      · intro registered
        rw [closed] at registered
        cases registered
      · rintro ⟨x, there, -⟩
        rw [none_] at there
        cases there
      · intro registered
        rw [closed] at registered
        cases registered
    obtain ⟨t₁, job₁⟩ : ∃ t₁, t₁ = ({ give s.job .orig (some c.orig) with
        origBufferSize := size } : Job A) := ⟨_, rfl⟩
    have orig : Core { s with job := t₁ } := by
      rw [job₁]
      exact sized.give closed (by decide) newOrig fun _ => positive
    have new {a : Option A} (new : New s a) (apart : Apart (some c.orig) a) :
        New { s with job := t₁ } a := by
      rw [job₁]
      exact new.give apart
    have trim₁ : t₁.ptr .trim = s.job.ptr .trim := by
      rw [job₁]
      exact give_ptr_of_ne (t := s.job) (a := some c.orig) (by decide : Buffer.trim ≠ .orig)
    obtain ⟨t₂, job₂⟩ : ∃ t₂, t₂ = (if cfg.prp1Offset then give t₁ .prp c.prp else t₁) := ⟨_, rfl⟩
    have both : Core { s with job := t₂ } ∧ New { s with job := t₂ } c.prpList ∧
        t₂.ptr .trim = s.job.ptr .trim := by
      rw [job₂]
      split
      · have prp := orig.give closed (b := .prp) (by decide) (new newPrp apartPrp)
          fun no => by cases no
        refine ⟨prp, (new newList apartList).give apart, ?_⟩
        rw [give_ptr_of_ne (by decide), trim₁]
      · exact ⟨orig, new newList apartList, trim₁⟩
    obtain ⟨core, newList, trim⟩ := both
    rw [← job₁, ← job₂]
    split
    case h_1 none =>
      have free := core.closed closed
      have unchanged : (if cfg.cmbList then s.dma
          else release t₂ .orig (release t₂ .prp s.dma)) = s.dma := by
        rw [release_free (free .prp (by decide)), release_free (free .orig (by decide)), ite_self]
      rw [unchanged]
      refine (core.stage .stopped).inv (fun no => by cases no) ?_
      rw [trims, ← trim]
    case h_2 x some_ =>
      rw [some_] at newList
      have list := core.give closed (b := .prpList) (by decide) newList fun no => by cases no
      refine list.inv notIdle ?_
      rw [trims, ← trim, give_ptr_of_ne (by decide)]

/-- `iomem_free` finds nothing mapped. -/
theorem iomemFree_inv (h : Inv cfg s) (running : s.stage = .live ∨ s.stage = .stopped)
    (closed : s.registered = false) : Inv cfg (iomemFree s) := by
  have free := h.closed closed
  have same : iomemFree s = { s with stage := .freed } := by
    simp only [iomemFree, release_free (free .prpList (by decide)),
      release_free (free .prp (by decide)), release_free (free .orig (by decide)), ite_self]
  have notIdle : s.stage ≠ .idle := by
    rcases running with live | stopped
    · rw [live]
      decide
    · rw [stopped]
      decide
  rw [same]
  exact (h.toCore.stage .freed).inv (fun no => by cases no) (h.trims notIdle)

/-- `libunvmed_map_mems` maps the buffers of the file, or changes nothing. -/
theorem mapMems_file (fails : Buffer → Bool) (distinct : Distinct s.job)
    (free : ∀ b ∈ fileBuffers, Free s.job s.dma b) :
    ((mapMems s.job fails s.dma).1 = 0 ∧
        (mapMems s.job fails s.dma).2.faults = s.dma.faults ∧
        (∀ x, x ∈ (mapMems s.job fails s.dma).2.maps ↔
          x ∈ s.dma.maps ∨ ∃ b ∈ fileBuffers, s.job.mapped b = true ∧ s.job.ptr b = some x) ∧
        (∀ b ∈ fileBuffers, s.job.mapped b = true → (s.job.ptr b).isSome ∧ fails b = false)) ∨
      (mapMems s.job fails s.dma).1 ≠ 0 ∧ (mapMems s.job fails s.dma).2 = s.dma := by
  rcases mapMems_cases fails distinct (free .orig (by decide)) (free .prp (by decide)) with
    ⟨d₁, d₂, d₃, orig, prp, list, done⟩ | ⟨-, failed⟩
  · left
    obtain ⟨faults₁, maps₁⟩ := mapIf_some orig
    obtain ⟨faults₂, maps₂⟩ := mapIf_some prp
    obtain ⟨faults₃, maps₃⟩ := mapIf_some list
    rw [done]
    refine ⟨rfl, faults₃.trans (faults₂.trans faults₁), fun x => ?_, ?_⟩
    · rw [maps₃, maps₂, maps₁]
      simp only [fileBuffers, Finset.mem_insert, Finset.mem_singleton, exists_eq_or_imp,
        exists_eq_left, or_assoc]
    · intro b file wanted
      simp only [fileBuffers, Finset.mem_insert, Finset.mem_singleton] at file
      rcases file with rfl | rfl | rfl
      · exact mapIf_works orig wanted
      · exact mapIf_works prp wanted
      · exact mapIf_works list wanted
  · right
    rw [failed]
    exact ⟨(by decide : (-1 : ℤ) ≠ 0), rfl⟩

/-- A job without buffers has nothing to map. -/
theorem mapMems_nothing (fails : Buffer → Bool)
    (nothing : ∀ b ∈ fileBuffers, s.job.mapped b = false) :
    mapMems s.job fails s.dma = (0, s.dma) := by
  have orig := nothing .orig (by decide)
  have prp := nothing .prp (by decide)
  have list := nothing .prpList (by decide)
  simp [mapMems, Dma.mapIf, orig, prp, list]

/-- A call without a late error maps the buffers and takes the epoch, or changes nothing. -/
theorem openFile_cases {o : Opening} (h : Inv cfg s) (closed : s.registered = false)
    (met : Meets cfg s (.openFile o)) :
    (openFile o s).1 ≠ 0 ∧ (openFile o s).2 = s ∨
      (openFile o s).1 = 0 ∧ (mapMems s.job o.fails s.dma).1 = 0 ∧ (openFile o s).2 =
        { s with
          dma := (mapMems s.job o.fails s.dma).2, vcqs := s.vcqs + 1, ldEpoch := s.epoch
          registered := true, sqRefs := s.sqRefs + 1, cqRefs := s.cqRefs + 1 } := by
  have minus : (-1 : ℤ) ≠ 0 := by decide
  unfold openFile
  cases sq : o.sq with
  | false => exact .inl ⟨minus, rfl⟩
  | true =>
      cases cq : o.cq with
      | false => exact .inl ⟨minus, rfl⟩
      | true =>
          cases deep : o.deep with
          | true => exact .inl ⟨minus, rfl⟩
          | false =>
              rcases mapMems_file o.fails h.distinct (h.closed closed) with
                ⟨done, -, -, works⟩ | ⟨failed, same⟩
              · cases late : o.late with
                | false =>
                    simp only [Opening.late, Bool.or_eq_false_iff] at late
                    obtain ⟨⟨⟨badPrchk, verifyPi⟩, noWrite⟩, vcqFails⟩ := late
                    right
                    have done' : (mapMems s.getSq.getCq.job o.fails s.getSq.getCq.dma).1 = 0 := done
                    simp only [Bool.not_true, Bool.false_eq_true, if_false, done', ne_eq,
                      not_true_eq_false, badPrchk, verifyPi, noWrite, vcqFails]
                    exact ⟨trivial, done, rfl⟩
                | true =>
                    have nothing : ∀ b ∈ fileBuffers, s.job.mapped b = false := by
                      rcases met with no | no | no | no | ⟨b, file, wanted, fail⟩ | nothing
                      · rw [late] at no
                        cases no
                      · rw [sq] at no
                        cases no
                      · rw [cq] at no
                        cases no
                      · rw [deep] at no
                        cases no
                      · rw [(works b file wanted).2] at fail
                        cases fail
                      · exact nothing
                    have none : mapMems s.getSq.getCq.job o.fails s.getSq.getCq.dma = (0, s.dma) :=
                      mapMems_nothing o.fails nothing
                    left
                    simp only [Bool.not_true, Bool.false_eq_true, if_false, none, ne_eq,
                      not_true_eq_false]
                    simp only [Opening.late, Bool.or_eq_true, or_assoc] at late
                    split_ifs
                    all_goals first | exact ⟨minus, rfl⟩ | simp_all
              · left
                have failed' : (mapMems s.getSq.getCq.job o.fails s.getSq.getCq.dma).1 ≠ 0 := failed
                have same' : (mapMems s.getSq.getCq.job o.fails s.getSq.getCq.dma).2 = s.dma := same
                simp only [Bool.not_true, Bool.false_eq_true, if_false, if_pos failed', same']
                exact ⟨failed', rfl⟩

/-- The buffers of the file are mapped, with the epoch. -/
theorem openFile_inv {o : Opening} (h : Inv cfg s) (live : s.stage = .live)
    (closed : s.registered = false) (met : Meets cfg s (.openFile o)) :
    Inv cfg (openFile o s).2 := by
  rcases openFile_cases h closed met with ⟨-, same⟩ | ⟨-, done, opened⟩
  · rw [same]
    exact h
  · rw [opened]
    rcases mapMems_file o.fails h.distinct (h.closed closed) with
      ⟨-, faults, maps, works⟩ | ⟨failed, -⟩
    · have notIdle : s.stage ≠ .idle := fun idle => by
        rw [live] at idle
        cases idle
      refine Core.inv ?_ notIdle (h.trims notIdle)
      constructor
      · exact faults.trans h.faults
      · exact h.distinct
      · intro x mem
        rcases (maps x).mp mem with old | ⟨b, -, -, ptr⟩
        · exact h.own x old
        · exact ⟨b, ptr⟩
      · exact h.size
      · exact fun _ wanted => (works .orig (by decide) wanted).1
      · rintro ⟨x, ptr, mem⟩
        rcases (maps x).mp mem with old | ⟨b, -, wanted, ptr'⟩
        · exact absurd old (h.closed closed .orig (by decide) x ptr)
        · rw [← h.distinct _ _ x ptr' ptr]
          exact wanted
      · intro no
        cases no
      · intro _ _ b file wanted
        obtain ⟨x, ptr⟩ := Option.isSome_iff_exists.mp (works b file wanted).1
        exact ⟨x, ptr, (maps x).mpr (.inr ⟨b, file, wanted, ptr⟩)⟩
      · exact fun _ other => absurd rfl other
    · exact absurd done failed

/-- In a new controller the callback maps all buffers, or none of them is. -/
theorem recreate_inv (h : Inv cfg s) (met : Meets cfg s (.recreate callback)) :
    Inv cfg (recreate callback s) := by
  have empty : Core { s with epoch := s.epoch + 1, dma := { s.dma with maps := ∅ } } := by
    refine ⟨h.faults, h.distinct, ?_, h.size, h.allocated, ?_, ?_, ?_, fun _ _ => rfl⟩
    · exact fun x mem => absurd mem (Finset.notMem_empty x)
    · exact fun ⟨x, _, mem⟩ => absurd mem (Finset.notMem_empty x)
    · exact fun _ _ _ x _ => Finset.notMem_empty x
    · exact fun _ same => absurd same.symm met
  have rest (stage : s.stage = .idle) (d : Dma A) : d.maps = ∅ →
      s.registered = false ∧ d.maps = ∅ ∧ ∀ b, s.job.ptr b = none :=
    fun none => ⟨(h.idle stage).1, none, (h.idle stage).2.2⟩
  have fresh : Inv cfg { s with epoch := s.epoch + 1, dma := { s.dma with maps := ∅ } } :=
    ⟨empty, fun stage => rest stage _ rfl, h.trims⟩
  cases callback with
  | none => exact fresh
  | some fails =>
      cases registered : s.registered with
      | false =>
          simp only [recreate, registered]
          rw [registered] at fresh
          exact fresh
      | true =>
          simp only [recreate, registered, if_true]
          have free : ∀ b, Free s.job { s.dma with maps := ∅ } b :=
            fun _ x _ => Finset.notMem_empty x
          rcases remap_cases (s.epoch + 1) s.ldEpoch fails h.distinct free with
            ⟨-, d, done, faults, maps⟩ | ⟨-, failed⟩
          · have maps (x : A) : x ∈ d.maps ↔ ∃ b, s.job.mapped b = true ∧ s.job.ptr b = some x := by
              rw [maps x]
              exact or_iff_right (Finset.notMem_empty x)
            have there {b : Buffer} (wanted : s.job.mapped b = true) : (s.job.ptr b).isSome := by
              cases b with
              | orig => exact h.allocated registered wanted
              | _ => exact wanted
            rw [done]
            refine ⟨⟨faults.trans h.faults, h.distinct, ?_, h.size, fun _ => there, ?_, ?_, ?_, ?_⟩,
              fun stage => ?_, h.trims⟩
            · intro x mem
              obtain ⟨b, -, ptr⟩ := (maps x).mp mem
              exact ⟨b, ptr⟩
            · rintro ⟨x, ptr, mem⟩
              obtain ⟨b, wanted, ptr'⟩ := (maps x).mp mem
              rw [← h.distinct _ _ x ptr' ptr]
              exact wanted
            · intro no
              cases no
            · intro _ _ b _ wanted
              obtain ⟨x, ptr⟩ := Option.isSome_iff_exists.mp (there wanted)
              exact ⟨x, ptr, (maps x).mpr ⟨b, wanted, ptr⟩⟩
            · exact fun _ other => absurd rfl other
            · rw [(h.idle stage).1] at registered
              cases registered
          · rw [failed, ← registered]
            exact fresh

/-- A file is closed with its buffers mapped, or in a new controller with none. -/
theorem closeFile_inv (h : Inv cfg s) (registered : s.registered = true) :
    Inv cfg (closeFile s) := by
  have after {d : Dma A} (faults : d.faults = []) (less : ∀ x ∈ d.maps, x ∈ s.dma.maps)
      (free : ∀ b ∈ fileBuffers, Free s.job d b) :
      Inv cfg { ({ s with registered := false, dma := d }).putCq.putSq with
        vcqs := s.vcqs - 1 } := by
    refine ⟨⟨faults, h.distinct, fun x mem => h.own x (less x mem), h.size, ?_, ?_, fun _ => free,
      ?_, ?_⟩, fun idle => ?_, h.trims⟩
    · intro no
      cases no
    · rintro ⟨x, ptr, mem⟩
      exact h.origMapped ⟨x, ptr, less x mem⟩
    · intro no
      cases no
    · intro no
      cases no
    · rw [(h.idle idle).1] at registered
      cases registered
  simp only [closeFile]
  by_cases same : s.ldEpoch = s.epoch
  · rw [if_neg (not_not.mpr same)]
    have held := h.opened registered same
    have list : (s.job.ptr .prpList).isSome = true → Held s.job s.dma .prpList :=
      held .prpList (by decide)
    have prp (there : (s.job.ptr .prp).isSome = true) :=
      held_unmapIf h.distinct (by decide) list (held .prp (by decide) there)
    have orig (there : ((s.job.ptr .orig).isSome && !s.job.cmbData) = true) :=
      held_unmapIf h.distinct (by decide) prp
        (held_unmapIf h.distinct (by decide) list (held .orig (by decide) (by
          rw [Bool.and_eq_true] at there
          rw [Job.mapped, Bool.and_eq_true, bne_iff_ne]
          exact ⟨h.size there.1, there.2⟩)))
    obtain ⟨faults₁, maps₁⟩ := unmapIf_held list
    obtain ⟨faults₂, maps₂⟩ := unmapIf_held prp
    obtain ⟨faults₃, maps₃⟩ := unmapIf_held orig
    refine after (faults₃.trans (faults₂.trans (faults₁.trans h.faults))) ?_ ?_
    · intro x mem
      rw [maps₃, maps₂, maps₁] at mem
      exact mem.1.1.1
    · intro b file x ptr mem
      rw [maps₃, maps₂, maps₁] at mem
      obtain ⟨⟨⟨old, notList⟩, notPrp⟩, notOrig⟩ := mem
      simp only [fileBuffers, Finset.mem_insert, Finset.mem_singleton] at file
      rcases file with rfl | rfl | rfl
      · have wanted := h.origMapped ⟨x, ptr, old⟩
        rw [Job.mapped, Bool.and_eq_true] at wanted
        refine notOrig ⟨?_, ptr⟩
        rw [ptr, wanted.2]
        rfl
      · exact notPrp ⟨Option.isSome_of_eq_some ptr, ptr⟩
      · exact notList ⟨Option.isSome_of_eq_some ptr, ptr⟩
  · rw [if_pos same]
    have none := h.stale registered same
    refine after h.faults (fun _ mem => mem) fun b _ x _ => ?_
    rw [none]
    exact Finset.notMem_empty x

/-- Nothing is left. -/
theorem cleanup_inv (h : Inv cfg s) (running : s.stage = .live ∨ s.stage = .freed)
    (closed : s.registered = false) (met : Meets cfg s .cleanup) :
    Inv cfg (cleanup cfg s) ∧ (cleanup cfg s).dma.maps = ∅ := by
  have notIdle : s.stage ≠ .idle := by
    rcases running with live | freed
    · rw [live]
      decide
    · rw [freed]
      decide
  have done : (cleanup cfg s).dma.faults = [] ∧ (cleanup cfg s).dma.maps = ∅ := by
    have right (b : Buffer) (other : b ∈ ({.metadata, .trim} : Finset Buffer)) (x : A)
        (ptr : s.job.ptr b = some x) : x ∈ s.dma.maps ↔ decide (s.ldEpoch = s.epoch) = true :=
      (met b other x ptr).trans decide_eq_true_iff.symm
    obtain ⟨faults, maps⟩ := unmap_release (h.trims notIdle) (right .trim (by decide))
    obtain ⟨faults', maps'⟩ := unmap_release (b := .metadata) Iff.rfl fun x ptr => by
      rw [maps, right .metadata (by decide) x ptr, and_iff_left_iff_imp]
      intro _ same
      exact absurd (h.distinct _ _ x ptr same) (by decide)
    refine ⟨faults'.trans (faults.trans h.faults), ?_⟩
    rw [Finset.eq_empty_iff_forall_notMem]
    intro x mem
    rw [cleanup, maps', maps] at mem
    obtain ⟨⟨old, notTrim⟩, notMeta⟩ := mem
    obtain ⟨b, ptr⟩ := h.own x old
    cases b with
    | metadata => exact notMeta ptr
    | trim => exact notTrim ptr
    | _ => exact h.closed closed _ (by decide) x ptr old
  refine ⟨⟨⟨done.1, h.distinct, ?_, h.size, h.allocated, ?_, ?_, ?_, fun _ _ => done.2⟩,
    (fun no => by cases no), fun _ => h.trims notIdle⟩, done.2⟩
  · intro x mem
    rw [done.2] at mem
    exact absurd mem (Finset.notMem_empty x)
  · rintro ⟨x, -, mem⟩
    rw [done.2] at mem
    exact absurd mem (Finset.notMem_empty x)
  · intro _ b _ x _
    rw [done.2]
    exact Finset.notMem_empty x
  · intro (registered : s.registered = true)
    rw [closed] at registered
    cases registered

/-- What one call does. -/
theorem step_proper {a : Action A} {s' : State A} (h : Inv cfg s) (met : Meets cfg s a)
    (hstep : step cfg s a = some s') : Inv cfg s' ∧ Proper s a s' := by
  have proper (inv : Inv cfg s') (notOpen : ∀ o, a ≠ .openFile o) (notLast : a ≠ .cleanup) :
      Inv cfg s' ∧ Proper s a s' :=
    ⟨inv, inv.faults, fun o same => absurd same (notOpen o), fun same => absurd same notLast⟩
  cases a with
  | initData c =>
      simp only [step] at hstep
      split at hstep
      case isTrue enabled =>
        cases hstep
        obtain ⟨idle, newMeta, newTrim, apart⟩ := enabled
        exact proper (initData_inv h idle newMeta newTrim apart met) nofun nofun
      case isFalse => cases hstep
  | iomemAlloc c =>
      simp only [step] at hstep
      split at hstep
      case isTrue enabled =>
        cases hstep
        obtain ⟨live, closed, none, newOrig, newPrp, newList, apart⟩ := enabled
        have inv := iomemAlloc_inv h live closed none newOrig newPrp newList apart met
        exact proper inv nofun nofun
      case isFalse => cases hstep
  | openFile o =>
      simp only [step] at hstep
      split at hstep
      case isTrue enabled =>
        cases hstep
        have inv := openFile_inv h enabled.1 enabled.2 met
        refine ⟨inv, inv.faults, ?_, nofun⟩
        rintro _ ⟨⟩ failed
        rcases openFile_cases h enabled.2 met with ⟨-, same⟩ | ⟨done, -⟩
        · rw [same]
          exact ⟨rfl, rfl, rfl, rfl⟩
        · exact absurd done failed
      case isFalse => cases hstep
  | recreate callback =>
      cases hstep
      exact proper (recreate_inv h met) nofun nofun
  | closeFile =>
      simp only [step] at hstep
      split at hstep
      case isTrue registered =>
        cases hstep
        exact proper (closeFile_inv h registered) nofun nofun
      case isFalse => cases hstep
  | iomemFree =>
      simp only [step] at hstep
      split at hstep
      case isTrue enabled =>
        cases hstep
        exact proper (iomemFree_inv h enabled.1 enabled.2) nofun nofun
      case isFalse => cases hstep
  | cleanup =>
      simp only [step] at hstep
      split at hstep
      case isTrue enabled =>
        cases hstep
        obtain ⟨inv, empty⟩ := cleanup_inv h enabled.1 enabled.2 met
        exact ⟨inv, inv.faults, nofun, fun _ => empty⟩
      case isFalse => cases hstep

end Calls

/-! ### The life of a job -/

/-- **The mappings of a job.** In every run whose calls meet their conditions, no page is released
while it is mapped, nothing is unmapped that is not mapped, a failed open changes nothing, and
nothing is mapped after the cleanup. -/
theorem lifecycle_of_guarded {cfg : Config} {epoch : BitVec 32} {sqRefs cqRefs vcqs : ℕ}
    {as : List (Action A)}
    (met : Guarded (step cfg) (Meets cfg) (start cfg epoch sqRefs cqRefs vcqs) as) :
    Steps (step cfg) Proper (start cfg epoch sqRefs cqRefs vcqs) as :=
  steps_of_guarded (I := Inv cfg) (fun _ _ _ h met hstep => (step_proper h met hstep).1)
    (fun _ _ _ h met hstep => (step_proper h met hstep).2) (start_inv epoch sqRefs cqRefs vcqs) met

/-- A job that reads, with metadata. -/
def reads : Config where
  pagesize := 4096
  pagesize_pos := Nat.succ_pos 4095
  separateMeta := true
  trims := false
  cmbData := false
  cmbList := false
  prp1Offset := true

/-- The controller is created again while the file is open, and all buffers are mapped again. -/
theorem remapped_run_proper :
    Steps (step reads) Proper (start reads 1 1 1 0)
      [.initData { metadata := some 1 },
        .iomemAlloc { total := 4096, orig := 2, prp := some 3, prpList := some 4 }, .openFile {},
        .recreate (some fun _ => false), .closeFile, .iomemFree, .cleanup] :=
  lifecycle_of_guarded (by decide)

/-- A job that only trims. -/
def trimOnly : Config := { reads with separateMeta := false, trims := true }

/-- A job that only trims releases its buffer while it is mapped. An open that fails at the virtual
CQ leaves the buffers mapped, and a job that opens its file in a new controller unmaps metadata that
is not mapped. -/
theorem trim_released_while_mapped :
    (¬ Steps (step trimOnly) Proper (start trimOnly 1 1 1 0)
        [.initData { trim := some 1 }, .iomemFree, .cleanup] ∧
      (run (step trimOnly) (start trimOnly 1 1 1 0)
          [.initData { trim := some 1 }, .iomemFree, .cleanup]).map
        (fun s => (s.dma.maps, s.dma.faults)) = some ({1}, [.release .trim])) ∧
    (run (step reads) (start reads 1 1 1 0)
        [.initData { metadata := some 1 },
          .iomemAlloc { total := 4096, orig := 2, prpList := some 4 },
          .openFile { vcqFails := true }]).map
      (fun s => s.dma.maps) = some {1, 2, 4} ∧
    (run (step reads) (start reads 1 1 1 0)
        [.initData { metadata := some 1 }, .recreate none,
          .iomemAlloc { total := 4096, orig := 2, prpList := some 4 }, .openFile {}, .closeFile,
          .iomemFree, .cleanup]).map
      (fun s => s.dma.faults) = some [.unmap .metadata] := by
  refine ⟨⟨fun all => ?_, by decide⟩, by decide⟩
  have split : Steps (step trimOnly) Proper (start trimOnly 1 1 1 0)
      ([.initData { trim := some 1 }, .iomemFree] ++ [.cleanup]) := all
  exact absurd (split.last rfl rfl).faults (by decide)

end Unvmed.Mappings
