import Unvmed.Ctrl.Close
import Unvmed.Lib.Ledger

/-!
The shared memory of a controller (`unvme_add` in `src/unvmed-cmds.c`, `unvmed_free_ctrl` and
`unvmed_free_vf_ctrl` in `lib/libunvmed.c`).

`unvme_add` makes an instance and, with `--shmem-size`, a shared memory object: a name, a
descriptor, a mapping and a mapping in the IOMMU. What is there is told by fields of the instance.
Where a call fails, the add takes back what it got so far and returns, but it leaves the instance
registered and the fields as they are. Both teardown functions go by these fields.

* `unvmeAdd_fails`: what each failure leaves.
* `run_wrong_iff`: whether the teardowns release what is not there.
* `add_fails`: every failure leaves a controller; after a failure of the IOMMU mapping the first
  teardown releases the shared memory again.
-/

namespace Unvmed.Ctrl.Shmem

open Lib

/-- The fields of `struct unvme` about shared memory, as `zmalloc` makes them. -/
structure Fields where
  vaddr : BitVec 64 := 0
  iova : BitVec 64 := 0
  size : BitVec 64 := 0
  fd : BitVec 32 := 0
  name : List Char := []
  deriving DecidableEq, Repr

inductive Resource where
  | iommu (vaddr : BitVec 64)
  | mapping (vaddr size : BitVec 64)
  | fd (fd : BitVec 32)
  | name (name : List Char)
  deriving DecidableEq, Repr

/-- A device: its controller, if there is one, and the resources of shared memory. -/
structure State where
  ctrl : Close.State
  shm : Fields := {}
  /-- `u->ctrl.pci.bdf` is set. -/
  bdf : Bool := false
  ledger : Ledger Resource := {}

/-- The instance is in `unvme_list`: `unvmed_get` finds it. -/
def State.registered (s : State) : Bool := s.ctrl.made && !s.ctrl.freed

/-! ### Teardown -/

/-- `Clean up shared memory if allocated`: what is released, in order. `unvmed_unmap_vaddr` does
nothing once the device is closed. -/
def State.cleanUp (s : State) : List Resource :=
  if s.shm.vaddr ≠ 0 ∧ 0 < s.shm.size then
    (if s.shm.iova ≠ 0 ∧ s.bdf = true then [.iommu s.shm.vaddr] else []) ++
      [.mapping s.shm.vaddr s.shm.size] ++
      (if 0 ≤ s.shm.fd.toInt then [.fd s.shm.fd] else []) ++
      (if s.shm.name ≠ [] then [.name s.shm.name] else [])
  else []

/-- The clean-up, then `nvme_close`. -/
def State.close (s : State) : State :=
  { s with ledger := s.ledger.releaseAll s.cleanUp, bdf := false }

/-- What a call does beside `Close.step`. -/
def State.calls (s : State) : Close.Act → State
  | .freeVf _ => s.close
  | .freeCtrl _ => match s.ctrl.st.set .teardown with
      | .ok _ => s.close
      | .error _ => s
  | .init r =>
      if s.ctrl.st = .teardown ∧ r.vf = true ∧ r.ctrl = true then
        { s with bdf := r.irqs.isSome && r.rest }
      else s
  | _ => s

def step (s : State) (a : Close.Act) : Option State :=
  (Close.step s.ctrl a).map fun ctrl => { s.calls a with ctrl := ctrl }

/-! ### The add -/

abbrev Errno := BitVec 32

def EINVAL : Errno := 22

/-- The options of the command. -/
structure Args where
  dev : List Char
  nrIoqs : BitVec 32
  shmemSize : BitVec 32

/-- What the calls of the command are answered. -/
structure Replies where
  /-- `pci_get_iommu_group` -/
  iommuGroup : Bool
  /-- `unvmed_pci_bind` -/
  bind : Except Errno Unit
  /-- `unvmed_init_ctrl`, and `errno` if it fails. -/
  init : Close.InitReads
  initErrno : Errno
  asprintf : Except Errno Unit
  /-- The name is there: `access(path, F_OK) == 0` -/
  access : Bool
  /-- A descriptor is not negative. -/
  shmOpen : Except Errno (Fin (2 ^ 31))
  ftruncate : Except Errno Unit
  /-- An address is neither `NULL` nor `MAP_FAILED`. -/
  mmap : Except Errno { vaddr : BitVec 64 // vaddr ≠ 0 ∧ vaddr ≠ -1 }
  /-- `unvmed_map_vaddr` -/
  iommu : Option (BitVec 64)

/-- `u->shmem_name`, of 64 bytes with the NUL. -/
def shmemName (dev : List Char) : List Char :=
  (("/unvmed-".toList ++ dev).take 63).map fun c => if c = ':' ∨ c = '.' then '_' else c

/-- `unvmed_init_ctrl` of a device that has no instance. -/
def State.initCtrl (s : State) (r : Close.InitReads) : State :=
  { s with
    ctrl := Close.start.initCtrl r
    shm := {}
    bdf := r.ctrl && r.irqs.isSome && r.rest }

/-- The part of `unvme_add` for `--shmem-size`, which is positive. -/
def addShmem (s : State) (a : Args) (r : Replies) : BitVec 32 × State :=
  let size := a.shmemSize.signExtend 64
  let name := shmemName a.dev
  let s := { s with shm := { s.shm with name := name } }
  match r.asprintf with
  | .error errno => (errno, s)
  | .ok () =>
      let held := if r.access then s.ledger.held.erase (.name name) else s.ledger.held
      let s := { s with ledger := { s.ledger with held := held } }
      match r.shmOpen with
      | .error errno => (errno, { s with shm := { s.shm with fd := -1 } })
      | .ok fd =>
          let fd := BitVec.ofNat 32 fd
          let got : List Resource := [.fd fd, .name name]
          let s := { s with
            shm := { s.shm with fd := fd }
            ledger := s.ledger.acquireAll got }
          match r.ftruncate with
          | .error errno => (errno, { s with ledger := s.ledger.releaseAll got })
          | .ok () =>
              match r.mmap with
              | .error errno => (errno, { s with
                  shm := { s.shm with vaddr := -1 }
                  ledger := s.ledger.releaseAll got })
              | .ok vaddr =>
                  let s := { s with
                    shm := { s.shm with vaddr := vaddr, size := size }
                    ledger := s.ledger.acquire (.mapping vaddr size) }
                  match r.iommu with
                  | none => (-1, { s with
                      ledger := s.ledger.releaseAll (.mapping vaddr size :: got) })
                  | some iova => (0, { s with
                      shm := { s.shm with iova := iova }
                      ledger := s.ledger.acquire (.iommu vaddr) })

/-- `unvme_add` -/
def unvmeAdd (s : State) (a : Args) (r : Replies) : BitVec 32 × State :=
  if s.registered then (0, s)
  else if a.nrIoqs.toInt < 1 then (EINVAL, s)
  else if !r.iommuGroup then (EINVAL, s)
  else
    match r.bind with
    | .error errno => (errno, s)
    | .ok () =>
        let s := s.initCtrl r.init
        if !s.registered then (r.initErrno, s)
        else if 0 < a.shmemSize.toInt then addShmem s a r
        else (0, s)

/-! ### The property -/

/-- The checks before the shared memory pass, and there is an instance. -/
structure Initialised (a : Args) (r : Replies) : Prop where
  nrIoqs : ¬ a.nrIoqs.toInt < 1
  iommuGroup : r.iommuGroup = true
  bind : r.bind = .ok ()
  init : State.registered { ctrl := Close.start.initCtrl r.init } = true

/-- Every call before the one for the IOMMU succeeds. -/
def Replies.mapped (r : Replies) : Bool :=
  r.asprintf.isOk && r.shmOpen.isOk && r.ftruncate.isOk && r.mmap.isOk

/-- What a failed add should leave: no controller, and no resource that a teardown releases again or
that is still held when the controller is freed. -/
def State.LeavesNothing (s : State) : Prop :=
  s.registered = false ∧ ∀ acts t, run step s acts = some t →
    t.ledger.wrong = [] ∧ (t.ctrl.freed = true → t.ledger.held = [])

/-- The call does not clean up. -/
def Quiet (s : State) : Close.Act → Prop
  | .freeVf _ => False
  | .freeCtrl _ => s.ctrl.st ∉ CtrlState.teardown.sources
  | _ => True

instance (s : State) : DecidablePred (Quiet s)
  | .freeVf _ => .isFalse id
  | .freeCtrl _ => inferInstanceAs (Decidable (_ ∉ _))
  | .init _ | .ctrl _ | .vfStart _ | .vfFinish .. | .vfCheck _ | .enableVf _ | .initIrq ..
  | .freeIrq .. | .freeIrqAll _ => .isTrue trivial

/-- By the fields, there is shared memory. -/
def Fields.Live (f : Fields) : Prop := f.vaddr ≠ 0 ∧ 0 < f.size

/-! ### Teardowns of an instance without resources -/

section Teardown

variable {s s' t : State} {a : Close.Act} {acts : List Close.Act}

theorem cleanUp_eq_nil_iff : s.cleanUp = [] ↔ ¬ s.shm.Live := by
  unfold State.cleanUp Fields.Live
  split
  case isTrue live => exact iff_of_false (by simp) (not_not.mpr live)
  case isFalse dead => simp only [dead, not_false_eq_true]

/-- The teardowns go by the fields and leave them as they are. -/
theorem calls_shm : (s.calls a).shm = s.shm := by
  cases a with
  | freeCtrl vfio =>
      unfold State.calls
      cases s.ctrl.st.set .teardown <;> rfl
  | init r =>
      unfold State.calls
      simp only
      split <;> rfl
  | _ => rfl

/-- Where nothing is held, a clean-up is wrong if there is shared memory by the fields. -/
theorem calls_ledger (empty : s.ledger.held = []) :
    (s.calls a).ledger.held = [] ∧
      ((s.calls a).ledger.wrong = [] ↔ s.ledger.wrong = [] ∧ (s.shm.Live → Quiet s a)) := by
  have closes : s.close.ledger.held = [] ∧
      (s.close.ledger.wrong = [] ↔ s.ledger.wrong = [] ∧ ¬ s.shm.Live) := by
    rw [State.close, Ledger.releaseAll_of_empty empty, ← cleanUp_eq_nil_iff]
    exact ⟨empty, List.append_eq_nil_iff⟩
  have quiet (same : (s.calls a).ledger = s.ledger) (met : Quiet s a) :
      (s.calls a).ledger.held = [] ∧
        ((s.calls a).ledger.wrong = [] ↔ s.ledger.wrong = [] ∧ (s.shm.Live → Quiet s a)) := by
    rw [same]
    exact ⟨empty, (and_iff_left fun _ => met).symm⟩
  cases a with
  | freeVf vfio => exact closes
  | freeCtrl vfio =>
      cases set : s.ctrl.st.set .teardown with
      | ok st =>
          have from_ := (CtrlState.set_ok_iff.mp set).1
          have loud : ¬ Quiet s (.freeCtrl vfio) := not_not.mpr from_
          have does : s.calls (.freeCtrl vfio) = s.close := by
            unfold State.calls
            rw [set]
          rw [does]
          exact ⟨closes.1, closes.2.trans (by simp only [loud, imp_false])⟩
      | error e =>
          apply quiet
          · unfold State.calls
            rw [set]
          · intro from_
            rw [CtrlState.set_ok_iff.mpr ⟨from_, rfl⟩] at set
            cases set
  | init r =>
      apply quiet
      · unfold State.calls
        simp only
        split <;> rfl
      · trivial
  | _ => exact quiet rfl trivial

theorem step_some (hstep : step s a = some s') :
    s'.shm = (s.calls a).shm ∧ s'.ledger = (s.calls a).ledger := by
  obtain ⟨ctrl, -, rfl⟩ := Option.map_eq_some_iff.mp hstep
  exact ⟨rfl, rfl⟩

/-- In a run of an instance that holds nothing, nothing wrong is released exactly if no call cleans
up or there is no shared memory by the fields. -/
theorem run_wrong_iff (empty : s.ledger.held = []) (hrun : run step s acts = some t) :
    t.ledger.held = [] ∧
      (t.ledger.wrong = [] ↔
        s.ledger.wrong = [] ∧ (s.shm.Live → Guarded step Quiet s acts)) := by
  induction acts generalizing s with
  | nil =>
      cases hrun
      exact ⟨empty, (and_iff_left fun _ => trivial).symm⟩
  | cons a acts ih =>
      obtain ⟨next, hstep, hrest⟩ := run_cons_some hrun
      obtain ⟨shm, ledger⟩ := step_some hstep
      obtain ⟨held, wrong⟩ := calls_ledger (a := a) empty
      rw [calls_shm] at shm
      rw [← ledger] at held wrong
      obtain ⟨held', wrong'⟩ := ih held hrest
      refine ⟨held', ?_⟩
      rw [wrong', wrong, shm, Guarded, hstep, and_assoc, ← imp_and]

end Teardown

/-! ### Failed adds -/

section Add

variable {s t : State} {a : Args} {r : Replies} {acts : List Close.Act}

theorem isOk_error {ε α : Type} {e : ε} : (Except.error e : Except ε α).isOk = false := rfl

/-- A size that is positive as an `int` is so as a `size_t`. -/
theorem size_pos {x : BitVec 32} (pos : 0 < x.toInt) : 0 < x.signExtend 64 := by
  have low : (x.signExtend 64).toInt = x.toInt := BitVec.toInt_signExtend_of_le (by decide)
  have zero : (0 : BitVec 64).toInt = 0 := rfl
  have ne : x.signExtend 64 ≠ 0 := by
    intro same
    rw [same] at low
    omega
  exact Nat.pos_of_ne_zero fun none => ne (BitVec.eq_of_toNat_eq none)

/-- A failure takes back what there was, and leaves fields that tell of shared memory exactly if it
is the one of the IOMMU mapping. -/
theorem addShmem_fails (empty : s.ledger.held = []) (fields : s.shm = {})
    (pos : 0 < a.shmemSize.toInt) (fails : (addShmem s a r).1 ≠ 0) :
    (addShmem s a r).2.ctrl = s.ctrl ∧ (addShmem s a r).2.ledger = s.ledger ∧
      ((addShmem s a r).2.shm.Live ↔ r.mapped = true) := by
  have stale (x : Resource) (access : Bool) :
      (if access then s.ledger.held.erase x else s.ledger.held) = s.ledger.held := by
    rw [empty]
    exact ite_self []
  unfold addShmem at fails ⊢
  unfold Replies.mapped Fields.Live
  simp only [stale, fields] at fails ⊢
  cases asprintf : r.asprintf with
  | error e => simp [isOk_error]
  | ok u =>
      cases shmOpen : r.shmOpen with
      | error e => simp [isOk_error]
      | ok fd =>
          cases ftruncate : r.ftruncate with
          | error e => simp [isOk_error]
          | ok u =>
              cases mmap : r.mmap with
              | error e => simp [isOk_error]
              | ok vaddr =>
                  cases iommu : r.iommu with
                  | some iova => simp [asprintf, shmOpen, ftruncate, mmap, iommu] at fails
                  | none =>
                      have live := size_pos pos
                      have addr := vaddr.2.1
                      refine ⟨rfl, ?_, iff_of_true ⟨addr, live⟩ rfl⟩
                      simp only
                      rw [Ledger.releaseAll_cons, Ledger.release_acquire,
                        Ledger.releaseAll_acquireAll]

theorem unvmeAdd_registered (registered : s.registered = true) : unvmeAdd s a r = (0, s) :=
  if_pos registered

/-- After the initialisation there is the shared memory, if it is asked for. -/
theorem unvmeAdd_initialised (unregistered : s.registered = false) (init : Initialised a r) :
    unvmeAdd s a r =
      if 0 < a.shmemSize.toInt then addShmem (s.initCtrl r.init) a r
      else (0, s.initCtrl r.init) := by
  have made : (s.initCtrl r.init).registered = true := init.init
  unfold unvmeAdd
  simp only [unregistered, init.nrIoqs, init.iommuGroup, init.bind, made, Bool.false_eq_true,
    if_false, Bool.not_true]

/-- What a failure leaves: a registered instance that holds nothing. -/
theorem unvmeAdd_fails (unregistered : s.registered = false) (clean : s.ledger = {})
    (init : Initialised a r) (fails : (unvmeAdd s a r).1 ≠ 0) :
    (unvmeAdd s a r).2.registered = true ∧ (unvmeAdd s a r).2.ledger = {} ∧
      ((unvmeAdd s a r).2.shm.Live ↔ r.mapped = true) := by
  have made : (s.initCtrl r.init).registered = true := init.init
  rw [unvmeAdd_initialised unregistered init] at fails ⊢
  by_cases pos : 0 < a.shmemSize.toInt
  · rw [if_pos pos] at fails ⊢
    have empty : (s.initCtrl r.init).ledger.held = [] := congrArg Ledger.held clean
    obtain ⟨ctrl, ledger, live⟩ := addShmem_fails empty rfl pos fails
    refine ⟨?_, ledger.trans clean, live⟩
    rw [State.registered, ctrl]
    exact made
  · rw [if_neg pos] at fails
    exact absurd rfl fails

end Add

/-- After every failure of an add whose controller was initialised, the controller is registered,
so that the next add returns 0 and does nothing. The teardowns that follow release nothing that
was already released if and only if the failure is not the one of the IOMMU mapping, or none of
them cleans up; and nothing is left. -/
theorem add_fails (s : State) (unregistered : s.registered = false) (clean : s.ledger = {})
    (a : Args) (r : Replies) (init : Initialised a r) (fails : (unvmeAdd s a r).1 ≠ 0) :
    ¬ (unvmeAdd s a r).2.LeavesNothing ∧
      (∀ a' r', unvmeAdd (unvmeAdd s a r).2 a' r' = (0, (unvmeAdd s a r).2)) ∧
      ∀ acts t, run step (unvmeAdd s a r).2 acts = some t →
        t.ledger.held = [] ∧
          (t.ledger.wrong = [] ↔
            r.mapped = false ∨ Guarded step Quiet (unvmeAdd s a r).2 acts) := by
  obtain ⟨registered, ledger, live⟩ := unvmeAdd_fails unregistered clean init fails
  refine ⟨?_, fun a' r' => unvmeAdd_registered registered, ?_⟩
  · rintro ⟨gone, -⟩
    rw [registered] at gone
    cases gone
  · intro acts t hrun
    have empty : (unvmeAdd s a r).2.ledger.held = [] := congrArg Ledger.held ledger
    have none : (unvmeAdd s a r).2.ledger.wrong = [] := congrArg Ledger.wrong ledger
    obtain ⟨held, wrong⟩ := run_wrong_iff empty hrun
    refine ⟨held, wrong.trans ?_⟩
    rw [live]
    cases r.mapped with
    | false => simp [none]
    | true => simp [none]

/-- The daemon has no controller for the device. -/
def start : State := { ctrl := Close.start }

def args : Args := { dev := "0000:01:00.0".toList, nrIoqs := 4, shmemSize := 4096 }

/-- The IOMMU does not map the shared memory. -/
def unmappable : Replies where
  iommuGroup := true
  bind := .ok ()
  init := ⟨false, true, some 4, true, fun _ => true⟩
  initErrno := 0
  asprintf := .ok ()
  access := false
  shmOpen := .ok 9
  ftruncate := .ok ()
  mmap := .ok ⟨0x7f0000000000, by decide⟩
  iommu := none

theorem unmappable_init : Initialised args unmappable := ⟨by decide, rfl, rfl, by decide⟩

/-- The controller stays, and when it is deleted its shared memory is released again. -/
theorem unmappable_wrong :
    Initialised args unmappable ∧ (unvmeAdd start args unmappable).1 = -1 ∧
      (unvmeAdd start args unmappable).2.registered = true ∧
      ∃ t, run step (unvmeAdd start args unmappable).2 [.freeCtrl fun _ => true] = some t ∧
        t.ledger.wrong =
          [.mapping 0x7f0000000000 4096, .fd 9, .name "/unvmed-0000_01_00_0".toList] ∧
        ¬ (unvmeAdd start args unmappable).2.LeavesNothing := by
  refine ⟨unmappable_init, by decide, by decide, _, rfl, by decide, ?_⟩
  rintro ⟨gone, -⟩
  exact absurd gone (by decide)

theorem add_fails_unmappable : ∃ t,
    run step (unvmeAdd start args unmappable).2 [.freeVf fun _ => true] = some t ∧
      t.ledger.held = [] ∧ t.ledger.wrong ≠ [] := by
  obtain ⟨-, -, runs⟩ :=
    add_fails start rfl rfl args unmappable unmappable_init (by decide)
  obtain ⟨held, wrong⟩ := runs [.freeVf fun _ => true] _ rfl
  exact ⟨_, rfl, held, fun none => absurd (wrong.mp none) (by decide)⟩

end Unvmed.Ctrl.Shmem
