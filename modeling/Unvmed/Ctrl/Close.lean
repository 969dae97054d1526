import Unvmed.Ctrl.Recovery
import Unvmed.Ctrl.Irq

/-!
Opening and closing the device of a controller (`lib/libunvmed.c`).

`nvme_ctrl_init` opens the device when an instance is made, and again when a VF is
initialised after a partial teardown; `nvme_close` closes it. Which of the teardown functions
closes the device depends on whether the state machine admits `TEARDOWN`. CQs that come and
go set interrupt vectors up and free them meanwhile.

* `closed_once`: when `free(u)` runs, every open was closed once and every reaper
  thread joined, in every run whose steps are `Admitted`.
* `recovered_never_closed`: an instance that is freed in `VF_RECOVERED` is not closed.
-/

namespace Unvmed.Ctrl.Close

open Lib Irq

/-- An instance of `struct unvme`, and what was done to its device. -/
structure State where
  /-- `unvmed_init_ctrl` has made the instance. -/
  made : Bool
  st : CtrlState
  irqs : Irqs Nat
  /-- Successful calls of `nvme_ctrl_init`. -/
  opens : Nat
  /-- Calls of `nvme_close`. -/
  closes : Nat
  /-- `free(u)` has run. -/
  freed : Bool

/-- What an initialisation meets. -/
structure InitReads where
  /-- `pci_is_vf`, for an instance that is there already. -/
  vf : Bool
  /-- `nvme_ctrl_init` succeeds. -/
  ctrl : Bool
  /-- The vectors `unvmed_alloc_irqs` gets, or its failure. -/
  irqs : Option Nat
  /-- `__unvmed_bdf_to_int` of a new instance, or the callbacks of one that is there. -/
  rest : Bool
  /-- `vfio_disable_irq` of each vector. -/
  vfio : Nat → Bool

def State.close (s : State) : State := { s with closes := s.closes + 1 }

def State.setSt (s : State) (st : CtrlState) : State := { s with st := st }

def State.freeIrqs (s : State) (vfio : Nat → Bool) : State :=
  { s with irqs := s.irqs.freeIrqs vfio }

/-- `unvmed_free_ctrl`. -/
def State.freeCtrl (s : State) (vfio : Nat → Bool) : State :=
  match s.st.set .teardown with
  | .ok st => { ((s.setSt st).freeIrqs vfio).close with freed := true }
  | .error _ => { s with freed := true }

/-- `unvmed_free_vf_ctrl`, which does not look at the result of the state change. -/
def State.freeVfCtrl (s : State) (vfio : Nat → Bool) : State :=
  ((s.setSt (s.st.trySet .teardown)).freeIrqs vfio).close

/-- `__unvmed_reinit_ctrl`. -/
def State.reinitCtrl (s : State) (r : InitReads) : State :=
  if r.vf = false then s
  else if r.ctrl = false then s
  else
    let s := { s with opens := s.opens + 1 }
    match r.irqs with
    | none => s.close
    | some nr =>
        let s := { s with irqs := s.irqs.allocIrqs nr, st := s.st.trySet .vfRecovering }
        if r.rest = false then
          let s := (s.freeIrqs r.vfio).close
          s.setSt (s.st.trySet .teardown)
        else s.setSt (s.st.trySet .vfRecovered)

/-- `unvmed_init_ctrl` of a new instance. -/
def State.initFresh (s : State) (r : InitReads) : State :=
  let s := { s with made := true, st := .disabled }
  if r.ctrl = false then { s with freed := true }
  else
    let s := { s with opens := s.opens + 1 }
    match r.irqs with
    | none => { s.close with freed := true }
    | some nr =>
        let s := { s with irqs := s.irqs.allocIrqs nr }
        if r.rest = false then s.freeCtrl r.vfio else s

/-- `unvmed_init_ctrl`. -/
def State.initCtrl (s : State) (r : InitReads) : State :=
  if s.made = false then s.initFresh r
  else if s.st = .teardown then s.reinitCtrl r
  else s

/-- `unvmed_vf_start_invalidating`. While the state is `VF_ENABLED` or `RESETTING` it waits. -/
def vfStartInvalidating (st : CtrlState) (vf : Bool) : Option CtrlState :=
  if vf = false then some st
  else if st = .vfEnabled ∨ st = .resetting then none
  else some (st.trySet .vfInvalidating)

/-- The states that end the wait of `unvmed_vf_finish_invalidated`. -/
def exitState : List CtrlState :=
  [.vfInvalidated, .fatal, .enabled, .disabled, .resetting, .vfEnabled]

/-- `unvmed_vf_finish_invalidated`. -/
def vfFinishInvalidated (st old : CtrlState) (vf : Bool) (csts : List (BitVec 32)) :
    Option CtrlState :=
  if vf = false then some st
  else if old ∉ exitState ∧ st ∉ exitState then none
  else (poll false (fun csts => !cstsRdy csts || cstsCfs csts) csts).map fun
    | .done => st.trySet .vfInvalidated
    | .inaccessible | .cfs => st

/-- `unvmed_vf_check_reset_allowed`. -/
def vfCheckResetAllowed (st : CtrlState) (vf : Bool) : CtrlState :=
  if vf = true ∧ (st = .vfInvalidating ∨ st = .fatal) then st.trySet .vfInvalidated else st

/-- `__unvmed_enable_ctrl` with `state = false`: whether it succeeds. -/
def enableNoState (r : EnableReads) : Option Bool :=
  if inaccessible r.cc then some false
  else if ccEn r.cc then some false
  else (poll true cstsRdy r.csts).map (· == .done)

/-- `unvmed_enable_vf`. -/
def enableVf (st : CtrlState) (r : EnableReads) : Option CtrlState :=
  (enableNoState r).map fun
    | false => st
    | true => (st.setFallback .vfEnabled [.vfInvalidating, .vfInvalidated, .fatal] .vfInvalidated).2

inductive Act where
  /-- `unvmed_init_ctrl`. -/
  | init (r : InitReads)
  /-- Enable or one of the resets; the teardown has its own actions below. -/
  | ctrl (op : Op)
  | vfStart (vf : Bool)
  | vfFinish (old : CtrlState) (vf : Bool) (csts : List (BitVec 32))
  | vfCheck (vf : Bool)
  | freeVf (vfio : Nat → Bool)
  | enableVf (r : EnableReads)
  /-- A CQ with interrupts is created. -/
  | initIrq (vector : Nat) (o : InitOutcome)
  /-- Its last deletion, or `unvmed_free_ctx` for all vectors. -/
  | freeIrq (vector : Nat) (vfio : Bool)
  | freeIrqAll (vfio : Nat → Bool)
  /-- `unvmed_free_ctrl`. -/
  | freeCtrl (vfio : Nat → Bool)

/-- An instance that is there and not freed takes calls. -/
def step (s : State) : Act → Option State
  | .init r => if s.freed then none else some (s.initCtrl r)
  | .ctrl .teardown => none
  | .ctrl op =>
      if s.made ∧ s.freed = false then (op.exec s.st).map fun result => s.setSt result.2 else none
  | .vfStart vf =>
      if s.made ∧ s.freed = false then (vfStartInvalidating s.st vf).map s.setSt else none
  | .vfFinish old vf csts =>
      if s.made ∧ s.freed = false then (vfFinishInvalidated s.st old vf csts).map s.setSt else none
  | .vfCheck vf =>
      if s.made ∧ s.freed = false then some (s.setSt (vfCheckResetAllowed s.st vf)) else none
  | .freeVf vfio => if s.made ∧ s.freed = false then some (s.freeVfCtrl vfio) else none
  | .enableVf r =>
      if s.made ∧ s.freed = false then (Close.enableVf s.st r).map s.setSt else none
  | .initIrq vector o =>
      if s.made ∧ s.freed = false then some { s with irqs := (s.irqs.initIrq vector o).2 } else none
  | .freeIrq vector vfio =>
      if s.made ∧ s.freed = false ∧ vector < s.irqs.nr then
        some { s with irqs := s.irqs.freeIrq vector vfio }
      else none
  | .freeIrqAll vfio =>
      if s.made ∧ s.freed = false then some { s with irqs := s.irqs.freeIrqAll vfio } else none
  | .freeCtrl vfio => if s.made ∧ s.freed = false then some (s.freeCtrl vfio) else none

/-- Before `unvmed_init_ctrl`. -/
def start : State := ⟨false, .disabled, ⟨0, fun _ => {}, 0, 0⟩, 0, 0, false⟩

/-! ### Closed once -/

/-- When `free(u)` has run, every open was closed once and every thread joined. -/
def State.ClosedOnce (s : State) : Prop :=
  s.freed = true → s.closes = s.opens ∧ s.irqs.joined = s.irqs.started

/-- The partial teardown of a VF runs in a state that admits `TEARDOWN`, and the final one in
such a state or after a partial one. -/
def Admitted (s : State) : Act → Prop
  | .freeVf _ => s.st ∈ CtrlState.teardown.sources
  | .freeCtrl _ => s.st ∈ CtrlState.teardown.sources ∨ s.st = .teardown
  | .init _ | .ctrl _ | .vfStart _ | .vfFinish .. | .vfCheck _ | .enableVf _ | .initIrq ..
  | .freeIrq .. | .freeIrqAll _ => True

instance (s : State) : DecidablePred (Admitted s)
  | .freeVf _ => inferInstanceAs (Decidable (_ ∈ _))
  | .freeCtrl _ => inferInstanceAs (Decidable (_ ∨ _))
  | .init _ | .ctrl _ | .vfStart _ | .vfFinish .. | .vfCheck _ | .enableVf _ | .initIrq ..
  | .freeIrq .. | .freeIrqAll _ => .isTrue trivial

/-! ### The state machine -/

/-- The state is `TEARDOWN` afterwards exactly if it was before. -/
def SameTeardown (st st' : CtrlState) : Prop := st' = .teardown ↔ st = .teardown

theorem trySet_sameTeardown {st new : CtrlState} (notTeardown : new ≠ .teardown)
    (notFrom : CtrlState.teardown ∉ new.sources) : SameTeardown st (st.trySet new) := by
  unfold CtrlState.trySet
  cases set : st.set new with
  | error e => exact Iff.rfl
  | ok st' =>
      obtain ⟨from_, rfl⟩ := CtrlState.set_ok_iff.mp set
      refine iff_of_false notTeardown ?_
      rintro rfl
      exact notFrom from_

/-- Enable and the resets do not tear down. -/
theorem exec_sameTeardown {st : CtrlState} {op : Op} (notTeardown : op ≠ .teardown) :
    (op.exec st).All (SameTeardown st) := by
  have here : SameTeardown st st := Iff.rfl
  have other {new : CtrlState} (ne : new ≠ .teardown) (source : st ≠ .teardown) :
      SameTeardown st new := iff_of_false ne source
  have resets : st ∈ CtrlState.resetting.sources → Resets (SameTeardown st) := by
    intro from_
    have source : st ≠ .teardown := by
      rintro rfl
      exact absurd from_ (by decide)
    exact ⟨other (by decide) source, other (by decide) source, other (by decide) source⟩
  have enabling (from_ : st ∈ CtrlState.enabling.sources) : st ≠ .teardown := by
    rintro rfl
    exact absurd from_ (by decide)
  cases op with
  | enable r =>
      exact enableCtrl_all here
        (fun from_ => ⟨other (by decide) (enabling from_), other (by decide) (enabling from_)⟩)
        (fun from_ _ => other (by decide) (enabling from_))
  | reset r => exact resetCtrl_all here resets r
  | subsystemReset r => exact subsystemReset_all here resets r
  | flr r => exact flr_all here resets r
  | hotReset r => exact portReset_all here resets r
  | linkDisable r => exact portReset_all here resets r
  | teardown => exact absurd rfl notTeardown

theorem vfStart_sameTeardown {st st' : CtrlState} {vf : Bool}
    (done : vfStartInvalidating st vf = some st') : SameTeardown st st' := by
  unfold vfStartInvalidating at done
  split at done
  · cases done
    exact Iff.rfl
  · split at done <;> cases done
    exact trySet_sameTeardown (by decide) (by decide)

theorem vfFinish_sameTeardown {st st' old : CtrlState} {vf : Bool} {csts : List (BitVec 32)}
    (done : vfFinishInvalidated st old vf csts = some st') : SameTeardown st st' := by
  unfold vfFinishInvalidated at done
  split at done
  · cases done
    exact Iff.rfl
  · split at done
    · cases done
    · obtain ⟨poll, -, value⟩ := Option.map_eq_some_iff.mp done
      cases poll <;> cases value
      · exact trySet_sameTeardown (by decide) (by decide)
      · exact Iff.rfl
      · exact Iff.rfl

theorem vfCheck_sameTeardown (st : CtrlState) (vf : Bool) :
    SameTeardown st (vfCheckResetAllowed st vf) := by
  unfold vfCheckResetAllowed
  split
  · exact trySet_sameTeardown (by decide) (by decide)
  · exact Iff.rfl

theorem enableVf_sameTeardown {st st' : CtrlState} {r : EnableReads}
    (done : Close.enableVf st r = some st') : SameTeardown st st' := by
  obtain ⟨ok, -, value⟩ := Option.map_eq_some_iff.mp done
  cases ok with
  | false =>
      cases value
      exact Iff.rfl
  | true =>
      subst value
      unfold CtrlState.setFallback
      cases set : st.set .vfEnabled with
      | ok st' =>
          obtain ⟨from_, rfl⟩ := CtrlState.set_ok_iff.mp set
          have up : CtrlState.vfEnabled ≠ .teardown := by decide
          refine iff_of_false up ?_
          rintro rfl
          exact absurd from_ (by decide)
      | error e =>
          cases e with
          | already => exact Iff.rfl
          | inval =>
              simp only
              split
              · exact trySet_sameTeardown (by decide) (by decide)
              · exact Iff.rfl

/-! ### One step -/

/-- An instance that takes calls: its device is open unless the state is `TEARDOWN`. -/
structure State.Alive (s : State) : Prop where
  irqs : s.irqs.Sound
  closed : s.st = .teardown → s.opens = s.closes ∧ s.irqs.nr = 0
  opened : s.st ≠ .teardown → s.opens = s.closes + 1

/-- No instance was made yet. -/
structure State.Unmade (s : State) : Prop where
  balanced : s.opens = s.closes
  joined : s.irqs.started = s.irqs.joined

structure State.Inv (s : State) : Prop where
  unmade : s.made = false → s.freed = false ∧ s.Unmade
  alive : s.made = true → s.freed = false → s.Alive
  freed : s.ClosedOnce

theorem start_inv : start.Inv := by
  refine ⟨fun _ => ⟨rfl, rfl, rfl⟩, ?_, ?_⟩
  · intro made
    cases made
  · intro freed
    cases freed

theorem State.Alive.inv {s : State} (made : s.made = true) (notFreed : s.freed = false)
    (alive : s.Alive) : s.Inv := by
  refine ⟨?_, fun _ _ => alive, ?_⟩
  · intro unmade
    rw [made] at unmade
    cases unmade
  · intro freed
    rw [notFreed] at freed
    cases freed

theorem State.inv_of_freed {s : State} (made : s.made = true) (freed : s.freed = true)
    (closed : s.closes = s.opens ∧ s.irqs.joined = s.irqs.started) : s.Inv := by
  refine ⟨?_, ?_, fun _ => closed⟩
  · intro unmade
    rw [made] at unmade
    cases unmade
  · intro _ notFreed
    rw [freed] at notFreed
    cases notFreed

theorem State.Alive.setSt {s : State} (alive : s.Alive) {st : CtrlState}
    (same : SameTeardown s.st st) : (s.setSt st).Alive :=
  ⟨alive.irqs, fun down => alive.closed (same.mp down), fun up => alive.opened (mt same.mpr up)⟩

theorem State.Alive.freeCtrl {s : State} (made : s.made = true) (alive : s.Alive)
    (guard : s.st ∈ CtrlState.teardown.sources ∨ s.st = .teardown) (vfio : Nat → Bool) :
    (s.freeCtrl vfio).Inv := by
  unfold State.freeCtrl
  cases set : s.st.set .teardown with
  | ok st =>
      have from_ := (CtrlState.set_ok_iff.mp set).1
      have up : s.st ≠ .teardown := by
        intro down
        rw [down] at from_
        exact absurd from_ (by decide)
      exact State.inv_of_freed made rfl ⟨(alive.opened up).symm, (alive.irqs.freeIrqs vfio).symm⟩
  | error e =>
      rcases guard with from_ | down
      · rw [CtrlState.set_ok_iff.mpr ⟨from_, rfl⟩] at set
        cases set
      · obtain ⟨balanced, none⟩ := alive.closed down
        exact State.inv_of_freed made rfl ⟨balanced.symm, alive.irqs.joined none⟩

theorem State.Alive.freeVfCtrl {s : State} (alive : s.Alive)
    (guard : s.st ∈ CtrlState.teardown.sources) (vfio : Nat → Bool) : (s.freeVfCtrl vfio).Alive := by
  have set := CtrlState.set_ok_iff.mpr ⟨guard, rfl⟩
  have up : s.st ≠ .teardown := by
    intro down
    rw [down] at guard
    exact absurd guard (by decide)
  unfold State.freeVfCtrl CtrlState.trySet
  rw [set]
  refine ⟨?_, fun _ => ⟨alive.opened up, rfl⟩, fun down => absurd rfl down⟩
  obtain ⟨sound, joined⟩ := alive.irqs.freeIrqAll vfio
  exact ⟨sound.used, joined⟩

/-- `__unvmed_reinit_ctrl` of an instance in `TEARDOWN`. -/
theorem State.Alive.reinitCtrl {s : State} (alive : s.Alive) (down : s.st = .teardown)
    (r : InitReads) : (s.reinitCtrl r).Alive := by
  obtain ⟨balanced, none⟩ := alive.closed down
  have joined := alive.irqs.joined none
  unfold State.reinitCtrl
  split
  · exact alive
  · split
    · exact alive
    · simp only
      split
      · refine ⟨alive.irqs, fun _ => ⟨?_, none⟩, fun up => absurd down up⟩
        change s.opens + 1 = s.closes + 1
        omega
      · rename_i nr _
        have sound := Irqs.allocIrqs_sound (q := s.irqs) joined.symm nr
        rw [down]
        split
        · -- The callbacks fail, and the state goes back to `TEARDOWN`.
          refine ⟨?_, fun _ => ⟨?_, rfl⟩, fun up => absurd rfl up⟩
          · obtain ⟨sound, joined⟩ := sound.freeIrqAll r.vfio
            exact ⟨sound.used, joined⟩
          · change s.opens + 1 = s.closes + 1
            omega
        · refine ⟨sound, fun down => (by cases down), fun _ => ?_⟩
          change s.opens + 1 = s.closes + 1
          omega

theorem State.Unmade.initFresh {s : State} (h : s.Unmade) (r : InitReads) (notFreed : s.freed = false) :
    (s.initFresh r).Inv := by
  unfold State.initFresh
  simp only
  split
  · exact State.inv_of_freed rfl rfl ⟨h.balanced.symm, h.joined.symm⟩
  · split
    · refine State.inv_of_freed rfl rfl ⟨?_, h.joined.symm⟩
      change s.closes + 1 = s.opens + 1
      rw [h.balanced]
    · rename_i nr _
      have sound := Irqs.allocIrqs_sound h.joined nr
      have alive : State.Alive { s with
          made := true, st := .disabled, opens := s.opens + 1, irqs := s.irqs.allocIrqs nr } := by
        refine ⟨sound, fun down => (by cases down), fun _ => ?_⟩
        change s.opens + 1 = s.closes + 1
        rw [h.balanced]
      split
      · have admitted : CtrlState.disabled ∈ CtrlState.teardown.sources := by decide
        exact alive.freeCtrl rfl (.inl admitted) r.vfio
      · exact alive.inv rfl notFreed

/-- **Step lemma.** -/
theorem step_inv {s s' : State} {a : Act} (h : s.Inv) (guard : Admitted s a)
    (hstep : step s a = some s') : s'.Inv := by
  -- Calls that only change the state.
  have state {x : Option CtrlState} (live : s.made = true ∧ s.freed = false)
      (same : ∀ st, x = some st → SameTeardown s.st st) (taken : x.map s.setSt = some s') :
      s'.Inv := by
    obtain ⟨st, done, rfl⟩ := Option.map_eq_some_iff.mp taken
    exact ((h.alive live.1 live.2).setSt (same st done)).inv live.1 live.2
  cases a with
  | init r =>
      simp only [step] at hstep
      split at hstep
      · cases hstep
      · rename_i notFreed
        have notFreed : s.freed = false := Bool.eq_false_iff.mpr notFreed
        cases hstep
        unfold State.initCtrl
        split
        · rename_i unmade
          exact (h.unmade unmade).2.initFresh r notFreed
        · rename_i made
          have made : s.made = true := by simpa using made
          have alive := h.alive made notFreed
          split
          · rename_i down
            have kept : (s.reinitCtrl r).made = s.made ∧ (s.reinitCtrl r).freed = s.freed := by
              unfold State.reinitCtrl
              simp only
              split
              · exact ⟨rfl, rfl⟩
              · split
                · exact ⟨rfl, rfl⟩
                · split
                  · exact ⟨rfl, rfl⟩
                  · split <;> exact ⟨rfl, rfl⟩
            exact (alive.reinitCtrl down r).inv (kept.1.trans made) (kept.2.trans notFreed)
          · exact h
  | ctrl op =>
      have same (notTeardown : op ≠ .teardown)
          (taken : (if s.made = true ∧ s.freed = false then
            (op.exec s.st).map fun result => s.setSt result.2 else none) = some s') : s'.Inv := by
        split at taken
        · rename_i live
          obtain ⟨⟨ok, st⟩, done, rfl⟩ := Option.map_eq_some_iff.mp taken
          have kept := exec_sameTeardown notTeardown ok st done
          exact ((h.alive live.1 live.2).setSt kept).inv live.1 live.2
        · cases taken
      cases op with
      | teardown => cases hstep
      | enable r => exact same (by simp) hstep
      | reset r => exact same (by simp) hstep
      | subsystemReset r => exact same (by simp) hstep
      | flr r => exact same (by simp) hstep
      | hotReset r => exact same (by simp) hstep
      | linkDisable r => exact same (by simp) hstep
  | vfStart vf =>
      simp only [step] at hstep
      split at hstep
      · rename_i live
        exact state live (fun _ done => vfStart_sameTeardown done) hstep
      · cases hstep
  | vfFinish old vf csts =>
      simp only [step] at hstep
      split at hstep
      · rename_i live
        exact state live (fun _ done => vfFinish_sameTeardown done) hstep
      · cases hstep
  | vfCheck vf =>
      simp only [step] at hstep
      split at hstep
      · rename_i live
        cases hstep
        exact ((h.alive live.1 live.2).setSt (vfCheck_sameTeardown s.st vf)).inv live.1 live.2
      · cases hstep
  | freeVf vfio =>
      simp only [step] at hstep
      split at hstep
      · rename_i live
        cases hstep
        exact ((h.alive live.1 live.2).freeVfCtrl guard vfio).inv live.1 live.2
      · cases hstep
  | enableVf r =>
      simp only [step] at hstep
      split at hstep
      · rename_i live
        exact state live (fun _ done => enableVf_sameTeardown done) hstep
      · cases hstep
  | initIrq vector o =>
      simp only [step] at hstep
      split at hstep
      · rename_i live
        cases hstep
        have alive := h.alive live.1 live.2
        refine State.Alive.inv live.1 live.2 ⟨alive.irqs.initIrq vector o, ?_, alive.opened⟩
        intro down
        exact ⟨(alive.closed down).1, (Irqs.initIrq_nr ..).trans (alive.closed down).2⟩
      · cases hstep
  | freeIrq vector vfio =>
      simp only [step] at hstep
      split at hstep
      · rename_i live
        cases hstep
        have alive := h.alive live.1 live.2.1
        refine State.Alive.inv live.1 live.2.1
          ⟨alive.irqs.freeIrq live.2.2 vfio, ?_, alive.opened⟩
        intro down
        exact ⟨(alive.closed down).1, (Irqs.freeIrq_nr ..).trans (alive.closed down).2⟩
      · cases hstep
  | freeIrqAll vfio =>
      simp only [step] at hstep
      split at hstep
      · rename_i live
        cases hstep
        have alive := h.alive live.1 live.2
        refine State.Alive.inv live.1 live.2 ⟨(alive.irqs.freeIrqAll vfio).1, ?_, alive.opened⟩
        intro down
        have nr := (s.irqs.freeIrqAll_nr vfio).trans (alive.closed down).2
        exact ⟨(alive.closed down).1, nr⟩
      · cases hstep
  | freeCtrl vfio =>
      simp only [step] at hstep
      split at hstep
      · rename_i live
        cases hstep
        exact (h.alive live.1 live.2).freeCtrl live.1 guard vfio
      · cases hstep

/-! ### Runs -/

/-- **Teardown closes the device exactly once.** -/
theorem closed_once {as : List Act} {s : State} (admitted : Guarded step Admitted start as)
    (hrun : run step start as = some s) : s.ClosedOnce :=
  (run_inv (fun _ _ _ h guard hstep => step_inv h guard hstep) start_inv admitted hrun).freed

/-- An initialisation that meets no failure, with 4 vectors. -/
def initOk : InitReads := ⟨true, true, some 4, true, fun _ => true⟩

/-- A VF is enabled, invalidated by a reset of its PF, recovered, invalidated again and
freed. -/
def recovered : List Act :=
  [.init initOk, .ctrl (.enable ⟨0, [1]⟩), .initIrq 0 .ok, .vfFinish .enabled true [0],
    .freeVf fun _ => true, .init initOk, .enableVf ⟨0, [1]⟩, .initIrq 1 .ok,
    .vfFinish .vfEnabled true [0], .freeCtrl fun _ => true]

theorem recovered_closed : ∃ s, run step start recovered = some s ∧ s.freed = true ∧
    s.opens = 2 ∧ s.ClosedOnce :=
  ⟨_, rfl, rfl, rfl, closed_once (by decide : Guarded step _ start recovered) rfl⟩

/-- The recovered VF is freed before it is enabled. -/
def recoveredFreed : List Act :=
  [.init initOk, .vfFinish .disabled true [0], .freeVf fun _ => true, .init initOk,
    .freeCtrl fun _ => true]

/-- `VF_RECOVERED` does not admit `TEARDOWN`, and no other path owns the close. -/
theorem recovered_never_closed : ¬ ∀ as s, run step start as = some s → s.ClosedOnce := by
  intro all
  have closed := all recoveredFreed _ rfl rfl
  exact absurd closed.1 (by decide)

end Unvmed.Ctrl.Close
