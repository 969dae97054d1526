import Unvmed.Ctrl.State
import Unvmed.Lib.Run

/-!
Enabling and resetting a controller that misbehaves (`lib/libunvmed.c`).

The operations of a controller that is not a VF read registers and the config space of the
device, and each read may fail, return all ones, or never bring the value that is waited for.
What the device answers during a call is an argument of the call; a list of answers that runs
out is a call that does not return.

* `no_dead_end_iff`: every failing call leaves a state from which enable, reset and teardown
  lead to `ENABLED` or to a completed teardown, in a run, if and only if no enable of the run
  finds CC inaccessible or already enabled.
* `enable_stuck`: an enable that finds `CC.EN` set returns in `ENABLING`, which admits neither.
-/

namespace Unvmed.Ctrl

open Lib

/-! ### Registers -/

/-- A register that reads as all ones. -/
def inaccessible (v : BitVec 32) : Bool := v == BitVec.allOnes 32

/-- `NVME_CC_EN`. -/
def ccEn (cc : BitVec 32) : Bool := cc.getLsbD 0

/-- `NVME_CSTS_RDY`. -/
def cstsRdy (csts : BitVec 32) : Bool := csts.getLsbD 0

/-- `NVME_CSTS_CFS`. -/
def cstsCfs (csts : BitVec 32) : Bool := csts.getLsbD 1

/-- `NVME_CSTS_NSSRO`. -/
def cstsNssro (csts : BitVec 32) : Bool := csts.getLsbD 4

/-- How a loop that polls CSTS ends. -/
inductive Poll where
  | done
  | inaccessible
  | cfs
  deriving DecidableEq, Repr

/-- A loop that reads CSTS until `stop`; `cfs` if it also looks at `CSTS.CFS`. -/
def poll (cfs : Bool) (stop : BitVec 32 → Bool) : List (BitVec 32) → Option Poll
  | [] => none
  | csts :: rest =>
      if inaccessible csts then some .inaccessible
      else if cfs && cstsCfs csts then some .cfs
      else if stop csts then some .done
      else poll cfs stop rest

/-- A loop that reads the config space until `stop`; a failing read is `none`. -/
def pollConfig {w : Nat} (stop : BitVec w → Bool) : List (Option (BitVec w)) → Option Bool
  | [] => none
  | none :: _ => some false
  | some v :: rest => if stop v then some true else pollConfig stop rest

/-! ### What the device answers -/

/-- The reads of `unvmed_pci_wait_reset`. Its check of the capability offset compares an
unsigned 16-bit value with -1 and never fires. -/
structure WaitReset where
  /-- `unvmed_get_downstream_port` -/
  port : Bool
  linkCap : Option (BitVec 32)
  linkStatus : List (Option (BitVec 16))
  bar0 : List (Option (BitVec 64))
  deriving Repr

/-- `unvmed_pci_wait_reset`. -/
def pciWaitReset (r : WaitReset) : Option Bool :=
  if r.port = false then some false
  else match r.linkCap with
    | none => some false
    | some linkCap =>
        let link := if linkCap.getLsbD 20 then pollConfig (fun v => v.getLsbD 13) r.linkStatus
          else some true
        match link with
        | none => none
        | some false => some false
        | some true => pollConfig (fun v => v &&& ~~~ 0xf == 0) r.bar0

/-- The accesses of `unvmed_pci_restore_state`. -/
structure Restore where
  config : Bool
  csts : List (BitVec 32)
  deriving Repr

/-- `unvmed_pci_restore_state`. -/
def pciRestoreState (r : Restore) : Option Bool :=
  if r.config = false then some false
  else (poll false (fun csts => !cstsRdy csts) r.csts).map (· == .done)

structure EnableReads where
  cc : BitVec 32
  csts : List (BitVec 32)
  deriving Repr

structure ResetReads where
  cc : BitVec 32
  csts : List (BitVec 32)
  deriving Repr

structure SubsystemReads where
  backup : Bool
  wait : WaitReset
  restore : Restore
  csts : List (BitVec 32)
  deriving Repr

structure FlrReads where
  /-- `asprintf` and `open` of the config space. -/
  opens : Bool
  /-- The device capabilities. -/
  cap : Option (BitVec 32)
  backup : Bool
  control : Bool
  write : Bool
  wait : WaitReset
  restore : Restore
  deriving Repr

/-- The accesses of `unvmed_hot_reset` and of `unvmed_link_disable`, which set and clear a bit
of the downstream port. -/
structure PortReads where
  /-- `unvmed_get_downstream_port`, `asprintf` and `open`. -/
  opens : Bool
  control : Bool
  backup : Bool
  set : Bool
  clear : Bool
  wait : WaitReset
  restore : Restore
  deriving Repr

/-! ### The operations -/

/-- The result of a call: whether it succeeded, and the state it leaves. -/
abbrev Result := Option (Bool × CtrlState)

/-- `unvmed_enable_ctrl`. -/
def enableCtrl (st : CtrlState) (r : EnableReads) : Result :=
  match st.set .enabling with
  | .error _ => some (false, st)
  | .ok st =>
      if inaccessible r.cc then some (false, st)
      else if ccEn r.cc then some (false, st)
      else (poll true cstsRdy r.csts).map fun
        | .inaccessible | .cfs => (false, st.trySet .fatal)
        | .done => match st.set .enabled with
            | .error _ => (false, st)
            | .ok st => (true, st)

/-- `unvmed_reset_ctx`, as far as the state is concerned. -/
def resetCtx (st : CtrlState) : CtrlState := st.trySet .disabled

/-- `unvmed_reset_ctrl`. -/
def resetCtrl (st : CtrlState) (r : ResetReads) : Result :=
  if st = .disabled then some (false, st)
  else if st = .teardown then some (false, st)
  else match st.set .resetting with
    | .error _ => some (false, st)
    | .ok st =>
        if inaccessible r.cc then some (false, st)
        else (poll true (fun csts => !cstsRdy csts) r.csts).map fun
          | .inaccessible => (false, st)
          | .cfs => (false, st.trySet .fatal)
          | .done => (true, resetCtx st)

/-- The end of the PCI resets: wait for the reset and restore the config space. -/
def waitAndRestore (st : CtrlState) (wait : WaitReset) (restore : Restore)
    (next : CtrlState → Result) : Result :=
  match pciWaitReset wait with
  | none => none
  | some false => some (false, st)
  | some true => match pciRestoreState restore with
      | none => none
      | some false => some (false, st)
      | some true => next st

/-- `unvmed_subsystem_reset`. -/
def subsystemReset (st : CtrlState) (r : SubsystemReads) : Result :=
  match st.set .resetting with
  | .error _ => some (false, st)
  | .ok st =>
      if r.backup = false then some (false, st)
      else waitAndRestore st r.wait r.restore fun st =>
        (poll false cstsNssro r.csts).map fun
          | .done => (true, resetCtx st)
          | .inaccessible | .cfs => (false, st)

/-- `unvmed_flr`. -/
def flr (st : CtrlState) (r : FlrReads) : Result :=
  if r.opens = false then some (false, st)
  else match r.cap with
    | none => some (false, st)
    | some cap =>
        if cap.getLsbD 28 = false then some (false, st)
        else match st.set .resetting with
          | .error _ => some (false, st)
          | .ok st =>
              if r.backup = false then some (false, st)
              else if r.control = false then some (false, st)
              else if r.write = false then some (false, st)
              else waitAndRestore st r.wait r.restore fun st => some (true, resetCtx st)

/-- `unvmed_hot_reset` and `unvmed_link_disable`. -/
def portReset (st : CtrlState) (r : PortReads) : Result :=
  if r.opens = false then some (false, st)
  else match st.set .resetting with
    | .error _ => some (false, st)
    | .ok st =>
        if r.control = false then some (false, st)
        else if r.backup = false then some (false, st)
        else if r.set = false then some (false, st)
        else if r.clear = false then some (false, st)
        else waitAndRestore st r.wait r.restore fun st => some (true, resetCtx st)

/-- `unvmed_hot_reset`: the secondary bus reset of the bridge control. -/
def hotReset (st : CtrlState) (r : PortReads) : Result := portReset st r

/-- `unvmed_link_disable`: the link disable of the link control. Its check of the capability
offset never fires, for the reason it does not in `pciWaitReset`. -/
def linkDisable (st : CtrlState) (r : PortReads) : Result := portReset st r

/-- The teardown of `unvmed_free_ctrl`. -/
def teardownCtrl (st : CtrlState) : Result :=
  match st.set .teardown with
  | .error _ => some (false, st)
  | .ok st => some (true, st)

inductive Op where
  | enable (r : EnableReads)
  | reset (r : ResetReads)
  | subsystemReset (r : SubsystemReads)
  | flr (r : FlrReads)
  | hotReset (r : PortReads)
  | linkDisable (r : PortReads)
  | teardown
  deriving Repr

def Op.exec (st : CtrlState) : Op → Result
  | .enable r => enableCtrl st r
  | .reset r => resetCtrl st r
  | .subsystemReset r => Ctrl.subsystemReset st r
  | .flr r => Ctrl.flr st r
  | .hotReset r => Ctrl.hotReset st r
  | .linkDisable r => Ctrl.linkDisable st r
  | .teardown => teardownCtrl st

/-- The state after the call. A controller that was torn down takes no further calls. -/
def step (st : CtrlState) (op : Op) : Option CtrlState :=
  if st = .teardown then none else (op.exec st).map (·.2)

/-! ### What a call promises -/

/-- The device answers the call as it should. -/
def Op.Behaves : Op → Prop
  | .enable r => inaccessible r.cc = false ∧ ccEn r.cc = false ∧ poll true cstsRdy r.csts = some .done
  | .reset r => inaccessible r.cc = false ∧
      poll true (fun csts => !cstsRdy csts) r.csts = some .done
  | .teardown => True
  | .subsystemReset _ | .flr _ | .hotReset _ | .linkDisable _ => False

/-- With a device that behaves, enable, reset and teardown lead to `ENABLED` or to a
completed teardown. -/
def Recoverable (st : CtrlState) : Prop :=
  ∃ (ops : List Op) (end_ : CtrlState), (∀ op ∈ ops, op.Behaves) ∧ run step st ops = some end_ ∧
    (end_ = .enabled ∨ end_ = .teardown)

/-- A call that fails leaves a state that can be recovered. -/
def NoDeadEnd (st : CtrlState) (op : Op) (st' : CtrlState) : Prop :=
  op.exec st = some (false, st') → Recoverable st'

/-- An enable from `DISABLED` finds CC accessible and `CC.EN` clear. -/
def FindsDisabled (st : CtrlState) : Op → Prop
  | .enable r => st = .disabled → inaccessible r.cc = false ∧ ccEn r.cc = false
  | .reset _ | .subsystemReset _ | .flr _ | .hotReset _ | .linkDisable _ | .teardown => True

/-! ### One call -/

/-- The states in which a call of a controller that is not a VF may end, other than
`ENABLING`. -/
def Settled (st : CtrlState) : Prop :=
  st ∈ [CtrlState.disabled, .enabled, .resetting, .fatal, .teardown]

instance (st : CtrlState) : Decidable (Settled st) := inferInstanceAs (Decidable (_ ∈ _))

/-- Every settled state admits the teardown. -/
theorem Settled.recoverable {st : CtrlState} (settled : Settled st) : Recoverable st := by
  by_cases down : st = .teardown
  · exact ⟨[], st, fun _ none => (by cases none), rfl, .inr down⟩
  · refine ⟨[.teardown], .teardown, ?_, ?_, .inr rfl⟩
    · intro op mem
      rw [List.mem_singleton.mp mem]
      trivial
    · cases st with
      | disabled => rfl
      | enabled => rfl
      | resetting => rfl
      | fatal => rfl
      | teardown => exact absurd rfl down
      | enabling => exact absurd settled (by decide)
      | vfInvalidating => exact absurd settled (by decide)
      | vfInvalidated => exact absurd settled (by decide)
      | vfRecovering => exact absurd settled (by decide)
      | vfRecovered => exact absurd settled (by decide)
      | vfEnabled => exact absurd settled (by decide)

/-- The state a call leaves, if it returns. -/
def Result.All (P : CtrlState → Prop) (r : Result) : Prop := ∀ ok st, r = some (ok, st) → P st

section States

variable {P : CtrlState → Prop} {st : CtrlState}

theorem Result.all_some (here : P st) (ok : Bool) : Result.All P (some (ok, st)) := by
  intro ok' st' same
  cases same
  exact here

/-- A check that fails leaves the state. -/
theorem Result.all_check {c : Prop} [Decidable c] {rest : Result} (here : P st)
    (all : rest.All P) : Result.All P (if c then some (false, st) else rest) := by
  split
  · exact Result.all_some here false
  · exact all

theorem Result.all_map {α : Type} {x : Option α} {f : α → Bool × CtrlState}
    (all : ∀ a, P (f a).2) : Result.All P (x.map f) := by
  intro ok st same
  obtain ⟨a, -, value⟩ := Option.map_eq_some_iff.mp same
  have here := all a
  rw [value] at here
  exact here

/-- Where a reset goes, if the table admits it. -/
structure Resets (P : CtrlState → Prop) : Prop where
  resetting : P .resetting
  disabled : P .disabled
  fatal : P .fatal

theorem waitAndRestore_all {wait : WaitReset} {restore : Restore} {next : CtrlState → Result}
    (here : P st) (after : (next st).All P) : (waitAndRestore st wait restore next).All P := by
  unfold waitAndRestore
  cases pciWaitReset wait with
  | none => exact fun _ _ none => (by cases none)
  | some waited =>
      cases waited with
      | false => exact Result.all_some here false
      | true =>
          cases pciRestoreState restore with
          | none => exact fun _ _ none => (by cases none)
          | some restored =>
              cases restored with
              | false => exact Result.all_some here false
              | true => exact after

/-- A reset either is refused, or goes on in `RESETTING`. -/
theorem set_resetting (st : CtrlState) : (∃ e, st.set .resetting = .error e) ∨
    st ∈ CtrlState.resetting.sources ∧ st.set .resetting = .ok .resetting := by
  cases set : st.set .resetting with
  | error e => exact .inl ⟨e, rfl⟩
  | ok st' =>
      obtain ⟨from_, rfl⟩ := CtrlState.set_ok_iff.mp set
      exact .inr ⟨from_, rfl⟩

variable (here : P st) (resets : st ∈ CtrlState.resetting.sources → Resets P)
include here resets

theorem portReset_all (r : PortReads) : (portReset st r).All P := by
  unfold portReset
  apply Result.all_check here
  rcases set_resetting st with ⟨e, set⟩ | ⟨from_, set⟩ <;> rw [set]
  · exact Result.all_some here false
  · have resetting := (resets from_).resetting
    apply Result.all_check resetting
    apply Result.all_check resetting
    apply Result.all_check resetting
    apply Result.all_check resetting
    exact waitAndRestore_all resetting (Result.all_some (resets from_).disabled true)

theorem flr_all (r : FlrReads) : (Ctrl.flr st r).All P := by
  unfold Ctrl.flr
  apply Result.all_check here
  cases r.cap with
  | none => exact Result.all_some here false
  | some cap =>
      apply Result.all_check here
      rcases set_resetting st with ⟨e, set⟩ | ⟨from_, set⟩ <;> rw [set]
      · exact Result.all_some here false
      · have resetting := (resets from_).resetting
        apply Result.all_check resetting
        apply Result.all_check resetting
        apply Result.all_check resetting
        exact waitAndRestore_all resetting (Result.all_some (resets from_).disabled true)

theorem subsystemReset_all (r : SubsystemReads) : (Ctrl.subsystemReset st r).All P := by
  unfold Ctrl.subsystemReset
  rcases set_resetting st with ⟨e, set⟩ | ⟨from_, set⟩ <;> rw [set]
  · exact Result.all_some here false
  · have resetting := (resets from_).resetting
    apply Result.all_check resetting
    refine waitAndRestore_all resetting (Result.all_map ?_)
    intro poll
    cases poll with
    | done => exact (resets from_).disabled
    | inaccessible => exact resetting
    | cfs => exact resetting

theorem resetCtrl_all (r : ResetReads) : (resetCtrl st r).All P := by
  unfold resetCtrl
  apply Result.all_check here
  apply Result.all_check here
  rcases set_resetting st with ⟨e, set⟩ | ⟨from_, set⟩ <;> rw [set]
  · exact Result.all_some here false
  · have resetting := (resets from_).resetting
    apply Result.all_check resetting
    refine Result.all_map ?_
    intro poll
    cases poll with
    | done => exact (resets from_).disabled
    | inaccessible => exact resetting
    | cfs => exact (resets from_).fatal

omit resets in
/-- An enable leaves `ENABLING` only when it gives up before it has written CC. -/
theorem enableCtrl_all {r : EnableReads}
    (enables : st ∈ CtrlState.enabling.sources → P .fatal ∧ P .enabled)
    (stuck : st ∈ CtrlState.enabling.sources → inaccessible r.cc = true ∨ ccEn r.cc = true →
      P .enabling) : (enableCtrl st r).All P := by
  unfold enableCtrl
  cases set : st.set .enabling with
  | error e => exact Result.all_some here false
  | ok st' =>
      obtain ⟨from_, rfl⟩ := CtrlState.set_ok_iff.mp set
      simp only
      split
      · rename_i gone
        exact Result.all_some (stuck from_ (.inl gone)) false
      · split
        · rename_i on
          exact Result.all_some (stuck from_ (.inr on)) false
        · refine Result.all_map ?_
          intro poll
          cases poll with
          | done => exact (enables from_).2
          | inaccessible => exact (enables from_).1
          | cfs => exact (enables from_).1

end States

/-- **Step lemma.** A guarded call of a settled controller leaves it settled. -/
theorem exec_settled {st : CtrlState} {op : Op} (settled : Settled st) (guard : FindsDisabled st op) :
    (op.exec st).All Settled := by
  have resets : st ∈ CtrlState.resetting.sources → Resets Settled :=
    fun _ => ⟨by decide, by decide, by decide⟩
  cases op with
  | enable r =>
      refine enableCtrl_all settled (fun _ => ⟨by decide, by decide⟩) ?_
      intro from_ bad
      obtain ⟨accessible, clear⟩ := guard (List.mem_singleton.mp from_)
      simp [accessible, clear] at bad
  | reset r => exact resetCtrl_all settled resets r
  | subsystemReset r => exact subsystemReset_all settled resets r
  | flr r => exact flr_all settled resets r
  | hotReset r => exact portReset_all settled resets r
  | linkDisable r => exact portReset_all settled resets r
  | teardown =>
      change (teardownCtrl st).All Settled
      unfold teardownCtrl
      cases set : st.set .teardown with
      | error e => exact Result.all_some settled false
      | ok st' =>
          rw [(CtrlState.set_ok_iff.mp set).2]
          exact Result.all_some (by decide) true

/-! ### The dead end -/

/-- No call changes `ENABLING` any more. -/
theorem enabling_stays (op : Op) {st : CtrlState} (hstep : step .enabling op = some st) :
    st = .enabling := by
  have refused : op.exec .enabling = some (false, .enabling) := by
    cases op with
    | enable r => rfl
    | reset r => rfl
    | subsystemReset r => rfl
    | flr r =>
        simp only [Op.exec, Ctrl.flr]
        split
        · rfl
        · split
          · rfl
          · split
            · rfl
            · rfl
    | hotReset r =>
        simp only [Op.exec, hotReset, portReset]
        split
        · rfl
        · rfl
    | linkDisable r =>
        simp only [Op.exec, linkDisable, portReset]
        split
        · rfl
        · rfl
    | teardown => rfl
  simp only [step, refused] at hstep
  cases hstep
  rfl

theorem enabling_run {ops : List Op} {st : CtrlState} (hrun : run step .enabling ops = some st) :
    st = .enabling :=
  run_inv_all (I := fun st => st = .enabling)
    (fun _ op _ here hstep => enabling_stays op (here ▸ hstep)) rfl hrun

theorem enabling_not_recoverable : ¬ Recoverable .enabling := by
  rintro ⟨ops, end_, -, hrun, reached⟩
  rw [enabling_run hrun] at reached
  rcases reached with same | same <;> cases same

/-- An enable from `DISABLED` that finds CC inaccessible or enabled ends in `ENABLING`. -/
theorem enable_stuck_state {r : EnableReads} (bad : ¬ FindsDisabled .disabled (.enable r)) :
    (Op.enable r).exec .disabled = some (false, .enabling) := by
  simp only [Op.exec, enableCtrl]
  change (if inaccessible r.cc = true then some (false, CtrlState.enabling) else _) = _
  split
  · rfl
  · rename_i accessible
    rw [if_pos]
    by_contra clear
    exact bad fun _ => ⟨Bool.eq_false_iff.mpr accessible, Bool.eq_false_iff.mpr clear⟩

/-! ### Runs -/

theorem step_settled {st st' : CtrlState} {op : Op} (settled : Settled st)
    (guard : FindsDisabled st op) (hstep : step st op = some st') : Settled st' := by
  unfold step at hstep
  split at hstep
  · cases hstep
  · obtain ⟨⟨ok, _⟩, result, rfl⟩ := Option.map_eq_some_iff.mp hstep
    exact exec_settled settled guard ok _ result

/-- Under the invariant, a call can be recovered from exactly when it is guarded. -/
theorem noDeadEnd_iff {st st' : CtrlState} {op : Op} (settled : Settled st)
    (hstep : step st op = some st') : NoDeadEnd st op st' ↔ FindsDisabled st op := by
  constructor
  · intro fine
    by_contra bad
    cases op with
    | enable r =>
        by_cases disabled : st = .disabled
        · subst disabled
          have stuck := enable_stuck_state bad
          rw [step, if_neg (by decide), stuck] at hstep
          cases hstep
          exact enabling_not_recoverable (fine stuck)
        · exact bad fun here => absurd here disabled
    | reset r => exact bad trivial
    | subsystemReset r => exact bad trivial
    | flr r => exact bad trivial
    | hotReset r => exact bad trivial
    | linkDisable r => exact bad trivial
    | teardown => exact bad trivial
  · intro guard _
    exact (step_settled settled guard hstep).recoverable

/-- **No dead end, exactly when no enable finds the controller enabled or gone.** -/
theorem no_dead_end_iff (ops : List Op) :
    Steps step NoDeadEnd .disabled ops ↔ Guarded step FindsDisabled .disabled ops := by
  have settled : Settled .disabled := by decide
  refine (guarded_iff_steps (P := FindsDisabled) (Q := NoDeadEnd)
    (fun _ _ _ h guard hstep => step_settled h guard hstep)
    (fun _ _ _ h hstep => noDeadEnd_iff h hstep) ?_ settled).symm
  intro st op blocked
  cases op with
  | enable r =>
      rintro rfl
      by_contra bad
      have stuck : (Op.enable r).exec .disabled = some (false, .enabling) :=
        enable_stuck_state fun fine => bad (fine rfl)
      rw [step, if_neg (by decide), stuck] at blocked
      cases blocked
  | reset r => trivial
  | subsystemReset r => trivial
  | flr r => trivial
  | hotReset r => trivial
  | linkDisable r => trivial
  | teardown => trivial

/-- A controller that firmware has left enabled. -/
def leftEnabled : EnableReads := ⟨1, []⟩

/-- Its enable fails with `EEXIST` and leaves `ENABLING` for good. -/
theorem enable_stuck : ¬ ∀ ops, Steps step NoDeadEnd .disabled ops := by
  intro all
  have fine := (all ([] ++ [.enable leftEnabled])).last rfl rfl
  exact enabling_not_recoverable (fine (by decide))

end Unvmed.Ctrl
