import Unvmed.Lib.Run
import Unvmed.Ctrl.Context
import Unvmed.Ctrl.Recovery

/-!
The reset commands of the daemon (`src/unvmed-cmds.c`) and the saved context (`lib/libunvmed.c`).

With `--reinit` a command saves the driver context in `u->ctx_list` before it resets the controller
and restores it afterwards. `unvmed_ctx_init` refuses a list that is not empty, and
`unvmed_ctx_restore` empties it whether it succeeds or not. What the device answers is part of the
command; the resets themselves are those of `Unvmed.Ctrl.Recovery`.

* `ctx_cleared_iff`: the list is empty after every command of a run, no command is refused because
  of it and none restores entries of another command, if and only if no command with `--reinit`
  fails in the reset that follows its snapshot (`ResetDone`).
* `failed_flr_keeps_context`: a failing `unvme flr --reinit` leaves its snapshot, and the next
  command with `--reinit` is refused.
-/

namespace Unvmed.ResetCmd

open Lib
open Context (Ctx)
open Ctrl (CtrlState SubsystemReads FlrReads PortReads WaitReset Restore)

/-- The exit code of a command. -/
inductive Ret where
  | zero
  | enodev
  | einval
  | eexist
  /-- -1, or the `errno` of the reset or of the restore. -/
  | failed
  deriving DecidableEq, Repr

/-- The reset a command does, and what the device answers to it. -/
inductive Reset where
  | reset (graceful : Bool)
  /-- `nssrc` is `NVME_CAP_NSSRC(cap)`. -/
  | subsystemReset (nssrc : Bool) (r : SubsystemReads)
  | flr (r : FlrReads)
  | hotReset (r : PortReads)
  | linkDisable (r : PortReads)
  deriving Repr

structure Command where
  reset : Reset
  reinit : Bool
  /-- `unvmed_get` finds the device. -/
  added : Bool := true
  /-- `unvmed_ctx_init` reads CC and AQA as something else than all ones. -/
  cc : Bool := true
  aqa : Bool := true
  /-- What `__unvmed_ctx_restore` returns, entry by entry. -/
  restores : List Bool := []
  /-- The driver as the reset, `unvmed_free_ctx` and the restore leave it. -/
  after : Context.State

structure State where
  drv : Context.State
  /-- `u->ctx_list` -/
  ctxList : List Ctx
  /-- The exit code of the last command. -/
  ret : Ret
  /-- The entries the last command passed to `__unvmed_ctx_restore`. -/
  restored : List Ctx

/-- `unvmed_ctx_init` -/
def State.ctxInit (nrCqs nrSqs : Nat) (s : State) (c : Command) : Except Ret State :=
  if !s.ctxList.isEmpty then .error .eexist
  else if !c.cc then .error .enodev
  else if !c.aqa then .error .enodev
  else .ok { s with ctxList := s.drv.ctxInit nrCqs nrSqs }

/-- The loop of `unvmed_ctx_restore`: the entries it gets to, and whether all are restored. -/
def restoreLoop : List Bool → List Ctx → List Ctx × Bool
  | _, [] => ([], true)
  | false :: _, ctx :: _ => ([ctx], false)
  | true :: oks, ctx :: ctxs => ((ctx :: (restoreLoop oks ctxs).1), (restoreLoop oks ctxs).2)
  | [], ctx :: ctxs => ((ctx :: (restoreLoop [] ctxs).1), (restoreLoop [] ctxs).2)

/-- `unvmed_ctx_restore` -/
def State.ctxRestore (s : State) (oks : List Bool) : Bool × State :=
  let (restored, ok) := restoreLoop oks s.ctxList
  (ok, { s with ctxList := [], restored := restored })

/-- The return of a command. -/
def State.exit (s : State) (ret : Ret) : State := { s with ret := ret }

/-- `arg_boolv(reinit) && unvmed_ctx_init(u)` -/
def State.save (nrCqs nrSqs : Nat) (s : State) (c : Command) : Except Ret State :=
  if c.reinit then s.ctxInit nrCqs nrSqs c else .ok s

/-- `arg_boolv(reinit) && unvmed_ctx_restore(u)`, and the exit; `code` is the exit code of a
restore that fails. -/
def State.restore (s : State) (c : Command) (code : Ret) : State :=
  if c.reinit then
    let (ok, s) := s.ctxRestore c.restores
    s.exit (if ok then .zero else code)
  else s.exit .zero

/-- What the commands `subsystem-reset`, `flr`, `hot-reset` and `link-disable` have in common, from
the snapshot on. A reset that does not return is no step. -/
def State.pciReset (nrCqs nrSqs : Nat) (s : State) (c : Command)
    (exec : CtrlState → Ctrl.Result) : Option State :=
  match s.save nrCqs nrSqs c with
  | .error ret => some (s.exit ret)
  | .ok s => match exec s.drv.state with
      | none => none
      | some (false, st) => some ({ s with drv := { s.drv with state := st } }.exit .failed)
      | some (true, _) => some ({ s with drv := c.after }.restore c .einval)

/-- `unvme_reset`. It ignores what the reset returns. -/
def State.unvmeReset (nrCqs nrSqs : Nat) (s : State) (c : Command) : State :=
  if s.drv.state ≠ .enabled then s.exit .zero
  else match s.save nrCqs nrSqs c with
    | .error ret => s.exit ret
    | .ok s => { s with drv := c.after }.restore c .failed

/-- `unvme_subsystem_reset` -/
def State.unvmeSubsystemReset (nrCqs nrSqs : Nat) (s : State) (c : Command) (nssrc : Bool)
    (r : SubsystemReads) : Option State :=
  if !nssrc then some (s.exit .einval)
  else s.pciReset nrCqs nrSqs c fun st => Ctrl.subsystemReset st r

/-- `unvme_flr` -/
def State.unvmeFlr (nrCqs nrSqs : Nat) (s : State) (c : Command) (r : FlrReads) : Option State :=
  s.pciReset nrCqs nrSqs c fun st => Ctrl.flr st r

/-- `unvme_hot_reset` -/
def State.unvmeHotReset (nrCqs nrSqs : Nat) (s : State) (c : Command) (r : PortReads) :
    Option State :=
  s.pciReset nrCqs nrSqs c fun st => Ctrl.hotReset st r

/-- `unvme_link_disable` -/
def State.unvmeLinkDisable (nrCqs nrSqs : Nat) (s : State) (c : Command) (r : PortReads) :
    Option State :=
  s.pciReset nrCqs nrSqs c fun st => Ctrl.linkDisable st r

/-- One command, up to its return. -/
def step (nrCqs nrSqs : Nat) (s : State) (c : Command) : Option State :=
  let s := { s with restored := [] }
  if !c.added then some (s.exit .enodev)
  else match c.reset with
    | .reset _ => some (s.unvmeReset nrCqs nrSqs c)
    | .subsystemReset nssrc r => s.unvmeSubsystemReset nrCqs nrSqs c nssrc r
    | .flr r => s.unvmeFlr nrCqs nrSqs c r
    | .hotReset r => s.unvmeHotReset nrCqs nrSqs c r
    | .linkDisable r => s.unvmeLinkDisable nrCqs nrSqs c r

/-- A controller without a saved context. -/
def start (drv : Context.State) : State := ⟨drv, [], .zero, []⟩

/-! ### Saved contexts -/

/-- The command left no context, was not refused because of one, and restored entries of its own
snapshot only. -/
structure Clean (nrCqs nrSqs : Nat) (s : State) (s' : State) : Prop where
  empty : s'.ctxList = []
  admitted : s'.ret ≠ .eexist
  own : s'.restored <+: s.drv.ctxInit nrCqs nrSqs

/-- What the reset of a command returns. `unvme_reset` does not look at it, and `unvme_subsystem_reset`
asks for CAP.NSSRC before. -/
def Reset.Fails (st : CtrlState) : Reset → Prop
  | .reset _ => False
  | .subsystemReset nssrc r => nssrc = true ∧ (Ctrl.subsystemReset st r).map Prod.fst = some false
  | .flr r => (Ctrl.flr st r).map Prod.fst = some false
  | .hotReset r => (Ctrl.hotReset st r).map Prod.fst = some false
  | .linkDisable r => (Ctrl.linkDisable st r).map Prod.fst = some false

/-- The command takes no snapshot, or its reset does not fail. -/
def ResetDone (s : State) (c : Command) : Prop :=
  c.added = true → c.reinit = true → c.cc = true → c.aqa = true → ¬ c.reset.Fails s.drv.state

section Steps

variable {nrCqs nrSqs : Nat} {s : State} {c : Command}

/-- The entries the loop gets to are the first ones of the list. -/
theorem restoreLoop_takes_first : ∀ (oks : List Bool) (ctxs : List Ctx),
    (restoreLoop oks ctxs).1 <+: ctxs
  | _, [] => List.prefix_rfl
  | false :: _, _ :: ctxs => ⟨ctxs, rfl⟩
  | true :: oks, ctx :: ctxs => List.prefix_cons_inj ctx |>.mpr (restoreLoop_takes_first oks ctxs)
  | [], ctx :: ctxs => List.prefix_cons_inj ctx |>.mpr (restoreLoop_takes_first [] ctxs)

/-- A snapshot is never empty: its first entry is the controller. -/
theorem snapshot_ne_nil (u : Context.State) : u.ctxInit nrCqs nrSqs ≠ [] := List.cons_ne_nil _ _

/-- A command that ends before its snapshot. -/
theorem clean_exit {ret : Ret} (empty : s.ctxList = []) (admitted : ret ≠ .eexist) :
    Clean nrCqs nrSqs s ({ s with restored := [] }.exit ret) :=
  ⟨empty, admitted, List.nil_prefix⟩

/-- From the empty list, a snapshot fails on the registers only. -/
theorem save_of_empty (empty : s.ctxList = []) :
    s.save nrCqs nrSqs c =
      if c.reinit = true then
        if c.cc = true ∧ c.aqa = true then .ok { s with ctxList := s.drv.ctxInit nrCqs nrSqs }
        else .error .enodev
      else .ok s := by
  unfold State.save State.ctxInit
  rw [empty]
  cases c.reinit <;> cases c.cc <;> cases c.aqa <;> rfl

/-- A restore empties the list, and what it restores is what the list held. -/
theorem restore_clean {s₁ : State} {code : Ret} (other : code ≠ .eexist)
    (saved : s₁.ctxList = if c.reinit = true then s.drv.ctxInit nrCqs nrSqs else [])
    (fresh : s₁.restored = []) : Clean nrCqs nrSqs s (s₁.restore c code) := by
  unfold State.restore
  split
  · rename_i reinit
    rw [if_pos reinit] at saved
    refine ⟨rfl, ?_, ?_⟩
    · simp only [State.exit]
      split
      · decide
      · exact other
    · rw [← saved]
      exact restoreLoop_takes_first _ _
  · rename_i plain
    rw [if_neg plain] at saved
    refine ⟨saved, by simp [State.exit], ?_⟩
    simp only [State.exit, fresh]
    exact List.nil_prefix

/-- What `unvme_reset` does is clean from the empty list. -/
theorem unvmeReset_clean (empty : s.ctxList = []) :
    Clean nrCqs nrSqs s ({ s with restored := [] }.unvmeReset nrCqs nrSqs c) := by
  unfold State.unvmeReset
  split
  · exact clean_exit empty (by decide)
  · rw [save_of_empty (s := { s with restored := [] }) empty]
    by_cases reinit : c.reinit = true
    · rw [if_pos reinit]
      by_cases readable : c.cc = true ∧ c.aqa = true
      · rw [if_pos readable]
        exact restore_clean (by decide) (by rw [if_pos reinit]) rfl
      · rw [if_neg readable]
        exact clean_exit empty (by decide)
    · rw [if_neg reinit]
      exact restore_clean (by decide) (by rw [if_neg reinit]; exact empty) rfl

/-- The other commands are clean unless the reset after their snapshot fails. -/
theorem pciReset_clean_iff {exec : CtrlState → Ctrl.Result} {s' : State} (empty : s.ctxList = [])
    (done : { s with restored := [] }.pciReset nrCqs nrSqs c exec = some s') :
    Clean nrCqs nrSqs s s' ↔ (c.reinit = true → c.cc = true → c.aqa = true →
      ¬ (exec s.drv.state).map Prod.fst = some false) := by
  unfold State.pciReset at done
  rw [save_of_empty (s := { s with restored := [] }) empty] at done
  by_cases reinit : c.reinit = true
  · rw [if_pos reinit] at done
    by_cases readable : c.cc = true ∧ c.aqa = true
    · rw [if_pos readable] at done
      dsimp only at done
      split at done
      · cases done
      · rename_i result
        cases done
        -- The snapshot stays in the list.
        refine iff_of_false (fun clean => snapshot_ne_nil s.drv clean.empty) fun success => ?_
        exact success reinit readable.1 readable.2 (by rw [result]; rfl)
      · rename_i result
        cases done
        refine iff_of_true (restore_clean (by decide) (by rw [if_pos reinit]) rfl) ?_
        intro _ _ _ failing
        rw [result] at failing
        cases failing
    · rw [if_neg readable] at done
      cases done
      refine iff_of_true (clean_exit empty (by decide)) ?_
      exact fun _ cc aqa => absurd ⟨cc, aqa⟩ readable
  · rw [if_neg reinit] at done
    dsimp only at done
    refine iff_of_true ?_ fun here => absurd here reinit
    split at done
    · cases done
    · cases done
      exact ⟨empty, by simp [State.exit], List.nil_prefix⟩
    · cases done
      exact restore_clean (by decide) (by rw [if_neg reinit]; exact empty) rfl

/-- **Step lemma.** From the empty list, a command is clean exactly where its reset is done. -/
theorem clean_iff (s : State) (c : Command) (s' : State) (empty : s.ctxList = [])
    (hstep : step nrCqs nrSqs s c = some s') : Clean nrCqs nrSqs s s' ↔ ResetDone s c := by
  unfold step at hstep
  unfold ResetDone
  dsimp only at hstep
  by_cases added : c.added = true
  · simp only [added, Bool.not_true, Bool.false_eq_true, if_false] at hstep
    simp only [added, true_implies]
    cases hreset : c.reset with
    | reset graceful =>
        rw [hreset] at hstep
        cases hstep
        exact iff_of_true (unvmeReset_clean empty) fun _ _ _ => id
    | subsystemReset nssrc r =>
        simp only [hreset] at hstep
        cases nssrc with
        | false =>
            cases hstep
            refine iff_of_true (clean_exit empty (by decide)) ?_
            rintro _ _ _ ⟨supported, -⟩
            cases supported
        | true =>
            have pci : { s with restored := [] }.pciReset nrCqs nrSqs c
                (fun st => Ctrl.subsystemReset st r) = some s' := hstep
            rw [pciReset_clean_iff empty pci]
            simp [Reset.Fails]
    | flr r =>
        simp only [hreset] at hstep
        exact pciReset_clean_iff empty hstep
    | hotReset r =>
        simp only [hreset] at hstep
        exact pciReset_clean_iff empty hstep
    | linkDisable r =>
        simp only [hreset] at hstep
        exact pciReset_clean_iff empty hstep
  · rw [Bool.not_eq_true _ |>.mp added] at hstep
    cases hstep
    exact iff_of_true (clean_exit empty (by decide)) fun here => absurd here added

/-- A snapshot leaves the driver alone. -/
theorem save_drv {s₁ : State} (saved : s.save nrCqs nrSqs c = .ok s₁) : s₁.drv = s.drv := by
  unfold State.save State.ctxInit at saved
  split at saved
  · split at saved
    · cases saved
    · split at saved
      · cases saved
      · split at saved
        · cases saved
        · cases saved
          rfl
  · cases saved
    rfl

/-- A command does not return only where its reset does not. -/
theorem pciReset_blocked {exec : CtrlState → Ctrl.Result}
    (blocked : s.pciReset nrCqs nrSqs c exec = none) : exec s.drv.state = none := by
  unfold State.pciReset at blocked
  split at blocked
  · cases blocked
  · rename_i s₁ saved
    rw [save_drv saved] at blocked
    split at blocked
    · assumption
    · cases blocked
    · cases blocked

theorem done_of_blocked (s : State) (c : Command) (blocked : step nrCqs nrSqs s c = none) :
    ResetDone s c := by
  unfold step at blocked
  intro added reinit cc aqa failing
  simp only [added, Bool.not_true, Bool.false_eq_true, if_false] at blocked
  cases hreset : c.reset with
  | reset graceful =>
      simp only [hreset] at blocked
      cases blocked
  | subsystemReset nssrc r =>
      simp only [hreset, Reset.Fails] at blocked failing
      have pci : { s with restored := [] }.pciReset nrCqs nrSqs c
          (fun st => Ctrl.subsystemReset st r) = none := by
        rw [failing.1] at blocked
        exact blocked
      have silent : Ctrl.subsystemReset s.drv.state r = none := pciReset_blocked pci
      rw [silent] at failing
      cases failing.2
  | flr r =>
      simp only [hreset, Reset.Fails] at blocked failing
      have silent : Ctrl.flr s.drv.state r = none := pciReset_blocked blocked
      rw [silent] at failing
      cases failing
  | hotReset r =>
      simp only [hreset, Reset.Fails] at blocked failing
      have silent : Ctrl.hotReset s.drv.state r = none := pciReset_blocked blocked
      rw [silent] at failing
      cases failing
  | linkDisable r =>
      simp only [hreset, Reset.Fails] at blocked failing
      have silent : Ctrl.linkDisable s.drv.state r = none := pciReset_blocked blocked
      rw [silent] at failing
      cases failing

end Steps

/-- **Saved contexts.** From a controller without a saved context, and in every run of the commands:
each command leaves no context, is not refused because of one and restores entries of its own
snapshot only, if and only if no command fails in the reset that follows its snapshot. -/
theorem ctx_cleared_iff (nrCqs nrSqs : Nat) (drv : Context.State) (cs : List Command) :
    Guarded (step nrCqs nrSqs) ResetDone (start drv) cs ↔
      Steps (step nrCqs nrSqs) (fun s _ s' => Clean nrCqs nrSqs s s') (start drv) cs :=
  guarded_iff_steps (P := ResetDone) (Q := fun s _ s' => Clean nrCqs nrSqs s s')
    (I := fun s => s.ctxList = [])
    (fun s c s' empty reset hstep => ((clean_iff s c s' empty hstep).mpr reset).empty)
    (fun s c s' empty hstep => clean_iff s c s' empty hstep) done_of_blocked rfl

/-- An enabled controller without I/O queues. -/
def idleDriver : Context.State where
  state := .enabled
  cc := 0x460001
  aqa := 0x1f001f
  timeout := 5
  nrIrqs := 1
  nsids := []
  cqs _ := none
  sqs _ := none

/-- The function has no FLR, so `unvme flr --reinit` fails and leaves its snapshot. The next command
with `--reinit` is refused. -/
theorem failed_flr_keeps_context :
    ∃ s s', run (step 4 4) (start idleDriver)
        [{ reset := .flr ⟨true, some 0, true, true, true, ⟨true, some 0, [], []⟩, ⟨true, []⟩⟩
           reinit := true
           after := idleDriver }] = some s ∧ s.ctxList ≠ [] ∧
      step 4 4 s { reset := .reset false, reinit := true, after := idleDriver } = some s' ∧
      s'.ret = .eexist ∧ s'.ctxList ≠ [] :=
  ⟨_, _, rfl, List.cons_ne_nil _ _, rfl, rfl, List.cons_ne_nil _ _⟩

end Unvmed.ResetCmd
