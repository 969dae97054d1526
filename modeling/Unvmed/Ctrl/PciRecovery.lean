import Unvmed.Ctrl.PciReset
import Unvmed.Ctrl.Recovery

/-!
The resets through the configuration space, as the state of the controller sees them.

`Ctrl.flr` and `Ctrl.linkDisable` take whether a read succeeds; here this is computed from the replies
of the reads. What a call does with `n` turns for each loop is what they do with `n` answers for
each loop.

* `Reset.refines`: the two models end in the same way, once the searches have ended.
* `reset_recoverable`: after any calls of a controller, a reset whose searches end leaves it
  disabled if it succeeds, and in a state that can be recovered if it fails.
-/

namespace Unvmed.PciReset

open Lib PciCap
open Ctrl (CtrlState)

/-! ### The answers of a call -/

/-- `unvmed_pci_get_config` succeeds. -/
def Answer.passes {α : Type} (size : ℕ) (a : Answer α) : Bool :=
  a.opens && !lessThan (a.reply.ret size) size

/-- The value that a read leaves, if it succeeds. -/
def Read.summary {α : Type} (size : ℕ) (r : Read α) : Option α :=
  if r.passes size = true then some (r.get size r.old) else none

/-- The values that read `k` and the reads after it leave. -/
def Poll.summary {α : Type} (size : ℕ) (p : Poll α) (k n : ℕ) : List (Option α) :=
  (List.range' k n).map fun i =>
    if (p.answers i).passes size = true then some (p.before size (i + 1)) else none

def WaitReset.summary (w : WaitReset) (n : ℕ) : Ctrl.WaitReset where
  port := w.port
  linkCap := w.linkCap.summary 4
  linkStatus := w.linkStatus.summary 2 0 n
  bar0 := w.bar0.summary 8 0 n

def Restore.summary (r : Restore) (n : ℕ) : Ctrl.Restore where
  config := r.opens && r.write
  csts := (List.range' 0 n).map r.csts

def Flr.summary (e : Flr) (n : ℕ) : Ctrl.FlrReads where
  opens := e.opens
  cap := e.cap.summary 4
  backup := e.backup.passes 0x1000
  control := e.control.passes 2
  write := e.write
  wait := e.wait.summary n
  restore := e.restore.summary n

def LinkDisable.summary (e : LinkDisable) (n : ℕ) : Ctrl.PortReads where
  opens := e.port && e.opens
  control := decide (0 ≤ e.control.ret 2)
  backup := e.backup.passes 0x1000
  set := e.set
  clear := e.clear
  wait := e.wait.summary n
  restore := e.restore.summary n

/-- How a call ends. -/
def outcome : Option Bool → Outcome Unit
  | none => .running
  | some true => .done ()
  | some false => .failed

/-! ### Every step ends as its answers say -/

section Steps

variable {α β : Type} {addr size k n : ℕ} {c ok : Bool} {data : List (BitVec 8)}

theorem out_bind {x : Proc Access α} {f : α → Proc Access β} :
    ((x >>= f).run n).out = match (x.run n).out with
      | .running => .running
      | .failed => .failed
      | .done b => ((f b).run n).out := by
  rw [Proc.run_bind]
  cases h : (x.run n).out with
  | running => rw [Call.bind_running h]
  | failed => rw [Call.bind_failed h]
  | done b => rw [Call.bind_done h]

theorem out_check : ((Proc.check c : Proc Access Unit).run n).out = outcome (some c) := by
  cases c with
  | false => rfl
  | true => rfl

theorem out_pwrite : ((pwrite ok addr data).run n).out = outcome (some ok) := by
  cases ok with
  | false => rfl
  | true => rfl

theorem pciGetConfig_out (addr size : ℕ) (a : Answer α) (old : α) :
    (pciGetConfig addr size a old).out =
      if a.passes size = true then .done (a.get size old) else .failed := by
  rw [pciGetConfig, Answer.passes]
  cases a.opens with
  | false => rfl
  | true =>
      cases lessThan (a.reply.ret size) size with
      | false => rfl
      | true => rfl

theorem pollTurn_out (addr size k : ℕ) (stop : α → Bool) (p : Poll α) :
    (pollTurn addr size stop p (k, p.before size k)).out =
      if (p.answers k).passes size = true
      then .done (if stop (p.before size (k + 1)) = true then .inr ()
        else .inl (k + 1, p.before size (k + 1)))
      else .failed := by
  have call := pciGetConfig_out addr size (p.answers k) (p.before size k)
  rw [pollTurn]
  split
  · rename_i passes
    rw [if_pos passes] at call
    rw [Call.bind_done call]
    rfl
  · rename_i stops
    rw [if_neg stops] at call
    rw [Call.bind_failed call]

/-- The turns of a loop, and the answers in a list. -/
theorem poll_out {w : ℕ} {stop : BitVec w → Bool} {p : Poll (BitVec w)} :
    (Proc.iterateRun (pollTurn addr size stop p) n (k, p.before size k)).out =
      outcome (Ctrl.pollConfig stop (p.summary size k n)) := by
  induction n generalizing k with
  | zero => rfl
  | succ n ih =>
      have turn := pollTurn_out addr size k stop p
      rw [Proc.iterateRun, Poll.summary, List.range'_succ, List.map_cons]
      by_cases passes : (p.answers k).passes size = true
      · rw [if_pos passes] at turn ⊢
        rw [Call.bind_done turn, Ctrl.pollConfig]
        by_cases here : stop (p.before size (k + 1)) = true
        · rw [if_pos here, if_pos here]
          rfl
        · rw [if_neg here, if_neg here]
          exact ih
      · rw [if_neg passes] at turn ⊢
        rw [Call.bind_failed turn]
        rfl

theorem exec_poll_out {w : ℕ} {stop : BitVec w → Bool} {p : Poll (BitVec w)} :
    ((p.exec addr size stop).run n).out =
      outcome (Ctrl.pollConfig stop (p.summary size 0 n)) :=
  poll_out

theorem csts_out {r : Restore} :
    (Proc.iterateRun (cstsTurn r) n k).out =
      outcome ((Ctrl.poll false (fun csts => !Ctrl.cstsRdy csts)
        ((List.range' k n).map r.csts)).map (· == .done)) := by
  induction n generalizing k with
  | zero => rfl
  | succ n ih =>
      rw [Proc.iterateRun, List.range'_succ, List.map_cons, Ctrl.poll, cstsTurn]
      by_cases gone : r.csts k = BitVec.allOnes 32
      · have inaccessible : Ctrl.inaccessible (r.csts k) = true := beq_iff_eq.mpr gone
        rw [if_pos gone, if_pos inaccessible]
        rfl
      · have accessible : ¬ Ctrl.inaccessible (r.csts k) = true := fun all =>
          gone (beq_iff_eq.mp all)
        rw [if_neg gone, if_neg accessible, Bool.false_and, if_neg Bool.false_ne_true]
        cases ready : Ctrl.cstsRdy (r.csts k) with
        | true =>
            have waits : (r.csts k).getLsbD 0 = true := ready
            rw [if_pos waits, Bool.not_true, if_neg Bool.false_ne_true]
            exact ih
        | false =>
            have ends : ¬ (r.csts k).getLsbD 0 = true := by
              rw [show (r.csts k).getLsbD 0 = false from ready]
              exact Bool.false_ne_true
            rw [if_neg ends]
            rfl

end Steps

/-! ### The calls -/

section Calls

variable {n : ℕ} {st : CtrlState}

/-- A search that has ended gives an offset or -1. -/
theorem search_out {w : Walk} (ended : ((getPcieCapOffset w).run n).out ≠ .running) :
    ∃ ret, ((getPcieCapOffset w).run n).out = .done ret := by
  cases h : ((getPcieCapOffset w).run n).out with
  | running => exact absurd h ended
  | failed => exact absurd ⟨n, h⟩ not_fails_getPcieCapOffset
  | done ret => exact ⟨ret, rfl⟩

/-- The search ends after some number of turns. -/
theorem ends_iff (w : Walk) : w.Ends ↔ ∃ n, ((getPcieCapOffset w).run n).out ≠ .running := by
  rcases search_spec w with ⟨ret, ended⟩ | ⟨hangs, endless, -, -⟩
  · refine iff_of_true ended.ends ?_
    obtain ⟨n, done⟩ := returns_getPcieCapOffset.mpr ended.returns
    refine ⟨n, ?_⟩
    rw [done]
    nofun
  · refine iff_of_false endless ?_
    rintro ⟨n, ended⟩
    obtain ⟨ret, found⟩ := search_out ended
    exact hangs ret (returns_getPcieCapOffset.mp ⟨n, found⟩)

theorem out_check_bind {β : Type} {c : Bool} {f : Unit → Proc Access β} :
    ((Proc.check c >>= f).run n).out = if c = true then ((f ()).run n).out else .failed := by
  rw [out_bind, out_check]
  cases c with
  | false => rfl
  | true => rfl

theorem out_pwrite_bind {β : Type} {ok : Bool} {addr : ℕ} {data : List (BitVec 8)}
    {f : Unit → Proc Access β} :
    ((pwrite ok addr data >>= f).run n).out = if ok = true then ((f ()).run n).out else .failed := by
  rw [out_bind, out_pwrite]
  cases ok with
  | false => rfl
  | true => rfl

theorem out_exec_bind {α β : Type} {r : Read α} {addr size : ℕ} {f : α → Proc Access β} :
    ((r.exec addr size >>= f).run n).out =
      if r.passes size = true then ((f (r.get size r.old)).run n).out else .failed := by
  have call : ((r.exec addr size).run n).out = _ := pciGetConfig_out addr size r.toAnswer r.old
  rw [out_bind, call]
  by_cases passes : r.passes size = true
  · rw [if_pos passes, if_pos passes]
  · rw [if_neg passes, if_neg passes]

theorem restoreState_out {r : Restore} {config : List (BitVec 8)} :
    ((restoreState r config).run n).out = outcome (Ctrl.pciRestoreState (r.summary n)) := by
  rw [restoreState, out_check_bind, Ctrl.pciRestoreState, Restore.summary]
  cases r.opens with
  | false => rfl
  | true =>
      rw [if_pos rfl, out_pwrite_bind]
      cases r.write with
      | false => rfl
      | true => exact csts_out

theorem waitReset_out {w : WaitReset}
    (ended : ((getPcieCapOffset w.walk).run n).out ≠ .running) :
    ((waitReset w).run n).out = outcome (Ctrl.pciWaitReset (w.summary n)) := by
  obtain ⟨ret, found⟩ := search_out ended
  rw [waitReset, out_check_bind, Ctrl.pciWaitReset, WaitReset.summary]
  cases w.port with
  | false => rfl
  | true =>
      rw [if_pos rfl, out_bind, found]
      simp only [out_check_bind, noOffset_eq_false, Bool.not_false, if_true, out_exec_bind,
        Read.summary, Bool.true_eq_false, if_false]
      by_cases passes : w.linkCap.passes 4 = true
      · rw [if_pos passes, if_pos passes, out_bind, exec_poll_out, waitLink]
        by_cases link : (w.linkCap.get 4 w.linkCap.old).getLsbD 20 = true
        · rw [if_pos link, exec_poll_out]
          have active : (fun v : BitVec 16 => v.getLsbD 13) = linkActive := rfl
          simp only [if_pos link, active]
          rcases Ctrl.pollConfig linkActive (w.linkStatus.summary 2 0 n) with _ | _ | _
          · rfl
          · rfl
          · rfl
        · rw [if_neg link]
          simp only [if_neg link]
          rfl
      · rw [if_neg passes, if_neg passes]
        rfl

theorem after_out {w : WaitReset} {r : Restore} {config : List (BitVec 8)}
    (next : CtrlState → Ctrl.Result) (ended : ((getPcieCapOffset w.walk).run n).out ≠ .running)
    (returns : ∃ st', next st = some (true, st')) :
    ((waitReset w >>= fun _ => restoreState r config).run n).out =
      outcome ((Ctrl.waitAndRestore st (w.summary n) (r.summary n) next).map (·.1)) := by
  obtain ⟨st', last⟩ := returns
  rw [out_bind, waitReset_out ended, Ctrl.waitAndRestore]
  rcases Ctrl.pciWaitReset (w.summary n) with _ | _ | _
  · rfl
  · rfl
  · refine restoreState_out.trans ?_
    rcases Ctrl.pciRestoreState (r.summary n) with _ | _ | _
    · rfl
    · rfl
    · simp only [last]
      rfl

/-- The state admits the reset. -/
theorem setResetting_cases (st : CtrlState) :
    (setResetting st = true ∧ ∃ st', st.set .resetting = .ok st') ∨
      (setResetting st = false ∧ ∃ err, st.set .resetting = .error err) := by
  rw [setResetting]
  cases st.set .resetting with
  | ok st' => exact .inl ⟨rfl, st', rfl⟩
  | error err => exact .inr ⟨rfl, err, rfl⟩

/-- `unvmed_flr` ends as its answers say. -/
theorem flr_refines (e : Flr) (ended : ((getPcieCapOffset e.walk).run n).out ≠ .running)
    (waited : ((getPcieCapOffset e.wait.walk).run n).out ≠ .running) :
    ((flr e).run n).out = outcome ((Ctrl.flr e.state (e.summary n)).map (·.1)) := by
  obtain ⟨ret, found⟩ := search_out ended
  rw [flr, out_check_bind, Ctrl.flr, Flr.summary]
  cases e.opens with
  | false => rfl
  | true =>
      rw [if_pos rfl, out_bind, found]
      simp only [out_check_bind, noOffset_eq_false, Bool.not_false, if_true, out_exec_bind,
        out_pwrite_bind, Read.summary, Bool.true_eq_false, if_false]
      by_cases passes : e.cap.passes 4 = true
      swap
      · rw [if_neg passes, if_neg passes]
        rfl
      rw [if_pos passes, if_pos passes]
      cases bit : (e.cap.get 4 e.cap.old).getLsbD 28 with
      | false =>
          simp only [bit, Bool.false_eq_true, if_false, if_true]
          rfl
      | true =>
          simp only [bit, Bool.true_eq_false, if_false, if_true]
          rcases setResetting_cases e.state with ⟨may, st', entered⟩ | ⟨may, err, refused⟩
          · rw [may, entered]
            cases backup : e.backup.passes 0x1000 with
            | false => rfl
            | true =>
                cases control : e.control.passes 2 with
                | false => rfl
                | true =>
                    cases write : e.write with
                    | false => rfl
                    | true => exact after_out (fun st => some (true, Ctrl.resetCtx st)) waited ⟨_, rfl⟩
          · rw [may, refused]
            rfl

/-- `unvmed_link_disable` ends as its answers say. -/
theorem linkDisable_refines (e : LinkDisable)
    (ended : ((getPcieCapOffset e.walk).run n).out ≠ .running)
    (waited : ((getPcieCapOffset e.wait.walk).run n).out ≠ .running) :
    ((linkDisable e).run n).out =
      outcome ((Ctrl.linkDisable e.state (e.summary n)).map (·.1)) := by
  obtain ⟨ret, found⟩ := search_out ended
  rw [linkDisable, out_check_bind, Ctrl.linkDisable, Ctrl.portReset, LinkDisable.summary]
  cases e.port with
  | false => rfl
  | true =>
      rw [if_pos rfl, out_check_bind]
      cases e.opens with
      | false => rfl
      | true =>
          rw [if_pos rfl, out_check_bind]
          simp only [Bool.and_self, Bool.true_eq_false, if_false]
          rcases setResetting_cases e.state with ⟨may, st', entered⟩ | ⟨may, err, refused⟩
          swap
          · rw [may, refused]
            rfl
          rw [may, entered, if_pos rfl, out_bind, found]
          simp only [out_check_bind, noOffset_eq_false, Bool.not_false, if_true]
          by_cases failed : e.control = .error
          · rw [failed]
            rfl
          · have good : ¬ e.control.ret 2 < 0 := by rwa [Reply.ret_neg_iff]
            rw [pread, if_neg good, out_bind, decide_eq_true (not_lt.mp good)]
            simp only [out_exec_bind, out_pwrite_bind, Bool.true_eq_false, if_false]
            cases backup : e.backup.passes 0x1000 with
            | false => rfl
            | true =>
                cases set : e.set with
                | false => rfl
                | true =>
                    cases clear : e.clear with
                    | false => rfl
                    | true =>
                        exact after_out (fun st => some (true, Ctrl.resetCtx st)) waited ⟨_, rfl⟩

end Calls

/-! ### What a reset leaves -/

/-- A reset through the configuration space, and what it meets. -/
inductive Reset where
  | flr (e : Flr)
  | linkDisable (e : LinkDisable)

/-- The state that it finds. -/
def Reset.state : Reset → CtrlState
  | .flr e => e.state
  | .linkDisable e => e.state

def Reset.proc : Reset → Proc Access Unit
  | .flr e => PciReset.flr e
  | .linkDisable e => PciReset.linkDisable e

/-- The call as the state machine has it. -/
def Reset.op (n : ℕ) : Reset → Ctrl.Op
  | .flr e => .flr (e.summary n)
  | .linkDisable e => .linkDisable (e.summary n)

/-- Its own search for the capability ends, and that of the wait after it. -/
def Reset.Ends : Reset → Prop
  | .flr e => e.walk.Ends ∧ e.wait.walk.Ends
  | .linkDisable e => e.walk.Ends ∧ e.wait.walk.Ends

section Resets

variable {r : Reset} {st : CtrlState}

/-- Two searches that end have ended from some number of turns on. -/
theorem ended_of_ends {w w' : Walk} (ends : w.Ends ∧ w'.Ends) :
    ∃ k, ∀ n ≥ k, ((getPcieCapOffset w).run n).out ≠ .running ∧
      ((getPcieCapOffset w').run n).out ≠ .running := by
  obtain ⟨k, ended⟩ := (ends_iff w).mp ends.1
  obtain ⟨k', ended'⟩ := (ends_iff w').mp ends.2
  refine ⟨max k k', fun n later => ⟨?_, ?_⟩⟩
  · rwa [Proc.run_of_ended ended (le_of_max_le_left later)]
  · rwa [Proc.run_of_ended ended' (le_of_max_le_right later)]

/-- Once the searches have ended, the reset ends as the call of the state machine does. -/
theorem Reset.refines (ends : r.Ends) : ∃ k, ∀ n ≥ k,
    (r.proc.run n).out = outcome (((r.op n).exec r.state).map (·.1)) := by
  cases r with
  | flr e =>
      obtain ⟨k, ended⟩ := ended_of_ends ends
      exact ⟨k, fun n later => flr_refines e (ended n later).1 (ended n later).2⟩
  | linkDisable e =>
      obtain ⟨k, ended⟩ := ended_of_ends ends
      exact ⟨k, fun n later => linkDisable_refines e (ended n later).1 (ended n later).2⟩

/-- A call that succeeds leaves `DISABLED`. -/
def Disables (result : Ctrl.Result) : Prop := ∀ st, result = some (true, st) → st = .disabled

theorem disables_failed (st : CtrlState) : Disables (some (false, st)) := nofun

theorem disables_check {c : Prop} [Decidable c] {rest : Ctrl.Result} (disables : Disables rest) :
    Disables (if c then some (false, st) else rest) := by
  split
  · exact disables_failed st
  · exact disables

theorem disables_waitAndRestore (wait : Ctrl.WaitReset) (restore : Ctrl.Restore) :
    Disables (Ctrl.waitAndRestore .resetting wait restore
      fun st => some (true, Ctrl.resetCtx st)) := by
  unfold Ctrl.waitAndRestore
  rcases Ctrl.pciWaitReset wait with _ | _ | _
  · exact nofun
  · exact disables_failed _
  · rcases Ctrl.pciRestoreState restore with _ | _ | _
    · exact nofun
    · exact disables_failed _
    · rintro st ⟨⟩
      rfl

theorem Reset.disables (n : ℕ) (st : CtrlState) : Disables ((r.op n).exec st) := by
  cases r with
  | flr e =>
      change Disables (Ctrl.flr st (e.summary n))
      unfold Ctrl.flr
      apply disables_check
      cases (e.summary n).cap with
      | none => exact disables_failed st
      | some cap =>
          apply disables_check
          rcases Ctrl.set_resetting st with ⟨err, set⟩ | ⟨-, set⟩ <;> rw [set]
          · exact disables_failed st
          · apply disables_check
            apply disables_check
            apply disables_check
            exact disables_waitAndRestore _ _
  | linkDisable e =>
      change Disables (Ctrl.portReset st (e.summary n))
      unfold Ctrl.portReset
      apply disables_check
      rcases Ctrl.set_resetting st with ⟨err, set⟩ | ⟨-, set⟩ <;> rw [set]
      · exact disables_failed st
      · apply disables_check
        apply disables_check
        apply disables_check
        apply disables_check
        exact disables_waitAndRestore _ _

/-- **After a reset.** Whatever calls a controller has had, as long as no enable of them has found
it inaccessible or enabled: a reset through the configuration space whose searches end is still in
one of its loops, or has succeeded and left the controller `DISABLED`, or has failed and left a
state from which enabling, resetting and tearing down lead to `ENABLED` or to a completed
teardown. -/
theorem reset_recoverable (ops : List Ctrl.Op) (r : Reset)
    (guard : Guarded Ctrl.step Ctrl.FindsDisabled .disabled ops)
    (ran : run Ctrl.step .disabled ops = some r.state) (ends : r.Ends) :
    ∃ k, ∀ n ≥ k, match (r.proc.run n).out with
      | .running => (r.op n).exec r.state = none
      | .done _ => (r.op n).exec r.state = some (true, .disabled)
      | .failed => ∃ st, (r.op n).exec r.state = some (false, st) ∧ Ctrl.Recoverable st := by
  have settled : Ctrl.Settled r.state :=
    run_inv (fun _ _ _ settled guard went => Ctrl.step_settled settled guard went) (by decide) guard
      ran
  obtain ⟨k, refines⟩ := r.refines ends
  refine ⟨k, fun n later => ?_⟩
  rw [refines n later]
  have kept : ((r.op n).exec r.state).All Ctrl.Settled :=
    Ctrl.exec_settled settled (by cases r <;> trivial)
  rcases went : (r.op n).exec r.state with _ | ⟨_ | _, st⟩
  · rfl
  · exact ⟨st, rfl, (kept false st went).recoverable⟩
  · cases r.disables n r.state st went
    rfl

/-- A function reset of an enabled controller that has no downstream port to wait at. -/
def portless : Flr := { lostControl with wait := { noWait with walk := lostControl.walk } }

theorem reset_recoverable_portless : ∃ k, ∀ n ≥ k,
    ((Reset.flr portless).proc.run n).out = .failed ∧ Ctrl.Recoverable .resetting := by
  have search : portless.walk.Ends := .inr (.inr (.inr (.inr (.inr (.inl rfl)))))
  obtain ⟨k, after⟩ := reset_recoverable [.enable ⟨0, [1]⟩] (.flr portless)
    ⟨fun _ => ⟨rfl, rfl⟩, trivial⟩ rfl ⟨search, search⟩
  refine ⟨k, fun n later => ?_⟩
  have here := after n later
  have fails : ((Reset.flr portless).op n).exec (Reset.flr portless).state =
      some (false, .resetting) := rfl
  rw [fails] at here
  cases out : ((Reset.flr portless).proc.run n).out with
  | running | done =>
      rw [out] at here
      cases here
  | failed =>
      rw [out] at here
      obtain ⟨st, same, recoverable⟩ := here
      cases same
      exact ⟨rfl, recoverable⟩

end Resets

end Unvmed.PciReset
