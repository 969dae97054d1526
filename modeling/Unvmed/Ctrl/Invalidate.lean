import Unvmed.Lib.Run
import Unvmed.Basic
import Unvmed.Ctrl.State

/-!
Invalidation of a VF (`lib/libunvmed.c`).

`unvmed_vf_start_invalidating` loads the state of the controller, tries to commit
`UNVME_VF_INVALIDATING` until no reset is in flight, and returns the state it loaded.
`unvmed_vf_finish_invalidated` takes that value for the state before the commit and decides by it
whether to wait. Every change of the state is one step under `u->lock`; other threads change it
through `__unvmed_ctrl_set_state`, `__unvmed_ctrl_cmp_set_state` and
`unvmed_ctrl_set_state_fallback`.

* `handover_exact`: in every run where the state does not change between the load and the commit of
  a thread (`Calm`), the value returned is the state before the commit.
* `waited_out_wrong`: a thread that had to retry never returns the state before the commit.
* `commit_after_enabled`: the state that is enabled between the load and the commit.
-/

namespace Unvmed.Invalidate

open Lib
open Ctrl (CtrlState)

/-- `UNVME_VF_ENABLED | UNVME_RESETTING`: where `unvmed_vf_start_invalidating` tries again. -/
def retried : List CtrlState := [.vfEnabled, .resetting]

/-- `exit_state` of `unvmed_vf_finish_invalidated`. -/
def exitState : List CtrlState :=
  [.vfInvalidated, .fatal, .enabled, .disabled, .resetting, .vfEnabled]

/-- A successful `unvmed_vf_start_invalidating`: its value, and the state before its commit. -/
structure Handover where
  returned : CtrlState
  before : CtrlState
  deriving DecidableEq, Repr

/-- Where a thread is. -/
inductive Pc where
  | idle
  /-- In the loop of `unvmed_vf_start_invalidating`, which loaded `cur`. -/
  | spin (cur : CtrlState)
  /-- Next is `unvmed_vf_finish_invalidated` with the value returned. -/
  | committed (e : Handover)
  /-- In the wait loop of `unvmed_vf_finish_invalidated`. -/
  | wait (e : Handover)
  /-- In its loop over CSTS. -/
  | poll
  deriving DecidableEq, Repr

/-- What a read of CSTS shows. -/
inductive Csts where
  /-- 0xffffffff -/
  | gone
  /-- RDY and no CFS. -/
  | busy
  | settled
  deriving DecidableEq, Repr

structure State (ι : Type) where
  state : CtrlState
  /-- The successful calls of `unvmed_vf_start_invalidating`. -/
  log : List Handover
  pcs : ι → Pc

inductive Act (ι : Type) where
  /-- `unvmed_vf_start_invalidating` up to its load; `vf` says that the controller is a VF. -/
  | start (t : ι) (vf : Bool)
  /-- `__unvmed_ctrl_set_state` -/
  | set (t : ι) (new : CtrlState)
  /-- `__unvmed_ctrl_cmp_set_state` -/
  | cmpSet (t : ι) (olds : List CtrlState) (new : CtrlState)
  /-- `unvmed_ctrl_set_state_fallback` -/
  | setFallback (t : ι) (new : CtrlState) (curStates : List CtrlState) (fallback : CtrlState)
  | step (t : ι)
  | csts (t : ι) (c : Csts)
  deriving Repr

def Act.thread {ι : Type} : Act ι → ι
  | .start t _ | .set t _ | .cmpSet t _ _ | .setFallback t _ _ _ | .step t | .csts t _ => t

section Step

variable {ι : Type} [DecidableEq ι]

def State.goto (s : State ι) (t : ι) (pc : Pc) : State ι :=
  { s with pcs := Function.update s.pcs t pc }

/-- The next step of a thread inside the two functions. -/
def State.advance (s : State ι) (t : ι) : Pc → Option (State ι)
  | .idle | .poll => none
  | .spin cur =>
      -- `EAGAIN`
      if s.state ∈ retried then some s
      else match s.state.set .vfInvalidating with
        | .error _ => some (s.goto t .idle)
        | .ok new =>
            let e : Handover := ⟨cur, s.state⟩
            some ({ s with state := new, log := e :: s.log }.goto t (.committed e))
  | .committed e => some (s.goto t (if e.returned ∈ exitState then .poll else .wait e))
  | .wait _ => if s.state ∈ exitState then some (s.goto t .poll) else some s

def step (s : State ι) : Act ι → Option (State ι)
  | .start t vf =>
      if s.pcs t ≠ .idle then none else if vf then some (s.goto t (.spin s.state)) else some s
  | .set t new => if s.pcs t ≠ .idle then none else some { s with state := s.state.trySet new }
  | .cmpSet t olds new =>
      if s.pcs t ≠ .idle then none
      else if s.state ∈ olds then some { s with state := s.state.trySet new }
      else some s
  | .setFallback t new curStates fallback =>
      if s.pcs t ≠ .idle then none
      else some { s with state := (s.state.setFallback new curStates fallback).2 }
  | .step t => s.advance t (s.pcs t)
  | .csts t c =>
      if s.pcs t ≠ .poll then none
      else match c with
        | .gone => some (s.goto t .idle)
        | .busy => some s
        | .settled => some ({ s with state := s.state.trySet .vfInvalidated }.goto t .idle)

end Step

def start (ι : Type) (state : CtrlState) : State ι := ⟨state, [], fun _ => .idle⟩

/-! ### Runs -/

section Runs

variable {ι : Type}

/-- The thread is between its load and its commit. -/
def Pc.spins : Pc → Bool
  | .spin _ => true
  | _ => false

/-- Every value handed over is the state before the commit, and nobody waits who found the VF
settled. -/
structure State.Exact (s : State ι) : Prop where
  log : ∀ e ∈ s.log, e.returned = e.before
  waits : ∀ t e, s.pcs t = .wait e → e.before ∉ exitState

variable [DecidableEq ι]

/-- A step that changes the state is taken while no other thread is between its load and its
commit. -/
def Calm (s : State ι) (a : Act ι) : Prop :=
  match step s a with
  | none => True
  | some s' => s'.state ≠ s.state → ∀ t, t ≠ a.thread → (s.pcs t).spins = false

instance [Fintype ι] (s : State ι) (a : Act ι) : Decidable (Calm s a) := by
  unfold Calm
  split <;> infer_instance

/-- What a thread knows. -/
def Pc.Ok (state : CtrlState) : Pc → Prop
  | .spin cur => cur = state
  | .committed e => e.returned = e.before
  | .wait e => e.before ∉ exitState
  | .idle | .poll => True

structure State.Inv (s : State ι) : Prop where
  log : ∀ e ∈ s.log, e.returned = e.before
  threads : ∀ t, (s.pcs t).Ok s.state

omit [DecidableEq ι] in
/-- Only a thread in its loop knows the state. -/
theorem Pc.Ok.change {pc : Pc} {state state' : CtrlState} (h : pc.Ok state)
    (calm : state' ≠ state → pc.spins = false) : pc.Ok state' := by
  by_cases same : state' = state
  · rwa [same]
  · have loaded := calm same
    cases pc with
    | spin cur => cases loaded
    | committed e => exact h
    | wait e => exact h
    | idle => trivial
    | poll => trivial

/-- A thread moves, and the state may change. -/
theorem State.Inv.goto {s : State ι} (h : s.Inv) {t : ι} {pc : Pc} {state : CtrlState}
    {log : List Handover} (logged : ∀ e ∈ log, e.returned = e.before) (ok : pc.Ok state)
    (calm : state ≠ s.state → ∀ u, u ≠ t → (s.pcs u).spins = false) :
    (State.mk state log s.pcs |>.goto t pc).Inv := by
  refine ⟨logged, fun u => ?_⟩
  simp only [State.goto]
  by_cases mine : u = t
  · subst mine
    rw [Function.update_self]
    exact ok
  · rw [Function.update_of_ne mine]
    exact (h.threads u).change fun changed => calm changed u mine

/-- An idle thread changes the state. -/
theorem State.Inv.setState {s : State ι} (h : s.Inv) {t : ι} (idle : s.pcs t = .idle)
    {state : CtrlState} (calm : state ≠ s.state → ∀ u, u ≠ t → (s.pcs u).spins = false) :
    { s with state := state }.Inv := by
  refine ⟨h.log, fun u => (h.threads u).change fun changed => ?_⟩
  by_cases mine : u = t
  · rw [mine, idle]
    rfl
  · exact calm changed u mine

/-- **Step lemma.** -/
theorem step_inv (s : State ι) (a : Act ι) (s' : State ι) (h : s.Inv) (calm : Calm s a)
    (hstep : step s a = some s') : s'.Inv := by
  unfold Calm at calm
  rw [hstep] at calm
  cases a with
  | start t vf =>
      simp only [step] at hstep
      split at hstep
      · cases hstep
      · split at hstep <;> cases hstep
        · exact h.goto h.log rfl fun changed => absurd rfl changed
        · exact h
  | set t new =>
      simp only [step] at hstep
      split at hstep <;> cases hstep
      rename_i idle
      exact h.setState (not_not.mp idle) calm
  | cmpSet t olds new =>
      simp only [step] at hstep
      split at hstep
      · cases hstep
      · rename_i idle
        split at hstep <;> cases hstep
        · exact h.setState (not_not.mp idle) calm
        · exact h
  | setFallback t new curStates fallback =>
      simp only [step] at hstep
      split at hstep <;> cases hstep
      rename_i idle
      exact h.setState (not_not.mp idle) calm
  | step t =>
      have ok := h.threads t
      cases hpc : s.pcs t with
      | idle => simp [step, State.advance, hpc] at hstep
      | poll => simp [step, State.advance, hpc] at hstep
      | spin cur =>
          rw [hpc] at ok
          simp only [step, State.advance, hpc] at hstep
          split at hstep
          · cases hstep
            exact h
          · split at hstep
            · cases hstep
              exact h.goto h.log trivial fun changed => absurd rfl changed
            · cases hstep
              refine h.goto ?_ ok calm
              intro e mem
              rcases List.mem_cons.mp mem with rfl | old
              · exact ok
              · exact h.log e old
      | committed e =>
          rw [hpc] at ok
          simp only [step, State.advance, hpc, Option.some.injEq] at hstep
          subst hstep
          refine h.goto h.log ?_ fun changed => absurd rfl changed
          split
          · trivial
          · rename_i unsettled
            have same : e.returned = e.before := ok
            exact fun settled => unsettled (same ▸ settled)
      | wait e =>
          simp only [step, State.advance, hpc] at hstep
          split at hstep <;> cases hstep
          · exact h.goto h.log trivial fun changed => absurd rfl changed
          · exact h
  | csts t c =>
      simp only [step] at hstep
      split at hstep
      · cases hstep
      · cases c with
        | gone =>
            cases hstep
            exact h.goto h.log trivial fun changed => absurd rfl changed
        | busy =>
            cases hstep
            exact h
        | settled =>
            cases hstep
            exact h.goto h.log trivial calm

omit [DecidableEq ι] in
theorem start_inv (state : CtrlState) : (start ι state).Inv :=
  ⟨fun _ mem => absurd mem List.not_mem_nil, fun _ => trivial⟩

/-- **Hand-over.** In every run, from any state of the controller, in which no change of the state
comes between another thread's load and its commit, `unvmed_vf_start_invalidating` returns the state
before its commit, and `unvmed_vf_finish_invalidated` waits only where that state was not settled. -/
theorem handover_exact (state : CtrlState) {as : List (Act ι)} {s : State ι}
    (calm : Guarded step Calm (start ι state) as) (hrun : run step (start ι state) as = some s) :
    s.Exact := by
  have inv := run_inv step_inv (start_inv state) calm hrun
  refine ⟨inv.log, fun t e at_ => ?_⟩
  have ok := inv.threads t
  rw [at_] at ok
  exact ok

/-- A step that commits found no reset in flight. -/
theorem step_log (s : State ι) (a : Act ι) (s' : State ι) (hstep : step s a = some s') :
    s'.log = s.log ∨ ∃ e, s'.log = e :: s.log ∧ e.before ∉ retried := by
  cases a with
  | step t =>
      simp only [step, State.advance] at hstep
      split at hstep
      · cases hstep
      · cases hstep
      · split at hstep
        · cases hstep
          exact .inl rfl
        · rename_i free
          split at hstep <;> cases hstep
          · exact .inl rfl
          · exact .inr ⟨_, rfl, free⟩
      · cases hstep
        exact .inl rfl
      · split at hstep <;> cases hstep
        · exact .inl rfl
        · exact .inl rfl
  | start t vf =>
      simp only [step] at hstep
      split at hstep
      · cases hstep
      · split at hstep <;> cases hstep <;> exact .inl rfl
  | set t new =>
      simp only [step] at hstep
      split at hstep <;> cases hstep
      exact .inl rfl
  | cmpSet t olds new =>
      simp only [step] at hstep
      split at hstep
      · cases hstep
      · split at hstep <;> cases hstep <;> exact .inl rfl
  | setFallback t new curStates fallback =>
      simp only [step] at hstep
      split at hstep <;> cases hstep
      exact .inl rfl
  | csts t c =>
      simp only [step] at hstep
      split at hstep
      · cases hstep
      · cases c <;> cases hstep <;> exact .inl rfl

/-- In every run, a call that loaded a state it has to wait for returns another state than the one
before its commit. -/
theorem waited_out_wrong {state : CtrlState} {as : List (Act ι)} {s : State ι}
    (hrun : run step (start ι state) as = some s) :
    ∀ e ∈ s.log, e.returned ∈ retried → e.returned ≠ e.before := by
  have commits : ∀ e ∈ s.log, e.before ∉ retried := by
    refine run_inv_all (I := fun s : State ι => ∀ e ∈ s.log, e.before ∉ retried) ?_ ?_ hrun
    · intro s a s' h hstep e mem
      rcases step_log s a s' hstep with same | ⟨e', grown, free⟩
      · exact h e (same ▸ mem)
      · rw [grown] at mem
        rcases List.mem_cons.mp mem with rfl | old
        · exact free
        · exact h e old
    · exact fun e mem => absurd mem List.not_mem_nil
  intro e mem waited same
  exact commits e mem (same ▸ waited)

end Runs

/-- One thread invalidates an enabled VF, and another one disables the controller before. -/
theorem calm_handover :
    ∃ s, run step (start Thread .enabled) [.set .b .resetting, .set .b .disabled, .start .a true,
        .step .a, .step .a, .csts .a .settled] = some s ∧
      s.log = [⟨.disabled, .disabled⟩] ∧ s.Exact :=
  ⟨_, rfl, rfl, @handover_exact Thread _ .enabled
    [.set .b .resetting, .set .b .disabled, .start .a true, .step .a, .step .a, .csts .a .settled]
    _ (by decide) rfl⟩

/-- A VF that is loaded while it is being enabled is committed from `UNVME_ENABLED`: the value
returned is not the state before, and the settled VF is waited for. -/
theorem commit_after_enabled :
    ∃ s, run step (start Thread .enabling) [.start .a true, .set .b .enabled, .step .a, .step .a] =
        some s ∧
      s.log = [⟨.enabling, .enabled⟩] ∧ s.pcs .a = .wait ⟨.enabling, .enabled⟩ ∧ ¬ s.Exact := by
  refine ⟨_, rfl, rfl, rfl, fun exact_ => ?_⟩
  exact absurd (exact_.log ⟨.enabling, .enabled⟩ (by decide)) (by decide)

end Unvmed.Invalidate
