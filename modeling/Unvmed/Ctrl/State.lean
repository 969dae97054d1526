import Mathlib

/-!
The states of a controller (`lib/libunvmed.h`, `lib/libunvmed.c`).

`____unvmed_ctrl_set_state` checks a requested state against a table of the states it may
be entered from. Every function of the library changes the state through this table.
-/

namespace Unvmed.Ctrl

/-- `enum unvme_state`. -/
inductive CtrlState where
  | disabled
  | enabling
  | enabled
  | resetting
  | teardown
  | fatal
  | vfInvalidating
  | vfInvalidated
  | vfRecovering
  | vfRecovered
  | vfEnabled
  deriving DecidableEq, Repr

/-- The table of `____unvmed_ctrl_set_state`: where a state may be entered from. -/
def CtrlState.sources : CtrlState → List CtrlState
  | .disabled => [.resetting]
  | .enabling => [.disabled]
  | .enabled => [.enabling, .vfEnabled]
  | .resetting => [.enabled, .fatal]
  | .teardown => [.disabled, .enabled, .resetting, .fatal, .vfInvalidated, .vfRecovering]
  | .fatal => [.enabling, .resetting, .vfInvalidating, .enabled]
  | .vfInvalidating => [.enabled, .disabled, .resetting, .enabling, .fatal, .vfEnabled]
  | .vfInvalidated => [.enabled, .fatal, .disabled, .resetting, .vfInvalidating, .vfEnabled]
  | .vfRecovering => [.teardown]
  | .vfRecovered => [.vfRecovering]
  | .vfEnabled => [.disabled, .vfRecovered]

/-- `errno` of a refused change. -/
inductive SetErr where
  | already
  | inval
  deriving DecidableEq, Repr

/-- `____unvmed_ctrl_set_state`. -/
def CtrlState.set (old new : CtrlState) : Except SetErr CtrlState :=
  if old = new then .error .already
  else if old ∈ new.sources then .ok new
  else .error .inval

/-- The state after `__unvmed_ctrl_set_state`, which leaves it on a refusal. -/
def CtrlState.trySet (old new : CtrlState) : CtrlState :=
  match old.set new with
  | .ok st => st
  | .error _ => old

/-- `unvmed_ctrl_set_state_fallback`: whether the state was set, and the state. -/
def CtrlState.setFallback (cur new : CtrlState) (curStates : List CtrlState)
    (fallback : CtrlState) : Bool × CtrlState :=
  match cur.set new with
  | .ok st => (true, st)
  | .error .already => (true, cur)
  | .error .inval => if cur ∈ curStates then (false, cur.trySet fallback) else (false, cur)

/-- The table never admits a state to itself. -/
theorem CtrlState.not_mem_sources (st : CtrlState) : st ∉ st.sources := by
  cases st <;> decide

/-- A change succeeds exactly where the table admits it. -/
theorem CtrlState.set_ok_iff {old new st : CtrlState} :
    old.set new = .ok st ↔ old ∈ new.sources ∧ st = new := by
  unfold CtrlState.set
  split
  · rename_i same
    subst same
    simp [CtrlState.not_mem_sources]
  · split
    · rename_i may
      simp [may, eq_comm]
    · rename_i may
      simp [may]

end Unvmed.Ctrl
