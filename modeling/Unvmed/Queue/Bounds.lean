import Unvmed.Queue.Drain

/-!
The array accesses of the completion paths (`lib/libunvmed.c`).

The command of an entry is looked up in `usq->cmds` with the entry's 16-bit id, and
`unvmed_cmd_cmpl` counts its opcode in `usq->cmd_count`. No path compares the id with
the length of `cmds`, and `cmd_count` has no element for the last opcode.

* `device_cqe_out_of_bounds`: an entry with an id past the end of `cmds`, and an entry
  for a command with opcode 255.
* `complete_in_bounds_iff`: a path stays inside the arrays if and only if the id has an
  element in `cmds` and the opcode of the command that it counts is not the last one.
-/

namespace Unvmed.Bounds

open Drain (RawCqe)

/-- `CMD_COUNT_RANGE` -/
def cmdCountRange : Nat := 255

/-- `struct unvme_sq`, as far as the completion paths index it. -/
structure Sq where
  refcnt : Nat
  cmds : List Cmd
  conflict : Cmd
  cmdCount : Vector Nat cmdCountRange

/-- `struct unvme`: the array `u->sqs`. -/
structure State where
  sqs : List (Option Sq)

/-- An access past the end of an array. -/
inductive Fault where
  | cmds (cid : Nat)
  | cmdCount (opcode : Nat)
  deriving DecidableEq, Repr

/-- The instance at `u->sqs[qid]`. -/
def State.sqAt (u : State) (qid : Nat) : Option Sq := (u.sqs[qid]?).join

/-- `unvmed_sq_find` -/
def State.sqFind (u : State) (qid : Nat) : Option Sq :=
  if qid ≥ u.sqs.length then none
  else match u.sqAt qid with
    | none => none
    | some usq => if usq.refcnt = 0 then none else some usq

def State.setSq (u : State) (qid : Nat) (usq : Sq) : State := ⟨u.sqs.set qid (some usq)⟩

/-- `&usq->cmds[cid]` -/
def Sq.cmdAt (usq : Sq) (cid : Nat) : Except Fault Cmd :=
  match usq.cmds[cid]? with
  | none => .error (.cmds cid)
  | some cmd => .ok cmd

def Sq.setCmd (usq : Sq) : Slot → Cmd → Sq
  | .cmd cid, cmd => { usq with cmds := usq.cmds.set cid cmd }
  | .conflict, cmd => { usq with conflict := cmd }

/-- What `unvmed_get_cmd_on_reaper` and `unvmed_get_cmd_from_cqe` do with the SQ they
found. -/
def Sq.getSubmitted (usq : Sq) (cid : Nat) : Except Fault (Option (Slot × Cmd)) := do
  let cmd ← usq.cmdAt cid
  if cmd.state ≠ .submitted then
    let cmd := usq.conflict
    if cmd.state ≠ .submitted ∨ cmd.cid ≠ cid then pure none else pure (some (.conflict, cmd))
  else pure (some (.cmd cid, cmd))

/-- `unvmed_get_cmd_on_reaper` -/
def State.getCmdOnReaper (u : State) (cqe : RawCqe) : Except Fault (Option (Sq × Slot × Cmd)) :=
  match u.sqFind cqe.sqid.toNat with
  | none => .ok none
  | some usq => do
      let found ← usq.getSubmitted cqe.cid.toNat
      pure (found.map fun (slot, cmd) => (usq, slot, cmd))

/-- `unvmed_get_cmd_from_cqe`: the same lookup, without the log. -/
def State.getCmdFromCqe (u : State) (cqe : RawCqe) : Except Fault (Option (Sq × Slot × Cmd)) :=
  u.getCmdOnReaper cqe

/-- `unvmed_get_cmd` -/
def Sq.getCmd (usq : Sq) (cid : Nat) : Except Fault (Option Cmd) := do
  let cmd ← usq.cmdAt cid
  if cmd.state = .init then pure none else pure (some cmd)

/-- `unvmed_cmd_cmpl`. The push to the VCQ is left out. -/
def Sq.cmdCmpl (usq : Sq) (slot : Slot) (cmd : Cmd) (cqe : RawCqe) : Except Fault Sq :=
  if counted : cmd.opcode < cmdCountRange then
    let usq := { usq with
      cmdCount := usq.cmdCount.set cmd.opcode (usq.cmdCount[cmd.opcode] + 1) }
    .ok (usq.setCmd slot
      (if cmd.wakeup then cmd.wake cqe.toCqe else cmd.setState .toBeCompleted))
  else .error (.cmdCount cmd.opcode)

/-- Who handles the entry. -/
inductive Path where
  /-- `__unvmed_reap_cqe` -/
  | reap
  /-- `unvmed_vcq_push_to_other`, by the thread with this `__vcq_qid`. -/
  | pushToOther (vcqQid : Option Nat)
  /-- `__unvmed_get_completion` for an SQ, with an entry of the CQ. -/
  | poll (sqid : Nat)
  /-- `__unvmed_get_completion` or `__unvmed_cq_run_n` for an SQ, with an entry of the
  caller's VCQ. -/
  | pop (sqid : Nat)

/-- What a path does with an entry. -/
def State.complete (u : State) (path : Path) (cqe : RawCqe) : Except Fault State :=
  match path with
  | .reap => do
      match ← u.getCmdOnReaper cqe with
      | none => pure u
      | some (usq, slot, cmd) => pure (u.setSq cqe.sqid.toNat (← usq.cmdCmpl slot cmd cqe))
  | .pushToOther vcqQid => do
      match ← u.getCmdFromCqe cqe with
      | none => pure u
      | some (usq, slot, cmd) =>
          if vcqQid = some cmd.vcq then pure u
          else pure (u.setSq cqe.sqid.toNat (usq.setCmd slot (cmd.setState .toBeCompleted)))
  | .poll sqid => match u.sqAt sqid with
      | none => .ok u
      | some usq => do
          match ← usq.getCmd cqe.cid.toNat with
          | none => pure u
          | some cmd => pure (u.setSq sqid (← usq.cmdCmpl (.cmd cqe.cid.toNat) cmd cqe))
  | .pop sqid => match u.sqAt sqid with
      | none => .ok u
      | some usq => do
          match ← usq.getCmd cqe.cid.toNat with
          | none => pure u
          | some cmd => pure (u.setSq sqid (usq.setCmd (.cmd cqe.cid.toNat) (cmd.record cqe.toCqe)))

/-! ### Two entries that leave the arrays -/

/-- SQ 1 with four slots; a command with opcode 255 is in flight with id 0. -/
def passthru : State where
  sqs :=
    [none, some
      { refcnt := 1
        cmds := [{ state := .submitted, opcode := 255 }, {}, {}, {}]
        conflict := {}
        cmdCount := .replicate _ 0 }]

/-- Ids have 16 bits and `cmds` four elements; opcodes have eight bits and `cmd_count`
255 elements. -/
theorem device_cqe_out_of_bounds :
    passthru.complete .reap ⟨0, 0, 1, 0xffff, 1⟩ = .error (.cmds 0xffff) ∧
      passthru.complete .reap ⟨0, 0, 1, 0, 1⟩ = .error (.cmdCount 255) ∧
      ¬∀ (u : State) (path : Path) (cqe : RawCqe), ∃ u', u.complete path cqe = .ok u' := by
  refine ⟨rfl, rfl, ?_⟩
  intro all
  obtain ⟨u', done⟩ := all passthru .reap ⟨0, 0, 1, 0xffff, 1⟩
  cases done

/-! ### When a path stays in bounds -/

/-- `cmd` is the submitted command with the id `cid`: the one in `cmds[cid]`, else the
conflict command. -/
def Sq.Submitted (usq : Sq) (cid : Nat) (cmd : Cmd) : Prop :=
  cmd.state = .submitted ∧
    (usq.cmds[cid]? = some cmd ∨
      (∀ other, usq.cmds[cid]? = some other → other.state ≠ .submitted) ∧
        cmd = usq.conflict ∧ cmd.cid = cid)

/-- The id of the entry has an element in `cmds`, and the opcode of the command that the
path counts, if it counts one, has an element in `cmd_count`. -/
def State.InBounds (u : State) (cqe : RawCqe) : Path → Prop
  | .reap => ∀ usq, u.sqFind cqe.sqid.toNat = some usq → cqe.cid.toNat < usq.cmds.length ∧
      ∀ cmd, usq.Submitted cqe.cid.toNat cmd → cmd.opcode < cmdCountRange
  | .pushToOther _ => ∀ usq, u.sqFind cqe.sqid.toNat = some usq →
      cqe.cid.toNat < usq.cmds.length
  | .poll sqid => ∀ usq, u.sqAt sqid = some usq → cqe.cid.toNat < usq.cmds.length ∧
      ∀ cmd, usq.cmds[cqe.cid.toNat]? = some cmd → cmd.state ≠ .init →
        cmd.opcode < cmdCountRange
  | .pop sqid => ∀ usq, u.sqAt sqid = some usq → cqe.cid.toNat < usq.cmds.length

section Lookups

variable {usq : Sq} {cid : Nat} {slot : Slot} {cmd : Cmd} {cqe : RawCqe}

theorem cmdAt_of_lt (inside : cid < usq.cmds.length) : usq.cmdAt cid = .ok usq.cmds[cid] := by
  simp [Sq.cmdAt, inside]

theorem cmdAt_of_not_lt (outside : ¬cid < usq.cmds.length) :
    usq.cmdAt cid = .error (.cmds cid) := by
  rw [Sq.cmdAt, List.getElem?_eq_none (by omega)]

/-- The lookup returns the submitted command with the id, if there is one. -/
theorem getSubmitted_spec (inside : cid < usq.cmds.length) :
    ∃ found, usq.getSubmitted cid = .ok found ∧
      ∀ cmd, usq.Submitted cid cmd ↔ ∃ slot, found = some (slot, cmd) := by
  have at_ := cmdAt_of_lt inside
  have here : usq.cmds[cid]? = some usq.cmds[cid] := List.getElem?_eq_getElem inside
  by_cases resident : usq.cmds[cid].state = .submitted
  · refine ⟨some (.cmd cid, usq.cmds[cid]), ?_, ?_⟩
    · simp [Sq.getSubmitted, at_, resident, bind, Except.bind, pure, Except.pure]
    · intro cmd
      constructor
      · rintro ⟨_, same | ⟨idle, _⟩⟩
        · rw [here] at same
          cases same
          exact ⟨_, rfl⟩
        · exact absurd resident (idle _ here)
      · rintro ⟨slot, same⟩
        cases same
        exact ⟨resident, .inl here⟩
  · by_cases conflict : usq.conflict.state = .submitted ∧ usq.conflict.cid = cid
    · refine ⟨some (.conflict, usq.conflict), ?_, ?_⟩
      · simp [Sq.getSubmitted, at_, resident, conflict, bind, Except.bind, pure, Except.pure]
      · intro cmd
        constructor
        · rintro ⟨submitted, same | ⟨_, rfl, _⟩⟩
          · rw [here] at same
            cases same
            exact absurd submitted resident
          · exact ⟨_, rfl⟩
        · rintro ⟨slot, same⟩
          cases same
          refine ⟨conflict.1, .inr ⟨?_, rfl, conflict.2⟩⟩
          intro other same
          rw [here] at same
          cases same
          exact resident
    · refine ⟨none, ?_, ?_⟩
      · have missing : usq.conflict.state ≠ .submitted ∨ usq.conflict.cid ≠ cid :=
          not_and_or.mp conflict
        simp [Sq.getSubmitted, at_, resident, missing, bind, Except.bind, pure, Except.pure]
      · intro cmd
        constructor
        · rintro ⟨submitted, same | ⟨_, rfl, named⟩⟩
          · rw [here] at same
            cases same
            exact absurd submitted resident
          · exact absurd ⟨submitted, named⟩ conflict
        · rintro ⟨slot, same⟩
          cases same

theorem cmdCmpl_ok_iff :
    (∃ usq', usq.cmdCmpl slot cmd cqe = .ok usq') ↔ cmd.opcode < cmdCountRange := by
  by_cases counted : cmd.opcode < cmdCountRange
  · simp [Sq.cmdCmpl, counted]
  · simp [Sq.cmdCmpl, counted]

theorem getCmd_of_lt (inside : cid < usq.cmds.length) :
    usq.getCmd cid =
      .ok (if usq.cmds[cid].state = .init then none else some usq.cmds[cid]) := by
  by_cases state : usq.cmds[cid].state = .init
  · simp [Sq.getCmd, cmdAt_of_lt inside, state, bind, Except.bind, pure, Except.pure]
  · simp [Sq.getCmd, cmdAt_of_lt inside, state, bind, Except.bind, pure, Except.pure]

theorem getCmd_of_not_lt (outside : ¬cid < usq.cmds.length) :
    usq.getCmd cid = .error (.cmds cid) := by
  simp [Sq.getCmd, cmdAt_of_not_lt outside, bind, Except.bind]

variable {u : State}

theorem getCmdOnReaper_unknown (sq : u.sqFind cqe.sqid.toNat = none) :
    u.getCmdOnReaper cqe = .ok none := by
  simp [State.getCmdOnReaper, sq]

theorem getCmdOnReaper_of_lt (sq : u.sqFind cqe.sqid.toNat = some usq)
    (inside : cqe.cid.toNat < usq.cmds.length) :
    ∃ found, u.getCmdOnReaper cqe = .ok (found.map fun (slot, cmd) => (usq, slot, cmd)) ∧
      ∀ cmd, usq.Submitted cqe.cid.toNat cmd ↔ ∃ slot, found = some (slot, cmd) := by
  obtain ⟨found, ok, submitted⟩ := getSubmitted_spec inside
  refine ⟨found, ?_, submitted⟩
  simp [State.getCmdOnReaper, sq, ok, bind, Except.bind, pure, Except.pure]

theorem getCmdOnReaper_of_not_lt (sq : u.sqFind cqe.sqid.toNat = some usq)
    (outside : ¬cqe.cid.toNat < usq.cmds.length) :
    u.getCmdOnReaper cqe = .error (.cmds cqe.cid.toNat) := by
  simp [State.getCmdOnReaper, sq, Sq.getSubmitted, cmdAt_of_not_lt outside, bind, Except.bind]

end Lookups

section Paths

variable (u : State) (cqe : RawCqe)

/-- A computation that ends after a completion is in bounds if the completion is. -/
theorem cmdCmpl_then_ok_iff {usq : Sq} {slot : Slot} {cmd : Cmd} {f : Sq → State} :
    (∃ u', (usq.cmdCmpl slot cmd cqe >>= fun usq => pure (f usq)) = .ok u') ↔
      cmd.opcode < cmdCountRange := by
  have counted : (∃ usq', usq.cmdCmpl slot cmd cqe = .ok usq') ↔ cmd.opcode < cmdCountRange :=
    cmdCmpl_ok_iff
  rw [← counted]
  cases usq.cmdCmpl slot cmd cqe with
  | error fault => simp [bind, Except.bind]
  | ok usq => simp [bind, Except.bind, pure, Except.pure]

theorem reap_in_bounds : (∃ u', u.complete .reap cqe = .ok u') ↔ u.InBounds cqe .reap := by
  cases sq : u.sqFind cqe.sqid.toNat with
  | none =>
      simp [State.complete, State.InBounds, getCmdOnReaper_unknown sq, sq, bind, Except.bind,
        pure, Except.pure]
  | some usq =>
      by_cases inside : cqe.cid.toNat < usq.cmds.length
      · obtain ⟨found, ok, submitted⟩ := getCmdOnReaper_of_lt sq inside
        cases found with
        | none =>
            simp [State.complete, State.InBounds, ok, sq, inside, submitted, bind, Except.bind,
              pure, Except.pure]
        | some found =>
            obtain ⟨slot, cmd⟩ := found
            have goes : u.complete .reap cqe = (usq.cmdCmpl slot cmd cqe >>= fun usq =>
                pure (u.setSq cqe.sqid.toNat usq)) := by
              simp [State.complete, ok, bind, Except.bind]
            rw [goes, cmdCmpl_then_ok_iff]
            simp [State.InBounds, sq, inside, submitted]
      · have outside := getCmdOnReaper_of_not_lt sq inside
        simp [State.complete, State.InBounds, outside, sq, inside, bind, Except.bind]

theorem pushToOther_in_bounds (vcqQid : Option Nat) :
    (∃ u', u.complete (.pushToOther vcqQid) cqe = .ok u') ↔
      u.InBounds cqe (.pushToOther vcqQid) := by
  cases sq : u.sqFind cqe.sqid.toNat with
  | none =>
      simp [State.complete, State.InBounds, State.getCmdFromCqe, getCmdOnReaper_unknown sq, sq,
        bind, Except.bind, pure, Except.pure]
  | some usq =>
      by_cases inside : cqe.cid.toNat < usq.cmds.length
      · obtain ⟨found, ok, _⟩ := getCmdOnReaper_of_lt sq inside
        have done : ∃ u', u.complete (.pushToOther vcqQid) cqe = .ok u' := by
          cases found with
          | none =>
              refine ⟨u, ?_⟩
              simp [State.complete, State.getCmdFromCqe, ok, bind, Except.bind, pure, Except.pure]
          | some found =>
              simp only [State.complete, State.getCmdFromCqe, ok, Option.map_some, bind,
                Except.bind]
              split <;> exact ⟨_, rfl⟩
        simp [State.InBounds, sq, inside, done]
      · have outside := getCmdOnReaper_of_not_lt sq inside
        simp [State.complete, State.InBounds, State.getCmdFromCqe, outside, sq, inside, bind,
          Except.bind]

theorem poll_in_bounds (sqid : Nat) :
    (∃ u', u.complete (.poll sqid) cqe = .ok u') ↔ u.InBounds cqe (.poll sqid) := by
  cases sq : u.sqAt sqid with
  | none => simp [State.complete, State.InBounds, sq]
  | some usq =>
      by_cases inside : cqe.cid.toNat < usq.cmds.length
      · by_cases state : usq.cmds[cqe.cid.toNat].state = .init
        · simp [State.complete, State.InBounds, sq, getCmd_of_lt inside, inside, state, bind,
            Except.bind, pure, Except.pure]
        · have goes : u.complete (.poll sqid) cqe =
              (usq.cmdCmpl (.cmd cqe.cid.toNat) usq.cmds[cqe.cid.toNat] cqe >>= fun usq =>
                pure (u.setSq sqid usq)) := by
            simp [State.complete, sq, getCmd_of_lt inside, state, bind, Except.bind]
          rw [goes, cmdCmpl_then_ok_iff]
          simp [State.InBounds, sq, inside, state]
      · simp [State.complete, State.InBounds, sq, getCmd_of_not_lt inside, inside, bind,
          Except.bind]

theorem pop_in_bounds (sqid : Nat) :
    (∃ u', u.complete (.pop sqid) cqe = .ok u') ↔ u.InBounds cqe (.pop sqid) := by
  cases sq : u.sqAt sqid with
  | none => simp [State.complete, State.InBounds, sq]
  | some usq =>
      by_cases inside : cqe.cid.toNat < usq.cmds.length
      · by_cases state : usq.cmds[cqe.cid.toNat].state = .init
        · simp [State.complete, State.InBounds, sq, getCmd_of_lt inside, inside, state, bind,
            Except.bind, pure, Except.pure]
        · simp [State.complete, State.InBounds, sq, getCmd_of_lt inside, inside, state, bind,
            Except.bind, pure, Except.pure]
      · simp [State.complete, State.InBounds, sq, getCmd_of_not_lt inside, inside, bind,
          Except.bind]

end Paths

/-- **In bounds.** A path handles an entry without leaving `cmds` and `cmd_count` if and
only if the id has an element in `cmds` and the opcode that is counted has one in
`cmd_count`. -/
theorem complete_in_bounds_iff (u : State) (path : Path) (cqe : RawCqe) :
    (∃ u', u.complete path cqe = .ok u') ↔ u.InBounds cqe path := by
  cases path with
  | reap => exact reap_in_bounds u cqe
  | pushToOther vcqQid => exact pushToOther_in_bounds u cqe vcqQid
  | poll sqid => exact poll_in_bounds u cqe sqid
  | pop sqid => exact pop_in_bounds u cqe sqid

end Unvmed.Bounds
