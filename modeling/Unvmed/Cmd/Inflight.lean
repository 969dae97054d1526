import Unvmed.Cmd.Path

/-!
The in-flight counter `u->nr_cmds`.

A post adds one to the counter, a wakeup takes one off, and a call that returns
VCQ entries takes off their number. The counter is right while every completion
that reaches the application belongs to a post.

* `cancel_counts_below_zero`: a cancelled command that was allocated and never
  posted is delivered all the same, and the counter goes negative.
* `nr_cmds_counts_pending`: in every run where a completion is delivered only to
  a submitted command (`OnlySubmitted`), the counter is the number of posts whose
  completion was not handed to the application yet.
-/

namespace Unvmed.Path

open Lib

section Inflight

variable {ι : Type}

/-- The counter is the number of posts not handed to the application yet. -/
def State.InFlight (s : State ι) : Prop := s.nrCmds = s.pending.length

instance (s : State ι) : Decidable s.InFlight := inferInstanceAs (Decidable (_ = _))

/-- A completion of the command would reach the application. -/
def State.Deliverable (s : State ι) (r : Ref) : Prop :=
  (s.cmds r).wakeup = true ∨ (vcqGet s.vcqs (s.cmds r).vcq).isSome = true

instance (s : State ι) (r : Ref) : Decidable (s.Deliverable r) := inferInstanceAs (Decidable (_ ∨ _))

/-- Cancellation and polling deliver only to commands in `SUBMITTED`. -/
def OnlySubmitted (τ : Topo) (s : State ι) : Act ι → Prop
  | .cancel r | .cancelAllocated r => (s.cmds r).state = .allocated → ¬ s.Deliverable r
  | .iter t => match s.polls τ t with
      | none => True
      | some (sqid, cqe) =>
          let cmd := s.cmds ⟨sqid, .cmd cqe.cid⟩
          cmd.state = .submitted ∨ cmd.state = .init ∨ ¬ s.Deliverable ⟨sqid, .cmd cqe.cid⟩
  | _ => True

instance (τ : Topo) (s : State ι) (a : Act ι) : Decidable (OnlySubmitted τ s a) := by
  unfold OnlySubmitted
  split
  · infer_instance
  · infer_instance
  · split <;> infer_instance
  · infer_instance

/-- The entries for `r` that one call has taken. -/
def inCall (r : Ref) : Option Call → Nat
  | none => 0
  | some c => owned r c.got

def submitted (cmd : Cmd) : Nat := if cmd.state = .submitted then 1 else 0

variable [Fintype ι]

/-- Where a completion of `r` can be on its way to the application. -/
def State.underway (s : State ι) (r : Ref) : Nat :=
  tallyTo vcqMax (inVcq r) s.vcqs + tally (inCall r) s.calls + submitted (s.cmds r)

structure State.Balanced (s : State ι) : Prop where
  count : s.InFlight
  underway : ∀ r, s.underway r ≤ s.pending.count r

/-- **Step lemma.** A step that hands nothing over. -/
theorem State.Balanced.mono {s s' : State ι} (h : s.Balanced) (nrCmds : s'.nrCmds = s.nrCmds)
    (pending : s'.pending = s.pending) (underway : ∀ r, s'.underway r ≤ s.underway r) :
    s'.Balanced := by
  constructor
  · rw [State.InFlight, nrCmds, pending]
    exact h.count
  · intro r
    rw [pending]
    exact (underway r).trans (h.underway r)

theorem State.underway_setVcq (s : State ι) {qid : Nat} (hq : qid < vcqMax) (vcq : Option Vcq)
    (r : Ref) :
    (s.setVcq qid vcq).underway r + inVcq r (s.vcqs qid) = s.underway r + inVcq r vcq := by
  have := tallyTo_update hq (inVcq r) s.vcqs vcq
  simp only [State.underway, State.setVcq]
  omega

theorem State.underway_setCmd (s : State ι) (r r' : Ref) (cmd : Cmd) :
    (s.setCmd r cmd).underway r' + (if r' = r then submitted (s.cmds r) else 0) =
      s.underway r' + if r' = r then submitted cmd else 0 := by
  simp only [State.underway, State.setCmd]
  by_cases same : r' = r
  · subst same
    simp only [Function.update_self, if_true]
    omega
  · simp only [Function.update_of_ne same, if_neg same]

/-- A command leaves `SUBMITTED`, or changes in another field. -/
theorem State.Balanced.setCmd {s : State ι} (h : s.Balanced) {r : Ref} {m : Cmd}
    (less : submitted m ≤ submitted (s.cmds r)) : (s.setCmd r m).Balanced := by
  refine h.mono rfl rfl ?_
  intro r'
  have := s.underway_setCmd r r' m
  split at this <;> omega

theorem State.Balanced.popRing {s : State ι} (h : s.Balanced) (cqid : Nat) :
    (s.popRing cqid).Balanced :=
  ⟨h.count, h.underway⟩

theorem State.Balanced.incCount {s : State ι} (h : s.Balanced) (r : Ref) :
    (s.incCount r).Balanced :=
  ⟨h.count, h.underway⟩

/-- A completion delivered to a submitted command, or dropped. -/
theorem State.Balanced.completed {τ : Topo} {s s₁ : State ι} {r : Ref} {cqe : Cqe}
    (h : s.Balanced) (range : s.IdsInRange)
    (open_ : (s.cmds r).state = .submitted ∨ ¬ s.Deliverable r)
    (cmpl : Completed τ s r cqe s₁) : s₁.Balanced := by
  have room := h.underway r
  cases cmpl with
  | woken wakeup =>
      have sub : submitted (s.cmds r) = 1 :=
        if_pos (open_.resolve_right fun no => no (Or.inl wakeup))
      have moved : ∀ r', _ := fun r' =>
        (s.incCount r).underway_setCmd r r' ((s.cmds r).wake cqe)
      have mem : r ∈ s.pending := by
        simp only [State.underway] at room
        exact List.count_pos_iff.mp (by omega)
      have length := List.length_erase_of_mem mem
      have := List.length_pos_of_mem mem
      have count := h.count
      constructor
      · simp only [State.InFlight] at count ⊢
        omega
      · intro r'
        have := h.underway r'
        have := moved r'
        have done : submitted ((s.cmds r).wake cqe) = 0 := rfl
        have before : (s.incCount r).underway r' = s.underway r' := rfl
        have start : (s.incCount r).cmds r = s.cmds r := rfl
        show ((s.incCount r).setCmd r _).underway r' ≤ (s.pending.erase r).count r'
        rw [done, before, start, sub] at this
        rw [List.count_erase]
        by_cases same : r' = r
        · subst same
          simp only [if_true, beq_self_eq_true] at *
          omega
        · have : (r == r') = false := beq_false_of_ne (Ne.symm same)
          simp only [if_neg same, this, Bool.false_eq_true, if_false] at *
          omega
  | @pushed vcq silent registered =>
      have found := vcqGet_some registered
      have sub : submitted (s.cmds r) = 1 :=
        if_pos (open_.resolve_right fun no => no (Or.inr (by simp [registered])))
      have marked := (h.incCount r).setCmd (r := r)
        (m := ((s.cmds r).setState .toBeCompleted)) (Nat.zero_le _)
      have hq := range.registered _ _ found
      refine ⟨marked.count, ?_⟩
      intro r'
      have pushed := ((s.incCount r).setCmd r
        ((s.cmds r).setState .toBeCompleted)).underway_setVcq hq
          (some (vcq.push (s.entryFor τ r cqe))) r'
      have moved := (s.incCount r).underway_setCmd r r' ((s.cmds r).setState .toBeCompleted)
      have done : submitted ((s.cmds r).setState .toBeCompleted) = 0 := rfl
      have before : (s.incCount r).underway r' = s.underway r' := rfl
      have start : (s.incCount r).cmds r = s.cmds r := rfl
      have entries : ((s.incCount r).setCmd r ((s.cmds r).setState .toBeCompleted)).vcqs
          (s.cmds r).vcq = some vcq := found
      have := h.underway r'
      have owner : (s.entryFor τ r cqe).owner = r := rfl
      rw [entries, inVcq_push, owner] at pushed
      rw [done, before, start, sub] at moved
      show _ ≤ s.pending.count r'
      by_cases same : r' = r
      · rw [if_pos same, if_pos same] at moved
        rw [if_pos same.symm] at pushed
        omega
      · rw [if_neg same, if_neg same] at moved
        rw [if_neg (Ne.symm same)] at pushed
        omega
  | dropped silent unregistered =>
      exact (h.incCount r).setCmd (Nat.zero_le _)

variable [DecidableEq ι]

theorem State.underway_setCall (s : State ι) (t : ι) (c : Option Call) (r : Ref) :
    (s.setCall t c).underway r + inCall r (s.calls t) = s.underway r + inCall r c := by
  have := tally_update (inCall r) s.calls t c
  simp only [State.underway, State.setCall]
  omega

/-- A call goes on with the entries it has. -/
theorem State.Balanced.setCall {s : State ι} (h : s.Balanced) {t : ι} {c : Call}
    (same : ∀ r, inCall r (some c) ≤ inCall r (s.calls t)) : (s.setCall t (some c)).Balanced := by
  refine h.mono rfl rfl ?_
  intro r
  have := s.underway_setCall t (some c) r
  have := same r
  omega

/-- The entry at the head of a VCQ is dropped, or moves to the call that pops it. -/
theorem State.Balanced.pop {s : State ι} (h : s.Balanced) (range : s.IdsInRange) {t : ι} {c : Call}
    {qid : Nat} {vcq : Vcq} {e : Entry} {rest : List Entry} (call : s.calls t = some c)
    (found : s.vcqs qid = some vcq)
    (head : vcq.entries = e :: rest) :
    (s.setVcq qid (some { vcq with entries := rest })).Balanced ∧
      ((s.setVcq qid (some { vcq with entries := rest })).setCall t
        (some { c with got := c.got ++ [e] })).Balanced := by
  have hq := range.registered _ _ found
  have popped : ∀ r, (s.setVcq qid (some { vcq with entries := rest })).underway r +
      (if e.owner = r then 1 else 0) = s.underway r := fun r => by
    have := s.underway_setVcq hq (some { vcq with entries := rest }) r
    simp only [found, inVcq, head, owned_cons] at this
    omega
  refine ⟨h.mono rfl rfl ?_, h.mono rfl rfl ?_⟩
  · intro r
    have := popped r
    omega
  · intro r
    have := popped r
    have taken := (s.setVcq qid (some { vcq with entries := rest })).underway_setCall t
      (some { c with got := c.got ++ [e] }) r
    have before : (s.setVcq qid (some { vcq with entries := rest })).calls t = some c := call
    simp only [before, inCall, owned_append] at taken
    omega

/-- A call returns: its entries are handed to the application. -/
theorem State.Balanced.ret {s : State ι} (h : s.Balanced) {t : ι} {c : Call}
    (call : s.calls t = some c) :
    ({ s.setCall t none with
      nrCmds := s.nrCmds - c.got.length
      pending := s.pending.diff (c.got.map Entry.owner) } : State ι).Balanced := by
  have returned : ∀ r, (s.setCall t none).underway r + (c.got.map Entry.owner).count r =
      s.underway r := fun r => by
    have := s.underway_setCall t none r
    simp only [call, inCall, owned] at this
    omega
  have within : (c.got.map Entry.owner ++ s.pending.diff (c.got.map Entry.owner)).Perm s.pending := by
    apply List.subperm_append_diff_self_of_count_le
    intro r _
    have := returned r
    have := h.underway r
    omega
  have length := within.length_eq
  have count := h.count
  constructor
  · simp only [State.InFlight, List.length_append, List.length_map] at *
    omega
  · intro r
    have := returned r
    have := h.underway r
    rw [List.count_diff]
    show (s.setCall t none).underway r ≤ _
    omega

theorem step_balanced {τ : Topo} {s s' : State ι} {a : Act ι} (h : s.Balanced)
    (range : s.IdsInRange) (guard : OnlySubmitted τ s a) (hstep : step τ s a = some s') :
    s'.Balanced := by
  have effect := step_cases hstep
  cases effect with
  | alloc empty unposted => exact h.setCmd (Nat.zero_le _)
  | @post r live unposted =>
      have count := h.count
      constructor
      · simp only [State.InFlight, List.length_cons] at *
        omega
      · intro r'
        have := h.underway r'
        have moved := s.underway_setCmd r r' ((s.cmds r).setState .submitted)
        have one : submitted ((s.cmds r).setState .submitted) = 1 := rfl
        have counted : (s.setCmd r ((s.cmds r).setState .submitted)).underway r' ≤
            (r :: s.pending).count r' := by
          rw [one] at moved
          by_cases same : r' = r
          · subst same
            rw [List.count_cons_self]
            simp only [if_true] at moved
            omega
          · rw [List.count_cons_of_ne (Ne.symm same)]
            simp only [if_neg same] at moved
            omega
        exact counted
  | @free r live settled =>
      have freed := h.setCmd (r := r) (m := {}) (Nat.zero_le _)
      exact ⟨freed.count, freed.underway⟩
  | device working mapped => exact ⟨h.count, h.underway⟩
  | reapDropped head miss => exact h.popRing _
  | reaped head hit cmpl =>
      exact (h.completed range (Or.inl (getCmdOnReaper_some hit).1) cmpl).popRing _
  | cqRun idle => exact h.setCall fun r => Nat.zero_le _
  | vcqRun idle => exact h.setCall fun r => Nat.zero_le _
  | waited call nothing => exact h.setCall fun r => by rw [call]; rfl
  | popped call usq found head => exact (h.pop range call found head).2
  | recorded call usq arg found head hit =>
      have taken := (h.pop range call found head).2
      exact taken.setCmd (m := Cmd.record _ _) (Nat.zero_le _)
  | popDropped call usq arg found head miss =>
      exact (h.pop range call found head).1.setCall fun r => by
        show _ ≤ inCall r (s.calls _)
        rw [call]
        rfl
  | pollDropped call usq empty mapped polling head miss =>
      exact (h.popRing _).setCall fun r => by
        show _ ≤ inCall r (s.calls _)
        rw [call]
        rfl
  | @polled t c sqid cqid cqe rest done r s₁ call usq empty mapped polling head hit cmpl =>
      obtain ⟨rfl, live⟩ := getCmd_some hit
      simp only [OnlySubmitted, polls_eq call usq empty mapped polling head] at guard
      have open_ : (s.cmds ⟨sqid, .cmd cqe.cid⟩).state = .submitted ∨
          ¬ s.Deliverable ⟨sqid, .cmd cqe.cid⟩ :=
        guard.imp_right fun rest => rest.resolve_left live
      exact ((h.completed range open_ cmpl).popRing _).setCall fun r => by
        show _ ≤ inCall r (s₁.calls _)
        rw [cmpl.calls, call]
        rfl
  | ret call => exact h.ret call
  | @timedOut r cqe s₁ isSubmitted cmpl =>
      have flagged := h.setCmd (r := r) (m := { s.cmds r with timedout := true }) (Nat.le_refl _)
      refine flagged.completed ⟨range.free, range.registered⟩ (Or.inl ?_) cmpl
      simpa [State.setCmd] using isSubmitted
  | cancelled cmpl open_ => exact h.completed range (open_.imp_right guard) cmpl
  | cancelledAllocated cmpl allocated => exact h.completed range (Or.inr (guard allocated)) cmpl
  | cancelSkipped | cancelAllocatedSkipped | vcqInitFull => exact h
  | @vcqInit qsize qid rest next =>
      have hq := range.free qid (by rw [next]; exact List.mem_cons_self)
      refine ⟨h.count, ?_⟩
      intro r
      have moved := s.underway_setVcq hq (some ⟨s.nextReg, qsize, []⟩) r
      have empty : inVcq r (some ⟨s.nextReg, qsize, []⟩) = 0 := rfl
      have := h.underway r
      have fits : (s.setVcq qid (some ⟨s.nextReg, qsize, []⟩)).underway r ≤
          s.pending.count r := by omega
      exact fits
  | @vcqFree qid vcq found =>
      have hq := range.registered qid vcq found
      refine ⟨h.count, ?_⟩
      intro r
      have moved := s.underway_setVcq hq none r
      have empty : inVcq r none = 0 := rfl
      have := h.underway r
      have fits : (s.setVcq qid none).underway r ≤ s.pending.count r := by omega
      exact fits

omit [DecidableEq ι] in
theorem start_balanced : (start ι).Balanced := by
  refine ⟨rfl, ?_⟩
  intro r
  have vcqs : tallyTo vcqMax (inVcq r) (start ι).vcqs = 0 := tallyTo_eq_zero fun _ => rfl
  have calls : tally (inCall r) (start ι).calls = 0 := tally_eq_zero fun _ => rfl
  have cmds : submitted ((start ι).cmds r) = 0 := rfl
  simp only [State.underway]
  omega

/-- **The in-flight counter.** In every run that delivers to submitted commands
only, `u->nr_cmds` is the number of posts whose completion was not handed to the
application yet. -/
theorem nr_cmds_counts_pending {τ : Topo} {as : List (Act ι)} {s : State ι}
    (guard : Guarded (step τ) (OnlySubmitted τ) (start ι) as)
    (hrun : run (step τ) (start ι) as = some s) : s.InFlight ∧ 0 ≤ s.nrCmds := by
  have h := run_inv (I := fun s : State ι => s.Balanced ∧ s.IdsInRange)
    (fun _ _ _ h g hs => ⟨step_balanced h.1 h.2 g hs, step_idsInRange h.2 hs⟩)
    ⟨start_balanced, start_idsInRange⟩ guard hrun
  refine ⟨h.1.count, ?_⟩
  rw [h.1.count]
  exact Int.natCast_nonneg _

/-- A VCQ command is reaped and popped, a wakeup command times out, and a command
without either is cancelled before its post. -/
def mixedRun : List (Act Unit) :=
  [.vcqInit 8, .alloc ⟨1, .cmd 0⟩ 0 1 2 false, .post ⟨1, .cmd 0⟩, .alloc ⟨1, .cmd 1⟩ 0 0 2 true,
    .post ⟨1, .cmd 1⟩, .device 0 0, .reap 1, .timeout ⟨1, .cmd 1⟩, .alloc ⟨1, .cmd 2⟩ 0 0 2 false,
    .cancelAllocated ⟨1, .cmd 2⟩, .cqRun () 1 1 4 true, .iter (), .iter (), .ret ()]

theorem nr_cmds_counts_pending_mixed :
    ∃ s, run (step (.one true)) (start Unit) mixedRun = some s ∧ s.nrCmds = 0 ∧
      s.InFlight ∧ 0 ≤ s.nrCmds :=
  ⟨_, rfl, rfl, nr_cmds_counts_pending
    (show Guarded (step (.one true)) (OnlySubmitted (.one true)) (start Unit) mixedRun by decide)
    rfl⟩

/-- Cancelling a command that was never posted takes one off the counter. -/
theorem cancel_counts_below_zero :
    ¬ ∀ (as : List (Act Unit)) (s : State Unit),
      run (step (.one true)) (start Unit) as = some s → s.InFlight ∧ 0 ≤ s.nrCmds := by
  intro all
  have bad := all [.alloc ⟨1, .cmd 0⟩ 0 0 2 true, .cancelAllocated ⟨1, .cmd 0⟩] _ rfl
  exact absurd bad.2 (by decide)

end Inflight

end Unvmed.Path
