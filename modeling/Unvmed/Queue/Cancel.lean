import Unvmed.Cmd.Path
import Unvmed.Queue.Drain

/-!
Cancellation of an SQ (`unvmed_cancel_sq`, `lib/libunvmed.c`).

The controller is stopped and the CQ is locked. The entries that the device left in
the ring are drained first, for all SQs of the CQ; then every command of the SQ that is
still allocated or submitted is completed with a made-up entry.

* `complete_completes`: what a sequence of completions leaves of commands, VCQs and counters.
* `drained_completes`: the drain gives each submitted command the ring's entry for it.
* `cancelSq_completes_once`: after the cancellation no command of the SQ is allocated
  or submitted, each that was got one completion, and nothing else of the SQ did.
-/

namespace Unvmed.Cancel

open Lib Drain
open Unvmed.Path (Ref)

/-- Undefined behaviour of the source. -/
inductive Fault where
  /-- `usq->cmds[cid]` past the end of the array. -/
  | cmds (cid : Nat)
  /-- `cmd->rq->sq` without a request. -/
  | rq
  deriving DecidableEq, Repr

/-- What the cancellation reads and writes of `struct unvme`. -/
structure State where
  /-- The SQs that `unvmed_sq_find` finds, with their `qsize`, the length of `cmds`. -/
  sqs : Nat → Option Nat
  cmds : Ref → Cmd
  /-- `rq->sq->id` -/
  rqSq : Nat → Nat
  bdf : Nat
  /-- The registered VCQs. -/
  vcqs : Nat → Option Unit
  /-- The entries pushed to each VCQ, popped ones included. A push to a full VCQ waits
  for its consumer. -/
  pushed : Nat → List Vcqe
  /-- `u->nr_cmds` -/
  nrCmds : Int
  /-- `usq->cmd_count[opcode]` -/
  cmdCount : Nat → Nat → Nat

/-- `unvmed_get_cmd_on_reaper` -/
def State.getCmdOnReaper (s : State) (cqe : RawCqe) : Except Fault (Option Ref) :=
  let sqid := cqe.sqid.toNat
  let cid := cqe.cid.toNat
  match s.sqs sqid with
  | none => .ok none
  | some qsize =>
      if cid ≥ qsize then .error (.cmds cid)
      else if (s.cmds ⟨sqid, .cmd cid⟩).state ≠ .submitted then
        let cmd := s.cmds ⟨sqid, .conflict⟩
        if cmd.state ≠ .submitted ∨ cmd.cid ≠ cid then .ok none else .ok (some ⟨sqid, .conflict⟩)
      else .ok (some ⟨sqid, .cmd cid⟩)

/-- `unvmed_vcq_push` -/
def State.vcqPush (s : State) (r : Ref) (cqe : RawCqe) : State :=
  let cmd := s.cmds r
  match vcqGet s.vcqs cmd.vcq with
  | none => s
  | some _ =>
      let vcqe : Vcqe := ⟨cqe.toCqe, s.bdf, cmd.injected⟩
      { s with pushed := Function.update s.pushed cmd.vcq (s.pushed cmd.vcq ++ [vcqe]) }

/-- What `unvmed_cmd_cmpl_wakeup` leaves of the command. -/
def finished (cmd : Cmd) (cqe : RawCqe) : Cmd :=
  if cmd.wakeup then cmd.wake cqe.toCqe else cmd.setState .toBeCompleted

/-- `unvmed_cmd_cmpl_wakeup` -/
def State.cmdCmplWakeup (s : State) (r : Ref) (cqe : RawCqe) : State × Bool :=
  let s' := { s with cmds := Function.update s.cmds r (finished (s.cmds r) cqe) }
  if (s.cmds r).wakeup then ({ s' with nrCmds := s.nrCmds - 1 }, true) else (s', false)

/-- `atomic_inc(&cmd->usq->cmd_count[cmd->sqe.opcode])` -/
def State.incCount (s : State) (r : Ref) : State :=
  let counts := s.cmdCount r.sqid
  let opcode := (s.cmds r).opcode
  { s with cmdCount :=
      Function.update s.cmdCount r.sqid (Function.update counts opcode (counts opcode + 1)) }

/-- `unvmed_cmd_cmpl` -/
def State.cmdCmpl (s : State) (r : Ref) (cqe : RawCqe) : State :=
  match (s.incCount r).cmdCmplWakeup r cqe with
  | (s, true) => s
  | (s, false) => s.vcqPush r cqe

/-- The entry that `unvmed_put_cqe` makes up. -/
def abortedCqe (sqid cid : Nat) : RawCqe where
  qw0 := 0
  sqhd := 0
  sqid := BitVec.ofNat 16 sqid
  cid := BitVec.ofNat 16 cid
  sfp := BitVec.ofNat 16 (statusAborted <<< 1)

/-- `unvmed_put_cqe` -/
def State.putCqe (s : State) (r : Ref) : Except Fault State :=
  match (s.cmds r).rq with
  | none => .error .rq
  | some rq => .ok (s.cmdCmpl r (abortedCqe (s.rqSq rq) (s.cmds r).cid))

/-- `__unvmed_put_cqe` -/
def State.putCqeIfLive (s : State) (r : Ref) : Except Fault State :=
  match (s.cmds r).state with
  | .submitted | .allocated => s.putCqe r
  | _ => .ok s

/-- The body of the drain loop. -/
def State.drainCqe (s : State) (cqe : RawCqe) : Except Fault State := do
  match ← s.getCmdOnReaper cqe with
  | none => pure s
  | some r => pure (s.cmdCmpl r cqe)

/-- The commands that the sweep visits: `cmds[0..qsize - 2]` and `conflict_cmds`. -/
def sweepRefs (sqid qsize : Nat) : List Ref :=
  (List.range (qsize - 1)).map (fun i => ⟨sqid, .cmd i⟩) ++ [⟨sqid, .conflict⟩]

/-- `unvmed_cancel_sq` on the SQ `sqid` of size `qsize` and its CQ. -/
def cancelSq (fuel : Nat) (q : NvmeCq) (sqid qsize : Nat) (s : State) :
    Option (Except Fault State × NvmeCq) :=
  (cancelDrain (fun s _ cqe => s >>= fun s => s.drainCqe cqe) fuel q (.ok s)).map
    fun (s, q) => (s >>= fun s => (sweepRefs sqid qsize).foldlM State.putCqeIfLive s, q)

/-! ### What completions leave -/

/-- The completions of `done` that end in the VCQ `qid`: no thread waits for the command, and a
VCQ is registered under the id that it carries. -/
def State.queued (s : State) (qid : Nat) (done : List (Ref × RawCqe)) : List (Ref × RawCqe) :=
  done.filter fun c => !(s.cmds c.1).wakeup && (s.cmds c.1).vcq == qid && (vcqGet s.vcqs qid).isSome

/-- The entry that a completion leaves in a VCQ. -/
def State.vcqe (s : State) (c : Ref × RawCqe) : Vcqe := ⟨c.2.toCqe, s.bdf, (s.cmds c.1).injected⟩

/-- Each command of `done` is completed once and with its entry, and no other command is. A
command that a thread waits for gets the entry, and the thread is woken; any other gets one entry
in its VCQ, if that is registered. -/
structure Completes (s s' : State) (done : List (Ref × RawCqe)) : Prop where
  once : (done.map Prod.fst).Nodup
  woken : ∀ r cqe, (r, cqe) ∈ done → (s.cmds r).wakeup = true →
    s'.cmds r = { s.cmds r with cqe := cqe.toCqe, completed := true, state := .completed }
  unwoken : ∀ r cqe, (r, cqe) ∈ done → (s.cmds r).wakeup = false →
    s'.cmds r = { s.cmds r with state := .toBeCompleted }
  others : ∀ r, r ∉ done.map Prod.fst → s'.cmds r = s.cmds r
  pushed : ∀ qid, s'.pushed qid = s.pushed qid ++ (s.queued qid done).map s.vcqe
  nrCmds : s'.nrCmds = s.nrCmds - (done.countP fun c => (s.cmds c.1).wakeup : Nat)
  cmdCount : ∀ sqid opcode, s'.cmdCount sqid opcode = s.cmdCount sqid opcode +
    done.countP fun c => c.1.sqid == sqid && (s.cmds c.1).opcode == opcode

/-! ### Which entry is for which command -/

/-- The command waits for a completion or may yet be posted. -/
def live (cmd : Cmd) : Prop := cmd.state = .submitted ∨ cmd.state = .allocated

instance : DecidablePred live :=
  fun cmd => inferInstanceAs (Decidable (cmd.state = .submitted ∨ cmd.state = .allocated))

/-- The entries that name a queue and a command id. -/
def naming (sqid cid : Nat) (ring : List RawCqe) : List RawCqe :=
  ring.filter fun cqe => cqe.sqid.toNat = sqid ∧ cqe.cid.toNat = cid

/-- The command at `r` waits for an entry of the device. -/
def State.Waits (s : State) (r : Ref) : Prop :=
  (s.sqs r.sqid).isSome ∧ (s.cmds r).state = .submitted

instance (s : State) (r : Ref) : Decidable (s.Waits r) :=
  inferInstanceAs (Decidable ((s.sqs r.sqid).isSome ∧ (s.cmds r).state = .submitted))

/-- The number of waiting commands with the same id that are served before `r`. -/
def State.rank (s : State) (r : Ref) : Nat :=
  if r.slot = .conflict ∧ (s.cmds ⟨r.sqid, .cmd (s.cmds r).cid⟩).state = .submitted then 1 else 0

/-- The ring's entry for the command at `r`. Only a submitted command has one, as an
allocated one was never posted. Of two submitted commands with one id the command in
`cmds[cid]` has the first entry and the conflict command the second. -/
def State.answer (s : State) (ring : List RawCqe) (r : Ref) : Option RawCqe :=
  if s.Waits r then (naming r.sqid (s.cmds r).cid ring)[s.rank r]? else none

/-- Commands in use have the id of their slot and a request of their queue. -/
structure State.WellFormed (s : State) : Prop where
  cid : ∀ sqid cid, live (s.cmds ⟨sqid, .cmd cid⟩) → (s.cmds ⟨sqid, .cmd cid⟩).cid = cid
  rq : ∀ r, live (s.cmds r) → ∃ rq, (s.cmds r).rq = some rq ∧ s.rqSq rq = r.sqid

/-- The ids of the entries are in range for the SQs they name. -/
def State.InRange (s : State) (ring : List RawCqe) : Prop :=
  ∀ cqe ∈ ring, ∀ qsize, s.sqs cqe.sqid.toNat = some qsize → cqe.cid.toNat < qsize

/-! ### One completion -/

section Completion

variable (s : State) (r : Ref) (cqe : RawCqe)

@[simp] theorem vcqPush_frame :
    (s.vcqPush r cqe).cmds = s.cmds ∧ (s.vcqPush r cqe).sqs = s.sqs ∧
      (s.vcqPush r cqe).rqSq = s.rqSq ∧ (s.vcqPush r cqe).vcqs = s.vcqs ∧
      (s.vcqPush r cqe).bdf = s.bdf ∧ (s.vcqPush r cqe).nrCmds = s.nrCmds ∧
      (s.vcqPush r cqe).cmdCount = s.cmdCount := by
  cases vcq : vcqGet s.vcqs (s.cmds r).vcq with
  | none => simp [State.vcqPush, vcq]
  | some _ => simp [State.vcqPush, vcq]

/-- What a completion changes, as far as later completions see it. -/
theorem cmdCmpl_frame :
    (s.cmdCmpl r cqe).cmds = Function.update s.cmds r (finished (s.cmds r) cqe) ∧
      (s.cmdCmpl r cqe).sqs = s.sqs ∧ (s.cmdCmpl r cqe).rqSq = s.rqSq ∧
      (s.cmdCmpl r cqe).vcqs = s.vcqs ∧ (s.cmdCmpl r cqe).bdf = s.bdf := by
  cases wakeup : (s.cmds r).wakeup with
  | false => simp [State.cmdCmpl, State.cmdCmplWakeup, State.incCount, wakeup]
  | true => simp [State.cmdCmpl, State.cmdCmplWakeup, State.incCount, wakeup]

@[simp] theorem cmdCmpl_cmds :
    (s.cmdCmpl r cqe).cmds = Function.update s.cmds r (finished (s.cmds r) cqe) :=
  (cmdCmpl_frame s r cqe).1

@[simp] theorem cmdCmpl_sqs : (s.cmdCmpl r cqe).sqs = s.sqs := (cmdCmpl_frame s r cqe).2.1

@[simp] theorem cmdCmpl_rqSq : (s.cmdCmpl r cqe).rqSq = s.rqSq := (cmdCmpl_frame s r cqe).2.2.1

@[simp] theorem cmdCmpl_vcqs : (s.cmdCmpl r cqe).vcqs = s.vcqs :=
  (cmdCmpl_frame s r cqe).2.2.2.1

@[simp] theorem cmdCmpl_bdf : (s.cmdCmpl r cqe).bdf = s.bdf := (cmdCmpl_frame s r cqe).2.2.2.2

theorem cmdCmpl_pushed (qid : Nat) : (s.cmdCmpl r cqe).pushed qid =
    s.pushed qid ++ (s.queued qid [(r, cqe)]).map s.vcqe := by
  cases wakeup : (s.cmds r).wakeup with
  | true => simp [State.cmdCmpl, State.cmdCmplWakeup, State.incCount, State.queued, wakeup]
  | false =>
      cases vcq : vcqGet s.vcqs (s.cmds r).vcq with
      | none =>
          have unqueued : s.queued qid [(r, cqe)] = [] := by
            simp only [State.queued, List.filter_eq_nil_iff, List.mem_singleton]
            rintro _ rfl
            by_cases same : (s.cmds r).vcq = qid
            · simp [← same, vcq]
            · simp [same]
          simp [State.cmdCmpl, State.cmdCmplWakeup, State.incCount, State.vcqPush, finished, wakeup,
            vcq, unqueued]
      | some v =>
          by_cases same : qid = (s.cmds r).vcq
          · subst same
            simp [State.cmdCmpl, State.cmdCmplWakeup, State.incCount, State.vcqPush, State.queued,
              State.vcqe, finished, wakeup, vcq]
          · have other : ¬ (s.cmds r).vcq = qid := fun eq => same eq.symm
            simp [State.cmdCmpl, State.cmdCmplWakeup, State.incCount, State.vcqPush, State.queued,
              finished, wakeup, vcq, same, other]

theorem cmdCmpl_nrCmds :
    (s.cmdCmpl r cqe).nrCmds = s.nrCmds - (if (s.cmds r).wakeup then 1 else 0 : Nat) := by
  cases wakeup : (s.cmds r).wakeup with
  | false => simp [State.cmdCmpl, State.cmdCmplWakeup, State.incCount, wakeup]
  | true => simp [State.cmdCmpl, State.cmdCmplWakeup, State.incCount, wakeup]

theorem cmdCmpl_cmdCount (sqid opcode : Nat) : (s.cmdCmpl r cqe).cmdCount sqid opcode =
    s.cmdCount sqid opcode + if r.sqid == sqid && (s.cmds r).opcode == opcode then 1 else 0 := by
  have count : (s.cmdCmpl r cqe).cmdCount = (s.incCount r).cmdCount := by
    cases wakeup : (s.cmds r).wakeup with
    | false => simp [State.cmdCmpl, State.cmdCmplWakeup, State.incCount, wakeup]
    | true => simp [State.cmdCmpl, State.cmdCmplWakeup, State.incCount, wakeup]
  rw [count]
  by_cases queue : r.sqid = sqid
  · subst queue
    by_cases same : (s.cmds r).opcode = opcode
    · simp [State.incCount, ← same]
    · simp [State.incCount, Function.update_of_ne (Ne.symm same), same]
  · simp [State.incCount, Function.update_of_ne (Ne.symm queue), queue]

@[simp] theorem finished_cid (cmd : Cmd) : (finished cmd cqe).cid = cmd.cid := by
  unfold finished
  split <;> rfl

theorem finished_state (cmd : Cmd) :
    (finished cmd cqe).state = .completed ∨ (finished cmd cqe).state = .toBeCompleted := by
  unfold finished
  split
  · exact .inl rfl
  · exact .inr rfl

theorem not_live_finished (cmd : Cmd) : ¬live (finished cmd cqe) := by
  rcases finished_state cqe cmd with state | state <;> simp [live, state]

@[simp] theorem finished_not_submitted (cmd : Cmd) : (finished cmd cqe).state ≠ .submitted :=
  fun submitted => not_live_finished cqe cmd (.inl submitted)

variable {s r cqe}

/-- A command that is finished is not in use, and the others keep their fields. -/
theorem State.WellFormed.cmdCmpl (wf : s.WellFormed) : (s.cmdCmpl r cqe).WellFormed := by
  have kept : ∀ {r'}, live ((s.cmdCmpl r cqe).cmds r') →
      (s.cmdCmpl r cqe).cmds r' = s.cmds r' := by
    intro r' alive
    rw [cmdCmpl_cmds] at alive ⊢
    by_cases same : r' = r
    · subst same
      rw [Function.update_self] at alive
      exact absurd alive (not_live_finished _ _)
    · rw [Function.update_of_ne same]
  constructor
  · intro sqid cid alive
    rw [kept alive]
    exact wf.cid sqid cid (kept alive ▸ alive)
  · intro r' alive
    rw [kept alive, cmdCmpl_rqSq]
    exact wf.rq r' (kept alive ▸ alive)

/-- The commands of `done`. -/
theorem mem_refs {done : List (Ref × RawCqe)} {r : Ref} :
    r ∈ done.map Prod.fst ↔ ∃ cqe, (r, cqe) ∈ done := by
  simp

/-- The completions `done`, one after the other. -/
def State.complete (s : State) (done : List (Ref × RawCqe)) : State :=
  done.foldl (fun s c => s.cmdCmpl c.1 c.2) s

theorem State.complete_append (s : State) (done later : List (Ref × RawCqe)) :
    s.complete (done ++ later) = (s.complete done).complete later :=
  List.foldl_append

theorem State.WellFormed.complete {s : State} (wf : s.WellFormed) (done : List (Ref × RawCqe)) :
    (s.complete done).WellFormed := by
  induction done generalizing s with
  | nil => exact wf
  | cons c done ih => exact ih wf.cmdCmpl

/-- **Completions.** Each of the distinct commands is completed once. -/
theorem complete_completes {s : State} {done : List (Ref × RawCqe)}
    (distinct : (done.map Prod.fst).Nodup) : Completes s (s.complete done) done := by
  induction done generalizing s with
  | nil =>
      exact ⟨distinct, by simp, by simp, fun _ _ => rfl, by simp [State.complete, State.queued],
        by simp [State.complete], by simp [State.complete]⟩
  | cons c done ih =>
      obtain ⟨r, cqe⟩ := c
      obtain ⟨fresh, rest⟩ := List.nodup_cons.mp distinct
      have later : Completes (s.cmdCmpl r cqe) (s.complete ((r, cqe) :: done)) done := ih rest
      have self : (s.complete ((r, cqe) :: done)).cmds r = finished (s.cmds r) cqe := by
        rw [later.others r fresh, cmdCmpl_cmds, Function.update_self]
      have kept {r' : Ref} (other : r' ≠ r) : (s.cmdCmpl r cqe).cmds r' = s.cmds r' := by
        rw [cmdCmpl_cmds, Function.update_of_ne other]
      -- The later completions meet their commands as they were.
      have unmet {c : Ref × RawCqe} (mem : c ∈ done) : (s.cmdCmpl r cqe).cmds c.1 = s.cmds c.1 := by
        apply kept
        rintro rfl
        exact fresh (mem_refs.mpr ⟨c.2, mem⟩)
      have queued (qid : Nat) :
          ((s.cmdCmpl r cqe).queued qid done).map (s.cmdCmpl r cqe).vcqe =
            (s.queued qid done).map s.vcqe := by
        have same : (s.cmdCmpl r cqe).queued qid done = s.queued qid done := by
          apply List.filter_congr
          intro c mem
          rw [unmet mem, cmdCmpl_vcqs]
        rw [same]
        apply List.map_congr_left
        intro c mem
        rw [State.vcqe, unmet (List.mem_filter.mp mem).1, cmdCmpl_bdf]
        rfl
      refine ⟨distinct, ?_, ?_, ?_, ?_, ?_, ?_⟩
      · intro r' cqe' mem wakeup
        rcases List.mem_cons.mp mem with same | mem
        · cases same
          rw [self, finished, if_pos wakeup]
          rfl
        · have same := unmet mem
          rw [later.woken r' cqe' mem (by rw [same]; exact wakeup), same]
      · intro r' cqe' mem wakeup
        rcases List.mem_cons.mp mem with same | mem
        · cases same
          rw [self, finished, if_neg (by simp [wakeup])]
          rfl
        · have same := unmet mem
          rw [later.unwoken r' cqe' mem (by rw [same]; exact wakeup), same]
      · intro r' out
        obtain ⟨other, out⟩ := not_or.mp (List.mem_cons.not.mp out)
        rw [later.others r' out, kept other]
      · intro qid
        have split : s.queued qid ((r, cqe) :: done) =
            s.queued qid [(r, cqe)] ++ s.queued qid done := List.filter_append [(r, cqe)] done
        rw [later.pushed qid, queued, cmdCmpl_pushed, split, List.map_append, List.append_assoc]
      · have count : done.countP (fun c => ((s.cmdCmpl r cqe).cmds c.1).wakeup) =
            done.countP fun c => (s.cmds c.1).wakeup := by
          apply List.countP_congr
          intro c mem
          rw [unmet mem]
        rw [later.nrCmds, count, cmdCmpl_nrCmds, List.countP_cons]
        push_cast
        ring
      · intro sqid opcode
        have count : done.countP (fun c => c.1.sqid == sqid &&
            ((s.cmdCmpl r cqe).cmds c.1).opcode == opcode) =
            done.countP fun c => c.1.sqid == sqid && (s.cmds c.1).opcode == opcode := by
          apply List.countP_congr
          intro c mem
          rw [unmet mem]
        rw [later.cmdCount, count, cmdCmpl_cmdCount, List.countP_cons]
        simp only
        omega

end Completion

/-! ### The drain -/

section DrainProofs

variable {s : State} {ring : List RawCqe} {cqe : RawCqe} {r : Ref}

/-- The lookup finds the command whose turn it is, or nothing. -/
inductive Lookup (s : State) (cqe : RawCqe) : Option Ref → Prop
  | unknown (absent : s.sqs cqe.sqid.toNat = none) : Lookup s cqe none
  | idle (resident : (s.cmds ⟨cqe.sqid.toNat, .cmd cqe.cid.toNat⟩).state ≠ .submitted)
      (conflict : (s.cmds ⟨cqe.sqid.toNat, .conflict⟩).state ≠ .submitted ∨
        (s.cmds ⟨cqe.sqid.toNat, .conflict⟩).cid ≠ cqe.cid.toNat) : Lookup s cqe none
  | conflict (known : (s.sqs cqe.sqid.toNat).isSome)
      (resident : (s.cmds ⟨cqe.sqid.toNat, .cmd cqe.cid.toNat⟩).state ≠ .submitted)
      (state : (s.cmds ⟨cqe.sqid.toNat, .conflict⟩).state = .submitted)
      (cid : (s.cmds ⟨cqe.sqid.toNat, .conflict⟩).cid = cqe.cid.toNat) :
      Lookup s cqe (some ⟨cqe.sqid.toNat, .conflict⟩)
  | resident (known : (s.sqs cqe.sqid.toNat).isSome)
      (state : (s.cmds ⟨cqe.sqid.toNat, .cmd cqe.cid.toNat⟩).state = .submitted) :
      Lookup s cqe (some ⟨cqe.sqid.toNat, .cmd cqe.cid.toNat⟩)

theorem getCmdOnReaper_cases
    (range : ∀ qsize, s.sqs cqe.sqid.toNat = some qsize → cqe.cid.toNat < qsize) :
    ∃ found, s.getCmdOnReaper cqe = .ok found ∧ Lookup s cqe found := by
  cases sq : s.sqs cqe.sqid.toNat with
  | none =>
      refine ⟨none, ?_, .unknown sq⟩
      simp [State.getCmdOnReaper, sq]
  | some qsize =>
      have inside := Nat.not_le.mpr (range qsize sq)
      have known : (s.sqs cqe.sqid.toNat).isSome := by simp [sq]
      by_cases resident : (s.cmds ⟨cqe.sqid.toNat, .cmd cqe.cid.toNat⟩).state = .submitted
      · refine ⟨_, ?_, .resident known resident⟩
        simp [State.getCmdOnReaper, sq, inside, resident]
      · by_cases conflict : (s.cmds ⟨cqe.sqid.toNat, .conflict⟩).state ≠ .submitted ∨
            (s.cmds ⟨cqe.sqid.toNat, .conflict⟩).cid ≠ cqe.cid.toNat
        · refine ⟨none, ?_, .idle resident conflict⟩
          simp [State.getCmdOnReaper, sq, inside, resident, conflict]
        · refine ⟨_, ?_, .conflict known resident (not_not.mp fun h => conflict (.inl h))
            (not_not.mp fun h => conflict (.inr h))⟩
          simp [State.getCmdOnReaper, sq, inside, resident, conflict]

/-- The entry names the command at `r`. -/
def State.Named (s : State) (cqe : RawCqe) (r : Ref) : Prop :=
  cqe.sqid.toNat = r.sqid ∧ cqe.cid.toNat = (s.cmds r).cid

theorem naming_cons_of_named (named : s.Named cqe r) :
    naming r.sqid (s.cmds r).cid (cqe :: ring) = cqe :: naming r.sqid (s.cmds r).cid ring := by
  unfold naming
  rw [List.filter_cons_of_pos (by simpa [State.Named] using named)]

theorem naming_cons_of_not_named (unnamed : ¬s.Named cqe r) :
    naming r.sqid (s.cmds r).cid (cqe :: ring) = naming r.sqid (s.cmds r).cid ring := by
  unfold naming
  rw [List.filter_cons_of_neg (by simpa [State.Named] using unnamed)]

theorem State.Waits.resident (waits : s.Waits r) (wf : s.WellFormed) {cid : Nat}
    (slot : r.slot = .cmd cid) : (s.cmds r).cid = cid := by
  obtain ⟨sqid, _⟩ := r
  subst slot
  exact wf.cid sqid cid (.inl waits.2)

/-- The lookup misses no waiting command that the entry names. -/
theorem not_named_of_miss (wf : s.WellFormed) (miss : Lookup s cqe none) (waits : s.Waits r) :
    ¬s.Named cqe r := by
  rintro ⟨sqid, cid⟩
  obtain ⟨q, slot⟩ := r
  simp only at sqid
  subst sqid
  cases miss with
  | unknown absent =>
      have known := waits.1
      simp [absent] at known
  | idle resident conflict =>
      cases slot with
      | cmd c =>
          have own := waits.resident wf rfl
          rw [own] at cid
          subst cid
          exact resident waits.2
      | conflict =>
          rcases conflict with idle | other
          · exact idle waits.2
          · exact other cid.symm

theorem answer_cons_of_not_named (unnamed : ¬s.Named cqe r) :
    s.answer (cqe :: ring) r = s.answer ring r := by
  unfold State.answer
  rw [naming_cons_of_not_named unnamed]

/-- An entry without a command changes the answer of none. -/
theorem answer_of_miss (wf : s.WellFormed) (miss : Lookup s cqe none) :
    s.answer (cqe :: ring) r = s.answer ring r := by
  by_cases waits : s.Waits r
  · exact answer_cons_of_not_named (not_named_of_miss wf miss waits)
  · simp [State.answer, waits]

/-- The command that is found waits, is named, and no other is served before it. -/
theorem Lookup.turn (wf : s.WellFormed) (hit : Lookup s cqe (some r)) :
    s.Waits r ∧ s.Named cqe r ∧ s.rank r = 0 := by
  cases hit with
  | conflict known resident state cid =>
      refine ⟨⟨known, state⟩, ⟨rfl, cid.symm⟩, if_neg ?_⟩
      rintro ⟨_, submitted⟩
      rw [cid] at submitted
      exact resident submitted
  | resident known state =>
      refine ⟨⟨known, state⟩, ⟨rfl, (wf.cid _ _ (.inl state)).symm⟩, if_neg ?_⟩
      simp

theorem answer_of_hit (wf : s.WellFormed) (hit : Lookup s cqe (some r)) :
    s.answer (cqe :: ring) r = some cqe := by
  obtain ⟨waits, named, first⟩ := hit.turn wf
  rw [State.answer, if_pos waits, first, naming_cons_of_named named]
  rfl

/-- The waiting command that an entry names and does not complete is the conflict
command behind the one in `cmds[cid]`. -/
theorem rank_of_named (wf : s.WellFormed) (hit : Lookup s cqe (some r)) {r' : Ref}
    (other : r' ≠ r) (waits : s.Waits r') (named : s.Named cqe r') :
    s.rank r' = 1 ∧ (s.cmdCmpl r cqe).rank r' = 0 := by
  obtain ⟨q, slot⟩ := r'
  obtain ⟨sqid, cid⟩ := named
  simp only at sqid
  subst sqid
  cases slot with
  | cmd c =>
      have own := waits.resident wf rfl
      rw [own] at cid
      subst cid
      cases hit with
      | conflict _ resident _ _ => exact absurd waits.2 resident
      | resident _ _ => exact absurd rfl other
  | conflict =>
      cases hit with
      | conflict _ _ _ _ => exact absurd rfl other
      | resident _ state => simp [State.rank, ← cid, state]

/-- A command that the entry does not name keeps its place. -/
theorem rank_of_not_named (hit : Lookup s cqe (some r)) {r' : Ref} (other : r' ≠ r)
    (unnamed : ¬s.Named cqe r') : (s.cmdCmpl r cqe).rank r' = s.rank r' := by
  have same : (s.cmdCmpl r cqe).cmds r' = s.cmds r' := by
    rw [cmdCmpl_cmds, Function.update_of_ne other]
  have apart : (⟨r'.sqid, .cmd (s.cmds r').cid⟩ : Ref) ≠ r := by
    intro eq
    cases hit with
    | conflict _ _ _ _ => simp at eq
    | resident _ _ =>
        simp only [Ref.mk.injEq, Slot.cmd.injEq] at eq
        exact unnamed ⟨eq.1.symm, eq.2.symm⟩
  rw [State.rank, State.rank, same, cmdCmpl_cmds, Function.update_of_ne apart]

/-- A command that was completed waits for nothing. -/
theorem answer_cmdCmpl_self : (s.cmdCmpl r cqe).answer ring r = none := by
  apply if_neg
  rintro ⟨_, submitted⟩
  simp at submitted

/-- The entry that completed a command moves the others that it names up. -/
theorem answer_of_hit_ne (wf : s.WellFormed) (hit : Lookup s cqe (some r)) {r' : Ref}
    (other : r' ≠ r) : s.answer (cqe :: ring) r' = (s.cmdCmpl r cqe).answer ring r' := by
  have same : (s.cmdCmpl r cqe).cmds r' = s.cmds r' := by
    rw [cmdCmpl_cmds, Function.update_of_ne other]
  have still : (s.cmdCmpl r cqe).Waits r' ↔ s.Waits r' := by
    rw [State.Waits, State.Waits, cmdCmpl_sqs, same]
  by_cases waits : s.Waits r'
  · rw [State.answer, State.answer, if_pos waits, if_pos (still.mpr waits), same]
    by_cases named : s.Named cqe r'
    · obtain ⟨before, after⟩ := rank_of_named wf hit other waits named
      rw [naming_cons_of_named named, before, after]
      rfl
    · rw [naming_cons_of_not_named named, rank_of_not_named hit other named]
  · rw [State.answer, State.answer, if_neg waits, if_neg (still.not.mpr waits)]

/-- The completions of the drain: for each command its answer. -/
structure Drained (s : State) (ring : List RawCqe) (done : List (Ref × RawCqe)) : Prop where
  once : (done.map Prod.fst).Nodup
  mem : ∀ r cqe, (r, cqe) ∈ done ↔ s.answer ring r = some cqe

theorem Drained.not_mem {done : List (Ref × RawCqe)} (drained : Drained s ring done)
    (unanswered : s.answer ring r = none) : r ∉ done.map Prod.fst := by
  intro mem
  obtain ⟨cqe, mem⟩ := mem_refs.mp mem
  have answered := (drained.mem r cqe).mp mem
  rw [unanswered] at answered
  cases answered

/-- The drain gives each submitted command the ring's entry for it, and no other
command an entry. -/
theorem drained_completes (wf : s.WellFormed) (range : s.InRange ring) :
    ∃ done, ring.foldl (fun s cqe => s >>= fun s => s.drainCqe cqe) (Except.ok s) =
      .ok (s.complete done) ∧ Drained s ring done := by
  induction ring generalizing s with
  | nil => exact ⟨[], rfl, List.nodup_nil, by simp [State.answer, naming]⟩
  | cons cqe ring ih =>
      obtain ⟨found, lookup, outcome⟩ := getCmdOnReaper_cases (range cqe List.mem_cons_self)
      have rest : s.InRange ring := fun e mem => range e (List.mem_cons_of_mem _ mem)
      cases found with
      | none =>
          have first : ((.ok s : Except Fault State) >>= fun s => s.drainCqe cqe) = .ok s := by
            simp [State.drainCqe, lookup, bind, Except.bind, pure, Except.pure]
          obtain ⟨done, drains, drained⟩ := ih wf rest
          refine ⟨done, ?_, drained.once, ?_⟩
          · rw [List.foldl_cons, first]
            exact drains
          · intro r e
            rw [answer_of_miss wf outcome]
            exact drained.mem r e
      | some r₀ =>
          have first : ((.ok s : Except Fault State) >>= fun s => s.drainCqe cqe) =
              .ok (s.cmdCmpl r₀ cqe) := by
            simp [State.drainCqe, lookup, bind, Except.bind, pure, Except.pure]
          obtain ⟨done, drains, drained⟩ := ih (s := s.cmdCmpl r₀ cqe) wf.cmdCmpl
            (by simpa [State.InRange] using rest)
          have fresh : r₀ ∉ done.map Prod.fst := drained.not_mem answer_cmdCmpl_self
          refine ⟨(r₀, cqe) :: done, ?_, List.nodup_cons.mpr ⟨fresh, drained.once⟩, ?_⟩
          · rw [List.foldl_cons, first]
            exact drains
          · intro r e
            rw [List.mem_cons, drained.mem]
            by_cases same : r = r₀
            · subst same
              rw [answer_of_hit wf outcome, answer_cmdCmpl_self]
              simp [eq_comm]
            · rw [answer_of_hit_ne wf outcome same]
              simp [same]

end DrainProofs

/-! ### The sweep -/

section Sweep

variable {s : State}

/-- One step of the sweep: a live command is completed with a made-up entry. -/
theorem putCqeIfLive_eq (wf : s.WellFormed) (r : Ref) : s.putCqeIfLive r =
    .ok (s.complete (if live (s.cmds r) then [(r, abortedCqe r.sqid (s.cmds r).cid)] else [])) := by
  split
  · rename_i alive
    obtain ⟨rq, request, sq⟩ := wf.rq r alive
    rcases alive with state | state <;>
      simp [State.putCqeIfLive, State.putCqe, State.complete, state, request, sq]
  · rename_i dead
    cases state : (s.cmds r).state with
    | submitted => exact absurd (.inl state) dead
    | allocated => exact absurd (.inr state) dead
    | init | completed | toBeCompleted => simp [State.putCqeIfLive, State.complete, state]

/-- The sweep completes each command that it meets alive with one made-up entry. -/
theorem swept_completes {refs : List Ref} (wf : s.WellFormed) (distinct : refs.Nodup) :
    ∃ done, refs.foldlM State.putCqeIfLive s = .ok (s.complete done) ∧
      (done.map Prod.fst).Nodup ∧ ∀ r cqe, (r, cqe) ∈ done ↔
        r ∈ refs ∧ live (s.cmds r) ∧ cqe = abortedCqe r.sqid (s.cmds r).cid := by
  induction refs generalizing s with
  | nil => exact ⟨[], rfl, List.nodup_nil, by simp⟩
  | cons r₀ refs ih =>
      obtain ⟨fresh, distinct⟩ := List.nodup_cons.mp distinct
      set now := if live (s.cmds r₀) then [(r₀, abortedCqe r₀.sqid (s.cmds r₀).cid)] else []
        with meets
      obtain ⟨later, sweeps, once, mem⟩ := ih (wf.complete now) distinct
      have nowMem (c : Ref × RawCqe) : c ∈ now ↔
          live (s.cmds r₀) ∧ c = (r₀, abortedCqe r₀.sqid (s.cmds r₀).cid) := by
        rw [meets]
        split <;> simp [*]
      have onceNow : (now.map Prod.fst).Nodup := by
        rw [meets]
        split <;> simp
      have kept {r : Ref} (listed : r ∈ refs) : (s.complete now).cmds r = s.cmds r := by
        apply (complete_completes onceNow).others r
        intro met
        obtain ⟨cqe, met⟩ := mem_refs.mp met
        obtain ⟨-, same⟩ := (nowMem _).mp met
        cases same
        exact fresh listed
      refine ⟨now ++ later, ?_, ?_, ?_⟩
      · rw [List.foldlM_cons, putCqeIfLive_eq wf, State.complete_append]
        exact sweeps
      · rw [List.map_append, List.nodup_append]
        refine ⟨onceNow, once, ?_⟩
        intro r first r' second same
        subst same
        obtain ⟨cqe, first⟩ := mem_refs.mp first
        obtain ⟨cqe', second⟩ := mem_refs.mp second
        have listed := ((mem r cqe').mp second).1
        obtain ⟨-, same⟩ := (nowMem _).mp first
        cases same
        exact fresh listed
      · intro r cqe
        rw [List.mem_append, nowMem, mem, List.mem_cons]
        by_cases same : r = r₀
        · subst same
          simp [fresh]
        · simp only [Prod.mk.injEq, same, false_and, and_false, false_or]
          apply and_congr_right
          intro listed
          rw [kept listed]

theorem mem_sweepRefs {sqid qsize : Nat} {r : Ref} :
    r ∈ sweepRefs sqid qsize ↔
      r.sqid = sqid ∧ match r.slot with
        | .cmd cid => cid < qsize - 1
        | .conflict => True := by
  obtain ⟨q, slot⟩ := r
  cases slot with
  | cmd cid => simp [sweepRefs, and_comm, eq_comm]
  | conflict => simp [sweepRefs]

theorem sweepRefs_nodup (sqid qsize : Nat) : (sweepRefs sqid qsize).Nodup := by
  unfold sweepRefs
  rw [List.nodup_append]
  refine ⟨?_, List.nodup_singleton _, ?_⟩
  · apply List.Nodup.map _ List.nodup_range
    intro i j same
    simpa using same
  · intro r listed r' last same
    rw [List.mem_singleton] at last
    subst last same
    simp at listed

end Sweep

/-! ### The cancellation -/

/-- The entries that the device left in the ring. -/
def entries (q : NvmeCq) : List RawCqe := q.pending.map q.mem

theorem answer_named {s : State} {ring : List RawCqe} {r : Ref} {cqe : RawCqe}
    (answer : s.answer ring r = some cqe) : s.Waits r ∧ cqe ∈ ring ∧ s.Named cqe r := by
  unfold State.answer at answer
  split at answer
  · rename_i waits
    obtain ⟨mem, named⟩ := List.mem_filter.mp (List.mem_of_getElem? answer)
    exact ⟨waits, mem, by simpa [State.Named] using named⟩
  · cases answer

/-- A command that was completed is not completed again by the sweep. -/
theorem Completes.not_live {s s' : State} {done : List (Ref × RawCqe)} (h : Completes s s' done)
    {r : Ref} (mem : r ∈ done.map Prod.fst) : ¬live (s'.cmds r) := by
  obtain ⟨cqe, mem⟩ := mem_refs.mp mem
  cases wakeup : (s.cmds r).wakeup with
  | true =>
      rw [h.woken r cqe mem wakeup]
      simp [live]
  | false =>
      rw [h.unwoken r cqe mem wakeup]
      simp [live]

/-- After a cancellation of the SQ `sqid` nothing of it waits. Each of its commands that
was allocated or submitted was completed once, with the ring's entry for it if there is
one and else with one that says it was aborted; its other commands were not completed. A
command of another SQ was completed with the ring's entry for it, if there is one. -/
theorem cancelSq_completes_once (s : State) (wf : s.WellFormed) (q : NvmeCq)
    (inRing : q.head < q.qsize) (range : s.InRange (entries q)) (sqid qsize : Nat) :
    ∃ s' q' done,
      (∀ fuel, q.qsize < fuel → cancelSq fuel q sqid qsize s = some (.ok s', q')) ∧
      Completes s s' done ∧
      (∀ r ∈ sweepRefs sqid qsize,
        (s'.cmds r).state ≠ .allocated ∧ (s'.cmds r).state ≠ .submitted ∧
        ∀ cqe, (r, cqe) ∈ done ↔ live (s.cmds r) ∧
          cqe = (s.answer (entries q) r).getD (abortedCqe sqid (s.cmds r).cid)) ∧
      (∀ r, r.sqid ≠ sqid → ∀ cqe, (r, cqe) ∈ done ↔ s.answer (entries q) r = some cqe) ∧
      ∀ r cqe, s.answer (entries q) r = some cqe →
        (s.cmds r).state = .submitted ∧ cqe ∈ entries q ∧ cqe.sqid.toNat = r.sqid ∧
          cqe.cid.toNat = (s.cmds r).cid := by
  obtain ⟨done, drain, drained⟩ := drained_completes wf range
  obtain ⟨later, sweep, once, mem⟩ :=
    swept_completes (wf.complete done) (sweepRefs_nodup sqid qsize)
  have first : Completes s (s.complete done) done := complete_completes drained.once
  have distinct : ((done ++ later).map Prod.fst).Nodup := by
    rw [List.map_append, List.nodup_append]
    refine ⟨drained.once, once, ?_⟩
    intro r before r' after same
    subst same
    obtain ⟨cqe, after⟩ := mem_refs.mp after
    exact first.not_live before ((mem r cqe).mp after).2.1
  have all : Completes s (s.complete (done ++ later)) (done ++ later) := complete_completes distinct
  -- The sweep meets the live commands that the ring had no entry for.
  have swept {r : Ref} (listed : r ∈ sweepRefs sqid qsize) (cqe : RawCqe) :
      (r, cqe) ∈ done ++ later ↔ live (s.cmds r) ∧
        cqe = (s.answer (entries q) r).getD (abortedCqe sqid (s.cmds r).cid) := by
    have own : r.sqid = sqid := (mem_sweepRefs.mp listed).1
    rw [List.mem_append, drained.mem, mem]
    cases answer : s.answer (entries q) r with
    | none =>
        rw [first.others r (drained.not_mem answer), own]
        simp [listed]
    | some e =>
        have alive : live (s.cmds r) := .inl (answer_named answer).1.2
        have dead : ¬live ((s.complete done).cmds r) :=
          first.not_live (mem_refs.mpr ⟨e, (drained.mem r e).mpr answer⟩)
        simp [alive, dead, eq_comm]
  refine ⟨s.complete (done ++ later), q.drained, done ++ later, ?_, all, ?_, ?_, ?_⟩
  · intro fuel enough
    rw [entries, List.foldl_map] at drain
    rw [cancelSq, cancelDrain_eq q inRing _ enough, drain, Option.map_some, State.complete_append]
    exact congrArg some (Prod.ext sweep rfl)
  · intro r listed
    have dead : ¬live ((s.complete (done ++ later)).cmds r) := by
      by_cases alive : live (s.cmds r)
      · exact all.not_live (mem_refs.mpr ⟨_, (swept listed _).mpr ⟨alive, rfl⟩⟩)
      · rw [all.others r]
        · exact alive
        · intro met
          obtain ⟨cqe, met⟩ := mem_refs.mp met
          exact alive ((swept listed cqe).mp met).1
    exact ⟨fun state => dead (.inr state), fun state => dead (.inl state), swept listed⟩
  · intro r other cqe
    have unlisted : r ∉ sweepRefs sqid qsize := fun listed => other (mem_sweepRefs.mp listed).1
    rw [List.mem_append, drained.mem, mem]
    simp [unlisted]
  · intro r cqe answer
    obtain ⟨waits, mem, sq, cid⟩ := answer_named answer
    exact ⟨waits.2, mem, sq, cid⟩

/-- SQs 1 and 2 on one CQ. Two commands of SQ 1 have the id 0, and a thread waits for one of
them; one is allocated only. The VCQ of SQ 2's command is not registered. -/
def sharedState : State where
  sqs sqid := if sqid = 1 ∨ sqid = 2 then some 4 else none
  cmds r :=
    { state := match r.sqid, r.slot with
        | 1, .cmd 0 | 1, .conflict | 2, .cmd 1 => .submitted
        | 1, .cmd 1 => .allocated
        | _, _ => .init
      cid := r.slot.cidOr 0
      rq := some r.sqid
      wakeup := r == ⟨1, .cmd 0⟩
      vcq := r.sqid }
  rqSq rq := rq
  bdf := 0
  vcqs qid := if qid = 1 then some () else none
  pushed _ := []
  nrCmds := 3
  cmdCount _ _ := 0

/-- Three entries around the end of the ring: for the id 0 of SQ 1, for SQ 2, and for the
id 0 of SQ 1 again. -/
def sharedRing : NvmeCq where
  mem
    | 2 => ⟨7, 0, 1, 0, 1⟩
    | 3 => ⟨8, 0, 2, 1, 1⟩
    | 0 => ⟨9, 0, 1, 0, 0⟩
    | _ => ⟨0, 0, 0, 0, 1⟩
  qsize := 4
  head := 2
  phase := false

theorem sharedState_wellFormed : sharedState.WellFormed where
  cid _ _ _ := rfl
  rq r _ := ⟨r.sqid, rfl, rfl⟩

theorem cancelSq_shared :
    (sharedState.answer (entries sharedRing) ⟨1, .cmd 0⟩ = some ⟨7, 0, 1, 0, 1⟩ ∧
      sharedState.answer (entries sharedRing) ⟨1, .conflict⟩ = some ⟨9, 0, 1, 0, 0⟩ ∧
      sharedState.answer (entries sharedRing) ⟨1, .cmd 1⟩ = none) ∧
    ∃ s' q' done,
      (∀ fuel, sharedRing.qsize < fuel →
        cancelSq fuel sharedRing 1 4 sharedState = some (.ok s', q')) ∧
      Completes sharedState s' done ∧
      (∀ r ∈ sweepRefs 1 4,
        (s'.cmds r).state ≠ .allocated ∧ (s'.cmds r).state ≠ .submitted ∧
        ∀ cqe, (r, cqe) ∈ done ↔ live (sharedState.cmds r) ∧
          cqe = (sharedState.answer (entries sharedRing) r).getD
            (abortedCqe 1 (sharedState.cmds r).cid)) ∧
      (∀ r, r.sqid ≠ 1 → ∀ cqe,
        (r, cqe) ∈ done ↔ sharedState.answer (entries sharedRing) r = some cqe) ∧
      ∀ r cqe, sharedState.answer (entries sharedRing) r = some cqe →
        (sharedState.cmds r).state = .submitted ∧ cqe ∈ entries sharedRing ∧
          cqe.sqid.toNat = r.sqid ∧ cqe.cid.toNat = (sharedState.cmds r).cid := by
  refine ⟨by decide, cancelSq_completes_once sharedState sharedState_wellFormed sharedRing
    (by decide) ?_ 1 4⟩
  have ring : entries sharedRing = [⟨7, 0, 1, 0, 1⟩, ⟨8, 0, 2, 1, 1⟩, ⟨9, 0, 1, 0, 0⟩] := by decide
  rw [ring]
  simp [State.InRange, sharedState]

/-- The waiting thread has its entry, the VCQ of SQ 1 the other two, and the entry for SQ 2 is
dropped. -/
example : (match cancelSq 5 sharedRing 1 4 sharedState with
    | some (.ok s, _) => some ((s.cmds ⟨1, .cmd 0⟩).completed, s.pushed 1, s.pushed 2, s.nrCmds)
    | _ => none) =
    some (true, [⟨⟨1, 0, 0⟩, 0, .none⟩, ⟨⟨1, 1, statusAborted⟩, 0, .none⟩], [], 2) := by
  decide

end Unvmed.Cancel
