import Mathlib
import Unvmed.Lib.Run

/-!
The submission path of the fio engine (`src/app/fio/libunvmed-engine.c`).

`fio_libunvmed_queue` hands an io_u to one of four functions that allocate a command and post it,
and counts it in `ld->nr_queued`; `.getevents` fetches completions and `.event` returns their
io_us. The SQ is shared: other threads allocate and free commands of their own between the calls.

* `queue_accounted_iff`: the counter is the number of commands posted and not returned, and
  a call that queues nothing leaves it and the SQ as they were, in every step of a run, if and only
  if no call that gets past the checks of `fio_libunvmed_queue` fails (`Submits`).
* `busy_is_counted`: a command that cannot be allocated is counted.
-/

namespace Unvmed.FioQueue

open Lib

/-! ### The submission queue -/

/-- The part of an SQ that an allocation takes from. A CID is in use as long as its command holds
a request of libvfn. -/
structure Sq where
  /-- `usq->cmds[cid].rq` of the commands in use. -/
  cmds : Nat → Option Nat
  /-- The free requests of `usq->q`. -/
  rqs : List Nat
  /-- `usq->nr_cmds` -/
  nrCmds : Int

/-- `__unvmed_cmd_alloc` without a given CID; `cid` is what `unvmed_cid_alloc` finds free. -/
def Sq.cmdAlloc (sq : Sq) (cid : Option Nat) : Option (Nat × Sq) :=
  match cid, sq.rqs with
  | some cid, rq :: rqs =>
      if (sq.cmds cid).isSome then none
      else some (cid, ⟨Function.update sq.cmds cid (some rq), rqs, sq.nrCmds + 1⟩)
  | _, _ => none

/-- `unvmed_cmd_put` of the only reference. -/
def Sq.cmdPut (sq : Sq) (cid : Nat) : Sq :=
  match sq.cmds cid with
  | none => sq
  | some rq => ⟨Function.update sq.cmds cid none, rq :: sq.rqs, sq.nrCmds - 1⟩

inductive Ddir where
  | read
  | write
  | trim
  | sync
  | other
  deriving DecidableEq, Repr

/-- `o->admin_cmd`. -/
inductive AdminCmd where
  | none
  | abort
  /-- One that maps a data buffer. -/
  | mapped
  deriving DecidableEq, Repr

/-- A call of `fio_libunvmed_queue`: its io_u, the options, and what it meets. -/
structure Call where
  ddir : Ddir
  adminCmd : AdminCmd := .none
  /-- The io_u has a metadata buffer: `mo->mbuf`, and `mo->mlen` is not 0. -/
  mbuf : Bool := false
  enableSgl : Bool := false
  /-- `unvmed_sq_try_enter` gets the lock. -/
  locked : Bool := true
  /-- `unvmed_sq_ready` -/
  ready : Bool := true
  /-- The data buffer is not `NULL` and not empty. -/
  buf : Bool := true
  cid : Option Nat
  /-- `unvmed_buf_init` of the data, and of the metadata. -/
  dataMapped : Bool := true
  metaMapped : Bool := true
  /-- `errno` of the function that maps PRPs or SGLs, where it fails. -/
  mapErr : Option Nat := none
  deriving Repr

/-- `__unvmed_cmd_init` with a data buffer, and a metadata buffer if `md`. -/
def Call.cmdInit (c : Call) (data md : Bool) (sq : Sq) : Option Nat × Sq :=
  match sq.cmdAlloc c.cid with
  | none => (none, sq)
  | some (cid, sq) =>
      if data && !c.dataMapped then (none, sq.cmdPut cid)
      else if md && !c.metaMapped then (none, sq.cmdPut cid)
      else (some cid, sq)

/-- `unvmed_alloc_cmd`, and `unvmed_alloc_cmd_meta` if `md`. -/
def Call.allocCmd (c : Call) (md : Bool) (sq : Sq) : Option Nat × Sq :=
  if !c.buf then (none, sq) else c.cmdInit true md sq

/-- `unvmed_alloc_cmd_nodata` -/
def Call.allocCmdNodata (c : Call) (sq : Sq) : Option Nat × Sq := c.cmdInit false false sq

/-- `enum fio_q_status`, or a negated `errno`. -/
inductive Status where
  | completed
  | queued
  | busy
  | failed (errno : Nat)
  deriving DecidableEq, Repr

/-- What a submit function returns, the command it posted, and the SQ. -/
abbrev Submitted := Status × Option Nat × Sq

/-- `EINVAL` -/
def einval : Nat := 22

/-- `fio_libunvmed_rw`. The last failing exit does not put the command. -/
def Call.rw (c : Call) (sq : Sq) : Submitted :=
  match c.allocCmd c.mbuf sq with
  | (none, sq) => (.busy, none, sq)
  | (some cid, sq) =>
      match c.mapErr with
      | some errno => (.failed errno, none, sq.cmdPut cid)
      | none =>
          if c.mbuf && c.enableSgl then (.failed einval, none, sq) else (.queued, some cid, sq)

/-- The shape of the functions that map a buffer and post. -/
def Call.mapAndPost (c : Call) : Option Nat × Sq → Submitted
  | (none, sq) => (.busy, none, sq)
  | (some cid, sq) =>
      match c.mapErr with
      | some errno => (.failed errno, none, sq.cmdPut cid)
      | none => (.queued, some cid, sq)

/-- The shape of the functions that post without a buffer. -/
def post : Option Nat × Sq → Submitted
  | (none, sq) => (.busy, none, sq)
  | (some cid, sq) => (.queued, some cid, sq)

/-- `fio_libunvmed_admin`. `unvmed_cmd_prep_abort` does not fail. -/
def Call.admin (c : Call) (sq : Sq) : Submitted :=
  if c.adminCmd = .abort then post (c.allocCmdNodata sq) else c.mapAndPost (c.allocCmd false sq)

/-- `fio_libunvmed_trim` -/
def Call.trim (c : Call) (sq : Sq) : Submitted := c.mapAndPost (c.allocCmd false sq)

/-- `fio_libunvmed_fsync` -/
def Call.fsync (c : Call) (sq : Sq) : Submitted := post (c.allocCmdNodata sq)

/-- The switch of `fio_libunvmed_queue`; `none` is its default. -/
def Call.submit (c : Call) (sq : Sq) : Option Submitted :=
  match c.ddir with
  | .read | .write => some (if c.adminCmd ≠ .none then c.admin sq else c.rw sq)
  | .trim => some (c.trim sq)
  | .sync => some (c.fsync sq)
  | .other => none

/-! ### The engine -/

/-- A thread's `struct libunvmed_data`, and the SQ. -/
structure State where
  /-- `td->o.iodepth` -/
  iodepth : BitVec 32
  nrQueued : BitVec 32
  sq : Sq
  /-- Commands posted whose completion was not fetched. -/
  inflight : List Nat
  /-- The part of `ld->cqes` that `.event` was not called for. -/
  cqes : List Nat

/-- `fio_libunvmed_queue` -/
def State.queue (s : State) (c : Call) : Status × State :=
  if s.nrQueued = s.iodepth then (.busy, s)
  else if !c.locked then (.busy, s)
  else if !c.ready then (.busy, s)
  else match c.submit s.sq with
    | none => (.completed, s)
    | some (status, posted, sq) =>
        (status, { s with
          nrQueued := s.nrQueued + 1
          sq := sq
          inflight := s.inflight ++ posted.toList })

/-- `fio_libunvmed_event`; `none` where its assertion fails. -/
def State.event (s : State) : Option State :=
  match s.cqes with
  | [] => none
  | cid :: cqes =>
      if (s.sq.cmds cid).isSome then
        some { s with nrQueued := s.nrQueued - 1, sq := s.sq.cmdPut cid, cqes := cqes }
      else none

inductive Act where
  | queue (c : Call)
  /-- `fio_libunvmed_commit` writes the doorbell. -/
  | commit
  /-- `fio_libunvmed_getevents` fetches the completions of these commands. fio calls it again
  after `.event` was called for all of them. -/
  | getevents (cids : List Nat)
  | event
  /-- Another thread allocates a command of the SQ. -/
  | otherAlloc (cid : Nat)
  /-- Another thread frees one that this thread did not post. -/
  | otherFree (cid : Nat)
  deriving Repr

/-- The commands that this thread posted and `.event` has not returned. -/
def State.mine (s : State) : List Nat := s.inflight ++ s.cqes

def step (s : State) : Act → Option State
  | .queue c => some (s.queue c).2
  | .commit => some s
  | .getevents cids =>
      if s.cqes = [] ∧ cids.Subperm s.inflight then
        some { s with inflight := s.inflight.diff cids, cqes := cids }
      else none
  | .event => s.event
  | .otherAlloc cid => (s.sq.cmdAlloc (some cid)).map fun r => { s with sq := r.2 }
  | .otherFree cid => if cid ∈ s.mine then none else some { s with sq := s.sq.cmdPut cid }

/-- A thread that opened an SQ, whatever others have allocated. -/
def start (iodepth : BitVec 32) (sq : Sq) : State := ⟨iodepth, 0, sq, [], []⟩

/-! ### Accounting -/

/-- `ld->nr_queued` counts the commands posted and not returned. -/
def State.Counted (s : State) : Prop := s.nrQueued.toNat = s.mine.length

/-- The counter is right after the step, and a queue call that does not return `FIO_Q_QUEUED`
leaves it and the SQ unchanged. -/
def Accounted (s : State) (a : Act) (s' : State) : Prop :=
  s'.Counted ∧ match a with
    | .queue c => (s.queue c).1 ≠ .queued → s'.nrQueued = s.nrQueued ∧ s'.sq = s.sq
    | _ => True

instance (s : State) : Decidable s.Counted := inferInstanceAs (Decidable (_ = _))

/-- The call gets to a submit function. -/
def Call.Enters (c : Call) (s : State) : Prop :=
  s.nrQueued ≠ s.iodepth ∧ c.locked = true ∧ c.ready = true ∧ c.ddir ≠ .other

/-- A CID and a request are free, and the buffers map. -/
def Call.Allocates (c : Call) (data md : Bool) (sq : Sq) : Prop :=
  (∃ cid, c.cid = some cid ∧ sq.cmds cid = none) ∧ sq.rqs ≠ [] ∧
    (data = true → c.buf = true ∧ c.dataMapped = true) ∧ (md = true → c.metaMapped = true)

/-- The call meets no failure, and asks for no metadata with SGLs. -/
def Call.Clean (c : Call) (sq : Sq) : Prop :=
  match c.ddir with
  | .read | .write =>
      if c.adminCmd = .abort then c.Allocates false false sq
      else if c.adminCmd = .mapped then c.Allocates true false sq ∧ c.mapErr = none
      else c.Allocates true c.mbuf sq ∧ c.mapErr = none ∧ ¬ (c.mbuf = true ∧ c.enableSgl = true)
  | .trim => c.Allocates true false sq ∧ c.mapErr = none
  | .sync => c.Allocates false false sq
  | .other => True

/-- A call that gets to a submit function posts its command. -/
def Submits (s : State) : Act → Prop
  | .queue c => c.Enters s → c.Clean s.sq
  | .commit | .getevents _ | .event | .otherAlloc _ | .otherFree _ => True

/-! ### Allocation -/

section Alloc

variable {sq sq' : Sq} {cid : Nat} {c : Call}

theorem Sq.cmdAlloc_eq_some {cid? : Option Nat} : sq.cmdAlloc cid? = some (cid, sq') ↔
    cid? = some cid ∧ sq.cmds cid = none ∧ ∃ rq rqs, sq.rqs = rq :: rqs ∧
      sq' = ⟨Function.update sq.cmds cid (some rq), rqs, sq.nrCmds + 1⟩ := by
  unfold Sq.cmdAlloc
  split
  · rename_i cid₀ rq rqs free
    split
    · rename_i used
      refine iff_of_false (by simp) ?_
      rintro ⟨same, unused, -⟩
      cases same
      rw [unused] at used
      cases used
    · rename_i unused
      constructor
      · intro done
        cases done
        exact ⟨rfl, by simpa using unused, rq, rqs, free, rfl⟩
      · rintro ⟨same, -, rq', rqs', free', rfl⟩
        cases same
        rw [free] at free'
        cases free'
        rfl
  · rename_i stuck
    refine iff_of_false (by simp) ?_
    rintro ⟨same, -, rq, rqs, free, -⟩
    exact stuck cid rq rqs same free

/-- A command that is put again leaves the SQ as it was. -/
theorem Sq.cmdPut_cmdAlloc {cid? : Option Nat} (done : sq.cmdAlloc cid? = some (cid, sq')) :
    sq'.cmdPut cid = sq := by
  obtain ⟨-, unused, rq, rqs, free, rfl⟩ := Sq.cmdAlloc_eq_some.mp done
  simp only [Sq.cmdPut, Function.update_self, Function.update_idem, ← free, ← unused,
    Function.update_eq_self, Int.add_sub_cancel]

/-- The allocation fails and leaves the SQ as it was, or nothing it needs is missing. -/
theorem Call.cmdInit_cases (c : Call) (data md : Bool) (sq : Sq) (buf : data = true → c.buf = true) :
    (¬ c.Allocates data md sq ∧ c.cmdInit data md sq = (none, sq)) ∨
      (c.Allocates data md sq ∧ ∃ cid sq', sq.cmdAlloc c.cid = some (cid, sq') ∧
        c.cmdInit data md sq = (some cid, sq')) := by
  unfold Call.cmdInit
  cases done : sq.cmdAlloc c.cid with
  | none =>
      refine .inl ⟨?_, rfl⟩
      rintro ⟨⟨cid, given, unused⟩, free, -⟩
      obtain ⟨rq, rqs, free⟩ := List.exists_cons_of_ne_nil free
      have some_ := Sq.cmdAlloc_eq_some.mpr ⟨given, unused, rq, rqs, free, rfl⟩
      rw [done] at some_
      cases some_
  | some r =>
      obtain ⟨cid, sq'⟩ := r
      obtain ⟨given, unused, rq, rqs, free, -⟩ := Sq.cmdAlloc_eq_some.mp done
      have back := Sq.cmdPut_cmdAlloc done
      dsimp only
      split
      · rename_i unmapped
        simp only [Bool.and_eq_true, Bool.not_eq_true'] at unmapped
        refine .inl ⟨fun all => ?_, by rw [back]⟩
        have mapped := (all.2.2.1 unmapped.1).2
        rw [unmapped.2] at mapped
        cases mapped
      · rename_i dataOk
        split
        · rename_i unmapped
          simp only [Bool.and_eq_true, Bool.not_eq_true'] at unmapped
          refine .inl ⟨fun all => ?_, by rw [back]⟩
          have mapped := all.2.2.2 unmapped.1
          rw [unmapped.2] at mapped
          cases mapped
        · rename_i mdOk
          simp only [Bool.and_eq_true, Bool.not_eq_true', not_and, Bool.not_eq_false] at dataOk mdOk
          exact .inr ⟨⟨⟨cid, given, unused⟩, by simp [free], fun d => ⟨buf d, dataOk d⟩, mdOk⟩,
            cid, sq', rfl, rfl⟩

theorem Call.allocCmd_cases (c : Call) (md : Bool) (sq : Sq) :
    (¬ c.Allocates true md sq ∧ c.allocCmd md sq = (none, sq)) ∨
      (c.Allocates true md sq ∧ ∃ cid sq', sq.cmdAlloc c.cid = some (cid, sq') ∧
        c.allocCmd md sq = (some cid, sq')) := by
  unfold Call.allocCmd
  cases buf : c.buf with
  | false =>
      refine .inl ⟨fun all => ?_, rfl⟩
      have given := (all.2.2.1 rfl).1
      rw [buf] at given
      cases given
  | true => exact c.cmdInit_cases true md sq fun _ => buf

/-- What a submit function does, where the condition for it to post is `clean`. -/
def Posts (c : Call) (sq : Sq) (clean : Prop) (r : Submitted) : Prop :=
  (clean ∧ ∃ cid sq', sq.cmdAlloc c.cid = some (cid, sq') ∧ r = (.queued, some cid, sq')) ∨
    (¬ clean ∧ r.1 ≠ .queued ∧ r.2.1 = none)

theorem Call.mapAndPost_posts (c : Call) (sq : Sq) :
    Posts c sq (c.Allocates true false sq ∧ c.mapErr = none)
      (c.mapAndPost (c.allocCmd false sq)) := by
  obtain ⟨cannot, failed⟩ | ⟨can, cid, sq', done, alloc⟩ := c.allocCmd_cases false sq
  · rw [failed]
    exact .inr ⟨fun all => cannot all.1, by simp [Call.mapAndPost], rfl⟩
  · rw [alloc]
    unfold Call.mapAndPost
    cases mapErr : c.mapErr with
    | some errno => exact .inr ⟨by simp, by simp, rfl⟩
    | none => exact .inl ⟨⟨can, rfl⟩, cid, sq', done, rfl⟩

theorem Call.post_posts (c : Call) (sq : Sq) :
    Posts c sq (c.Allocates false false sq) (post (c.allocCmdNodata sq)) := by
  obtain ⟨cannot, failed⟩ | ⟨can, cid, sq', done, alloc⟩ :=
    c.cmdInit_cases false false sq (by simp)
  · rw [Call.allocCmdNodata, failed]
    exact .inr ⟨cannot, by simp [post], rfl⟩
  · rw [Call.allocCmdNodata, alloc]
    exact .inl ⟨can, cid, sq', done, rfl⟩

theorem Call.rw_posts (c : Call) (sq : Sq) :
    Posts c sq (c.Allocates true c.mbuf sq ∧ c.mapErr = none ∧
      ¬ (c.mbuf = true ∧ c.enableSgl = true)) (c.rw sq) := by
  unfold Call.rw
  obtain ⟨cannot, failed⟩ | ⟨can, cid, sq', done, alloc⟩ := c.allocCmd_cases c.mbuf sq
  · rw [failed]
    exact .inr ⟨fun all => cannot all.1, by simp, rfl⟩
  · rw [alloc]
    cases mapErr : c.mapErr with
    | some errno => exact .inr ⟨by simp, by simp, rfl⟩
    | none =>
        dsimp only
        split
        · rename_i both
          exact .inr ⟨fun all => all.2.2 (by simpa using both), by simp, rfl⟩
        · rename_i one
          exact .inl ⟨⟨can, rfl, by simpa using one⟩, cid, sq', done, rfl⟩

/-- Every submit function posts exactly the clean calls. -/
theorem Call.submit_posts {r : Submitted} (given : c.submit sq = some r) :
    Posts c sq (c.Clean sq) r := by
  unfold Call.submit at given
  unfold Call.Clean
  cases ddir : c.ddir with
  | read | write =>
      simp only [ddir, Option.some.injEq] at given ⊢
      subst given
      cases adminCmd : c.adminCmd with
      | none => simpa using c.rw_posts sq
      | abort => simpa [Call.admin, adminCmd] using c.post_posts sq
      | mapped => simpa [Call.admin, adminCmd] using c.mapAndPost_posts sq
  | trim =>
      simp only [ddir, Option.some.injEq] at given
      subst given
      exact c.mapAndPost_posts sq
  | sync =>
      simp only [ddir, Option.some.injEq] at given
      subst given
      exact c.post_posts sq
  | other =>
      rw [ddir] at given
      cases given

end Alloc

/-! ### Runs -/

section Runs

variable {s s' : State} {a : Act}

/-- The counter is right and within the depth, and the commands that are counted are in use. -/
structure State.Inv (s : State) : Prop where
  counted : s.Counted
  bounded : s.nrQueued.toNat ≤ s.iodepth.toNat
  nodup : s.mine.Nodup
  used : ∀ cid ∈ s.mine, (s.sq.cmds cid).isSome

theorem start_inv (iodepth : BitVec 32) (sq : Sq) : (start iodepth sq).Inv where
  counted := rfl
  bounded := Nat.zero_le _
  nodup := List.nodup_nil
  used := by simp [State.mine, start]

/-- What a queue call does. -/
theorem State.queue_cases (s : State) (c : Call) :
    (¬ c.Enters s ∧ (s.queue c).1 ≠ .queued ∧ (s.queue c).2 = s) ∨
      (c.Enters s ∧ ∃ status posted sq, Posts c s.sq (c.Clean s.sq) (status, posted, sq) ∧
        s.queue c = (status, { s with
          nrQueued := s.nrQueued + 1, sq := sq, inflight := s.inflight ++ posted.toList })) := by
  unfold State.queue
  split
  · rename_i full
    exact .inl ⟨fun enters => enters.1 full, by simp, rfl⟩
  split
  · rename_i taken
    refine .inl ⟨fun enters => ?_, by simp, rfl⟩
    simp [enters.2.1] at taken
  split
  · rename_i off
    refine .inl ⟨fun enters => ?_, by simp, rfl⟩
    simp [enters.2.2.1] at off
  rename_i room locked ready
  simp only [Bool.not_eq_true', Bool.not_eq_false] at locked ready
  cases given : c.submit s.sq with
  | none =>
      refine .inl ⟨fun enters => ?_, by simp, rfl⟩
      unfold Call.submit at given
      cases ddir : c.ddir with
      | other => exact enters.2.2.2 ddir
      | read | write | trim | sync =>
          rw [ddir] at given
          cases given
  | some r =>
      obtain ⟨status, posted, sq⟩ := r
      refine .inr ⟨⟨room, locked, ready, fun other => ?_⟩, status, posted, sq,
        Call.submit_posts given, rfl⟩
      rw [Call.submit, other] at given
      cases given

/-- A command that is counted there is not put. -/
theorem Sq.cmdPut_other {sq : Sq} {cid k : Nat} (other : k ≠ cid) :
    (sq.cmdPut cid).cmds k = sq.cmds k := by
  unfold Sq.cmdPut
  split
  · rfl
  · exact Function.update_of_ne other _ _

theorem Sq.cmdAlloc_cmds {sq sq' : Sq} {cid? : Option Nat} {cid k : Nat}
    (done : sq.cmdAlloc cid? = some (cid, sq')) (used : k = cid ∨ (sq.cmds k).isSome) :
    (sq'.cmds k).isSome := by
  obtain ⟨-, -, rq, rqs, -, rfl⟩ := Sq.cmdAlloc_eq_some.mp done
  by_cases same : k = cid
  · subst same
    simp
  · simpa [Function.update_of_ne same] using used.resolve_left same

/-- A counter below the depth does not wrap. -/
theorem State.Inv.next (h : s.Inv) (room : s.nrQueued ≠ s.iodepth) :
    (s.nrQueued + 1).toNat = s.nrQueued.toNat + 1 ∧ s.nrQueued.toNat + 1 ≤ s.iodepth.toNat := by
  have differ : s.nrQueued.toNat ≠ s.iodepth.toNat := fun same => room (BitVec.eq_of_toNat_eq same)
  have below := h.bounded
  have depth := s.iodepth.isLt
  rw [BitVec.toNat_add]
  constructor
  · exact Nat.mod_eq_of_lt (by simp; omega)
  · omega

/-- A clean call posts a command that is counted. -/
theorem State.Inv.queue (h : s.Inv) {c : Call} (submits : Submits s (.queue c)) :
    (s.queue c).2.Inv := by
  obtain ⟨-, -, same⟩ | ⟨enters, status, posted, sq, posts, queued⟩ := s.queue_cases c
  · rw [same]
    exact h
  · obtain ⟨-, cid, sq', done, r⟩ | ⟨dirty, -, -⟩ := posts
    · cases r
      obtain ⟨-, unused, -⟩ := Sq.cmdAlloc_eq_some.mp done
      obtain ⟨next, room⟩ := h.next enters.1
      have fresh : cid ∉ s.mine := fun mem => by
        have used := h.used cid mem
        rw [unused] at used
        cases used
      have counted : s.nrQueued.toNat = s.mine.length := h.counted
      have mine : (s.inflight ++ [cid] ++ s.cqes).Perm (cid :: s.mine) := by
        rw [List.append_assoc, List.singleton_append]
        exact List.perm_middle
      rw [queued]
      exact {
        counted := by
          change (s.nrQueued + 1).toNat = (s.inflight ++ [cid] ++ s.cqes).length
          rw [next, mine.length_eq, counted, List.length_cons]
        bounded := by
          change (s.nrQueued + 1).toNat ≤ s.iodepth.toNat
          omega
        nodup := mine.nodup_iff.mpr (List.nodup_cons.mpr ⟨fresh, h.nodup⟩)
        used := by
          intro k mem
          have mem := mine.mem_iff.mp mem
          exact Sq.cmdAlloc_cmds done ((List.mem_cons.mp mem).imp_right (h.used k)) }
    · exact absurd (submits enters) dirty

/-- `.event` returns a command that is in use. -/
theorem State.Inv.event (h : s.Inv) (done : s.event = some s') : s'.Inv := by
  unfold State.event at done
  split at done
  · cases done
  · rename_i cid cqes fetched
    split at done
    · cases done
      have mine : s.mine.Perm (cid :: (s.inflight ++ cqes)) := by
        rw [State.mine, fetched]
        exact List.perm_middle
      have nodup := List.nodup_cons.mp (mine.nodup_iff.mp h.nodup)
      have counted : s.nrQueued.toNat = s.mine.length := h.counted
      have bounded := h.bounded
      rw [mine.length_eq, List.length_cons] at counted
      have less : (s.nrQueued - 1).toNat = s.nrQueued.toNat - 1 := by
        rw [BitVec.toNat_sub_of_le]
        · rfl
        · exact BitVec.le_def.mpr (by simp; omega)
      exact {
        counted := by
          change (s.nrQueued - 1).toNat = (s.inflight ++ cqes).length
          omega
        bounded := by
          change (s.nrQueued - 1).toNat ≤ s.iodepth.toNat
          omega
        nodup := nodup.2
        used := by
          intro k mem
          have other : k ≠ cid := fun same => nodup.1 (same ▸ mem)
          change ((s.sq.cmdPut cid).cmds k).isSome
          rw [Sq.cmdPut_other other]
          exact h.used k (mine.mem_iff.mpr (List.mem_cons_of_mem _ mem)) }
    · cases done

/-- The completions that are fetched were in flight. -/
theorem State.Inv.getevents (h : s.Inv) {cids : List Nat} (idle : s.cqes = [])
    (sub : cids.Subperm s.inflight) :
    State.Inv { s with inflight := s.inflight.diff cids, cqes := cids } := by
  have mine : (s.inflight.diff cids ++ cids).Perm s.mine := by
    rw [State.mine, idle, List.append_nil]
    exact List.perm_append_comm.trans
      (List.subperm_append_diff_self_of_count_le (List.subperm_ext_iff.mp sub))
  exact {
    counted := h.counted.trans mine.length_eq.symm
    bounded := h.bounded
    nodup := mine.nodup_iff.mpr h.nodup
    used := fun k mem => h.used k (mine.mem_iff.mp mem) }

theorem step_inv (h : s.Inv) (submits : Submits s a) (hstep : step s a = some s') : s'.Inv := by
  cases a with
  | queue c =>
      cases hstep
      exact h.queue submits
  | commit =>
      cases hstep
      exact h
  | getevents cids =>
      simp only [step] at hstep
      split at hstep
      · rename_i may
        cases hstep
        exact h.getevents may.1 may.2
      · cases hstep
  | event => exact h.event hstep
  | otherAlloc cid =>
      obtain ⟨⟨k, sq⟩, done, rfl⟩ := Option.map_eq_some_iff.mp hstep
      exact { h with used := fun k mem => Sq.cmdAlloc_cmds done (.inr (h.used k mem)) }
  | otherFree cid =>
      simp only [step] at hstep
      split at hstep
      · cases hstep
      · rename_i foreign
        cases hstep
        refine { h with used := fun k mem => ?_ }
        have other : k ≠ cid := fun same => foreign (same ▸ mem)
        change ((s.sq.cmdPut cid).cmds k).isSome
        rw [Sq.cmdPut_other other]
        exact h.used k mem

/-- A step is accounted for exactly if it posts what it counts. -/
theorem accounted_iff (h : s.Inv) (hstep : step s a = some s') :
    Accounted s a s' ↔ Submits s a := by
  cases a with
  | queue c =>
      cases hstep
      obtain ⟨out, notQueued, same⟩ | ⟨enters, status, posted, sq, posts, queued⟩ :=
        s.queue_cases c
      · refine iff_of_true ⟨?_, fun _ => ?_⟩ fun enters => absurd enters out
        · rw [same]
          exact h.counted
        · rw [same]
          exact ⟨rfl, rfl⟩
      · obtain ⟨clean, cid, sq', -, r⟩ | ⟨dirty, -, nothing⟩ := posts
        · cases r
          refine iff_of_true ⟨(h.queue fun _ => clean).counted, fun notQueued => ?_⟩ fun _ => clean
          rw [queued] at notQueued
          exact absurd rfl notQueued
        · refine iff_of_false (fun good => ?_) fun submits => dirty (submits enters)
          have counted : (s.queue c).2.nrQueued.toNat = (s.queue c).2.mine.length := good.1
          have before : s.nrQueued.toNat = s.mine.length := h.counted
          dsimp only at nothing
          subst nothing
          rw [queued] at counted
          simp only [State.mine, Option.toList_none, List.append_nil] at counted before
          have next := (h.next enters.1).1
          omega
  | commit | getevents _ | event | otherAlloc _ | otherFree _ =>
      exact iff_of_true ⟨(step_inv h (by trivial) hstep).counted, trivial⟩ trivial

/-- **Accounting.** In every run, the counter is right after every step and a call that queues
nothing changes nothing, if and only if every call that gets past the checks of
`fio_libunvmed_queue` is clean. -/
theorem queue_accounted_iff (iodepth : BitVec 32) (sq : Sq) (as : List Act) :
    Steps step Accounted (start iodepth sq) as ↔ Guarded step Submits (start iodepth sq) as := by
  refine (guarded_iff_steps (P := Submits) (Q := Accounted)
    (fun _ _ _ h submits hstep => step_inv h submits hstep)
    (fun _ _ _ h hstep => accounted_iff h hstep) ?_ (start_inv iodepth sq)).symm
  intro s a stuck
  cases a with
  | queue c => cases stuck
  | commit | getevents _ | event | otherAlloc _ | otherFree _ => trivial

/-- An SQ of 4 entries that nobody uses. -/
def idleSq : Sq := ⟨fun _ => none, [0, 1, 2], 0⟩

/-- A read and a flush, both returned, while another thread uses the SQ. -/
def twoIos : List Act :=
  [.queue { ddir := .read, cid := some 0 }, .otherAlloc 1, .queue { ddir := .sync, cid := some 2 },
    .queue { ddir := .trim, cid := some 0, locked := false }, .commit, .getevents [2], .event,
    .otherFree 1, .getevents [0], .event]

example : (run step (start 8 idleSq) twoIos).map (fun s => (s.nrQueued, s.sq.nrCmds)) =
    some (0, 0) := by
  decide

/-- Three commands are in flight and the SQ is full: a further read is refused, and counted. -/
theorem busy_is_counted : ¬ ∀ as, Steps step Accounted (start 8 idleSq) as := by
  intro all
  have steps := all [.queue { ddir := .read, cid := some 0 },
    .queue { ddir := .read, cid := some 1 }, .queue { ddir := .read, cid := some 2 },
    .queue { ddir := .read, cid := none }]
  have last := (steps.2.2.2).1
  exact absurd last.1 (by decide)

end Runs

end Unvmed.FioQueue
