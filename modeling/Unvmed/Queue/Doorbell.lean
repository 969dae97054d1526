import Mathlib.Data.Finset.Card
import Unvmed.Lib.Ring
import Unvmed.Lib.Run

/-!
Deferred doorbells (`unvmed_cmd_post`, `unvmed_sq_update_tail` in `src/lib/libunvmed.c`,
`unvmed_sq_for_each_entry` in `src/lib/libunvmed.h`).

A command posted with `UNVMED_CMD_F_NODB` is in the ring but the device does not know. How many
there are is not stored: it is computed from `tail` and `ptail`, two positions in a ring, where a
full turn looks like none. A command takes a request of libvfn's pool, which has one less than the
ring has slots, and keeps it until it is freed; a command whose doorbell was not rung is not
complete, so it is not freed.

* `step_inv`, `run_inv`: the entries between `ptail` and `tail` are the posts since the last
  doorbell, each by another command that is outstanding.
* `deferred_doorbells`: the number of pending entries, `unvmed_sq_update_tail` and the iterator.
-/

namespace Unvmed.Doorbell

open Lib

/-! ### The submission queue -/

/-- `union nvme_cmd` -/
structure Sqe (α : Type) where
  cid : BitVec 16
  body : α
  deriving DecidableEq, Repr

/-- `struct nvme_sq` of libvfn. `ptail` is the tail that the device knows. -/
structure NvmeSq (α : Type) where
  /-- The entries at `mem.vaddr`. -/
  mem : ℕ → Sqe α
  qsize : ℕ
  tail : ℕ := 0
  ptail : ℕ := 0

/-- What is assumed of libvfn's `nvme_sq_post` and `nvme_sq_update_tail`. -/
structure SqSpec {α : Type} (nvmeSqPost : NvmeSq α → Sqe α → NvmeSq α)
    (nvmeSqUpdateTail : NvmeSq α → NvmeSq α) : Prop where
  post : ∀ q sqe, nvmeSqPost q sqe =
    { q with mem := Function.update q.mem q.tail sqe, tail := (q.tail + 1) % q.qsize }
  updateTail : ∀ q, nvmeSqUpdateTail q = { q with ptail := q.tail }

section Queue

variable {α : Type}

/-- `unvmed_sq_nr_pending_sqes` -/
def nrPendingSqes (q : NvmeSq α) : ℤ :=
  if q.tail ≥ q.ptail then (q.tail : ℤ) - q.ptail else ((q.qsize : ℤ) - q.ptail) + q.tail

/-- `unvmed_sq_update_tail`: what it returns, and the queue. -/
def sqUpdateTail (nvmeSqUpdateTail : NvmeSq α → NvmeSq α) (q : NvmeSq α) : ℤ × NvmeSq α :=
  let nrSqes := nrPendingSqes q
  if nrSqes = 0 then (0, q) else (nrSqes, nvmeSqUpdateTail q)

/-- `unvmed_sq_entry` -/
def NvmeSq.entry (q : NvmeSq α) (db : ℕ) : Sqe α := q.mem db

/-- The loop of `unvmed_sq_for_each_entry` from `_i` on: each entry its body sees, with `id`. -/
def forEachFrom (q : NvmeSq α) : ℕ → ℕ → ℕ → Option (List (Sqe α × ℕ))
  | 0, _, _ => none
  | fuel + 1, i, id =>
      if i ≠ q.tail then
        (forEachFrom q fuel ((i + 1) % q.qsize) (id + 1)).map ((q.entry i, id) :: ·)
      else some []

/-- `unvmed_sq_for_each_entry` -/
def sqForEachEntry (fuel : ℕ) (q : NvmeSq α) : Option (List (Sqe α × ℕ)) :=
  forEachFrom q fuel q.ptail 0

end Queue

/-! ### The commands -/

/-- Where a command is: `usq->cmds[cid]` or `usq->conflict_cmds`. -/
inductive Slot where
  | cmds (cid : BitVec 16)
  | conflict
  deriving DecidableEq, Repr

/-- `struct unvme_cmd` -/
structure Cmd where
  slot : Slot
  cid : BitVec 16
  deriving DecidableEq, Repr

/-- A submission queue with its commands. -/
structure State (α : Type) where
  /-- `usq->q` -/
  q : NvmeSq α
  /-- The commands that are allocated, each with a request of the pool. -/
  cmds : Finset Cmd := ∅
  /-- The posts since the last doorbell. -/
  log : List (Cmd × Sqe α) := []

inductive Op (α : Type) where
  /-- `__unvmed_cmd_alloc`; `pinned` if the caller gives the CID, `rq` if
  `nvme_rq_acquire_atomic` returns a request. -/
  | alloc (cid : BitVec 16) (pinned rq : Bool)
  /-- `unvmed_cmd_post`, with `UNVMED_CMD_F_NODB` or without. -/
  | post (cmd : Cmd) (sqe : Sqe α) (nodb : Bool)
  /-- `__unvmed_cmd_free` -/
  | free (cmd : Cmd)
  /-- `unvmed_sq_update_tail` -/
  | updateTail

section Commands

variable {α : Type} (nvmeSqPost : NvmeSq α → Sqe α → NvmeSq α)
  (nvmeSqUpdateTail : NvmeSq α → NvmeSq α)

def State.taken (s : State α) (slot : Slot) : Prop := ∃ c ∈ s.cmds, c.slot = slot

instance (s : State α) (slot : Slot) : Decidable (s.taken slot) :=
  inferInstanceAs (Decidable (∃ c ∈ s.cmds, c.slot = slot))

/-- The slot of a new command: the one of its CID, or, if the caller insists on a CID that is in
use, the one for conflicts. -/
def newSlot (s : State α) (cid : BitVec 16) (pinned : Bool) : Option Slot :=
  if ¬ s.taken (.cmds cid) then some (.cmds cid)
  else if pinned = true ∧ ¬ s.taken .conflict then some .conflict
  else none

/-- `__unvmed_cmd_alloc`, `__unvmed_conflict_cmd_alloc` -/
def cmdAlloc (s : State α) (cid : BitVec 16) (pinned rq : Bool) : Option Cmd × State α :=
  match newSlot s cid pinned with
  | none => (none, s)
  | some slot =>
      if rq then (some ⟨slot, cid⟩, { s with cmds := insert ⟨slot, cid⟩ s.cmds }) else (none, s)

/-- The doorbell. -/
def State.ring (s : State α) : State α := { s with q := nvmeSqUpdateTail s.q, log := [] }

/-- `unvmed_cmd_post` returns the index of the entry. -/
def cmdPost (s : State α) (cmd : Cmd) (sqe : Sqe α) (nodb : Bool) : ℕ × State α :=
  let idx := s.q.tail
  let sqe := { sqe with cid := cmd.cid }
  let s := { s with q := nvmeSqPost s.q sqe, log := s.log ++ [(cmd, sqe)] }
  (idx, if nodb then s else s.ring nvmeSqUpdateTail)

/-- One call. -/
def step (s : State α) : Op α → Option (State α)
  | .alloc cid pinned rq => some (cmdAlloc s cid pinned rq).2
  | .post cmd sqe nodb => some (cmdPost nvmeSqPost nvmeSqUpdateTail s cmd sqe nodb).2
  | .free cmd => some { s with cmds := s.cmds.erase cmd }
  | .updateTail =>
      let (nrSqes, q) := sqUpdateTail nvmeSqUpdateTail s.q
      some { s with q := q, log := if nrSqes = 0 then s.log else [] }

/-- A command that was posted and whose doorbell was not rung. -/
def State.deferred (s : State α) (cmd : Cmd) : Prop := cmd ∈ s.log.map Prod.fst

instance (s : State α) (cmd : Cmd) : Decidable (s.deferred cmd) :=
  inferInstanceAs (Decidable (cmd ∈ _))

/-- The pool has `qsize - 1` requests; a command that is posted is outstanding and not in the ring
already; a command that is freed is not waiting for its doorbell. -/
def Admitted (s : State α) : Op α → Prop
  | .alloc _ _ rq => rq = true → s.cmds.card < s.q.qsize - 1
  | .post cmd _ _ => cmd ∈ s.cmds ∧ ¬ s.deferred cmd
  | .free cmd => ¬ s.deferred cmd
  | .updateTail => True

instance (s : State α) : ∀ op, Decidable (Admitted s op)
  | .alloc _ _ rq => inferInstanceAs (Decidable (rq = true → s.cmds.card < s.q.qsize - 1))
  | .post cmd _ _ => inferInstanceAs (Decidable (cmd ∈ s.cmds ∧ ¬ s.deferred cmd))
  | .free cmd => inferInstanceAs (Decidable (¬ s.deferred cmd))
  | .updateTail => inferInstanceAs (Decidable True)

/-- The posts of a run since its last doorbell, after those in `posts`. -/
def note (posts : List (Sqe α)) : Op α → List (Sqe α)
  | .post cmd sqe nodb => if nodb then posts ++ [{ sqe with cid := cmd.cid }] else []
  | .updateTail => []
  | _ => posts

def sinceDoorbell (ops : List (Op α)) : List (Sqe α) := ops.foldl note []

/-- A queue as it is created. -/
def start (qsize : ℕ) (mem : ℕ → Sqe α) : State α := { q := { mem, qsize } }

end Commands

/-! ### The invariant -/

section Invariant

variable {α : Type} {s s' : State α} {q : NvmeSq α} {n : ℕ}

/-- The posts since the last doorbell are the window from `ptail` to `tail`, each by another
command that is outstanding, and the pool bounds these. -/
structure Inv (s : State α) : Prop where
  inRing : s.q.ptail % s.q.qsize = s.q.ptail
  tail : s.q.tail = ringStop s.q.qsize s.q.ptail s.log.length
  entries : window s.q.mem s.q.qsize s.q.ptail s.log.length = s.log.map Prod.snd
  distinct : (s.log.map Prod.fst).Nodup
  outstanding : ∀ cmd, s.deferred cmd → cmd ∈ s.cmds
  pool : s.cmds.card ≤ s.q.qsize - 1

/-- There are no more posts than outstanding commands. -/
theorem Inv.length_le (inv : Inv s) : s.log.length ≤ s.cmds.card := by
  have sub : (s.log.map Prod.fst).toFinset ⊆ s.cmds :=
    fun cmd mem => inv.outstanding cmd (List.mem_toFinset.mp mem)
  have card := Finset.card_le_card sub
  rwa [List.toFinset_card_of_nodup inv.distinct, List.length_map] at card

theorem Inv.room (inv : Inv s) : s.log.length ≤ s.q.qsize - 1 := inv.length_le.trans inv.pool

/-- The two positions tell the number of entries between them, up to `qsize - 1`. -/
theorem nrPendingSqes_eq (inRing : q.ptail % q.qsize = q.ptail)
    (tail : q.tail = ringStop q.qsize q.ptail n) (room : n ≤ q.qsize - 1) :
    nrPendingSqes q = n := by
  unfold nrPendingSqes
  rcases ringStop_cases inRing room with stop | ⟨less, wraps, stop⟩
  · rw [if_pos (by omega)]
    omega
  · rw [if_neg (by omega)]
    omega

/-- The iterator walks the window. -/
theorem forEachFrom_eq {i id fuel : ℕ} (inRing : i % q.qsize = i)
    (tail : q.tail = ringStop q.qsize i n) (room : n ≤ q.qsize - 1) (enough : n < fuel) :
    forEachFrom q fuel i id = some ((window q.mem q.qsize i n).zipIdx id) := by
  induction n generalizing i id fuel with
  | zero =>
      obtain ⟨fuel, rfl⟩ := Nat.exists_eq_succ_of_ne_zero (Nat.ne_of_gt enough)
      rw [forEachFrom, if_neg (by rw [tail, ringStop_zero inRing]; exact not_not.mpr rfl)]
      rfl
  | succ n ih =>
      obtain ⟨fuel, rfl⟩ := Nat.exists_eq_succ_of_ne_zero (Nat.ne_of_gt (Nat.zero_lt_of_lt enough))
      have before : i ≠ q.tail := by
        have ne := ringStop_ne inRing room (Nat.succ_pos n)
        rw [ringStop_zero inRing, ← tail] at ne
        exact ne
      have rest : forEachFrom q fuel ((i + 1) % q.qsize) (id + 1) =
          some ((window q.mem q.qsize ((i + 1) % q.qsize) n).zipIdx (id + 1)) := by
        apply ih
        · exact Nat.mod_mod _ _
        · rw [ringStop_next, tail]
        · omega
        · omega
      rw [forEachFrom, if_pos before, rest, window_succ inRing, List.zipIdx_cons]
      rfl

theorem Inv.nrPendingSqes (inv : Inv s) : nrPendingSqes s.q = s.log.length :=
  nrPendingSqes_eq inv.inRing inv.tail inv.room

/-- It returns the number in both cases. -/
theorem sqUpdateTail_eq (nvmeSqUpdateTail : NvmeSq α → NvmeSq α) (q : NvmeSq α) :
    sqUpdateTail nvmeSqUpdateTail q =
      (nrPendingSqes q, if nrPendingSqes q = 0 then q else nvmeSqUpdateTail q) := by
  unfold sqUpdateTail
  by_cases none : nrPendingSqes q = 0
  · rw [if_pos none, if_pos none, none]
  · rw [if_neg none, if_neg none]

theorem inv_start (qsize : ℕ) (mem : ℕ → Sqe α) : Inv (start qsize mem) where
  inRing := Nat.zero_mod qsize
  tail := (Nat.zero_mod qsize).symm
  entries := rfl
  distinct := List.nodup_nil
  outstanding _ deferred := absurd deferred List.not_mem_nil
  pool := Nat.zero_le _

end Invariant

/-! ### Steps -/

section Steps

variable {α : Type} {nvmeSqPost : NvmeSq α → Sqe α → NvmeSq α}
  {nvmeSqUpdateTail : NvmeSq α → NvmeSq α} {s s' : State α}

/-- More commands, within the pool. -/
theorem Inv.more (inv : Inv s) {cmds : Finset Cmd} (sub : s.cmds ⊆ cmds)
    (pool : cmds.card ≤ s.q.qsize - 1) : Inv { s with cmds := cmds } :=
  { inv with
    outstanding := fun cmd deferred => sub (inv.outstanding cmd deferred)
    pool := pool }

theorem inv_alloc (inv : Inv s) (cid : BitVec 16) (pinned rq : Bool)
    (pool : rq = true → s.cmds.card < s.q.qsize - 1) : Inv (cmdAlloc s cid pinned rq).2 := by
  unfold cmdAlloc
  cases newSlot s cid pinned with
  | none => exact inv
  | some slot =>
      cases rq with
      | false => exact inv
      | true =>
          apply inv.more (Finset.subset_insert ⟨slot, cid⟩ s.cmds)
          exact (Finset.card_insert_le ⟨slot, cid⟩ s.cmds).trans (pool rfl)

/-- A command that does not wait for its doorbell may go. -/
theorem inv_free (inv : Inv s) {cmd : Cmd} (rung : ¬ s.deferred cmd) :
    Inv { s with cmds := s.cmds.erase cmd } :=
  { inv with
    outstanding := by
      intro other deferred
      apply Finset.mem_erase.mpr
      constructor
      · rintro rfl
        exact rung deferred
      · exact inv.outstanding other deferred
    pool := (Finset.card_erase_le).trans inv.pool }

/-- After the doorbell nothing is pending. -/
theorem inv_ring (libvfn : SqSpec nvmeSqPost nvmeSqUpdateTail) (inv : Inv s) :
    Inv (s.ring nvmeSqUpdateTail) := by
  have inRing : s.q.tail % s.q.qsize = s.q.tail := by
    rw [inv.tail, ringStop_mod]
  have eq : s.ring nvmeSqUpdateTail =
      { s with q := { s.q with ptail := s.q.tail }, log := [] } := by
    rw [State.ring, libvfn.updateTail]
  rw [eq]
  exact
    { inRing := inRing
      tail := (ringStop_zero inRing).symm
      entries := rfl
      distinct := List.nodup_nil
      outstanding := fun _ deferred => absurd deferred List.not_mem_nil
      pool := inv.pool }

/-- A post is one entry more at the end of the window. There is room for it, since its command is
outstanding too. -/
theorem inv_posted (libvfn : SqSpec nvmeSqPost nvmeSqUpdateTail) (inv : Inv s) {cmd : Cmd}
    (mem : cmd ∈ s.cmds) (fresh : ¬ s.deferred cmd) (sqe : Sqe α) :
    Inv { s with q := nvmeSqPost s.q sqe, log := s.log ++ [(cmd, sqe)] } := by
  rw [libvfn.post]
  have length : (s.log ++ [(cmd, sqe)]).length = s.log.length + 1 := List.length_append
  exact
    { inRing := inv.inRing
      tail := by
        simp only [length]
        rw [inv.tail, ringStop_succ]
      entries := by
        simp only [length]
        rw [inv.tail, window_push inv.inRing inv.room, inv.entries, List.map_append]
        rfl
      distinct := by
        rw [List.map_append]
        refine inv.distinct.append (List.nodup_singleton cmd) ?_
        intro other deferred same
        rw [List.map_singleton, List.mem_singleton] at same
        subst same
        exact fresh deferred
      outstanding := by
        intro other deferred
        unfold State.deferred at deferred
        rw [List.map_append, List.mem_append] at deferred
        rcases deferred with before | new
        · exact inv.outstanding other before
        · rw [List.map_singleton, List.mem_singleton] at new
          exact new ▸ mem
      pool := inv.pool }

theorem inv_updateTail (libvfn : SqSpec nvmeSqPost nvmeSqUpdateTail) (inv : Inv s)
    (hstep : step nvmeSqPost nvmeSqUpdateTail s .updateTail = some s') : Inv s' := by
  simp only [step, sqUpdateTail, Option.some.injEq] at hstep
  subst hstep
  by_cases none : nrPendingSqes s.q = 0
  · simp only [if_pos none]
    exact inv
  · simp only [if_neg none]
    exact inv_ring libvfn inv

theorem step_inv (libvfn : SqSpec nvmeSqPost nvmeSqUpdateTail) (s : State α) (op : Op α)
    (s' : State α) (inv : Inv s) (admitted : Admitted s op)
    (hstep : step nvmeSqPost nvmeSqUpdateTail s op = some s') : Inv s' := by
  cases op with
  | alloc cid pinned rq =>
      cases hstep
      exact inv_alloc inv cid pinned rq admitted
  | post cmd sqe nodb =>
      cases hstep
      have posted := inv_posted libvfn inv admitted.1 admitted.2 { sqe with cid := cmd.cid }
      cases nodb with
      | true => exact posted
      | false => exact inv_ring libvfn posted
  | free cmd =>
      cases hstep
      exact inv_free inv admitted
  | updateTail => exact inv_updateTail libvfn inv hstep

end Steps

/-! ### Runs -/

section Main

variable {α : Type} {nvmeSqPost : NvmeSq α → Sqe α → NvmeSq α}
  {nvmeSqUpdateTail : NvmeSq α → NvmeSq α} {s s' : State α}

theorem step_log (inv : Inv s) {op : Op α}
    (hstep : step nvmeSqPost nvmeSqUpdateTail s op = some s') :
    s'.log.map Prod.snd = note (s.log.map Prod.snd) op := by
  cases op with
  | alloc cid pinned rq =>
      cases hstep
      simp only [cmdAlloc, note]
      cases newSlot s cid pinned with
      | none => rfl
      | some slot => cases rq <;> rfl
  | post cmd sqe nodb =>
      cases hstep
      cases nodb with
      | true => exact List.map_append
      | false => rfl
  | free cmd =>
      cases hstep
      rfl
  | updateTail =>
      simp only [step, sqUpdateTail, Option.some.injEq] at hstep
      subst hstep
      by_cases none : nrPendingSqes s.q = 0
      · -- nothing rings, and nothing was posted
        have empty : s.log = [] := by
          rw [inv.nrPendingSqes, Int.natCast_eq_zero, List.length_eq_zero_iff] at none
          exact none
        simp only [if_pos none, if_true, empty]
        rfl
      · simp only [if_neg none]
        rfl

/-- The log of the state is what the run posted since its last doorbell. -/
theorem run_log (libvfn : SqSpec nvmeSqPost nvmeSqUpdateTail) {ops : List (Op α)} (inv : Inv s)
    (admitted : Guarded (step nvmeSqPost nvmeSqUpdateTail) Admitted s ops)
    (hrun : run (step nvmeSqPost nvmeSqUpdateTail) s ops = some s') :
    s'.log.map Prod.snd = ops.foldl note (s.log.map Prod.snd) := by
  induction ops generalizing s with
  | nil =>
      cases hrun
      rfl
  | cons op ops ih =>
      obtain ⟨next, hstep, hrest⟩ := run_cons_some hrun
      have inv' := step_inv libvfn s op next inv admitted.1 hstep
      rw [ih inv' (admitted.tail hstep) hrest, step_log inv hstep, List.foldl_cons]

/-- For every ring and every run of allocations, posts, frees and updates, as they are admitted:
the number of pending entries is the number of posts since the last doorbell,
`unvmed_sq_update_tail` returns it and leaves nothing pending, and the iterator visits the entries
of these posts, in their order, with ids from 0 on. -/
theorem deferred_doorbells (libvfn : SqSpec nvmeSqPost nvmeSqUpdateTail) (qsize : ℕ)
    (mem : ℕ → Sqe α) (ops : List (Op α)) (s : State α)
    (admitted : Guarded (step nvmeSqPost nvmeSqUpdateTail) Admitted (start qsize mem) ops)
    (hrun : run (step nvmeSqPost nvmeSqUpdateTail) (start qsize mem) ops = some s) :
    nrPendingSqes s.q = (sinceDoorbell ops).length ∧
      (sqUpdateTail nvmeSqUpdateTail s.q).1 = (sinceDoorbell ops).length ∧
      nrPendingSqes (sqUpdateTail nvmeSqUpdateTail s.q).2 = 0 ∧
      ∀ fuel, (sinceDoorbell ops).length < fuel →
        sqForEachEntry fuel s.q = some (sinceDoorbell ops).zipIdx := by
  have inv : Inv s := run_inv (step_inv libvfn) (inv_start qsize mem) admitted hrun
  have log : s.log.map Prod.snd = sinceDoorbell ops :=
    run_log libvfn (inv_start qsize mem) admitted hrun
  have length : (sinceDoorbell ops).length = s.log.length := by
    rw [← log, List.length_map]
  have pending : nrPendingSqes s.q = (sinceDoorbell ops).length := by
    rw [length, inv.nrPendingSqes]
  refine ⟨pending, ?_, ?_, ?_⟩
  · rw [sqUpdateTail_eq]
    exact pending
  · rw [sqUpdateTail_eq]
    by_cases none : nrPendingSqes s.q = 0
    · rw [if_pos none]
      exact none
    · rw [if_neg none]
      exact (inv_ring libvfn inv).nrPendingSqes
  · intro fuel enough
    rw [length] at enough
    rw [sqForEachEntry, forEachFrom_eq inv.inRing inv.tail inv.room enough, inv.entries, log]

/-- libvfn's functions, as they are assumed. -/
def ringPost (q : NvmeSq α) (sqe : Sqe α) : NvmeSq α :=
  { q with mem := Function.update q.mem q.tail sqe, tail := (q.tail + 1) % q.qsize }

def ringUpdateTail (q : NvmeSq α) : NvmeSq α := { q with ptail := q.tail }

theorem ring_spec : SqSpec (α := α) ringPost ringUpdateTail where
  post _ _ := rfl
  updateTail _ := rfl

end Main

/-- A ring of four slots whose window wraps: two commands with a doorbell each, then two without. -/
def wrapping : List (Op ℕ) :=
  [.alloc 0 false true, .post ⟨.cmds 0, 0⟩ ⟨0, 10⟩ false, .free ⟨.cmds 0, 0⟩,
    .alloc 1 false true, .post ⟨.cmds 1, 1⟩ ⟨0, 11⟩ true, .updateTail, .alloc 2 false true,
    .alloc 2 true true, .post ⟨.cmds 2, 2⟩ ⟨0, 12⟩ true, .post ⟨.conflict, 2⟩ ⟨0, 13⟩ true]

theorem deferred_doorbells_wrapping :
    ∃ s, run (step ringPost ringUpdateTail) (start 4 fun _ => ⟨0, 0⟩) wrapping = some s ∧
      s.q.tail = 0 ∧ s.q.ptail = 2 ∧ nrPendingSqes s.q = 2 ∧
      sqForEachEntry 3 s.q = some [(⟨2, 12⟩, 0), (⟨2, 13⟩, 1)] := by
  have main := deferred_doorbells ring_spec 4 (fun _ => ⟨0, 0⟩) wrapping _ (by decide) rfl
  exact ⟨_, rfl, rfl, rfl, main.1, main.2.2.2 3 (by decide)⟩

end Unvmed.Doorbell
