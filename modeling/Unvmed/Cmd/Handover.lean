import Unvmed.Cmd.Lifetime

/-!
The shared slot of conflict commands (`usq->conflict_cmds` in `lib/libunvmed-cmds.c`).

`__unvmed_conflict_cmd_alloc` claims the slot by a compare-and-swap of `state` and stores every
other field by name. `__unvmed_cmd_free` clears the slot with `memset`, here field by field in address
order, so the slot can be claimed as soon as `state` is cleared, when most fields are still to be
cleared. Each access is one step, and any number of threads interleave. A thread that follows a
null pointer goes no further.

* `slot_kept_iff`: a run keeps every field of every command until its own free, and every bit of
  the bitmap with its resident, if and only if no `memset` of an earlier free clears a field that a
  newer allocation has stored (`Apart`).
* `kept_of_handover`: it is enough that no allocation claims the slot during a `memset`.
* `late_memset_frees_resident`: the last store of a free clears `injected` of the next command, and
  the free of that one clears the bit of the resident command.
-/

namespace Unvmed.Handover

open Lib
open CmdLife (Field)

/-- The pointers to the controller and to the queue. -/
def ptr : ℤ := 1

/-- `UNVME_CMD_S_ALLOCATED` and `UNVMED_CMD_INJECT_CONFLICT` -/
def allocated : ℤ := 1
def conflict : ℤ := 1

/-- The fields in address order. -/
def layout : List Field :=
  [.u, .refcnt, .state, .flags, .usq, .vcq, .cid, .rq, .buf, .mbuf, .data, .completed, .timeout,
    .sqe, .cqe, .injected]

/-- What an allocation is for. -/
structure Args where
  cid : ℕ
  vcq : ℤ
  rq : ℤ
  deriving DecidableEq, Repr

/-- The stores of `__unvmed_conflict_cmd_alloc` after its compare-and-swap. -/
def Args.stores (a : Args) : List (Field × ℤ) :=
  [(.u, ptr), (.refcnt, 1), (.flags, 0), (.usq, ptr), (.vcq, a.vcq), (.cid, a.cid), (.rq, a.rq),
    (.buf, 0), (.mbuf, 0), (.data, 0), (.completed, 0), (.timeout, 0), (.sqe, 0), (.cqe, 0),
    (.injected, conflict)]

/-- The variables of `__unvmed_cmd_free`. -/
structure Locals where
  usq : ℤ := 0
  rq : ℤ := 0
  cid : ℤ := 0
  injected : ℤ := 0
  deriving DecidableEq, Repr

def Locals.read (l : Locals) : Field → ℤ → Locals
  | .usq, v => { l with usq := v }
  | .rq, v => { l with rq := v }
  | .cid, v => { l with cid := v }
  | .injected, v => { l with injected := v }
  | _, _ => l

/-- The fields that `__unvmed_cmd_free` reads. -/
def reads : List Field := [.usq, .rq, .cid, .injected]

/-- Where a thread is; each name says which access comes next. -/
inductive Pc where
  | idle
  /-- `nvme_rq_acquire_atomic` -/
  | acquire (cid : ℕ) (vcq : ℤ)
  /-- There is no request: `state` is stored back. -/
  | undo
  /-- `atomic_inc(&usq->nr_cmds)` -/
  | nrInc (a : Args)
  | store (a : Args) (todo : List (Field × ℤ))
  /-- `unvmed_cmd_put` -/
  | dec
  | read (l : Locals) (todo : List Field)
  /-- `memset` -/
  | clear (l : Locals) (todo : List Field)
  | nrDec (l : Locals)
  /-- `nvme_rq_release_atomic` -/
  | release (l : Locals)
  /-- `unvmed_cid_free` -/
  | cidFree (l : Locals)
  deriving DecidableEq, Repr

/-- Who has the slot. -/
inductive Phase (ι : Type) where
  | vacant
  /-- An allocation of the thread, or its free up to the store to `state`. -/
  | busy (t : ι)
  /-- A command that was returned. -/
  | held
  deriving DecidableEq, Repr

/-- The slot, its threads, and what they did so far. -/
structure State (ι : Type) where
  /-- `usq->cids.size` -/
  size : ℕ
  /-- The bits of `usq->cids`. -/
  cids : ℕ → Bool
  /-- `usq->nr_cmds` -/
  nrCmds : ℤ
  /-- The free requests of libvfn's queue. -/
  rqs : List ℤ
  /-- `usq->conflict_cmds` -/
  slot : Field → ℤ
  pcs : ι → Pc
  phase : Phase ι
  /-- The fields that the newest allocation has stored, until its own `memset`. -/
  stored : List Field
  /-- What it stored, and what its owner stored since. -/
  want : Field → ℤ
  args : Args
  /-- The bits that resident commands own. -/
  bits : ℕ → Bool

inductive Act (ι : Type) where
  /-- `__unvmed_conflict_cmd_alloc` -/
  | alloc (t : ι) (cid : ℕ) (vcq : ℤ)
  /-- The owner puts the command. -/
  | put (t : ι)
  /-- The owner stores to a field: `unvmed_cmd_post`, the completion, the caller. -/
  | write (f : Field) (v : ℤ)
  /-- A resident command gets or gives back its id. -/
  | resident (cid : ℕ) (b : Bool)
  | step (t : ι)
  deriving Repr

section Step

variable {ι : Type} [DecidableEq ι]

def State.goto (s : State ι) (t : ι) (pc : Pc) : State ι :=
  { s with pcs := Function.update s.pcs t pc }

def State.set (s : State ι) (f : Field) (v : ℤ) : State ι :=
  { s with slot := Function.update s.slot f v }

/-- A store of the allocation or of the owner. -/
def State.own (s : State ι) (f : Field) (v : ℤ) : State ι :=
  { s.set f v with stored := f :: s.stored, want := Function.update s.want f v }

/-- `unvmed_cid_free` -/
def State.cidFree (s : State ι) (cid : ℕ) : State ι :=
  if s.size ≤ cid then s else { s with cids := Function.update s.cids cid false }

/-- The next access of thread `t`. -/
def State.advance (s : State ι) (t : ι) : Pc → Option (State ι)
  | .idle => none
  | .acquire cid vcq => match s.rqs with
      | [] => some (s.goto t .undo)
      | rq :: rqs => some ({ s with rqs := rqs }.goto t (.nrInc ⟨cid, vcq, rq⟩))
  | .undo => some ({ s.set .state 0 with phase := .vacant, stored := [] }.goto t .idle)
  | .nrInc a => some ({ s with nrCmds := s.nrCmds + 1 }.goto t (.store a a.stores))
  | .store a ((f, v) :: todo) => some ((s.own f v).goto t (.store a todo))
  | .store a [] => some ({ s with phase := .held, args := a }.goto t .idle)
  | .dec =>
      let refcnt := s.slot .refcnt - 1
      if refcnt = 0 then some ((s.own .refcnt refcnt).goto t (.read {} reads))
      else some ({ s.own .refcnt refcnt with phase := .held }.goto t .idle)
  | .read l (f :: todo) => some (s.goto t (.read (l.read f (s.slot f)) todo))
  | .read l [] => some ({ s with stored := [] }.goto t (.clear l layout))
  | .clear l (f :: todo) =>
      some ({ s.set f 0 with phase := if f = Field.state then .vacant else s.phase }.goto t
        (.clear l todo))
  | .clear l [] => some (s.goto t (.nrDec l))
  | .nrDec l =>
      if l.usq = 0 then none else some ({ s with nrCmds := s.nrCmds - 1 }.goto t (.release l))
  | .release l =>
      if l.rq = 0 then none else some ({ s with rqs := l.rq :: s.rqs }.goto t (.cidFree l))
  | .cidFree l => some ((if l.injected = conflict then s else s.cidFree l.cid.toNat).goto t .idle)

/-- One atomic step. -/
def step (s : State ι) : Act ι → Option (State ι)
  | .alloc t cid vcq =>
      if s.pcs t = .idle then
        -- The compare-and-swap; `EBUSY` if it fails.
        if s.slot .state = 0 then
          some ({ s.set .state allocated with
            phase := .busy t
            stored := [.state]
            want := Function.update s.want .state allocated }.goto t (.acquire cid vcq))
        else some s
      else none
  | .put t =>
      if s.pcs t = .idle ∧ s.phase = .held then some ({ s with phase := .busy t }.goto t .dec)
      else none
  | .write f v =>
      if s.phase = .held ∧ f.soft = true ∧ (f = .state → v ≠ 0) then some (s.own f v) else none
  | .resident cid b =>
      some { s with cids := Function.update s.cids cid b, bits := Function.update s.bits cid b }
  | .step t => s.advance t (s.pcs t)

end Step

/-- A queue whose slot was allocated with `calloc`. -/
def start (ι : Type) (size : ℕ) (rqs : List ℤ) : State ι where
  size := size
  cids _ := false
  nrCmds := 0
  rqs := rqs
  slot _ := 0
  pcs _ := .idle
  phase := .vacant
  stored := []
  want _ := 0
  args := ⟨0, 0, 0⟩
  bits _ := false

/-! ### What a command keeps -/

section Statement

variable {ι : Type}

/-- The newest command has every field that its allocation and its owner stored, and every bit is
that of its resident. -/
structure State.Kept (s : State ι) : Prop where
  fields : ∀ f ∈ s.stored, s.slot f = s.want f
  held : s.phase = .held → ∀ p ∈ s.args.stores, p.1.soft = false → s.slot p.1 = p.2
  bits : s.cids = s.bits

/-- No `memset` clears a field that a newer allocation has stored, and not as 0. -/
def Apart (s : State ι) : Act ι → Prop
  | .step t => match s.pcs t with
      | .clear _ (f :: _) => f ∉ s.stored ∨ s.want f = 0
      | _ => True
  | _ => True

end Statement

/-! ### One step -/

section Effect

variable {ι : Type} [DecidableEq ι]

/-- What a step does. -/
inductive Effect (s : State ι) : Act ι → State ι → Prop
  | claimed {t : ι} {cid : ℕ} {vcq : ℤ} (idle : s.pcs t = .idle) (free : s.slot .state = 0) :
      Effect s (.alloc t cid vcq) ({ s.set .state allocated with
        phase := .busy t
        stored := [.state]
        want := Function.update s.want .state allocated }.goto t (.acquire cid vcq))
  | refused {t : ι} {cid : ℕ} {vcq : ℤ} (taken : s.slot .state ≠ 0) : Effect s (.alloc t cid vcq) s
  | put {t : ι} (idle : s.pcs t = .idle) (held : s.phase = .held) :
      Effect s (.put t) ({ s with phase := .busy t }.goto t .dec)
  | wrote {f : Field} {v : ℤ} (held : s.phase = .held) (soft : f.soft = true)
      (used : f = .state → v ≠ 0) : Effect s (.write f v) (s.own f v)
  | resident {cid : ℕ} {b : Bool} : Effect s (.resident cid b)
      { s with cids := Function.update s.cids cid b, bits := Function.update s.bits cid b }
  | noRequest {t : ι} {cid : ℕ} {vcq : ℤ} (here : s.pcs t = .acquire cid vcq) (empty : s.rqs = []) :
      Effect s (.step t) (s.goto t .undo)
  | acquired {t : ι} {cid : ℕ} {vcq rq : ℤ} {rqs : List ℤ} (here : s.pcs t = .acquire cid vcq)
      (top : s.rqs = rq :: rqs) :
      Effect s (.step t) ({ s with rqs := rqs }.goto t (.nrInc ⟨cid, vcq, rq⟩))
  | undone {t : ι} (here : s.pcs t = .undo) :
      Effect s (.step t) ({ s.set .state 0 with phase := .vacant, stored := [] }.goto t .idle)
  | counted {t : ι} {a : Args} (here : s.pcs t = .nrInc a) :
      Effect s (.step t) ({ s with nrCmds := s.nrCmds + 1 }.goto t (.store a a.stores))
  | stored {t : ι} {a : Args} {f : Field} {v : ℤ} {todo : List (Field × ℤ)}
      (here : s.pcs t = .store a ((f, v) :: todo)) :
      Effect s (.step t) ((s.own f v).goto t (.store a todo))
  | returned {t : ι} {a : Args} (here : s.pcs t = .store a []) :
      Effect s (.step t) ({ s with phase := .held, args := a }.goto t .idle)
  | lastRef {t : ι} (here : s.pcs t = .dec) (last : s.slot .refcnt - 1 = 0) :
      Effect s (.step t) ((s.own .refcnt (s.slot .refcnt - 1)).goto t (.read {} reads))
  | otherRef {t : ι} (here : s.pcs t = .dec) (more : s.slot .refcnt - 1 ≠ 0) :
      Effect s (.step t)
        ({ s.own .refcnt (s.slot .refcnt - 1) with phase := .held }.goto t .idle)
  | read {t : ι} {l : Locals} {f : Field} {todo : List Field}
      (here : s.pcs t = .read l (f :: todo)) :
      Effect s (.step t) (s.goto t (.read (l.read f (s.slot f)) todo))
  | readAll {t : ι} {l : Locals} (here : s.pcs t = .read l []) :
      Effect s (.step t) ({ s with stored := [] }.goto t (.clear l layout))
  | clearedState {t : ι} {l : Locals} {todo : List Field}
      (here : s.pcs t = .clear l (.state :: todo)) :
      Effect s (.step t) ({ s.set .state 0 with phase := .vacant }.goto t (.clear l todo))
  | cleared {t : ι} {l : Locals} {f : Field} {todo : List Field} (other : f ≠ .state)
      (here : s.pcs t = .clear l (f :: todo)) :
      Effect s (.step t) ((s.set f 0).goto t (.clear l todo))
  | clearedAll {t : ι} {l : Locals} (here : s.pcs t = .clear l []) :
      Effect s (.step t) (s.goto t (.nrDec l))
  | discounted {t : ι} {l : Locals} (here : s.pcs t = .nrDec l) (usq : l.usq ≠ 0) :
      Effect s (.step t) ({ s with nrCmds := s.nrCmds - 1 }.goto t (.release l))
  | released {t : ι} {l : Locals} (here : s.pcs t = .release l) (rq : l.rq ≠ 0) :
      Effect s (.step t) ({ s with rqs := l.rq :: s.rqs }.goto t (.cidFree l))
  | freed {t : ι} {l : Locals} (here : s.pcs t = .cidFree l) : Effect s (.step t)
      ((if l.injected = conflict then s else s.cidFree l.cid.toNat).goto t .idle)

theorem advance_cases {s s' : State ι} {t : ι} {pc : Pc} (here : s.pcs t = pc)
    (hstep : s.advance t pc = some s') : Effect s (.step t) s' := by
  cases pc with
  | idle => cases hstep
  | acquire cid vcq =>
      simp only [State.advance] at hstep
      split at hstep
      · rename_i empty
        cases hstep
        exact .noRequest here empty
      · rename_i rq rqs top
        cases hstep
        exact .acquired here top
  | undo =>
      cases hstep
      exact .undone here
  | nrInc a =>
      cases hstep
      exact .counted here
  | store a todo =>
      rcases todo with _ | ⟨⟨f, v⟩, todo⟩
      · cases hstep
        exact .returned here
      · cases hstep
        exact .stored here
  | dec =>
      simp only [State.advance] at hstep
      split at hstep
      · rename_i last
        cases hstep
        exact .lastRef here last
      · rename_i more
        cases hstep
        exact .otherRef here more
  | read l todo =>
      cases todo with
      | nil =>
          cases hstep
          exact .readAll here
      | cons f todo =>
          cases hstep
          exact .read here
  | clear l todo =>
      cases todo with
      | nil =>
          cases hstep
          exact .clearedAll here
      | cons f todo =>
          by_cases isState : f = .state
          · subst isState
            cases hstep
            exact .clearedState here
          · simp only [State.advance, if_neg isState] at hstep
            cases hstep
            exact .cleared isState here
  | nrDec l =>
      simp only [State.advance] at hstep
      split at hstep
      · cases hstep
      · rename_i usq
        cases hstep
        exact .discounted here usq
  | release l =>
      simp only [State.advance] at hstep
      split at hstep
      · cases hstep
      · rename_i rq
        cases hstep
        exact .released here rq
  | cidFree l =>
      cases hstep
      exact .freed here

theorem step_cases {s s' : State ι} {a : Act ι} (hstep : step s a = some s') : Effect s a s' := by
  cases a with
  | alloc t cid vcq =>
      simp only [step] at hstep
      split at hstep
      · rename_i idle
        split at hstep
        · rename_i free
          cases hstep
          exact .claimed idle free
        · rename_i taken
          cases hstep
          exact .refused taken
      · cases hstep
  | put t =>
      simp only [step] at hstep
      split at hstep
      · rename_i goes
        cases hstep
        exact .put goes.1 goes.2
      · cases hstep
  | write f v =>
      simp only [step] at hstep
      split at hstep
      · rename_i goes
        cases hstep
        exact .wrote goes.1 goes.2.1 goes.2.2
      · cases hstep
  | resident cid b =>
      cases hstep
      exact .resident
  | step t => exact advance_cases rfl hstep

end Effect

/-! ### The invariant -/

section Invariant

variable {ι : Type}

/-- The thread is between the claim of the slot and the return, or between its put and its store to
`state`. -/
def Pc.Occupies : Pc → Prop
  | .acquire _ _ | .undo | .nrInc _ | .store _ _ | .dec | .read _ _ => True
  | .clear _ todo => .state ∈ todo
  | _ => False

/-- What the code of a free keeps in its variables. -/
def Pc.Local : Pc → Prop
  | .clear l todo => l.injected = conflict ∧ todo.Nodup
  | .nrDec l | .release l | .cidFree l => l.injected = conflict
  | _ => True

/-- All of `__unvmed_conflict_cmd_alloc` is done. -/
def State.Full (s : State ι) : Prop :=
  ∀ p ∈ s.args.stores, p.1 ∈ s.stored ∧ (p.1.soft = false → s.want p.1 = p.2)

/-- How far the thread that has the slot is. -/
def State.Fits (s : State ι) : Pc → Prop
  | .store a todo =>
      ∃ done, a.stores = done ++ todo ∧ ∀ p ∈ done, p.1 ∈ s.stored ∧ s.want p.1 = p.2
  | .dec => s.Full
  | .read l todo =>
      (.injected ∈ todo → .injected ∈ s.stored ∧ s.want .injected = conflict) ∧
        (.injected ∉ todo → l.injected = conflict)
  | _ => True

structure State.Inv (s : State ι) : Prop where
  occ : ∀ t, (s.pcs t).Occupies → s.phase = .busy t
  fits : ∀ t, s.phase = .busy t → s.Fits (s.pcs t)
  loc : ∀ t, (s.pcs t).Local
  /-- Another compare-and-swap fails. -/
  state : s.phase ≠ .vacant → s.slot .state ≠ 0
  fields : ∀ f ∈ s.stored, s.slot f = s.want f
  full : s.phase = .held → s.Full
  bits : s.cids = s.bits

theorem State.Inv.kept {s : State ι} (h : s.Inv) : s.Kept where
  fields := h.fields
  held held p hp hard := by
    obtain ⟨isStored, value⟩ := h.full held p hp
    rw [h.fields p.1 isStored]
    exact value hard
  bits := h.bits

theorem start_inv (size : ℕ) (rqs : List ℤ) : (start ι size rqs).Inv where
  occ _ occupies := occupies.elim
  fits _ busy := by cases busy
  loc _ := trivial
  state used := absurd rfl used
  fields _ isStored := by cases isStored
  full held := by cases held
  bits := rfl

theorem State.Full.congr {s s' : State ι} (h : s.Full) (stored : s'.stored = s.stored)
    (want : s'.want = s.want) (args : s'.args = s.args) : s'.Full := by
  unfold State.Full
  rw [stored, want, args]
  exact h

theorem State.Fits.congr {s s' : State ι} {pc : Pc} (h : s.Fits pc) (stored : s'.stored = s.stored)
    (want : s'.want = s.want) (args : s'.args = s.args) : s'.Fits pc := by
  unfold State.Fits State.Full
  rw [stored, want, args]
  exact h

theorem Args.mem_stores {a : Args} {f : Field} {v : ℤ} (h : (f, v) ∈ a.stores) : f ≠ .state := by
  rintro rfl
  simp [Args.stores] at h

/-- No field is stored twice. -/
theorem Args.stores_nodup (a : Args) : (a.stores.map Prod.fst).Nodup := by
  simp [Args.stores]

theorem State.Full.refcnt {s : State ι} (h : s.Full) : .refcnt ∈ s.stored ∧ s.want .refcnt = 1 := by
  have both := h (.refcnt, 1) (by simp [Args.stores])
  exact ⟨both.1, both.2 rfl⟩

theorem State.Full.injected {s : State ι} (h : s.Full) :
    .injected ∈ s.stored ∧ s.want .injected = conflict := by
  have both := h (.injected, conflict) (by simp [Args.stores])
  exact ⟨both.1, both.2 rfl⟩

/-- The owner may store to the other fields. -/
theorem State.Full.own {s : State ι} (h : s.Full) {f : Field} (soft : f.soft = true) (v : ℤ) :
    (s.own f v).Full := by
  intro p hp
  obtain ⟨isStored, value⟩ := h p hp
  refine ⟨List.mem_cons_of_mem _ isStored, ?_⟩
  intro hard
  have other : p.1 ≠ f := by
    rintro rfl
    rw [soft] at hard
    cases hard
  simpa [State.own, other] using value hard

/-- The free of a complete command will read `injected` as it was stored. -/
theorem State.Full.reading {s : State ι} (h : s.Full) (n : ℤ) :
    (s.own .refcnt n).Fits (.read {} reads) := by
  obtain ⟨isStored, value⟩ := h.injected
  constructor
  · intro _
    refine ⟨List.mem_cons_of_mem _ isStored, ?_⟩
    simpa [State.own] using value
  · intro absent
    simp [reads] at absent

/-- With the last store the command is complete. -/
theorem State.Fits.full {s : State ι} {a : Args} (h : s.Fits (.store a [])) :
    { s with args := a }.Full := by
  obtain ⟨done, all, theirs⟩ := h
  rw [List.append_nil] at all
  intro p hp
  have both := theirs p (by rw [← all]; exact hp)
  exact ⟨both.1, fun _ => both.2⟩

/-- What the owner stores is there. -/
theorem State.own_fields {s : State ι} (h : ∀ f ∈ s.stored, s.slot f = s.want f) (f : Field)
    (v : ℤ) :
    ∀ g ∈ (s.own f v).stored, (s.own f v).slot g = (s.own f v).want g := by
  intro g isStored
  by_cases same : g = f
  · subst same
    simp [State.own, State.set]
  · have before : g ∈ s.stored := by
      rcases List.mem_cons.mp isStored with here | later
      · exact absurd here same
      · exact later
    simpa [State.own, State.set, same] using h g before

theorem State.own_state {s : State ι} {f : Field} {v : ℤ} (used : f = .state → v ≠ 0)
    (h : s.slot .state ≠ 0) : (s.own f v).slot .state ≠ 0 := by
  by_cases same : f = .state
  · subst same
    simpa [State.own, State.set] using used rfl
  · simpa [State.own, State.set, Ne.symm same] using h

/-- One more field of the new command is there. -/
theorem State.Fits.stored {s : State ι} {a : Args} {f : Field} {v : ℤ} {todo : List (Field × ℤ)}
    (h : s.Fits (.store a ((f, v) :: todo))) : (s.own f v).Fits (.store a todo) := by
  obtain ⟨done, split, theirs⟩ := h
  refine ⟨done ++ [(f, v)], by rw [split, List.append_assoc]; rfl, ?_⟩
  intro p hp
  rcases List.mem_append.mp hp with before | now
  · have other : p.1 ≠ f := by
      have nodup := a.stores_nodup
      rw [split, List.map_append, List.map_cons] at nodup
      have apart := (List.nodup_append.mp nodup).2.2
      exact apart p.1 (List.mem_map_of_mem before) f List.mem_cons_self
    obtain ⟨isStored, value⟩ := theirs p before
    refine ⟨List.mem_cons_of_mem _ isStored, ?_⟩
    simpa [State.own, other] using value
  · rw [List.mem_singleton] at now
    subst now
    refine ⟨List.mem_cons_self, ?_⟩
    simp [State.own]

theorem State.Fits.not_state {s : State ι} {a : Args} {f : Field} {v : ℤ} {todo : List (Field × ℤ)}
    (h : s.Fits (.store a ((f, v) :: todo))) : f ≠ .state := by
  obtain ⟨done, split, -⟩ := h
  have mem : (f, v) ∈ a.stores := by
    rw [split]
    exact List.mem_append_right _ List.mem_cons_self
  exact Args.mem_stores mem

/-- The free has read `injected`, or will read what the allocation stored. -/
theorem State.Fits.read {s : State ι} {l : Locals} {f : Field} {todo : List Field}
    (fields : ∀ g ∈ s.stored, s.slot g = s.want g) (h : s.Fits (.read l (f :: todo))) :
    s.Fits (.read (l.read f (s.slot f)) todo) := by
  obtain ⟨later, before⟩ := h
  refine ⟨fun mem => later (List.mem_cons_of_mem _ mem), ?_⟩
  intro done
  by_cases same : f = .injected
  · subst same
    obtain ⟨isStored, value⟩ := later List.mem_cons_self
    show s.slot .injected = conflict
    rw [fields _ isStored]
    exact value
  · have was : l.injected = conflict := by
      refine before fun mem => ?_
      rcases List.mem_cons.mp mem with here | rest
      · exact same here.symm
      · exact done rest
    have keeps : (l.read f (s.slot f)).injected = l.injected := by
      cases f <;> first | rfl | exact absurd rfl same
    rw [keeps]
    exact was

theorem State.Inv.only {s : State ι} {t : ι} (h : s.Inv) (mine : s.phase = .busy t) (u : ι)
    (occupies : (s.pcs u).Occupies) : u = t := by
  have theirs := h.occ u occupies
  rw [mine] at theirs
  cases theirs
  rfl

theorem State.Inv.none_busy {s : State ι} (h : s.Inv) {t : ι} (free : ∀ u, s.phase ≠ .busy u)
    (u : ι) (occupies : (s.pcs u).Occupies) : u = t :=
  absurd (h.occ u occupies) (free u)

/-- A `memset` that meets no stored field. -/
theorem State.set_fields {s : State ι} (h : ∀ g ∈ s.stored, s.slot g = s.want g) {f : Field}
    (apart : f ∉ s.stored ∨ s.want f = 0) : ∀ g ∈ s.stored, (s.set f 0).slot g = s.want g := by
  intro g isStored
  by_cases same : g = f
  · subst same
    rcases apart with absent | zero
    · exact absurd isStored absent
    · simpa [State.set] using zero.symm
  · simpa [State.set, same] using h g isStored

variable [DecidableEq ι]

/-- A step of the thread that has the slot afterwards, or has given it up. -/
theorem State.Inv.owner {s s' : State ι} {t : ι} {pc : Pc} (h : s.Inv)
    (mine : ∀ u, (s.pcs u).Occupies → u = t)
    (pcs : s'.pcs = Function.update s.pcs t pc)
    (next : s'.phase = .busy t ∧ s'.Fits pc ∨ (∀ u, s'.phase ≠ .busy u) ∧ ¬ pc.Occupies)
    (loc : pc.Local) (state : s'.phase ≠ .vacant → s'.slot .state ≠ 0)
    (fields : ∀ f ∈ s'.stored, s'.slot f = s'.want f) (full : s'.phase = .held → s'.Full)
    (bits : s'.cids = s'.bits) : s'.Inv := by
  refine ⟨?_, ?_, ?_, state, fields, full, bits⟩
  · intro u occupies
    by_cases same : u = t
    · subst same
      rw [pcs, Function.update_self] at occupies
      rcases next with ⟨busy, -⟩ | ⟨-, left⟩
      · exact busy
      · exact absurd occupies left
    · rw [pcs, Function.update_of_ne same] at occupies
      exact absurd (mine u occupies) same
  · intro u busy
    rcases next with ⟨own, fits⟩ | ⟨free, -⟩
    · rw [own] at busy
      cases busy
      rw [pcs, Function.update_self]
      exact fits
    · exact absurd busy (free u)
  · intro u
    by_cases same : u = t
    · subst same
      rw [pcs, Function.update_self]
      exact loc
    · rw [pcs, Function.update_of_ne same]
      exact h.loc u

/-- A step that leaves the command as it is. -/
theorem State.Inv.frame {s s' : State ι} {t : ι} {pc : Pc} (h : s.Inv)
    (pcs : s'.pcs = Function.update s.pcs t pc) (phase : s'.phase = s.phase)
    (stored : s'.stored = s.stored) (want : s'.want = s.want) (args : s'.args = s.args)
    (occ : pc.Occupies → (s.pcs t).Occupies) (fits : s.phase = .busy t → s.Fits pc)
    (loc : pc.Local) (state : s'.slot .state = s.slot .state)
    (fields : ∀ f ∈ s.stored, s'.slot f = s.want f) (bits : s'.cids = s'.bits) : s'.Inv := by
  refine ⟨?_, ?_, ?_, ?_, ?_, ?_, bits⟩
  · intro u occupies
    rw [phase]
    by_cases same : u = t
    · subst same
      rw [pcs, Function.update_self] at occupies
      exact h.occ u (occ occupies)
    · rw [pcs, Function.update_of_ne same] at occupies
      exact h.occ u occupies
  · intro u busy
    rw [phase] at busy
    refine State.Fits.congr ?_ stored want args
    by_cases same : u = t
    · subst same
      rw [pcs, Function.update_self]
      exact fits busy
    · rw [pcs, Function.update_of_ne same]
      exact h.fits u busy
  · intro u
    by_cases same : u = t
    · subst same
      rw [pcs, Function.update_self]
      exact loc
    · rw [pcs, Function.update_of_ne same]
      exact h.loc u
  · intro used
    rw [state]
    rw [phase] at used
    exact h.state used
  · intro f isStored
    rw [stored] at isStored
    rw [want]
    exact fields f isStored
  · intro held
    rw [phase] at held
    exact (h.full held).congr stored want args

theorem step_inv {s s' : State ι} {a : Act ι} (h : s.Inv) (apart : Apart s a)
    (hstep : step s a = some s') : s'.Inv := by
  cases step_cases hstep with
  | @claimed t cid vcq idle free =>
      have vacant : s.phase = .vacant := by
        by_contra used
        exact h.state used free
      refine h.owner (h.none_busy (by simp [vacant])) rfl (.inl ⟨rfl, trivial⟩) trivial ?_ ?_ ?_
        h.bits
      · intro _
        simp [State.goto, State.set, allocated]
      · intro f isStored
        rw [List.mem_singleton.mp isStored]
        simp [State.goto, State.set]
      · intro held
        cases held
  | refused taken => exact h
  | @put t idle held =>
      have free (u : ι) : s.phase ≠ .busy u := by simp [held]
      refine h.owner (h.none_busy free) rfl (.inl ⟨rfl, h.full held⟩) trivial ?_ h.fields ?_ h.bits
      · intro _
        exact h.state (by simp [held])
      · intro isHeld
        cases isHeld
  | @wrote f v held soft used =>
      refine ⟨h.occ, ?_, h.loc, ?_, State.own_fields h.fields f v, ?_, h.bits⟩
      · intro t busy
        cases held.symm.trans busy
      · intro _
        exact State.own_state used (h.state (by simp [held]))
      · intro _
        exact (h.full held).own soft v
  | resident => exact ⟨h.occ, h.fits, h.loc, h.state, h.fields, h.full, by simp [h.bits]⟩
  | @noRequest t cid vcq here empty =>
      exact h.frame rfl rfl rfl rfl rfl (by simp [here, Pc.Occupies]) (fun _ => trivial) trivial rfl
        h.fields h.bits
  | @acquired t cid vcq rq rqs here top =>
      exact h.frame rfl rfl rfl rfl rfl (by simp [here, Pc.Occupies]) (fun _ => trivial) trivial rfl
        h.fields h.bits
  | @undone t here =>
      have mine : s.phase = .busy t := h.occ t (by simp [here, Pc.Occupies])
      refine h.owner (h.only mine) rfl (.inr ⟨?_, id⟩) trivial ?_ ?_ ?_ h.bits
      · intro u busy
        cases busy
      · intro used
        exact absurd rfl used
      · intro f isStored
        cases isStored
      · intro held
        cases held
  | @counted t a here =>
      refine h.frame rfl rfl rfl rfl rfl (by simp [here, Pc.Occupies]) ?_ trivial rfl h.fields
        h.bits
      intro _
      exact ⟨[], rfl, fun p hp => by cases hp⟩
  | @stored t a f v todo here =>
      have mine : s.phase = .busy t := h.occ t (by simp [here, Pc.Occupies])
      have fits := h.fits t mine
      rw [here] at fits
      refine h.owner (h.only mine) rfl (.inl ⟨mine, fits.stored⟩) trivial ?_
        (State.own_fields h.fields f v) ?_ h.bits
      · intro _
        exact State.own_state (fun isState => absurd isState fits.not_state)
          (h.state (by simp [mine]))
      · intro held
        cases mine.symm.trans held
  | @returned t a here =>
      have mine : s.phase = .busy t := h.occ t (by simp [here, Pc.Occupies])
      have fits := h.fits t mine
      rw [here] at fits
      refine h.owner (h.only mine) rfl (.inr ⟨?_, id⟩) trivial ?_ h.fields ?_ h.bits
      · intro u busy
        cases busy
      · intro _
        exact h.state (by simp [mine])
      · intro _
        exact fits.full.congr rfl rfl rfl
  | @lastRef t here last =>
      have mine : s.phase = .busy t := h.occ t (by simp [here, Pc.Occupies])
      have full := h.fits t mine
      rw [here] at full
      have next := State.Full.reading full (s.slot .refcnt - 1)
      refine h.owner (h.only mine) rfl (.inl ⟨mine, next.congr rfl rfl rfl⟩) trivial ?_
        (State.own_fields h.fields _ _) ?_ h.bits
      · intro _
        have kept : (s.own .refcnt (s.slot .refcnt - 1)).slot .state ≠ 0 :=
          State.own_state (by simp) (h.state (by simp [mine]))
        exact kept
      · intro held
        cases mine.symm.trans held
  | @otherRef t here more =>
      -- The count of a complete command is 1.
      have mine : s.phase = .busy t := h.occ t (by simp [here, Pc.Occupies])
      have full := h.fits t mine
      rw [here] at full
      obtain ⟨isStored, one⟩ := State.Full.refcnt full
      rw [h.fields _ isStored, one] at more
      exact absurd rfl more
  | @read t l f todo here =>
      refine h.frame rfl rfl rfl rfl rfl (by simp [here, Pc.Occupies]) ?_ trivial rfl h.fields
        h.bits
      intro mine
      have fits := h.fits t mine
      rw [here] at fits
      exact State.Fits.read h.fields fits
  | @readAll t l here =>
      have mine : s.phase = .busy t := h.occ t (by simp [here, Pc.Occupies])
      have fits := h.fits t mine
      rw [here] at fits
      refine h.owner (h.only mine) rfl (.inl ⟨mine, trivial⟩) ⟨fits.2 (by simp), by decide⟩ ?_ ?_ ?_
        h.bits
      · intro _
        exact h.state (by simp [mine])
      · intro f isStored
        cases isStored
      · intro held
        cases mine.symm.trans held
  | @clearedState t l todo here =>
      have mine : s.phase = .busy t := h.occ t (by simp [here, Pc.Occupies])
      have loc := h.loc t
      rw [here] at loc
      obtain ⟨once, rest⟩ := List.nodup_cons.mp loc.2
      simp only [Apart, here] at apart
      refine h.owner (h.only mine) rfl (.inr ⟨?_, once⟩) ⟨loc.1, rest⟩ ?_
        (State.set_fields h.fields apart) ?_ h.bits
      · intro u busy
        cases busy
      · intro used
        exact absurd rfl used
      · intro held
        cases held
  | @cleared t l f todo other here =>
      have loc := h.loc t
      rw [here] at loc
      obtain ⟨-, rest⟩ := List.nodup_cons.mp loc.2
      simp only [Apart, here] at apart
      refine h.frame rfl rfl rfl rfl rfl ?_ (fun _ => trivial) ⟨loc.1, rest⟩ ?_
        (State.set_fields h.fields apart) h.bits
      · intro later
        rw [here]
        exact List.mem_cons_of_mem _ later
      · simp [State.goto, State.set, other.symm]
  | @clearedAll t l here =>
      have loc := h.loc t
      rw [here] at loc
      exact h.frame rfl rfl rfl rfl rfl (fun later => later.elim) (fun _ => trivial) loc.1 rfl
        h.fields h.bits
  | @discounted t l here usq =>
      have loc := h.loc t
      rw [here] at loc
      exact h.frame rfl rfl rfl rfl rfl (fun later => later.elim) (fun _ => trivial) loc rfl
        h.fields h.bits
  | @released t l here rq =>
      have loc := h.loc t
      rw [here] at loc
      exact h.frame rfl rfl rfl rfl rfl (fun later => later.elim) (fun _ => trivial) loc rfl
        h.fields h.bits
  | @freed t l here =>
      -- `injected` was read as CONFLICT, so the bitmap is left alone.
      have loc := h.loc t
      rw [here] at loc
      rw [if_pos (show l.injected = conflict from loc)]
      exact h.frame rfl rfl rfl rfl rfl (fun later => later.elim) (fun _ => trivial) trivial rfl
        h.fields h.bits

theorem step_needs {s s' : State ι} {a : Act ι} (hstep : step s a = some s') (kept : s'.Kept) :
    Apart s a := by
  have effect := step_cases hstep
  cases effect with
  | @clearedState t l todo here =>
      simp only [Apart, here]
      by_cases isStored : .state ∈ s.stored
      · have same := kept.fields .state isStored
        simp only [State.goto, State.set, Function.update_self] at same
        exact .inr same.symm
      · exact .inl isStored
  | @cleared t l f todo other here =>
      simp only [Apart, here]
      by_cases isStored : f ∈ s.stored
      · have same := kept.fields f isStored
        simp only [State.goto, State.set, Function.update_self] at same
        exact .inr same.symm
      · exact .inl isStored
  | claimed | refused | put | wrote | resident => trivial
  | noRequest here | acquired here | undone here | counted here | stored here | returned here
  | lastRef here | otherRef here | read here | readAll here | clearedAll here | discounted here
  | released here | freed here => simp only [Apart, here]

theorem apart_of_none {s : State ι} {a : Act ι} (hstep : step s a = none) : Apart s a := by
  cases a with
  | alloc | put | write | resident => trivial
  | step t =>
      simp only [Apart]
      split
      · rename_i here
        simp [step, here, State.advance] at hstep
      · trivial

/-- **Hand-over of the conflict slot.** In every run of allocations, puts and frees of any number of
threads, a command keeps its fields until its own free and the bitmap is that of the resident
commands, if and only if no `memset` clears a field that a newer allocation has stored. -/
theorem slot_kept_iff (size : ℕ) (rqs : List ℤ) (as : List (Act ι)) :
    Guarded step Apart (start ι size rqs) as ↔
      ∀ bs t, bs <+: as → run step (start ι size rqs) bs = some t → t.Kept :=
  guarded_iff (fun _ => State.Inv.kept) (fun _ _ _ h apart hstep => step_inv h apart hstep)
    (fun _ _ _ _ hstep kept => step_needs hstep kept) (fun _ _ => apart_of_none)
    (start_inv size rqs)

end Invariant

/-! ### A sufficient order -/

section Order

variable {ι : Type}

/-- No allocation claims the slot before the `memset` of the last free is done. -/
def Ordered (s : State ι) : Act ι → Prop
  | .alloc _ _ _ => s.slot .state = 0 → ∀ u l todo, s.pcs u = .clear l todo → todo = []
  | _ => True

/-- A `memset` has the slot for itself. -/
def State.Alone (s : State ι) : Prop :=
  ∀ u l f todo, s.pcs u = .clear l (f :: todo) →
    s.stored = [] ∧ (s.phase = .vacant ∨ s.phase = .busy u)

theorem State.Alone.apart {s : State ι} (h : s.Alone) (a : Act ι) : Apart s a := by
  cases a with
  | alloc | put | write | resident => trivial
  | step t =>
      simp only [Apart]
      split
      · rename_i l f todo here
        rw [(h t l f todo here).1]
        exact .inl List.not_mem_nil
      · trivial

/-- Nothing is cleared while another thread, or the owner, has the slot. -/
theorem State.Alone.excludes {s : State ι} (h : s.Alone) {t u : ι} {l : Locals} {f : Field}
    {todo : List Field} (busy : s.phase = .busy t) (there : s.pcs u = .clear l (f :: todo)) :
    u = t := by
  rcases (h u l f todo there).2 with vacant | theirs
  · cases busy.symm.trans vacant
  · cases busy.symm.trans theirs
    rfl

theorem State.Alone.not_held {s : State ι} (h : s.Alone) (held : s.phase = .held) (u : ι)
    (l : Locals) (f : Field) (todo : List Field) : s.pcs u ≠ .clear l (f :: todo) := by
  intro there
  rcases (h u l f todo there).2 with vacant | theirs
  · cases held.symm.trans vacant
  · cases held.symm.trans theirs

variable [DecidableEq ι]

/-- A step that does not change who has the slot. -/
theorem State.Alone.frame {s s' : State ι} {t : ι} {pc : Pc} (h : s.Alone)
    (pcs : s'.pcs = Function.update s.pcs t pc) (phase : s'.phase = s.phase)
    (stored : s'.stored = s.stored)
    (mine : ∀ l f todo, pc = .clear l (f :: todo) → ∃ g rest, s.pcs t = .clear l (g :: rest)) :
    s'.Alone := by
  intro u l f todo there
  rw [phase, stored]
  by_cases same : u = t
  · subst same
    rw [pcs, Function.update_self] at there
    obtain ⟨g, rest, before⟩ := mine l f todo there
    exact h u l g rest before
  · rw [pcs, Function.update_of_ne same] at there
    exact h u l f todo there

/-- A step while no other thread is in a `memset`. -/
theorem State.Alone.owner {s s' : State ι} {t : ι} {pc : Pc}
    (others : ∀ u l f todo, s.pcs u = .clear l (f :: todo) → u = t)
    (pcs : s'.pcs = Function.update s.pcs t pc)
    (mine : ∀ l f todo, pc = .clear l (f :: todo) →
      s'.stored = [] ∧ (s'.phase = .vacant ∨ s'.phase = .busy t)) : s'.Alone := by
  intro u l f todo there
  by_cases same : u = t
  · subst same
    rw [pcs, Function.update_self] at there
    exact mine l f todo there
  · rw [pcs, Function.update_of_ne same] at there
    exact absurd (others u l f todo there) same

theorem step_alone {s s' : State ι} {a : Act ι} (h : s.Inv) (alone : s.Alone) (order : Ordered s a)
    (hstep : step s a = some s') : s'.Alone := by
  have mine {t : ι} (occupies : (s.pcs t).Occupies) (u : ι) (l : Locals) (f : Field)
      (todo : List Field) (there : s.pcs u = .clear l (f :: todo)) : u = t :=
    alone.excludes (h.occ t occupies) there
  cases step_cases hstep with
  | @claimed t cid vcq idle free =>
      refine State.Alone.owner (t := t) ?_ rfl (by simp)
      intro u l f todo there
      cases order free u l (f :: todo) there
  | refused taken => exact alone
  | @put t idle held =>
      refine State.Alone.owner (t := t) ?_ rfl (by simp)
      intro u l f todo there
      exact absurd there (alone.not_held held u l f todo)
  | @wrote f v held soft used =>
      intro u l g todo there
      exact absurd there (alone.not_held held u l g todo)
  | resident => exact alone
  | noRequest here | acquired here | counted here | discounted here | released here =>
      exact alone.frame rfl rfl rfl (by simp)
  | read here => exact alone.frame rfl rfl rfl (by simp)
  | clearedAll here => exact alone.frame rfl rfl rfl (by simp)
  | @freed t l here =>
      have loc := h.loc t
      rw [here] at loc
      rw [if_pos (show l.injected = conflict from loc)]
      exact alone.frame rfl rfl rfl (by simp)
  | @undone t here | @stored t a f v todo here | @returned t a here | @lastRef t here last
  | @otherRef t here more =>
      exact State.Alone.owner (mine (by simp [here, Pc.Occupies])) rfl (by simp)
  | @readAll t l here =>
      have busy : s.phase = .busy t := h.occ t (by simp [here, Pc.Occupies])
      refine State.Alone.owner (mine (by simp [here, Pc.Occupies])) rfl ?_
      intro l' f todo _
      exact ⟨rfl, .inr busy⟩
  | @clearedState t l todo here =>
      refine State.Alone.owner (mine (by simp [here, Pc.Occupies])) rfl ?_
      intro l' f todo' _
      exact ⟨(alone t l _ todo here).1, .inl rfl⟩
  | @cleared t l f todo other here =>
      refine alone.frame rfl rfl rfl ?_
      intro l' g todo' same
      cases same
      exact ⟨f, g :: todo', here⟩

/-- It is enough that no allocation claims the slot during a `memset`. -/
theorem kept_of_handover (size : ℕ) (rqs : List ℤ) {as : List (Act ι)}
    (order : Guarded step Ordered (start ι size rqs) as) {t : State ι}
    (hrun : run step (start ι size rqs) as = some t) : t.Kept := by
  have initial : (start ι size rqs).Alone := by
    intro u l f todo there
    cases there
  have both : t.Inv ∧ t.Alone := by
    refine run_inv (I := fun s => s.Inv ∧ s.Alone) (P := Ordered) ?_
      ⟨start_inv size rqs, initial⟩ order hrun
    rintro s a s' ⟨h, alone⟩ here hstep
    exact ⟨step_inv h (alone.apart a) hstep, step_alone h alone here hstep⟩
  exact both.1.kept

end Order

/-! ### The last field -/

def steps (t : Bool) (n : ℕ) : List (Act Bool) := List.replicate n (.step t)

/-- The free of a conflict command has cleared all fields but `injected`; another thread allocates
the slot; the `memset` ends. -/
def lateMemset : List (Act Bool) :=
  [.resident 7 true, .alloc false 7 0] ++ steps false 18 ++ [.put false] ++ steps false 21 ++
    [.alloc true 7 0] ++ steps true 18 ++ steps false 2

/-- The second command is no conflict command any more, and its free gives away the id of the
resident one. -/
theorem late_memset_frees_resident :
    ((run step (start Bool 64 [5, 6]) lateMemset).map fun s => (s.phase, s.slot .injected)) =
        some (.held, 0) ∧
      ((run step (start Bool 64 [5, 6]) (lateMemset ++ [.put true] ++ steps true 26)).map fun s =>
        (s.cids 7, s.bits 7)) = some (false, true) := by
  constructor <;> decide +kernel

end Unvmed.Handover
