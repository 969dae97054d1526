import Mathlib

/-!
What a queue management command takes and gives back (`lib/libunvmed.c`, `src/unvmed-cmds.c`).

`unvmed_create_sq`, `unvmed_create_cq`, `unvmed_delete_sq` and `unvmed_delete_cq` of the library and
the handlers `unvme_create_iosq`, `unvme_delete_iosq` and `unvme_virt_mgmt` of the daemon get the
controller and some queues, enter the lock of the admin SQ around the post of one command, and put
everything on each of their exits. What fails on the way is an input of the call (`Outcomes`).

* `calls_clean_iff`: a call changes the reference counts by what it creates or deletes and nothing
  else, releases the locks it took and no other, and a creation that fails leaves the queues and
  `u->mem_list` as they were, if and only if it does not get to one of the exits that forget
  something (`Sound`).
* `exits_forget`: `unvme virt-mgmt` releases a lock it did not take, `unvme create-iosq` keeps two
  references when there is no memory for the queue, and `unvme delete-iosq` keeps one when the admin
  SQ is not ready.
-/

namespace Unvmed.QueueCmd

/-! ### Locks -/

inductive LockOp where
  | enter (qid : Nat)
  | exit (qid : Nat)
  deriving DecidableEq, Repr

/-- The operations of `l` release what was taken before, and `held` are the locks taken so far. -/
def Scan : List Nat → List LockOp → Prop
  | held, [] => held = []
  | held, .enter qid :: l => Scan (qid :: held) l
  | held, .exit qid :: l => qid ∈ held ∧ Scan (held.erase qid) l

/-- Each lock that is taken is released once, and no other lock is released. -/
def Paired (l : List LockOp) : Prop := Scan [] l

theorem Scan.append {l l' : List LockOp} (hl' : Paired l') :
    ∀ {held : List Nat}, Scan held l → Scan held (l ++ l') := by
  induction l with
  | nil =>
      intro held h
      cases (show held = [] from h)
      exact hl'
  | cons op l ih =>
      intro held h
      cases op with
      | enter qid => exact ih (show Scan (qid :: held) l from h)
      | exit qid => exact ⟨h.1, ih h.2⟩

theorem Paired.append {l l' : List LockOp} (hl : Paired l) (hl' : Paired l') :
    Paired (l ++ l') :=
  Scan.append hl' hl

theorem paired_nil : Paired [] := rfl

theorem paired_section (qid : Nat) : Paired [.enter qid, .exit qid] := by
  simp [Paired, Scan]

/-! ### The state of a call -/

/-- What references are taken on. -/
inductive Obj where
  | ctrl
  | sq (qid : Nat)
  | cq (qid : Nat)
  /-- The admin command of the call. -/
  | cmd
  deriving DecidableEq, Repr

/-- A buffer of `u->mem_list`. -/
structure Buf where
  iova : Nat
  len : Nat
  deriving DecidableEq, Repr

def Buf.has (buf : Buf) (iova : Nat) : Bool := buf.iova ≤ iova && iova < buf.iova + buf.len

structure St where
  /-- The reference counts. The put that drops the last reference frees the instance and clears its
  slot, so that a count of 0 is a slot with NULL. -/
  refs : Obj → ℤ
  /-- `usq->enabled` -/
  sqEnabled : Nat → Bool
  /-- `usq->flags & UNVMED_SQ_F_FROZEN` -/
  frozen : Nat → Bool
  /-- `usq->q` is not NULL. -/
  mapped : Nat → Bool
  /-- `ucq->enabled` -/
  cqEnabled : Nat → Bool
  /-- `u->mem_list` -/
  mem : List Buf
  /-- `u->nr_sqs` and `u->nr_cqs` -/
  nrSqs : Nat
  nrCqs : Nat
  /-- What the call did with the locks of the SQs. -/
  locks : List LockOp

/-- The controller when a call starts. The arrays of queues end at `nrSqs` and `nrCqs`. -/
structure Unvme extends St where
  refs_nonneg : ∀ x, 0 ≤ refs x
  sqs_lt : ∀ qid, 0 < refs (.sq qid) → qid < nrSqs
  nrSqs_le : nrSqs ≤ 2 ^ 16
  locks_nil : locks = []

/-- `errno` after a function that failed and set it. -/
abbrev Errno := ℕ+

def EBUSY : Errno := 16
def EEXIST : ℤ := 17
def ENODEV : ℤ := 19
def EINVAL : ℤ := 22
def ENOMEM : ℤ := 12
def ENOMEDIUM : ℤ := 123

/-- What a call meets outside this code. -/
structure Outcomes where
  /-- `unvme_parse_args_locked` returns from the handler, with 0 for the help. -/
  parse : Option ℤ := none
  /-- `unvmed_ctrl_enabled` -/
  ctrlEnabled : Bool := true
  /-- `unvmed_init_irq` succeeds. -/
  irq : Bool := true
  /-- `nvme_configure_sq`, `nvme_configure_cq` or `nvme_configure_sq_mem` succeeds for a queue
  number that the controller has. -/
  configure : Bool := true
  /-- `unvmed_map_iova_to_mem` succeeds. -/
  mapIova : Bool := true
  /-- The buffer of `unvmed_mem_alloc`. -/
  memAlloc : Option Buf := none
  /-- The attempts to allocate a command that fail before one succeeds. -/
  tries : List Errno := []
  /-- The preparation of the command fails. -/
  prep : Option Errno := none
  /-- `unvmed_cqe_status`, which is 0 just if `nvme_cqe_ok`. -/
  status : Nat := 0
  /-- The instance of a queue, its CID bitmap and its timer are allocated. -/
  allocated : Bool := true
  /-- `unvmed_reaper_add_cq` succeeds. -/
  reaper : Bool := true
  /-- `targetq->q->mem.iova` -/
  iova : Nat := 0
  /-- `errno` where a failing function does not set it. -/
  errno : ℕ := 0

/-- How a call ends. -/
structure Ret where
  st : St
  ret : ℤ
  /-- The device carried out the command, and the call went on to create or delete the queue. -/
  done : Bool

namespace St

def bump (s : St) (x : Obj) : St := { s with refs := s.refs + Pi.single x 1 }

/-- `unvmed_get`, `unvmed_sq_get` and `unvmed_cq_get` -/
def get (s : St) (x : Obj) : Option St := if 0 < s.refs x then some (s.bump x) else none

/-- `unvmed_put`, `unvmed_sq_put`, `unvmed_cq_put` and `unvmed_cmd_put` -/
def put (s : St) (x : Obj) : St := { s with refs := s.refs - Pi.single x 1 }

/-- `unvmed_sq_enter` -/
def enter (s : St) (qid : Nat) : St := { s with locks := s.locks ++ [.enter qid] }

/-- `unvmed_sq_exit` -/
def exit (s : St) (qid : Nat) : St := { s with locks := s.locks ++ [.exit qid] }

/-- `unvmed_sq_ready` -/
def sqReady (s : St) (qid : Nat) : Bool :=
  decide (0 < s.refs (.sq qid)) && s.sqEnabled qid && !s.frozen qid

/-- `unvmed_enable_sq` -/
def enableSq (s : St) (qid : Nat) : St :=
  { s with sqEnabled := Function.update s.sqEnabled qid true }

/-- `unvmed_disable_sq` -/
def disableSq (s : St) (qid : Nat) : St :=
  { s with sqEnabled := Function.update s.sqEnabled qid false }

/-- `unvmed_enable_cq` -/
def enableCq (s : St) (qid : Nat) : St :=
  { s with cqEnabled := Function.update s.cqEnabled qid true }

/-- `unvmed_discard_sq` -/
def discardSq (s : St) (qid : Nat) : St :=
  if 0 < s.refs (.sq qid) ∧ s.mapped qid then
    { s.enter qid with mapped := Function.update s.mapped qid false }.exit qid
  else s

/-- `__unvmed_delete_sq` -/
def dropSq (s : St) (qid : Nat) : St := (s.discardSq qid).put (.sq qid)

/-- `__unvmed_delete_cq`. The reaper and the vector are not part of this state. -/
def dropCq (s : St) (qid : Nat) : St := s.put (.cq qid)

/-- `unvmed_free_sq`, whose argument has 16 bits. -/
def freeSq (s : St) (qid : Nat) : Option St :=
  if 0 < s.refs (.sq (qid % 2 ^ 16)) then
    some ((s.disableSq (qid % 2 ^ 16)).dropSq (qid % 2 ^ 16))
  else none

/-- `unvmed_mem_alloc` -/
def memAlloc (s : St) (buf : Option Buf) : Option St :=
  buf.map fun buf => { s with mem := s.mem ++ [buf] }

/-- `unvmed_mem_free` -/
def memFree (s : St) (iova : Nat) : Option St :=
  if s.mem.any (Buf.has · iova) then some { s with mem := s.mem.eraseP (Buf.has · iova) } else none

/-- A new instance in `u->sqs[qid]`. -/
def publishSq (s : St) (qid : Nat) : St :=
  { s with
    refs := Function.update s.refs (.sq qid) 1
    sqEnabled := Function.update s.sqEnabled qid false }

/-- The last part of `unvmed_init_usq`, under the lock of the queue. -/
def setUsq (s : St) (qid : Nat) : St :=
  { s.enter qid with
    frozen := Function.update s.frozen qid false
    mapped := Function.update s.mapped qid true }.exit qid

/-- `unvmed_init_usq` -/
def initUsq (s : St) (o : Outcomes) (qid : Nat) : Except St St :=
  match s.get (.sq qid) with
  | some s =>
      if s.sqEnabled qid then .error (s.put (.sq qid))
      else .ok (s.setUsq qid)
  | none => if o.allocated then .ok ((s.publishSq qid).setUsq qid) else .error s

/-- A new instance in `u->cqs[qid]`. -/
def publishCq (s : St) (qid : Nat) : St :=
  { s with
    refs := Function.update s.refs (.cq qid) 1
    cqEnabled := Function.update s.cqEnabled qid false }

/-- `unvmed_init_ucq` -/
def initUcq (s : St) (o : Outcomes) (qid : Nat) : Except St St :=
  match s.get (.cq qid) with
  | some s => if s.cqEnabled qid then .error (s.put (.cq qid)) else .ok s
  | none => if o.allocated then .ok (s.publishCq qid) else .error s

/-- `nvme_configure_sq` and `nvme_configure_sq_mem`; libvfn refuses a queue number past the ones the
controller was opened with. -/
def configureSq (s : St) (o : Outcomes) (qid : Nat) : Bool := decide (qid < s.nrSqs) && o.configure

/-- `nvme_configure_cq` -/
def configureCq (s : St) (o : Outcomes) (qid : Nat) : Bool := decide (qid < s.nrCqs) && o.configure

/-- `unvmed_init_sq_iova` -/
def initSqIova (s : St) (o : Outcomes) (qid cqid : Nat) : Except St St :=
  if !o.mapIova then .error s
  else if s.refs (.cq cqid) ≤ 0 then .error s
  else if !s.configureSq o qid then .error s
  else match s.initUsq o qid with
    | .error s => .error (s.discardSq qid)
    | .ok s => .ok s

end St

/-! ### The calls -/

/-- `do cmd = unvmed_alloc_cmd_nodata(u, asq, NULL) while (!cmd && errno == EBUSY)`: the error it
ends with, if no command is allocated. -/
def allocRetry : List Errno → Option Errno
  | [] => none
  | e :: es => if e = EBUSY then allocRetry es else some e

/-- `unvmed_create_sq` -/
def createSq (o : Outcomes) (qid cqid : Nat) (s : St) : Ret :=
  if !o.ctrlEnabled then ⟨s, -1, false⟩
  else match s.get (.sq 0) with
  | none => ⟨s, -1, false⟩
  | some s => match s.get (.cq cqid) with
    | none => ⟨s.put (.sq 0), -1, false⟩
    | some s =>
        if !s.configureSq o qid then ⟨(s.put (.cq cqid)).put (.sq 0), -1, false⟩
        else
          let s := s.enter 0
          match allocRetry o.tries with
          | some _ => ⟨((s.exit 0).put (.cq cqid)).put (.sq 0), -1, false⟩
          | none =>
              let s := (s.bump .cmd).exit 0
              if o.status ≠ 0 then ⟨((s.put .cmd).put (.cq cqid)).put (.sq 0), -1, false⟩
              else match s.initUsq o qid with
              | .error s => ⟨((s.put .cmd).put (.cq cqid)).put (.sq 0), -1, false⟩
              | .ok s => ⟨(((s.enableSq qid).put .cmd).put (.cq cqid)).put (.sq 0), 0, true⟩

/-- `unvmed_create_cq`. A CQ whose reaper cannot be told of it stays in `u->cqs`. -/
def createCq (o : Outcomes) (qid : Nat) (vector : ℤ) (s : St) : Ret :=
  if 0 ≤ vector ∧ !o.irq then ⟨s, -1, false⟩
  else match s.get (.sq 0) with
  | none => ⟨s, -1, false⟩
  | some s =>
      if !s.configureCq o qid then ⟨s.put (.sq 0), -1, false⟩
      else
        let s := s.enter 0
        match allocRetry o.tries with
        | some _ => ⟨(s.exit 0).put (.sq 0), -1, false⟩
        | none =>
            let s := (s.bump .cmd).exit 0
            if o.status ≠ 0 then ⟨(s.put .cmd).put (.sq 0), -1, false⟩
            else match s.initUcq o qid with
            | .error s => ⟨(s.put .cmd).put (.sq 0), -1, false⟩
            | .ok s =>
                if 0 ≤ vector ∧ !o.reaper then ⟨(s.put .cmd).put (.sq 0), -1, false⟩
                else ⟨((s.enableCq qid).put .cmd).put (.sq 0), 0, true⟩

/-- `unvmed_delete_sq` -/
def deleteSq (o : Outcomes) (qid : Nat) (s : St) : Ret :=
  match s.get (.sq 0) with
  | none => ⟨s, -1, false⟩
  | some s =>
      let s := s.enter 0
      match allocRetry o.tries with
      | some _ => ⟨(s.exit 0).put (.sq 0), -1, false⟩
      | none =>
          let s := (s.bump .cmd).exit 0
          let s' := if o.status = 0 ∧ 0 < s.refs (.sq qid) then s.dropSq qid else s
          ⟨(s'.put .cmd).put (.sq 0), o.status, decide (o.status = 0)⟩

/-- `unvmed_delete_cq`. The exit without a command does not put the admin SQ. -/
def deleteCq (o : Outcomes) (qid : Nat) (s : St) : Ret :=
  match s.get (.sq 0) with
  | none => ⟨s, -1, false⟩
  | some s =>
      let s := s.enter 0
      match allocRetry o.tries with
      | some _ => ⟨s.exit 0, -1, false⟩
      | none =>
          let s := (s.bump .cmd).exit 0
          let s' := if o.status = 0 ∧ 0 < s.refs (.cq qid) then s.dropCq qid else s
          ⟨(s'.put .cmd).put (.sq 0), o.status, decide (o.status = 0)⟩

/-- The labels `usq:` and `out:` of the handlers. -/
def St.usq (s : St) : St := (s.put (.sq 0)).put .ctrl

/-- How the handlers start: the arguments, the controller and the admin SQ. -/
def handler (o : Outcomes) (s : St) (body : St → Ret) : Ret :=
  match o.parse with
  | some code => ⟨s, code, false⟩
  | none => match s.get .ctrl with
    | none => ⟨s, ENODEV, false⟩
    | some s => match s.get (.sq 0) with
      | none => ⟨s.put .ctrl, ENOMEDIUM, false⟩
      | some s => body s

/-- The label `ucq:` of `unvme_create_iosq`. -/
def St.ucq (s : St) (cqid : Nat) : St := (s.put (.cq cqid)).usq

/-- The labels `cmd:` (`put`) and `free:` of `unvme_create_iosq`. -/
def createIosqFree (s : St) (ret : ℤ) (qid cqid : Nat) : St :=
  if ret ≠ 0 then ((s.freeSq qid).getD s).ucq cqid else s.ucq cqid

/-- `unvme_create_iosq` from the initialisation of the queue on. -/
def createIosqPost (o : Outcomes) (qid cqid : Nat) (s : St) : Ret :=
  match s.initSqIova o qid cqid with
  | .error s => ⟨s.ucq cqid, o.errno, false⟩
  | .ok s =>
      let s := s.enter 0
      if !s.sqReady 0 then ⟨(s.exit 0).ucq cqid, ENOMEDIUM, false⟩
      else match o.tries.head? with
      | some e => ⟨createIosqFree (s.exit 0) e qid cqid, e, false⟩
      | none =>
          let s := s.bump .cmd
          match o.prep with
          | some e => ⟨createIosqFree ((s.exit 0).put .cmd) e qid cqid, e, false⟩
          | none =>
              let s := s.exit 0
              if o.status ≠ 0 then
                ⟨createIosqFree (s.put .cmd) EINVAL qid cqid, EINVAL, false⟩
              else ⟨createIosqFree ((s.enableSq qid).put .cmd) 0 qid cqid, 0, true⟩

/-- `unvme_create_iosq`. Without memory for the queue it leaves through `out:`. -/
def createIosq (o : Outcomes) (qid cqid : Nat) (qaddr : Bool) (s : St) : Ret :=
  handler o s fun s =>
    if s.sqReady qid then ⟨((s.bump (.sq qid)).put (.sq qid)).usq, EEXIST, false⟩
    else
      let s := ((s.get (.sq qid)).map (·.put (.sq qid))).getD s
      match s.get (.cq cqid) with
      | none => ⟨s.usq, ENODEV, false⟩
      | some s =>
          if qaddr then createIosqPost o qid cqid s
          else match s.memAlloc o.memAlloc with
          | none => ⟨s.put .ctrl, ENOMEM, false⟩
          | some s => createIosqPost o qid cqid s

/-- `unvme_delete_iosq`. If the admin SQ is not ready it leaves through `usq:`, past the put of the
target. -/
def deleteIosq (o : Outcomes) (qid : Nat) (s : St) : Ret :=
  handler o s fun s => match s.get (.sq qid) with
  | none => ⟨s.usq, ENOMEDIUM, false⟩
  | some s =>
      let s := s.enter 0
      if !s.sqReady 0 then ⟨(s.exit 0).usq, ENOMEDIUM, false⟩
      else match o.tries.head? with
      | some e => ⟨((s.exit 0).put (.sq qid)).usq, e, false⟩
      | none =>
          let s := s.bump .cmd
          match o.prep with
          | some e => ⟨(((s.exit 0).put .cmd).put (.sq qid)).usq, e, false⟩
          | none =>
              let s := s.exit 0
              if o.status ≠ 0 then ⟨((s.put .cmd).put (.sq qid)).usq, EINVAL, false⟩
              else
                let s' := (s.freeSq qid).getD s
                let ret := if (s.freeSq qid).isNone then ENODEV else 0
                let s'' := (s'.memFree o.iova).getD s'
                let ret' := if (s'.memFree o.iova).isNone then EINVAL else ret
                ⟨((s''.put .cmd).put (.sq qid)).usq, ret', true⟩

/-- `unvme_virt_mgmt`. The lock of the admin SQ is released and never taken. -/
def virtMgmt (o : Outcomes) (s : St) : Ret :=
  handler o s fun s => match o.tries.head? with
  | some e => ⟨(s.exit 0).usq, e, false⟩
  | none =>
      let s := s.bump .cmd
      match o.prep with
      | some e => ⟨((s.exit 0).put .cmd).usq, e, false⟩
      | none => ⟨((s.exit 0).put .cmd).usq, o.status, true⟩

inductive Call where
  | createSq (qid cqid : Nat)
  | createCq (qid : Nat) (vector : ℤ)
  | deleteSq (qid : Nat)
  | deleteCq (qid : Nat)
  /-- `qaddr` is whether `--qaddr=` is given. -/
  | createIosq (qid cqid : Nat) (qaddr : Bool)
  | deleteIosq (qid : Nat)
  | virtMgmt
  deriving DecidableEq, Repr

def exec (o : Outcomes) (s : St) : Call → Ret
  | .createSq qid cqid => createSq o qid cqid s
  | .createCq qid vector => createCq o qid vector s
  | .deleteSq qid => deleteSq o qid s
  | .deleteCq qid => deleteCq o qid s
  | .createIosq qid cqid qaddr => createIosq o qid cqid qaddr s
  | .deleteIosq qid => deleteIosq o qid s
  | .virtMgmt => virtMgmt o s

/-! ### A clean call -/

/-- `u->sqs`, and which queues are enabled. -/
def St.sqs (s : St) (qid : Nat) : Option Bool :=
  if 0 < s.refs (.sq qid) then some (s.sqEnabled qid) else none

/-- `u->cqs` -/
def St.cqs (s : St) (qid : Nat) : Option Bool :=
  if 0 < s.refs (.cq qid) then some (s.cqEnabled qid) else none

def Call.creates : Call → Bool
  | .createSq .. | .createCq .. | .createIosq .. => true
  | .deleteSq .. | .deleteCq .. | .deleteIosq .. | .virtMgmt => false

/-- The reference of the array of queues, which a call creates or drops when it is carried out. -/
def Call.due (u : Unvme) : Call → Obj → ℤ
  | .createSq qid _ => Pi.single (.sq qid) 1
  | .createCq qid _ => Pi.single (.cq qid) 1
  | .createIosq qid _ _ => Pi.single (.sq qid) 1
  | .deleteSq qid => if 0 < u.refs (.sq qid) then -Pi.single (.sq qid) 1 else 0
  | .deleteCq qid => if 0 < u.refs (.cq qid) then -Pi.single (.cq qid) 1 else 0
  | .deleteIosq qid => if 0 < u.refs (.sq qid) then -Pi.single (.sq qid) 1 else 0
  | .virtMgmt => 0

/-- The call puts what it gets, releases what it takes, and a creation that fails is undone. -/
structure Clean (c : Call) (u : Unvme) (r : Ret) : Prop where
  refs : r.st.refs = u.refs + if r.done then c.due u else 0
  locks : Paired r.st.locks
  undone : c.creates → r.done = false →
    r.st.sqs = u.sqs ∧ r.st.cqs = u.cqs ∧ r.st.mem = u.mem

/-- A handler gets the controller and the admin SQ. -/
def Started (o : Outcomes) (u : Unvme) : Prop :=
  o.parse = none ∧ 0 < u.refs .ctrl ∧ 0 < u.refs (.sq 0)

/-- `unvmed_init_usq` succeeds. -/
def UsqInit (o : Outcomes) (s : St) (qid : Nat) : Prop :=
  if 0 < s.refs (.sq qid) then s.sqEnabled qid = false else o.allocated = true

/-- `unvmed_init_ucq` succeeds. -/
def UcqInit (o : Outcomes) (s : St) (qid : Nat) : Prop :=
  if 0 < s.refs (.cq qid) then s.cqEnabled qid = false else o.allocated = true

/-- `unvmed_init_sq_iova` succeeds, for a CQ that is there. -/
def SqInit (o : Outcomes) (s : St) (qid : Nat) : Prop :=
  o.mapIova = true ∧ s.configureSq o qid = true ∧ UsqInit o s qid

/-- The call does not get to an exit that forgets something. -/
def Sound (o : Outcomes) (u : Unvme) : Call → Prop
  | .createSq .. | .deleteSq .. => True
  -- The CQ is initialised, and its reaper cannot be told.
  | .createCq qid vector =>
      0 < u.refs (.sq 0) → u.configureCq o qid → allocRetry o.tries = none → o.status = 0 →
        UcqInit o u.toSt qid → 0 ≤ vector → o.irq → o.reaper
  -- No command is allocated.
  | .deleteCq _ => 0 < u.refs (.sq 0) → allocRetry o.tries = none
  -- A buffer of the handler's own is freed on no exit, and an initialised SQ is not freed if the
  -- admin SQ is not ready.
  | .createIosq qid cqid qaddr =>
      Started o u → u.sqReady qid = false → 0 < u.refs (.cq cqid) →
        if qaddr then SqInit o u.toSt qid → u.sqReady 0
        else o.memAlloc.isSome ∧ SqInit o u.toSt qid ∧ u.sqReady 0 ∧ o.tries = [] ∧
          o.prep = none ∧ o.status = 0
  -- The admin SQ is not ready.
  | .deleteIosq qid => Started o u → 0 < u.refs (.sq qid) → u.sqReady 0
  | .virtMgmt => ¬ Started o u

namespace St

variable {s : St} {o : Outcomes} {x : Obj} {qid : Nat}

theorem get_of_pos (h : 0 < s.refs x) : s.get x = some (s.bump x) := if_pos h

theorem get_of_absent (h : ¬ 0 < s.refs x) : s.get x = none := if_neg h

@[simp] theorem bump_put (s : St) (x : Obj) : (s.bump x).put x = s := by
  simp [bump, put]

theorem le_bump_refs (s : St) (x y : Obj) : s.refs x ≤ (s.bump y).refs x := by
  have hone : (0 : ℤ) ≤ (Pi.single y 1 : Obj → ℤ) x := by
    rw [Pi.single_apply]
    split <;> decide
  exact Int.le_add_of_nonneg_right hone

theorem bump_refs_pos {y : Obj} (h : 0 < s.refs x) : 0 < (s.bump y).refs x :=
  lt_of_lt_of_le h (le_bump_refs s x y)

theorem bump_refs_of_ne {y : Obj} (h : x ≠ y) : (s.bump y).refs x = s.refs x := by
  simp [bump, h]

/-- A get does not make an instance appear. -/
theorem bump_pos_iff {y : Obj} (h : 0 < s.refs y) : 0 < (s.bump y).refs x ↔ 0 < s.refs x := by
  by_cases hx : x = y
  · subst hx
    exact ⟨fun _ => h, fun _ => bump_refs_pos h⟩
  · rw [bump_refs_of_ne hx]

/-- The count of a new instance is one more than that of none. -/
theorem first_ref (hzero : s.refs x = 0) :
    Function.update s.refs x 1 = s.refs + Pi.single x 1 := by
  funext y
  by_cases hy : y = x
  · subst hy
    simp [hzero]
  · simp [hy]

/-- What `unvmed_init_usq` leaves: the caller has the reference of the array. -/
def withUsq (s : St) (qid : Nat) : St :=
  { s with
    refs := s.refs + Pi.single (.sq qid) 1
    sqEnabled := Function.update s.sqEnabled qid false
    frozen := Function.update s.frozen qid false
    mapped := Function.update s.mapped qid true
    locks := s.locks ++ [.enter qid, .exit qid] }

theorem initUsq_ok (hnonneg : 0 ≤ s.refs (.sq qid)) (h : UsqInit o s qid) :
    s.initUsq o qid = .ok (s.withUsq qid) := by
  unfold UsqInit at h
  unfold initUsq
  split at h
  case isTrue hpos =>
    have hsame : Function.update s.sqEnabled qid false = s.sqEnabled := by
      rw [← h, Function.update_eq_self]
    simp [get_of_pos hpos, bump, h, setUsq, enter, exit, withUsq, hsame]
  case isFalse hpos =>
    have hrefs := first_ref (le_antisymm (not_lt.mp hpos) hnonneg)
    simp [get_of_absent hpos, h, setUsq, publishSq, enter, exit, withUsq, hrefs]

theorem initUsq_error (h : ¬ UsqInit o s qid) : s.initUsq o qid = .error s := by
  unfold UsqInit at h
  unfold initUsq
  split at h
  case isTrue hpos =>
    rw [Bool.not_eq_false] at h
    have hen : (s.bump (.sq qid)).sqEnabled qid = true := h
    simp [get_of_pos hpos, hen]
  case isFalse hpos => simp [get_of_absent hpos, h]

/-- What `unvmed_init_ucq` leaves. -/
def withUcq (s : St) (qid : Nat) : St :=
  { s with
    refs := s.refs + Pi.single (.cq qid) 1
    cqEnabled := Function.update s.cqEnabled qid false }

theorem initUcq_ok (hnonneg : 0 ≤ s.refs (.cq qid)) (h : UcqInit o s qid) :
    s.initUcq o qid = .ok (s.withUcq qid) := by
  unfold UcqInit at h
  unfold initUcq
  split at h
  case isTrue hpos =>
    have hsame : Function.update s.cqEnabled qid false = s.cqEnabled := by
      rw [← h, Function.update_eq_self]
    simp [get_of_pos hpos, bump, h, withUcq, hsame]
  case isFalse hpos =>
    have hrefs := first_ref (le_antisymm (not_lt.mp hpos) hnonneg)
    simp [get_of_absent hpos, h, publishCq, withUcq, hrefs]

theorem initUcq_error (h : ¬ UcqInit o s qid) : s.initUcq o qid = .error s := by
  unfold UcqInit at h
  unfold initUcq
  split at h
  case isTrue hpos =>
    rw [Bool.not_eq_false] at h
    have hen : (s.bump (.cq qid)).cqEnabled qid = true := h
    simp [get_of_pos hpos, hen]
  case isFalse hpos => simp [get_of_absent hpos, h]

end St

variable {c : Call} {o : Outcomes} {u : Unvme} {st : St} {ret : ℤ} {qid cqid : Nat}

/-- An exit of a call that was not carried out. -/
theorem clean_failed (hrefs : st.refs = u.refs) (hlocks : Paired st.locks)
    (hsq : ∀ qid, 0 < u.refs (.sq qid) → st.sqEnabled qid = u.sqEnabled qid)
    (hcq : st.cqEnabled = u.cqEnabled) (hmem : st.mem = u.mem) :
    Clean c u ⟨st, ret, false⟩ := by
  refine ⟨by simp [hrefs], hlocks, fun _ _ => ⟨?_, ?_, hmem⟩⟩
  · funext qid
    simp only [St.sqs, hrefs]
    split
    case isTrue hpos => rw [hsq qid hpos]
    case isFalse => rfl
  · funext qid
    simp only [St.cqs, hrefs, hcq]

/-- An exit before anything was done. -/
theorem clean_unchanged : Clean c u ⟨u.toSt, ret, false⟩ :=
  clean_failed rfl (u.locks_nil ▸ paired_nil) (fun _ _ => rfl) rfl rfl

/-- An exit after the lock of the admin SQ was taken and released. -/
theorem clean_section (hrefs : st.refs = u.refs)
    (hlocks : st.locks = u.locks ++ [.enter 0] ++ [.exit 0]) (hsq : st.sqEnabled = u.sqEnabled)
    (hcq : st.cqEnabled = u.cqEnabled) (hmem : st.mem = u.mem) :
    Clean c u ⟨st, ret, false⟩ := by
  refine clean_failed hrefs ?_ (fun qid _ => congrFun hsq qid) hcq hmem
  rw [hlocks, u.locks_nil]
  exact paired_section 0

theorem clean_done (hrefs : st.refs = u.refs + c.due u) (hlocks : Paired st.locks) :
    Clean c u ⟨st, ret, true⟩ :=
  ⟨by simp [hrefs], hlocks, fun _ h => Bool.noConfusion h⟩

theorem not_clean_of_refs (x : Obj) (hx : st.refs x ≠ u.refs x) :
    ¬ Clean c u ⟨st, ret, false⟩ := by
  intro h
  have hrefs := congrFun h.refs x
  simp at hrefs
  exact hx hrefs

/-! ### The functions of the library -/

theorem createSq_clean : Clean (.createSq qid cqid) u (createSq o qid cqid u.toSt) := by
  have hlocks := u.locks_nil
  have hsection := paired_section 0
  unfold createSq
  split
  · exact clean_unchanged
  by_cases hasq : 0 < u.refs (.sq 0)
  case neg =>
    simp only [St.get_of_absent hasq]
    exact clean_unchanged
  simp only [St.get_of_pos hasq]
  by_cases hcq : 0 < (u.bump (.sq 0)).refs (.cq cqid)
  case neg =>
    simp only [St.get_of_absent hcq, St.bump_put]
    exact clean_unchanged
  simp only [St.get_of_pos hcq]
  split
  · simp only [St.bump_put]
    exact clean_unchanged
  split
  · exact clean_section (by simp [St.bump, St.put, St.enter, St.exit]) rfl rfl rfl rfl
  split
  · exact clean_section (by simp [St.bump, St.put, St.enter, St.exit]) rfl rfl rfl rfl
  generalize hs : ((((u.bump (.sq 0)).bump (.cq cqid)).enter 0).bump .cmd).exit 0 = s
  by_cases hinit : UsqInit o s qid
  case neg =>
    simp only [St.initUsq_error hinit]
    subst hs
    exact clean_section (by simp [St.bump, St.put, St.enter, St.exit]) rfl rfl rfl rfl
  have hnonneg : 0 ≤ s.refs (.sq qid) := by
    subst hs
    exact le_trans (u.refs_nonneg _) (le_trans (St.le_bump_refs _ _ _)
      (le_trans (St.le_bump_refs _ _ _) (St.le_bump_refs _ _ _)))
  simp only [St.initUsq_ok hnonneg hinit]
  subst hs
  refine clean_done ?_ ?_
  · simp only [St.put, St.enableSq, St.withUsq, St.exit, St.bump, St.enter, Call.due]
    abel
  · simpa [St.put, St.enableSq, St.withUsq, St.exit, St.bump, St.enter, hlocks] using
      hsection.append (paired_section qid)

theorem createCq_clean_iff {vector : ℤ} :
    Clean (.createCq qid vector) u (createCq o qid vector u.toSt) ↔
      Sound o u (.createCq qid vector) := by
  have hlocks := u.locks_nil
  have hsection := paired_section 0
  unfold createCq Sound
  split
  case isTrue h => simp_all [clean_unchanged]
  case isFalse hirq =>
  by_cases hasq : 0 < u.refs (.sq 0)
  case neg => simp [St.get_of_absent hasq, hasq, clean_unchanged]
  simp only [St.get_of_pos hasq, hasq, forall_const]
  have hconf : (u.bump (.sq 0)).configureCq o qid = u.configureCq o qid := rfl
  rw [hconf]
  cases hc : u.configureCq o qid
  case false => simp [clean_unchanged]
  simp only [Bool.not_true, Bool.false_eq_true, if_false, forall_const]
  cases halloc : allocRetry o.tries with
  | some e =>
      simp only [reduceCtorEq, false_implies, iff_true]
      exact clean_section (by simp [St.bump, St.put, St.enter, St.exit]) rfl rfl rfl rfl
  | none =>
  simp only [forall_const]
  by_cases hst : o.status = 0
  case neg =>
    simp only [hst, ne_eq, not_false_eq_true, if_true, false_implies, iff_true]
    exact clean_section (by simp [St.bump, St.put, St.enter, St.exit]) rfl rfl rfl rfl
  simp only [hst, ne_eq, not_true_eq_false, if_false, forall_const]
  generalize hs : (((u.bump (.sq 0)).enter 0).bump .cmd).exit 0 = s
  have hrefs : s.refs (.cq qid) = u.refs (.cq qid) := by
    subst hs
    simp [St.bump, St.enter, St.exit]
  have hsame : UcqInit o u.toSt qid ↔ UcqInit o s qid := by
    unfold UcqInit
    rw [hrefs]
    subst hs
    exact Iff.rfl
  rw [hsame]
  by_cases hinit : UcqInit o s qid
  case neg =>
    simp only [St.initUcq_error hinit, hinit, false_implies, iff_true]
    subst hs
    exact clean_section (by simp [St.bump, St.put, St.enter, St.exit]) rfl rfl rfl rfl
  simp only [St.initUcq_ok (hrefs ▸ u.refs_nonneg _) hinit, hinit, forall_const]
  split
  case isTrue h =>
    -- The new instance, or the reference on the old one, stays.
    refine iff_of_false (not_clean_of_refs (.cq qid) ?_) ?_
    · subst hs
      simp [St.put, St.withUcq, St.exit, St.bump, St.enter]
    · have : o.irq = true := by simpa [h.1] using hirq
      simp_all
  case isFalse h =>
    refine iff_of_true (clean_done ?_ ?_) ?_
    · subst hs
      simp only [St.put, St.enableCq, St.withUcq, St.exit, St.bump, St.enter, Call.due]
      abel
    · subst hs
      simpa [St.put, St.enableCq, St.withUcq, St.exit, St.bump, St.enter, hlocks] using hsection
    · intro hv _
      simpa [hv] using h

theorem discardSq_locks (s : St) (qid : Nat) (h : Paired s.locks) :
    Paired (s.discardSq qid).locks := by
  unfold St.discardSq
  split
  · simpa [St.enter, St.exit] using h.append (paired_section qid)
  · exact h

@[simp] theorem discardSq_refs (s : St) (qid : Nat) : (s.discardSq qid).refs = s.refs := by
  unfold St.discardSq
  split <;> rfl

@[simp] theorem discardSq_sqEnabled (s : St) (qid : Nat) :
    (s.discardSq qid).sqEnabled = s.sqEnabled := by
  unfold St.discardSq
  split <;> rfl

@[simp] theorem discardSq_cqEnabled (s : St) (qid : Nat) :
    (s.discardSq qid).cqEnabled = s.cqEnabled := by
  unfold St.discardSq
  split <;> rfl

@[simp] theorem discardSq_mem (s : St) (qid : Nat) : (s.discardSq qid).mem = s.mem := by
  unfold St.discardSq
  split <;> rfl

/-- The state in which a deletion has its completion. -/
def Unvme.posted (u : Unvme) : St := (((u.bump (.sq 0)).enter 0).bump .cmd).exit 0

theorem posted_pos_iff {x : Obj} (hasq : 0 < u.refs (.sq 0)) (hx : x ≠ .cmd) :
    0 < u.posted.refs x ↔ 0 < u.refs x := by
  refine Iff.trans ?_ (St.bump_pos_iff hasq)
  simp [Unvme.posted, St.bump, St.enter, St.exit, hx]

theorem posted_paired : Paired u.posted.locks := by
  have hlocks : u.posted.locks = [.enter 0, .exit 0] := by
    simp [Unvme.posted, St.bump, St.enter, St.exit, u.locks_nil]
  rw [hlocks]
  exact paired_section 0

/-- The end of a deletion: the queue is dropped if the device deleted it and it is there. -/
theorem deletion_clean {x : Obj} (drop : St → St) (hasq : 0 < u.refs (.sq 0)) (hx : x ≠ .cmd)
    (hdue : c.due u = if 0 < u.refs x then -Pi.single x 1 else 0)
    (hrefs : (drop u.posted).refs = u.posted.refs - Pi.single x 1)
    (hlocks : Paired (drop u.posted).locks) (status : Nat) :
    Clean c u ⟨((if status = 0 ∧ 0 < u.posted.refs x then drop u.posted else u.posted).put
      .cmd).put (.sq 0), status, decide (status = 0)⟩ := by
  by_cases hst : status = 0
  case neg =>
    simp only [hst, false_and, if_false, decide_false]
    refine clean_failed ?_ posted_paired (fun _ _ => rfl) rfl rfl
    simp [Unvme.posted, St.bump, St.put, St.enter, St.exit]
  by_cases hfound : 0 < u.refs x
  · simp only [hst, (posted_pos_iff hasq hx).mpr hfound, and_self, if_true, decide_true]
    refine clean_done ?_ hlocks
    simp only [St.put, hrefs, hdue, if_pos hfound]
    simp only [Unvme.posted, St.bump, St.enter, St.exit]
    abel
  · simp only [hst, mt (posted_pos_iff hasq hx).mp hfound, and_false, if_false, decide_true]
    refine clean_done ?_ posted_paired
    simp [Unvme.posted, St.bump, St.put, St.enter, St.exit, hdue, hfound]

theorem deleteSq_clean : Clean (.deleteSq qid) u (deleteSq o qid u.toSt) := by
  unfold deleteSq
  by_cases hasq : 0 < u.refs (.sq 0)
  case neg =>
    simp only [St.get_of_absent hasq]
    exact clean_unchanged
  simp only [St.get_of_pos hasq]
  split
  · exact clean_section (by simp [St.bump, St.put, St.enter, St.exit]) rfl rfl rfl rfl
  refine deletion_clean (fun s => s.dropSq qid) hasq Obj.noConfusion rfl ?_ ?_ o.status
  · simp only [St.dropSq, St.put, discardSq_refs]
  · exact discardSq_locks _ qid posted_paired

theorem deleteCq_clean_iff :
    Clean (.deleteCq qid) u (deleteCq o qid u.toSt) ↔ Sound o u (.deleteCq qid) := by
  unfold deleteCq Sound
  by_cases hasq : 0 < u.refs (.sq 0)
  case neg => simp [St.get_of_absent hasq, hasq, clean_unchanged]
  simp only [St.get_of_pos hasq, hasq, forall_const]
  cases halloc : allocRetry o.tries with
  | some e =>
      -- The reference of the get on the admin SQ stays.
      refine iff_of_false (not_clean_of_refs (.sq 0) ?_) (by simp)
      simp [St.bump, St.enter, St.exit]
  | none =>
      refine iff_of_true ?_ rfl
      exact deletion_clean (fun s => s.dropCq qid) hasq Obj.noConfusion rfl rfl posted_paired
        o.status

/-! ### The handlers of the daemon -/

/-- The state in which a handler has the controller and the admin SQ. -/
def Unvme.started (u : Unvme) : St := (u.bump .ctrl).bump (.sq 0)

theorem handler_clean_iff (body : St → Ret) :
    Clean c u (handler o u.toSt body) ↔ (Started o u → Clean c u (body u.started)) := by
  unfold handler Started
  cases hparse : o.parse with
  | some code => simp [clean_unchanged]
  | none =>
  by_cases hctrl : 0 < u.refs .ctrl
  case neg => simp [St.get_of_absent hctrl, hctrl, clean_unchanged]
  have hasq : (u.bump .ctrl).refs (.sq 0) = u.refs (.sq 0) :=
    St.bump_refs_of_ne Obj.noConfusion
  by_cases hpos : 0 < u.refs (.sq 0)
  case neg =>
    rw [← hasq] at hpos
    simp [St.get_of_pos hctrl, St.get_of_absent hpos, hasq ▸ hpos, clean_unchanged]
  rw [← hasq] at hpos
  simp [St.get_of_pos hctrl, St.get_of_pos hpos, hctrl, hasq ▸ hpos, Unvme.started]

/-- A lock that was never taken is released. -/
theorem not_paired_exit (qid : Nat) : ¬ Paired [.exit qid] := by
  simp [Paired, Scan]

theorem virtMgmt_clean_iff :
    Clean .virtMgmt u (virtMgmt o u.toSt) ↔ Sound o u .virtMgmt := by
  have hlocks := u.locks_nil
  unfold virtMgmt Sound
  rw [handler_clean_iff]
  refine imp_congr_right fun _ => iff_of_false ?_ id
  intro h
  refine not_paired_exit 0 ?_
  have hpaired := h.locks
  split at hpaired
  · simpa [St.usq, St.put, St.exit, Unvme.started, St.bump, hlocks] using hpaired
  · split at hpaired <;>
      simpa [St.usq, St.put, St.exit, Unvme.started, St.bump, hlocks] using hpaired

theorem sqReady_congr {s t : St} (hpos : 0 < s.refs (.sq qid) ↔ 0 < t.refs (.sq qid))
    (henabled : s.sqEnabled qid = t.sqEnabled qid) (hfrozen : s.frozen qid = t.frozen qid) :
    s.sqReady qid = t.sqReady qid := by
  unfold St.sqReady
  rw [henabled, hfrozen, decide_eq_decide.mpr hpos]

theorem started_pos_iff (hasq : 0 < u.refs (.sq 0)) :
    0 < u.started.refs (.sq qid) ↔ 0 < u.refs (.sq qid) := by
  have hctrl : ∀ q, (u.bump .ctrl).refs (.sq q) = u.refs (.sq q) :=
    fun q => St.bump_refs_of_ne Obj.noConfusion
  unfold Unvme.started
  rw [St.bump_pos_iff (hctrl 0 ▸ hasq), hctrl]

theorem freeSq_of_pos {s : St} (hlt : qid < 2 ^ 16) (hpos : 0 < s.refs (.sq qid)) :
    s.freeSq qid = some ((s.disableSq qid).dropSq qid) := by
  unfold St.freeSq
  rw [Nat.mod_eq_of_lt hlt, if_pos hpos]

theorem memFree_refs (s : St) (iova : Nat) : ((s.memFree iova).getD s).refs = s.refs := by
  unfold St.memFree
  split <;> rfl

theorem memFree_locks (s : St) (iova : Nat) : ((s.memFree iova).getD s).locks = s.locks := by
  unfold St.memFree
  split <;> rfl

theorem deleteIosq_clean_iff :
    Clean (.deleteIosq qid) u (deleteIosq o qid u.toSt) ↔ Sound o u (.deleteIosq qid) := by
  have hlocks := u.locks_nil
  have hsection := paired_section 0
  unfold deleteIosq Sound
  rw [handler_clean_iff]
  refine imp_congr_right fun hstarted => ?_
  have hasq := hstarted.2.2
  by_cases htarget : 0 < u.refs (.sq qid)
  case neg =>
    simp only [St.get_of_absent (mt (started_pos_iff hasq).mp htarget), htarget, false_implies,
      iff_true]
    refine clean_failed ?_ (hlocks ▸ paired_nil) (fun _ _ => rfl) rfl rfl
    simp [St.usq, St.put, Unvme.started, St.bump]
  have hpos := (started_pos_iff hasq).mpr htarget
  simp only [St.get_of_pos hpos, htarget, forall_const]
  have hready : ((u.started.bump (.sq qid)).enter 0).sqReady 0 = u.sqReady 0 :=
    sqReady_congr ((St.bump_pos_iff hpos).trans (started_pos_iff hasq)) rfl rfl
  rw [hready]
  cases hr : u.sqReady 0 with
  | false =>
      -- The reference of the get on the target stays.
      refine iff_of_false (not_clean_of_refs (.sq qid) ?_) (by simp)
      simp [St.usq, St.put, St.exit, St.enter, Unvme.started, St.bump]
      omega
  | true =>
  refine iff_of_true ?_ rfl
  simp only [Bool.not_true, Bool.false_eq_true, if_false]
  split
  · refine clean_section ?_ rfl rfl rfl rfl
    simp [St.usq, St.put, St.exit, St.enter, Unvme.started, St.bump]
  split
  · refine clean_section ?_ rfl rfl rfl rfl
    simp [St.usq, St.put, St.exit, St.enter, Unvme.started, St.bump]
  split
  · refine clean_section ?_ rfl rfl rfl rfl
    simp [St.usq, St.put, St.exit, St.enter, Unvme.started, St.bump]
  generalize hs : (((u.started.bump (.sq qid)).enter 0).bump .cmd).exit 0 = s
  have hfound : 0 < s.refs (.sq qid) := by
    subst hs
    exact St.bump_refs_pos (St.bump_refs_pos hpos)
  have hlt : qid < 2 ^ 16 := lt_of_lt_of_le (u.sqs_lt qid htarget) u.nrSqs_le
  have hpaired : Paired s.locks := by
    subst hs
    simpa [St.exit, St.enter, Unvme.started, St.bump, hlocks] using hsection
  simp only [freeSq_of_pos hlt hfound, Option.getD_some]
  refine clean_done ?_ ?_
  · simp only [St.usq, St.put, memFree_refs, St.dropSq, discardSq_refs, St.disableSq, Call.due,
      if_pos htarget]
    subst hs
    simp only [St.exit, St.enter, Unvme.started, St.bump]
    abel
  · simp only [St.usq, St.put, memFree_locks]
    exact discardSq_locks _ qid hpaired

/-! ### `unvme_create_iosq` -/

theorem get_put_getD (s : St) (x : Obj) : ((s.get x).map (·.put x)).getD s = s := by
  by_cases h : 0 < s.refs x
  · simp [St.get_of_pos h]
  · simp [St.get_of_absent h]

theorem initSqIova_ok {s : St} (hnonneg : 0 ≤ s.refs (.sq qid)) (hcq : 0 < s.refs (.cq cqid))
    (h : SqInit o s qid) : s.initSqIova o qid cqid = .ok (s.withUsq qid) := by
  simp [St.initSqIova, h.1, h.2.1, not_le.mpr hcq, St.initUsq_ok hnonneg h.2.2]

theorem initSqIova_error {s : St} (h : ¬ SqInit o s qid) :
    s.initSqIova o qid cqid = .error s ∨ s.initSqIova o qid cqid = .error (s.discardSq qid) := by
  unfold St.initSqIova
  split
  case isTrue => exact .inl rfl
  case isFalse hmap =>
  split
  case isTrue => exact .inl rfl
  case isFalse =>
  split
  case isTrue => exact .inl rfl
  case isFalse hconf =>
  have husq : ¬ UsqInit o s qid := fun husq => h ⟨by simpa using hmap, by simpa using hconf, husq⟩
  rw [St.initUsq_error husq]
  exact .inr rfl

/-- A creation that failed is clean if no buffer is left, when everything else was put back. -/
theorem clean_failed_iff (hcreates : c.creates) (hrefs : st.refs = u.refs)
    (hlocks : Paired st.locks)
    (hsq : ∀ qid, 0 < u.refs (.sq qid) → st.sqEnabled qid = u.sqEnabled qid)
    (hcq : st.cqEnabled = u.cqEnabled) :
    Clean c u ⟨st, ret, false⟩ ↔ st.mem = u.mem :=
  ⟨fun h => (h.undone hcreates rfl).2.2, fun hmem => clean_failed hrefs hlocks hsq hcq hmem⟩

/-- The state in which `unvme_create_iosq` has the CQ too, with `m` as the list of buffers. -/
def Unvme.withCq (u : Unvme) (cqid : Nat) (m : List Buf) : St :=
  { u.started.bump (.cq cqid) with mem := m }

/-- The label `free:` after a failure: the SQ is freed, the buffer is not. -/
theorem createIosqFree_clean_iff {qaddr : Bool} {m : List Buf} {e : ℤ} (he : e ≠ 0)
    (hlt : qid < 2 ^ 16) (hinit : UsqInit o u.toSt qid)
    (hrefs : st.refs = (u.withCq cqid m).refs + Pi.single (.sq qid) 1)
    (hlocks : Paired st.locks) (hsq : st.sqEnabled = Function.update u.sqEnabled qid false)
    (hcq : st.cqEnabled = u.cqEnabled) (hmem : st.mem = m) :
    Clean (.createIosq qid cqid qaddr) u ⟨createIosqFree st e qid cqid, ret, false⟩ ↔
      m = u.mem := by
  have hpos : 0 < st.refs (.sq qid) := by
    have hnonneg : 0 ≤ (u.withCq cqid m).refs (.sq qid) :=
      le_trans (u.refs_nonneg _) (le_trans (St.le_bump_refs _ _ _)
        (le_trans (St.le_bump_refs _ _ _) (St.le_bump_refs _ _ _)))
    rw [hrefs]
    simp only [Pi.add_apply, Pi.single_eq_same]
    omega
  have hfree : createIosqFree st e qid cqid = ((st.disableSq qid).dropSq qid).ucq cqid := by
    simp [createIosqFree, he, freeSq_of_pos hlt hpos]
  rw [hfree, clean_failed_iff rfl]
  · simp [St.ucq, St.usq, St.put, St.dropSq, St.disableSq, hmem]
  · simp only [St.ucq, St.usq, St.put, St.dropSq, discardSq_refs, St.disableSq, hrefs,
      Unvme.withCq, Unvme.started, St.bump]
    abel
  · exact discardSq_locks _ qid hlocks
  · intro q hq
    simp only [St.ucq, St.usq, St.put, St.dropSq, discardSq_sqEnabled, St.disableSq, hsq]
    by_cases hqid : q = qid
    · subst hqid
      have hoff : u.sqEnabled q = false := by simpa [UsqInit, hq] using hinit
      simp [hoff]
    · simp [hqid]
  · simp [St.ucq, St.usq, St.put, St.dropSq, St.disableSq, hcq]

theorem withCq_pos_iff (cqid : Nat) (m : List Buf) (hasq : 0 < u.refs (.sq 0)) :
    0 < (u.withCq cqid m).refs (.sq qid) ↔ 0 < u.refs (.sq qid) := by
  have hcq : (u.started.bump (.cq cqid)).refs (.sq qid) = u.started.refs (.sq qid) :=
    St.bump_refs_of_ne Obj.noConfusion
  rw [← started_pos_iff hasq, ← hcq]
  exact Iff.rfl

/-- A queue that is initialised again is no longer ready; another one stays as it is. -/
theorem withUsq_sqReady {m : List Buf} (hasq : 0 < u.refs (.sq 0))
    (hready : u.sqReady qid = false) :
    (((u.withCq cqid m).withUsq qid).enter 0).sqReady 0 = u.sqReady 0 := by
  by_cases hqid : qid = 0
  · subst hqid
    rw [hready]
    simp [St.sqReady, St.withUsq, St.enter]
  · have hne : (Pi.single (Obj.sq qid) 1 : Obj → ℤ) (.sq 0) = 0 :=
      Pi.single_eq_of_ne (fun h => hqid (Obj.sq.inj h).symm) 1
    refine sqReady_congr ?_ ?_ ?_
    · refine Iff.trans ?_ (withCq_pos_iff cqid m hasq)
      simp [St.withUsq, St.enter, hne]
    · exact Function.update_of_ne (Ne.symm hqid) _ _
    · exact Function.update_of_ne (Ne.symm hqid) _ _

theorem createIosqPost_clean_iff {qaddr : Bool} {m : List Buf} (hasq : 0 < u.refs (.sq 0))
    (hready : u.sqReady qid = false) (hcq : 0 < u.refs (.cq cqid)) :
    Clean (.createIosq qid cqid qaddr) u (createIosqPost o qid cqid (u.withCq cqid m)) ↔
      (SqInit o u.toSt qid → u.sqReady 0) ∧
        (m = u.mem ∨ SqInit o u.toSt qid ∧ o.tries = [] ∧ o.prep = none ∧ o.status = 0) := by
  have hlocks := u.locks_nil
  have hsection := paired_section 0
  have hnonneg : ∀ x, 0 ≤ (u.withCq cqid m).refs x := fun x =>
    le_trans (u.refs_nonneg _) (le_trans (St.le_bump_refs _ _ _)
      (le_trans (St.le_bump_refs _ _ _) (St.le_bump_refs _ _ _)))
  have hsame : SqInit o (u.withCq cqid m) qid ↔ SqInit o u.toSt qid := by
    unfold SqInit UsqInit
    simp only [withCq_pos_iff cqid m hasq]
    exact Iff.rfl
  have hcqpos : 0 < (u.withCq cqid m).refs (.cq cqid) :=
    St.bump_refs_pos (St.bump_refs_pos (St.bump_refs_pos hcq))
  unfold createIosqPost
  by_cases hinit : SqInit o u.toSt qid
  case neg =>
    have hstate : (u.withCq cqid m).initSqIova o qid cqid = .error (u.withCq cqid m) ∨
        (u.withCq cqid m).initSqIova o qid cqid = .error ((u.withCq cqid m).discardSq qid) :=
      initSqIova_error (mt hsame.mp hinit)
    simp only [hinit, false_implies, false_and, or_false, true_and]
    rcases hstate with herr | herr
    all_goals
      rw [herr]
      refine Iff.trans (clean_failed_iff rfl ?_ ?_ ?_ ?_) ?_
    · simp [St.ucq, St.usq, St.put, Unvme.withCq, Unvme.started, St.bump]
    · exact hlocks ▸ paired_nil
    · exact fun _ _ => rfl
    · rfl
    · exact Iff.rfl
    · simp [St.ucq, St.usq, St.put, Unvme.withCq, Unvme.started, St.bump]
    · exact discardSq_locks _ qid (hlocks ▸ paired_nil)
    · intro q _
      simp only [St.ucq, St.usq, St.put, discardSq_sqEnabled]
      rfl
    · simp only [St.ucq, St.usq, St.put, discardSq_cqEnabled]
      rfl
    · simp only [St.ucq, St.usq, St.put, discardSq_mem]
      exact Iff.rfl
  have hlt : qid < 2 ^ 16 := by
    have hconf := hinit.2.1
    simp only [St.configureSq, Bool.and_eq_true, decide_eq_true_eq] at hconf
    exact lt_of_lt_of_le hconf.1 u.nrSqs_le
  rw [initSqIova_ok (hnonneg _) hcqpos (hsame.mpr hinit)]
  simp only [withUsq_sqReady hasq hready, hinit, forall_const, true_and]
  cases hr : u.sqReady 0 with
  | false =>
      -- The SQ stays initialised.
      refine iff_of_false (not_clean_of_refs (.sq qid) ?_) (by simp)
      simp [St.ucq, St.usq, St.put, St.exit, St.enter, St.withUsq, Unvme.withCq, Unvme.started,
        St.bump]
      omega
  | true =>
  simp only [Bool.not_true, Bool.false_eq_true, if_false, true_and]
  have hopen : Paired (((u.withCq cqid m).withUsq qid).locks ++ [.enter 0, .exit 0]) := by
    have hlist : ((u.withCq cqid m).withUsq qid).locks = [.enter qid, .exit qid] := by
      simp [St.withUsq, Unvme.withCq, Unvme.started, St.bump, hlocks]
    rw [hlist]
    exact (paired_section qid).append hsection
  cases htries : o.tries with
  | cons e es =>
      simp only [List.head?_cons, reduceCtorEq, false_and, or_false]
      refine createIosqFree_clean_iff (by simp) hlt hinit.2.2 rfl ?_ rfl rfl rfl
      simpa [St.exit, St.enter] using hopen
  | nil =>
  simp only [List.head?_nil, true_and]
  cases hprep : o.prep with
  | some e =>
      simp only [reduceCtorEq, false_and, or_false]
      refine createIosqFree_clean_iff (by simp) hlt hinit.2.2 ?_ ?_ rfl rfl rfl
      · simp [St.put, St.exit, St.bump, St.enter, St.withUsq]
      · simpa [St.put, St.exit, St.bump, St.enter] using hopen
  | none =>
  by_cases hst : o.status = 0
  case neg =>
    simp only [hst, ne_eq, not_false_eq_true, if_true, and_false, or_false]
    refine createIosqFree_clean_iff (by decide) hlt hinit.2.2 ?_ ?_ rfl rfl rfl
    · simp [St.put, St.exit, St.bump, St.enter, St.withUsq]
    · simpa [St.put, St.exit, St.bump, St.enter] using hopen
  simp only [hst, ne_eq, not_true_eq_false, if_false, and_self, or_true, iff_true]
  refine clean_done ?_ ?_
  · simp only [createIosqFree, ne_eq, not_true_eq_false, if_false, St.ucq, St.usq, St.put,
      St.enableSq, St.exit, St.bump, St.enter, St.withUsq, Unvme.withCq, Unvme.started, Call.due]
    abel
  · simpa [createIosqFree, St.ucq, St.usq, St.put, St.enableSq, St.exit, St.bump, St.enter] using
      hopen

theorem createIosq_clean_iff {qaddr : Bool} :
    Clean (.createIosq qid cqid qaddr) u (createIosq o qid cqid qaddr u.toSt) ↔
      Sound o u (.createIosq qid cqid qaddr) := by
  have hlocks := u.locks_nil
  unfold createIosq Sound
  rw [handler_clean_iff]
  refine imp_congr_right fun hstarted => ?_
  have hasq := hstarted.2.2
  have hback : ∀ ret, Clean (.createIosq qid cqid qaddr) u ⟨u.started.usq, ret, false⟩ := by
    intro ret
    refine clean_failed ?_ (hlocks ▸ paired_nil) (fun _ _ => rfl) rfl rfl
    simp [St.usq, St.put, Unvme.started, St.bump]
  have hsame : u.started.sqReady qid = u.sqReady qid :=
    sqReady_congr (started_pos_iff hasq) rfl rfl
  rw [hsame, get_put_getD, St.bump_put]
  cases hready : u.sqReady qid with
  | true => simpa using hback EEXIST
  | false =>
  simp only [Bool.false_eq_true, if_false, forall_const]
  have hcqrefs : u.started.refs (.cq cqid) = u.refs (.cq cqid) := by
    simp [Unvme.started, St.bump]
  by_cases hcq : 0 < u.refs (.cq cqid)
  case neg =>
    simp only [St.get_of_absent (hcqrefs ▸ hcq), hcq, false_implies, iff_true]
    exact hback ENODEV
  simp only [St.get_of_pos (hcqrefs ▸ hcq), hcq, forall_const]
  cases qaddr with
  | true =>
      have hpost : Clean (.createIosq qid cqid true) u
          (createIosqPost o qid cqid (u.withCq cqid u.mem)) ↔ _ :=
        createIosqPost_clean_iff hasq hready hcq
      simp only [true_or, and_true] at hpost
      exact hpost
  | false =>
  simp only [Bool.false_eq_true, if_false, St.memAlloc]
  cases hbuf : o.memAlloc with
  | none =>
      -- The references on the CQ and on the admin SQ stay.
      refine iff_of_false (not_clean_of_refs (.cq cqid) ?_) (by simp)
      simp [St.put, Unvme.started, St.bump]
  | some buf =>
      have hpost : Clean (.createIosq qid cqid false) u
          (createIosqPost o qid cqid (u.withCq cqid (u.mem ++ [buf]))) ↔ _ :=
        createIosqPost_clean_iff hasq hready hcq
      have hne : u.mem ++ [buf] ≠ u.mem := by simp
      simp only [hne, false_or] at hpost
      refine hpost.trans ?_
      simp only [Option.isSome_some, true_and]
      tauto

/-! ### All calls -/

/-- A call is clean if and only if it does not get to one of the exits that forget something. -/
theorem calls_clean_iff (o : Outcomes) (u : Unvme) (c : Call) :
    Clean c u (exec o u.toSt c) ↔ Sound o u c := by
  cases c with
  | createSq qid cqid => exact iff_of_true createSq_clean trivial
  | createCq qid vector => exact createCq_clean_iff
  | deleteSq qid => exact iff_of_true deleteSq_clean trivial
  | deleteCq qid => exact deleteCq_clean_iff
  | createIosq qid cqid qaddr => exact createIosq_clean_iff
  | deleteIosq qid => exact deleteIosq_clean_iff
  | virtMgmt => exact virtMgmt_clean_iff

/-- A controller with its admin queues and the queues 1, which nobody else holds. -/
def Unvme.idle (adminEnabled : Bool) : Unvme where
  refs
    | .ctrl => 1
    | .sq qid => if qid < 2 then 1 else 0
    | .cq qid => if qid < 2 then 1 else 0
    | .cmd => 0
  sqEnabled qid := decide (qid ≠ 0) || adminEnabled
  frozen _ := false
  mapped qid := decide (qid < 2)
  cqEnabled _ := true
  mem := []
  nrSqs := 4
  nrCqs := 4
  locks := []
  refs_nonneg x := by
    cases x with
    | ctrl | cmd => decide
    | sq qid | cq qid =>
        dsimp only
        split <;> decide
  sqs_lt qid h := by
    dsimp only at h
    split at h
    · omega
    · cases h
  nrSqs_le := by decide
  locks_nil := rfl

/-- `unvme virt-mgmt` releases the lock of the admin SQ; `unvme create-iosq --qid=2 --cqid=1`
without memory returns with a reference on CQ 1 and one on the admin SQ; and `unvme delete-iosq
--qid=1` on a controller whose admin SQ is disabled returns with a reference on SQ 1. -/
theorem exits_forget :
    (exec {} (Unvme.idle true).toSt .virtMgmt).st.locks = [.exit 0] ∧
    ¬ Clean .virtMgmt (.idle true) (exec {} (Unvme.idle true).toSt .virtMgmt) ∧
    (let r := exec {} (Unvme.idle true).toSt (.createIosq 2 1 false);
      r.ret = ENOMEM ∧ r.st.refs (.sq 0) = 2 ∧ r.st.refs (.cq 1) = 2 ∧
        ¬ Clean (.createIosq 2 1 false) (.idle true) r) ∧
    (let r := exec {} (Unvme.idle false).toSt (.deleteIosq 1);
      r.ret = ENOMEDIUM ∧ r.st.refs (.sq 1) = 2 ∧ ¬ Clean (.deleteIosq 1) (.idle false) r) := by
  have hlocks : (exec {} (Unvme.idle true).toSt .virtMgmt).st.locks = [.exit 0] := by decide
  refine ⟨hlocks, ?_, ⟨by decide, by decide, by decide, ?_⟩, by decide, by decide, ?_⟩
  · intro h
    exact not_paired_exit 0 (hlocks ▸ h.locks)
  · intro h
    have hrefs := congrFun h.refs (.cq 1)
    revert hrefs
    decide
  · intro h
    have hrefs := congrFun h.refs (.sq 1)
    revert hrefs
    decide

end Unvmed.QueueCmd
