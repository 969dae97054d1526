import Unvmed.Ctrl.PciCap
import Unvmed.Ctrl.State

/-!
The resets that go through the configuration space (`unvmed_flr` and `unvmed_link_disable` in
`lib/libunvmed.c`).

Both search for the PCI Express capability, read registers through the offset they are given, write
one of them, wait for the reset and write the configuration space back. A failing search and a
failing read are passed over: the offset is unsigned when it is compared with -1, and so is the -1
of `pread` when `unvmed_pci_get_config` compares it with a size.

* `pci_reset_careful_iff`: when nothing is written after a failing read, and the call fails.
* `selfLinked_wrong`: a capability that links to itself, a lost error, and a missing capability.
-/

namespace Unvmed.PciReset

open Lib PciCap
open Ctrl (CtrlState)

/-! ### Reads and writes -/

/-- What `unvmed_pci_get_config` meets. -/
structure Answer (α : Type) where
  /-- `asprintf` and `open` -/
  opens : Bool
  reply : Reply
  /-- What the configuration space holds there. -/
  value : α

section Reads

variable {α : Type}

/-- A variable after a read into it that is complete or reports an error. -/
def Answer.get (size : ℕ) (a : Answer α) (old : α) : α :=
  if a.reply.full size then a.value else old

/-- `ret < size`, where `ret` is an `int` and `size` a `size_t`. -/
def lessThan (ret : Int) (size : ℕ) : Bool := (BitVec.ofInt 64 ret).toNat < size

/-- `unvmed_pci_get_config`. -/
def pciGetConfig (addr size : ℕ) (a : Answer α) (old : α) : Call Access α :=
  if a.opens = false then ⟨[.opened false], .failed⟩
  else if lessThan (a.reply.ret size) size = true then ⟨[.read addr size false], .failed⟩
  else ⟨[.read addr size (a.reply.full size)], .done (a.get size old)⟩

/-- A read into a variable that holds `old`. -/
structure Read (α : Type) extends Answer α where
  old : α

def Read.exec (addr size : ℕ) (r : Read α) : Proc Access α :=
  .ofCall (pciGetConfig addr size r.toAnswer r.old)

/-- The reads of a loop into one variable. -/
structure Poll (α : Type) where
  answers : ℕ → Answer α
  old : α

def pollTurn (addr size : ℕ) (stop : α → Bool) (p : Poll α) (s : ℕ × α) :
    Call Access ((ℕ × α) ⊕ Unit) :=
  (pciGetConfig addr size (p.answers s.1) s.2).bind fun v =>
    ⟨[], .done (if stop v = true then .inr () else .inl (s.1 + 1, v))⟩

/-- A loop that reads until `stop`. -/
def Poll.exec (addr size : ℕ) (stop : α → Bool) (p : Poll α) : Proc Access Unit :=
  .iterate (pollTurn addr size stop p) (0, p.old)

end Reads

/-- `pwrite`, and whether it succeeds. -/
def pwrite (ok : Bool) (addr : ℕ) (data : List (BitVec 8)) : Proc Access Unit :=
  .ofCall ⟨[.write addr data], if ok = true then .done () else .failed⟩

def bytes16 (x : BitVec 16) : List (BitVec 8) := [low x, high x]

/-- The `uint16_t` that takes the offset of the capability. -/
def toOffset (ret : Int) : BitVec 16 := BitVec.ofInt 16 ret

/-- `pcie_offset == -1`, which compares the values as `int`. -/
def noOffset (offset : BitVec 16) : Bool := (offset.toNat : Int) == -1

/-! ### The wait and the restore -/

/-- What `unvmed_pci_wait_reset` meets. -/
structure WaitReset where
  /-- `unvmed_get_downstream_port` -/
  port : Bool
  walk : Walk
  linkCap : Read (BitVec 32)
  linkStatus : Poll (BitVec 16)
  bar0 : Poll (BitVec 64)

/-- Data Link Layer Link Active. -/
def linkActive (linkStatus : BitVec 16) : Bool := linkStatus.getLsbD 13

/-- BAR0 is reset. -/
def barClear (bar0 : BitVec 64) : Bool := bar0 &&& ~~~0xf == 0

/-- The wait for the link, where the port reports it. -/
def waitLink (w : WaitReset) (addr : ℕ) (linkCap : BitVec 32) : Proc Access Unit :=
  if linkCap.getLsbD 20 = true then w.linkStatus.exec addr 2 linkActive else pure ()

/-- `unvmed_pci_wait_reset`. -/
def waitReset (w : WaitReset) : Proc Access Unit := do
  .check w.port
  let ret ← getPcieCapOffset w.walk
  let pcieOffset := toOffset ret
  .check (!noOffset pcieOffset)
  let linkCap ← w.linkCap.exec (pcieOffset.toNat + 0xc) 4
  waitLink w (pcieOffset.toNat + 0x12) linkCap
  w.bar0.exec 0x10 8 barClear

/-- What `unvmed_pci_restore_state` meets. -/
structure Restore where
  /-- `asprintf` and `open` -/
  opens : Bool
  write : Bool
  csts : ℕ → BitVec 32

/-- A turn of the loop of `unvmed_pci_restore_state`, which reads CSTS until it is not ready. -/
def cstsTurn (r : Restore) (i : ℕ) : Call Access (ℕ ⊕ Unit) :=
  if r.csts i = BitVec.allOnes 32 then ⟨[], .failed⟩
  else ⟨[], .done (if (r.csts i).getLsbD 0 = true then .inl (i + 1) else .inr ())⟩

/-- `unvmed_pci_restore_state`. -/
def restoreState (r : Restore) (config : List (BitVec 8)) : Proc Access Unit := do
  .check r.opens
  pwrite r.write 0 config
  .iterate (cstsTurn r) 0

/-! ### The resets -/

/-- `__unvmed_ctrl_set_state(u, UNVME_RESETTING)`. -/
def setResetting (st : CtrlState) : Bool := (st.set .resetting).isOk

/-- What `unvmed_flr` meets. -/
structure Flr where
  /-- `asprintf` and `open` -/
  opens : Bool
  walk : Walk
  cap : Read (BitVec 32)
  state : CtrlState
  backup : Read (List (BitVec 8))
  control : Read (BitVec 16)
  write : Bool
  wait : WaitReset
  restore : Restore

/-- `unvmed_flr`. -/
def flr (e : Flr) : Proc Access Unit := do
  .check e.opens
  let ret ← getPcieCapOffset e.walk
  let pcieOffset := toOffset ret
  .check (!noOffset pcieOffset)
  let cap ← e.cap.exec (pcieOffset.toNat + 0x4) 4
  .check (cap.getLsbD 28)
  .check (setResetting e.state)
  let config ← e.backup.exec 0 0x1000
  let control ← e.control.exec (pcieOffset.toNat + 0x8) 2
  pwrite e.write (pcieOffset.toNat + 0x8) (bytes16 (control ||| 1#16 <<< 15))
  waitReset e.wait
  restoreState e.restore config

/-- What `unvmed_link_disable` meets. -/
structure LinkDisable where
  /-- `unvmed_get_downstream_port` -/
  port : Bool
  /-- `asprintf` and `open` -/
  opens : Bool
  state : CtrlState
  walk : Walk
  /-- The read of the control register: its reply, the bytes that are there, and the variable. -/
  control : Reply
  controlBytes : BitVec 8 × BitVec 8
  controlOld : BitVec 16
  backup : Read (List (BitVec 8))
  set : Bool
  clear : Bool
  wait : WaitReset
  restore : Restore

/-- `pread` where the caller looks for an error only. -/
def pread (addr size : ℕ) (r : Reply) : Call Access Unit :=
  ⟨[.read addr size (r.full size)], if r.ret size < 0 then .failed else .done ()⟩

/-- `unvmed_link_disable`. -/
def linkDisable (e : LinkDisable) : Proc Access Unit := do
  .check e.port
  .check e.opens
  .check (setResetting e.state)
  let ret ← getPcieCapOffset e.walk
  let pcieOffset := toOffset ret
  .check (!noOffset pcieOffset)
  .ofCall (pread (pcieOffset.toNat + 0x10) 2 e.control)
  let control := load e.controlOld e.controlBytes.1 e.controlBytes.2 e.control
  let config ← e.backup.exec 0 0x1000
  let control := control ||| 1#16 <<< 4
  pwrite e.set (pcieOffset.toNat + 0x10) (bytes16 control)
  let control := control &&& ~~~(1#16 <<< 4)
  pwrite e.clear (pcieOffset.toNat + 0x10) (bytes16 control)
  waitReset e.wait
  restoreState e.restore config

/-! ### When they are careful -/

/-- The call goes on after this read. -/
def Answer.Passes {α : Type} (size : ℕ) (a : Answer α) : Prop :=
  a.opens = true ∧ (a.reply = .error ∨ a.reply.full size = true)

/-- The call goes on after an error. -/
def Answer.Lost {α : Type} (a : Answer α) : Prop := a.opens = true ∧ a.reply = .error

namespace Poll

variable {α : Type}

/-- The variable before read `k`. -/
def before (size : ℕ) (p : Poll α) : ℕ → α
  | 0 => p.old
  | k + 1 => (p.answers k).get size (p.before size k)

/-- The loop makes read `k`. -/
def Issued (size : ℕ) (stop : α → Bool) (p : Poll α) (k : ℕ) : Prop :=
  ∀ i < k, (p.answers i).Passes size ∧ stop (p.before size (i + 1)) = false

/-- A read that is short ends the call. -/
def Stops (size : ℕ) (stop : α → Bool) (p : Poll α) : Prop :=
  ∃ k, p.Issued size stop k ∧ ¬ (p.answers k).Passes size

/-- The loop gets the value it waits for. -/
def Gets (size : ℕ) (stop : α → Bool) (p : Poll α) : Prop :=
  ∃ k, p.Issued size stop k ∧ (p.answers k).Passes size ∧ stop (p.before size (k + 1)) = true

/-- The loop goes on after an error. -/
def Lost (size : ℕ) (stop : α → Bool) (p : Poll α) : Prop :=
  ∃ k, p.Issued size stop k ∧ (p.answers k).Lost

/-- What has to hold of the loop and of what follows, where `lost` says that the call has gone on
after a failing access. -/
def Then (size : ℕ) (stop : α → Bool) (p : Poll α) (lost : Prop) (next : Prop → Prop) : Prop :=
  (p.Gets size stop → next (lost ∨ p.Lost size stop)) ∧
    (¬ p.Gets size stop → ¬ p.Stops size stop → ¬ (lost ∨ p.Lost size stop))

end Poll

/-- The wait does not end where it has lost a read, or the restore does not write. -/
def SafeAfter (w : WaitReset) (r : Restore) : Prop :=
  let bar (lost : Prop) : Prop := w.bar0.Then 8 barClear lost fun lost => r.opens = true → ¬ lost
  w.port = true →
    (w.walk.Ends → w.linkCap.Passes 4 →
      if (w.linkCap.get 4 w.linkCap.old).getLsbD 20 = true
      then w.linkStatus.Then 2 linkActive (¬ w.walk.Finds ∨ w.linkCap.Lost) bar
      else bar (¬ w.walk.Finds ∨ w.linkCap.Lost)) ∧
    (¬ w.walk.Ends → ¬ w.walk.Short)

/-- `unvmed_flr` comes to its write. -/
def Flr.Reached (e : Flr) : Prop :=
  e.cap.Passes 4 ∧ (e.cap.get 4 e.cap.old).getLsbD 28 = true ∧ setResetting e.state = true ∧
    e.backup.Passes 0x1000 ∧ e.control.Passes 2

/-- Where `unvmed_flr` comes to its write, the search has found the capability and no read reported
an error; and the same up to the restore. -/
def Flr.Safe (e : Flr) : Prop :=
  e.opens = true →
    (e.walk.Ends → e.Reached →
      e.walk.Finds ∧ ¬ e.cap.Lost ∧ ¬ e.backup.Lost ∧ ¬ e.control.Lost ∧
        (e.write = true → SafeAfter e.wait e.restore)) ∧
    (¬ e.walk.Ends → ¬ e.walk.Short)

/-- Where `unvmed_link_disable` comes to its writes, the search has found the capability, the read of
the control register was complete and the backup reported no error; and the same up to the
restore. -/
def LinkDisable.Safe (e : LinkDisable) : Prop :=
  e.port = true → e.opens = true → setResetting e.state = true →
    (e.walk.Ends → e.control ≠ .error → e.backup.Passes 0x1000 →
      e.walk.Finds ∧ e.control.full 2 = true ∧ ¬ e.backup.Lost ∧
        (e.set = true → e.clear = true → SafeAfter e.wait e.restore)) ∧
    (¬ e.walk.Ends → ¬ e.walk.Short)

/-! ### Reads that go on -/

section Reads

variable {α β : Type} {addr size : ℕ} {a : Answer α} {old : α} {r : Reply} {d : Prop}
  {c ok : Bool} {data : List (BitVec 8)} {g : Unit → Proc Access β}

/-- The comparison finds what is short, and not the error. -/
theorem lessThan_iff (fits : size < 2 ^ 63) :
    lessThan (r.ret size) size = true ↔ ¬ (r = .error ∨ r.full size = true) := by
  cases r with
  | error =>
      have value : (BitVec.ofInt 64 (Reply.ret size .error)).toNat = 2 ^ 64 - 1 := rfl
      rw [lessThan, value]
      refine iff_of_false ?_ (not_not.mpr (.inl rfl))
      rw [decide_eq_true_iff]
      omega
  | bytes n =>
      have value : (BitVec.ofInt 64 (Reply.ret size (.bytes n))).toNat = min n size := by
        rw [Reply.ret, BitVec.ofInt_natCast, BitVec.toNat_ofNat]
        omega
      have full : (Reply.bytes n).full size = true ↔ size ≤ n := by
        rw [Reply.full_iff]
        simp
      have complete : ¬ Reply.bytes n = .error := by
        intro failed
        cases failed
      rw [lessThan, value, full, decide_eq_true_iff, or_iff_right complete]
      omega

theorem pciGetConfig_passes (fits : size < 2 ^ 63) (h : a.Passes size) :
    pciGetConfig addr size a old =
      ⟨[.read addr size (a.reply.full size)], .done (a.get size old)⟩ := by
  have enough : ¬ lessThan (a.reply.ret size) size = true := by
    rw [lessThan_iff fits]
    exact not_not.mpr h.2
  rw [pciGetConfig, h.1, if_neg (by nofun), if_neg enough]

/-- A read that is short, or whose file does not open. -/
theorem pciGetConfig_stops (addr : ℕ) (old : α) (fits : size < 2 ^ 63) (h : ¬ a.Passes size) :
    ∃ x : Access, x.Bad ∧ ¬ x.IsWrite ∧ pciGetConfig addr size a old = ⟨[x], .failed⟩ := by
  cases opens : a.opens with
  | false =>
      refine ⟨.opened false, rfl, id, ?_⟩
      rw [pciGetConfig, if_pos opens]
  | true =>
      refine ⟨.read addr size false, rfl, id, ?_⟩
      have short : lessThan (a.reply.ret size) size = true := by
        rw [lessThan_iff fits]
        exact fun reply => h ⟨opens, reply⟩
      rw [pciGetConfig, opens, if_neg (by nofun), if_pos short]

/-- Of the reads that pass, the bad ones are those that report an error. -/
theorem bad_iff_lost (addr : ℕ) (h : a.Passes size) :
    (Access.read addr size (a.reply.full size)).Bad ↔ a.Lost := by
  have reply := h.2
  rw [Answer.Lost, and_iff_right h.1]
  constructor
  · intro short
    rcases reply with failed | full
    · exact failed
    · rw [show a.reply.full size = false from short] at full
      cases full
  · intro failed
    rw [failed]
    rfl

/-- A read, and what follows it. -/
theorem carefulFrom_exec {r : Read α} {f : α → Proc Access β} (fits : size < 2 ^ 63) :
    (r.exec addr size >>= f).CarefulFrom Access.Bad Access.IsWrite d ↔
      (r.Passes size →
        (f (r.get size r.old)).CarefulFrom Access.Bad Access.IsWrite (d ∨ r.Lost)) := by
  by_cases passes : r.Passes size
  · have bad : (∃ a ∈ [Access.read addr size (r.reply.full size)], a.Bad) ↔ r.Lost := by
      rw [← bad_iff_lost addr passes]
      simp
    rw [Read.exec, pciGetConfig_passes fits passes,
      Proc.carefulFrom_done_bind (by simp [Access.IsWrite]), propext bad]
    exact ⟨fun careful _ => careful, fun careful => careful passes⟩
  · obtain ⟨x, -, quiet, call⟩ := pciGetConfig_stops addr r.old fits passes
    rw [Read.exec, call]
    refine iff_of_true (Proc.carefulFrom_failed_bind ?_) fun now => absurd now passes
    simpa using quiet

/-- A direct read, and what follows it. -/
theorem carefulFrom_pread :
    (Proc.ofCall (pread addr size r) >>= g).CarefulFrom Access.Bad Access.IsWrite d ↔
      (r ≠ .error →
        (g ()).CarefulFrom Access.Bad Access.IsWrite (d ∨ r.full size = false)) := by
  have bad : (∃ a ∈ [Access.read addr size (r.full size)], a.Bad) ↔ r.full size = false := by
    simp [Access.Bad]
  by_cases failed : r = .error
  · have neg : r.ret size < 0 := Reply.ret_neg_iff.mpr failed
    rw [pread, if_pos neg]
    refine iff_of_true (Proc.carefulFrom_failed_bind ?_) fun good => absurd failed good
    simp [Access.IsWrite]
  · have good : ¬ r.ret size < 0 := by rwa [Reply.ret_neg_iff]
    rw [pread, if_neg good, Proc.carefulFrom_done_bind (by simp [Access.IsWrite]), propext bad]
    exact ⟨fun careful _ => careful, fun careful => careful failed⟩

theorem carefulFrom_pwrite :
    (pwrite ok addr data >>= g).CarefulFrom Access.Bad Access.IsWrite d ↔
      ¬ d ∧ (ok = true → (g ()).CarefulFrom Access.Bad Access.IsWrite False) :=
  Proc.carefulFrom_write trivial id

/-- The check of the offset never fails. -/
theorem noOffset_eq_false (offset : BitVec 16) : noOffset offset = false := by
  rw [noOffset, beq_eq_false_iff_ne]
  omega

theorem carefulFrom_offset (offset : BitVec 16) :
    (Proc.check (!noOffset offset) >>= g).CarefulFrom Access.Bad Access.IsWrite d ↔
      (g ()).CarefulFrom Access.Bad Access.IsWrite d := by
  rw [Proc.carefulFrom_check, noOffset_eq_false]
  simp

end Reads

/-! ### Loops of reads -/

section Loops

variable {α β : Type} {addr size k : ℕ} {stop : α → Bool} {p : Poll α} {s : ℕ × α} {d : Prop}
  {P : Access → Prop} {g : Unit → Proc Access β}

theorem pollTurn_passes (fits : size < 2 ^ 63) (h : (p.answers k).Passes size) :
    pollTurn addr size stop p (k, p.before size k) =
      ⟨[.read addr size ((p.answers k).reply.full size)],
        .done (if stop (p.before size (k + 1)) = true then .inr ()
          else .inl (k + 1, p.before size (k + 1)))⟩ := by
  rw [pollTurn, pciGetConfig_passes fits h, Call.bind_done rfl]
  rfl

theorem pollTurn_stops (addr : ℕ) (stop : α → Bool) (fits : size < 2 ^ 63) (h : ¬ (p.answers k).Passes size) :
    ∃ x : Access, x.Bad ∧ ¬ x.IsWrite ∧
      pollTurn addr size stop p (k, p.before size k) = ⟨[x], .failed⟩ := by
  obtain ⟨x, bad, quiet, call⟩ := pciGetConfig_stops addr (p.before size k) fits h
  exact ⟨x, bad, quiet, by rw [pollTurn, call, Call.bind_failed rfl]⟩

/-- The states the loop comes to. -/
theorem Poll.reaches_iff (fits : size < 2 ^ 63) :
    Relation.ReflTransGen (Proc.Turn (pollTurn addr size stop p)) (0, p.old) s ↔
      ∃ k, p.Issued size stop k ∧ s = (k, p.before size k) := by
  constructor
  · intro steps
    induction steps with
    | refl => exact ⟨0, nofun, rfl⟩
    | tail _ turn ih =>
        obtain ⟨k, issued, rfl⟩ := ih
        by_cases passes : (p.answers k).Passes size
        · rw [Proc.Turn, pollTurn_passes fits passes] at turn
          cases more : stop (p.before size (k + 1)) with
          | true =>
              rw [more] at turn
              cases turn
          | false =>
              rw [more] at turn
              cases turn
              refine ⟨k + 1, ?_, rfl⟩
              intro i lt
              rcases Nat.lt_succ_iff_lt_or_eq.mp lt with lt | rfl
              · exact issued i lt
              · exact ⟨passes, more⟩
        · obtain ⟨x, -, -, call⟩ := pollTurn_stops addr stop fits passes
          rw [Proc.Turn, call] at turn
          cases turn
  · rintro ⟨k, issued, rfl⟩
    induction k with
    | zero => exact .refl
    | succ k ih =>
        obtain ⟨passes, more⟩ := issued k (by omega)
        refine (ih fun i lt => issued i (by omega)).tail ?_
        rw [Proc.Turn, pollTurn_passes fits passes, more]
        rfl

theorem Poll.fails_iff (addr : ℕ) (stop : α → Bool) (p : Poll α) (fits : size < 2 ^ 63) :
    (p.exec addr size stop).Fails ↔ p.Stops size stop := by
  rw [Poll.exec, Proc.fails_iterate]
  constructor
  · rintro ⟨s, steps, failed⟩
    obtain ⟨k, issued, rfl⟩ := (Poll.reaches_iff fits).mp steps
    refine ⟨k, issued, fun passes => ?_⟩
    rw [pollTurn_passes fits passes] at failed
    cases failed
  · rintro ⟨k, issued, stops⟩
    obtain ⟨x, -, -, call⟩ := pollTurn_stops addr stop fits stops
    exact ⟨_, (Poll.reaches_iff fits).mpr ⟨k, issued, rfl⟩, by rw [call]⟩

theorem Poll.returns_iff (addr : ℕ) (stop : α → Bool) (p : Poll α) (fits : size < 2 ^ 63) :
    (p.exec addr size stop).Returns () ↔ p.Gets size stop := by
  rw [Poll.exec, Proc.returns_iterate]
  constructor
  · rintro ⟨s, steps, done⟩
    obtain ⟨k, issued, rfl⟩ := (Poll.reaches_iff fits).mp steps
    by_cases passes : (p.answers k).Passes size
    · refine ⟨k, issued, passes, ?_⟩
      by_contra more
      rw [pollTurn_passes fits passes, if_neg more] at done
      cases done
    · obtain ⟨x, -, -, call⟩ := pollTurn_stops addr stop fits passes
      rw [call] at done
      cases done
  · rintro ⟨k, issued, passes, here⟩
    refine ⟨_, (Poll.reaches_iff fits).mpr ⟨k, issued, rfl⟩, ?_⟩
    rw [pollTurn_passes fits passes, if_pos here]

theorem Poll.sees_bad_iff (addr : ℕ) (stop : α → Bool) (p : Poll α) (fits : size < 2 ^ 63) :
    (p.exec addr size stop).Sees Access.Bad ↔ p.Stops size stop ∨ p.Lost size stop := by
  rw [Poll.exec, Proc.sees_iterate]
  constructor
  · rintro ⟨s, steps, a, mem, bad⟩
    obtain ⟨k, issued, rfl⟩ := (Poll.reaches_iff fits).mp steps
    by_cases passes : (p.answers k).Passes size
    · rw [pollTurn_passes fits passes, List.mem_singleton] at mem
      exact .inr ⟨k, issued, (bad_iff_lost addr passes).mp (mem ▸ bad)⟩
    · exact .inl ⟨k, issued, passes⟩
  · rintro (⟨k, issued, stops⟩ | ⟨k, issued, lost⟩)
    · obtain ⟨x, bad, -, call⟩ := pollTurn_stops addr stop fits stops
      exact ⟨_, (Poll.reaches_iff fits).mpr ⟨k, issued, rfl⟩, x, by rw [call]; simp, bad⟩
    · have passes : (p.answers k).Passes size := ⟨lost.1, .inl lost.2⟩
      refine ⟨_, (Poll.reaches_iff fits).mpr ⟨k, issued, rfl⟩, _, ?_,
        (bad_iff_lost addr passes).mpr lost⟩
      rw [pollTurn_passes fits passes]
      exact List.mem_singleton_self _

theorem Poll.quiet (addr : ℕ) (stop : α → Bool) (p : Poll α) (fits : size < 2 ^ 63) :
    ¬ (p.exec addr size stop).Sees Access.IsWrite := by
  rw [Poll.exec, Proc.sees_iterate]
  rintro ⟨s, steps, a, mem, writes⟩
  obtain ⟨k, issued, rfl⟩ := (Poll.reaches_iff fits).mp steps
  by_cases passes : (p.answers k).Passes size
  · rw [pollTurn_passes fits passes, List.mem_singleton] at mem
    rw [mem] at writes
    exact writes
  · obtain ⟨x, -, still, call⟩ := pollTurn_stops addr stop fits passes
    rw [call, List.mem_singleton] at mem
    exact still (mem ▸ writes)

/-- A loop of reads, and what follows it. -/
theorem Poll.carefulFrom_exec {Q : Prop → Prop} (fits : size < 2 ^ 63)
    (rest : ∀ e, (g ()).CarefulFrom Access.Bad Access.IsWrite e ↔ Q e) :
    (p.exec addr size stop >>= g).CarefulFrom Access.Bad Access.IsWrite d ↔
      p.Then size stop d Q := by
  have returns := Poll.returns_iff addr stop p fits
  have fails := Poll.fails_iff addr stop p fits
  have sees := Poll.sees_bad_iff addr stop p fits
  have quiet := Poll.quiet addr stop p fits
  rw [Poll.Then]
  by_cases stops : p.Stops size stop
  · have stuck : ¬ p.Gets size stop := fun gets =>
      (returns.mpr gets).not_fails (fails.mpr stops)
    refine iff_of_true (Proc.carefulFrom_bind_of_fails quiet (fails.mpr stops)) ?_
    exact ⟨fun gets => absurd gets stuck, fun _ never => absurd stops never⟩
  · have lost : (p.exec addr size stop).Sees Access.Bad ↔ p.Lost size stop := by
      rw [sees, or_iff_right stops]
    by_cases gets : p.Gets size stop
    · rw [Proc.carefulFrom_bind_of_returns quiet (returns.mpr gets), rest, propext lost]
      exact ⟨fun safe => ⟨fun _ => safe, fun never => absurd gets never⟩,
        fun safe => safe.1 gets⟩
    · rw [Proc.carefulFrom_bind_of_hangs quiet (fun _ r => gets (returns.mp r))
        (fun f => stops (fails.mp f)), propext lost]
      exact ⟨fun clean => ⟨fun now => absurd now gets, fun _ _ => clean⟩,
        fun safe => safe.2 gets stops⟩

end Loops

/-! ### The resets are careful -/

section Resets

variable {w : WaitReset} {r : Restore} {config : List (BitVec 8)} {d : Prop}

theorem carefulFrom_restoreState :
    (restoreState r config).CarefulFrom Access.Bad Access.IsWrite d ↔
      (r.opens = true → ¬ d) := by
  have silent (P : Access → Prop) : ¬ (Proc.iterate (cstsTurn r) 0).Sees P := by
    rw [Proc.sees_iterate]
    rintro ⟨i, -, a, mem, -⟩
    rw [cstsTurn] at mem
    split at mem
    · cases mem
    · cases mem
  rw [restoreState, Proc.carefulFrom_check, carefulFrom_pwrite]
  exact imp_congr_right fun _ => and_iff_left fun _ => Proc.carefulFrom_silent silent

/-- After the write: the wait and the restore. -/
theorem carefulFrom_after :
    (waitReset w >>= fun _ => restoreState r config).CarefulFrom Access.Bad Access.IsWrite False ↔
      SafeAfter w r := by
  have bar (e : Prop) :
      (w.bar0.exec 0x10 8 barClear >>= fun _ => restoreState r config).CarefulFrom
        Access.Bad Access.IsWrite e ↔
      w.bar0.Then 8 barClear e fun lost => r.opens = true → ¬ lost :=
    Poll.carefulFrom_exec (by decide) fun _ => carefulFrom_restoreState
  have link (addr : ℕ) (linkCap : BitVec 32) (e : Prop) :
      (waitLink w addr linkCap >>= fun _ =>
        w.bar0.exec 0x10 8 barClear >>= fun _ => restoreState r config).CarefulFrom
          Access.Bad Access.IsWrite e ↔
      if linkCap.getLsbD 20 = true
      then w.linkStatus.Then 2 linkActive e fun lost =>
        w.bar0.Then 8 barClear lost fun lost => r.opens = true → ¬ lost
      else w.bar0.Then 8 barClear e fun lost => r.opens = true → ¬ lost := by
    rw [waitLink]
    split
    · exact Poll.carefulFrom_exec (by decide) bar
    · rw [Proc.pure_bind, bar]
  simp only [waitReset, Proc.bind_assoc]
  rw [Proc.carefulFrom_check, SafeAfter]
  refine imp_congr_right fun _ => ?_
  rw [carefulFrom_getPcieCapOffset fun ret e => by
    rw [carefulFrom_offset, carefulFrom_exec (by decide), link]]
  simp only [false_or]

theorem flr_careful_iff (e : Flr) :
    (flr e).Careful Access.Bad Access.IsWrite ↔ e.Safe := by
  rw [← Proc.carefulFrom_false, flr, Proc.carefulFrom_check, Flr.Safe]
  refine imp_congr_right fun _ => ?_
  rw [carefulFrom_getPcieCapOffset fun ret d => by
    rw [carefulFrom_offset, carefulFrom_exec (by decide), Proc.carefulFrom_check,
      Proc.carefulFrom_check, carefulFrom_exec (by decide), carefulFrom_exec (by decide),
      carefulFrom_pwrite, carefulFrom_after]]
  simp only [false_or, not_or, not_not, Flr.Reached, and_imp, and_assoc]

theorem linkDisable_careful_iff (e : LinkDisable) :
    (linkDisable e).Careful Access.Bad Access.IsWrite ↔ e.Safe := by
  rw [← Proc.carefulFrom_false, linkDisable, Proc.carefulFrom_check, LinkDisable.Safe]
  refine imp_congr_right fun _ => ?_
  rw [Proc.carefulFrom_check]
  refine imp_congr_right fun _ => ?_
  rw [Proc.carefulFrom_check]
  refine imp_congr_right fun _ => ?_
  rw [carefulFrom_getPcieCapOffset fun ret d => by
    rw [carefulFrom_offset, carefulFrom_pread, carefulFrom_exec (by decide), carefulFrom_pwrite,
      carefulFrom_pwrite, carefulFrom_after]]
  simp only [false_or, not_or, not_not, Bool.not_eq_false, not_false_eq_true, true_and, and_assoc]

/-- The search, and the resets that rest on it. -/
theorem pci_reset_careful_iff (w : Walk) (e : Flr) (l : LinkDisable) :
    (w.Correct ↔ w.Sound) ∧
      ((flr e).Careful Access.Bad Access.IsWrite ↔ e.Safe) ∧
      ((linkDisable l).Careful Access.Bad Access.IsWrite ↔ l.Safe) :=
  ⟨correct_iff w, flr_careful_iff e, linkDisable_careful_iff l⟩

end Resets

/-! ### Where they are not -/

/-- A search with complete reads. -/
def completeWalk (config : ℕ → BitVec 8) : Walk where
  config
  path := some 40
  opens := true
  pointer := .bytes 2
  caps _ := .bytes 2
  offset := 0
  cap := 0

/-- An MSI capability that links to itself. -/
def selfLinked : Walk := completeWalk fun addr =>
  if addr = 0x34 then 0x40 else if addr = 0x40 then 0x05 else if addr = 0x41 then 0x40 else 0

/-- A wait without a downstream port. -/
def noWait : WaitReset where
  port := false
  walk := selfLinked
  linkCap := ⟨⟨true, .error, 0⟩, 0⟩
  linkStatus := ⟨fun _ => ⟨true, .error, 0⟩, 0⟩
  bar0 := ⟨fun _ => ⟨true, .error, 0⟩, 0⟩

/-- A function reset where the read of the control register reports an error. -/
def lostControl : Flr where
  opens := true
  walk := completeWalk fun addr => if addr = 0x34 then 0x40 else if addr = 0x40 then 0x10 else 0
  cap := ⟨⟨true, .bytes 4, 0x10000000⟩, 0⟩
  state := .enabled
  backup := ⟨⟨true, .bytes 0x1000, []⟩, []⟩
  control := ⟨⟨true, .error, 0⟩, 0⟩
  write := true
  wait := noWait
  restore := ⟨true, true, fun _ => 0⟩

/-- A downstream port without the capability. Its control register is taken to be beyond the
configuration space, and the read there returns no bytes. -/
def noCapability : LinkDisable where
  port := true
  opens := true
  state := .enabled
  walk := completeWalk fun _ => 0
  control := .bytes 0
  controlBytes := (0, 0)
  controlOld := 0
  backup := ⟨⟨true, .bytes 0x1000, []⟩, []⟩
  set := true
  clear := true
  wait := noWait
  restore := ⟨true, true, fun _ => 0⟩

/-- The search does not end, and both resets write after a failing read. -/
theorem selfLinked_wrong :
    ¬ selfLinked.Correct ∧ ¬ (flr lostControl).Careful Access.Bad Access.IsWrite ∧
      ¬ (linkDisable noCapability).Careful Access.Bad Access.IsWrite := by
  refine ⟨?_, ?_, ?_⟩
  · intro correct
    have ends := ((correct_iff _).mp correct).ends
    rw [ends_iff_of_full rfl rfl rfl rfl fun _ => rfl] at ends
    obtain ⟨k, first, here⟩ := ends 0 1 Nat.one_pos rfl
    obtain rfl := Nat.lt_one_iff.mp first
    revert here
    decide
  · rw [flr_careful_iff]
    intro safe
    have ends : lostControl.walk.Ends := .inr (.inr (.inr (.inr (.inr (.inl rfl)))))
    have reached : lostControl.Reached :=
      ⟨⟨rfl, .inr rfl⟩, rfl, rfl, ⟨rfl, .inr rfl⟩, ⟨rfl, .inl rfl⟩⟩
    obtain ⟨-, -, -, kept, -⟩ := (safe rfl).1 ends reached
    exact kept ⟨rfl, rfl⟩
  · rw [linkDisable_careful_iff]
    intro safe
    have ends : noCapability.walk.Ends := .inr (.inr (.inr (.inl (by decide))))
    obtain ⟨-, full, -⟩ := (safe rfl rfl rfl).1 ends nofun ⟨rfl, .inr rfl⟩
    cases full

end Unvmed.PciReset
