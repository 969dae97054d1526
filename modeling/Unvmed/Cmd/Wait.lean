import Mathlib.Data.Fintype.Option
import Mathlib.Logic.Relation
import Unvmed.Lib.Run

/-!
Waiting for a command (`lib/libunvmed.c`, `lib/libunvmed-private.h`).

A thread posts a command under the lock of its SQ and waits until `completed` is set, asleep in a
futex (the CQ has an interrupt; without one the thread polls the CQ itself). A reaper completes the
command with an entry of the CQ that has its cid (`unvmed_cancel_sq` is such a completer too), or
the timer does with an entry of its own, which needs the lock of the SQ; then it wakes one sleeper.
A completer loads the state in one step and stores `TO_BE_COMPLETED` in the next. The slot is used
again for the next command, and an entry does not say which of them it was made for. Other threads
enter the same SQ for commands of their own, and some stay inside: they wait there for their
command, or try again until a request is free. Each access is a step.

Two completers can load `SUBMITTED` before either of them stores (`Unvmed.Cmd.Race`), and the entry
of a command that has timed out can come when its slot has the next one. `Sole` is the condition on
a step that neither happens.

* `wait_sound`: in such runs, across any number of lives of the slot, no wakeup is lost, however
  late an older one comes, and the waiter returns with the entry of its own command.
* `timer_ends_wait_iff`: where the device does not answer, the timer can end the wait exactly if
  the caller gave the lock up before it waited, nobody else stays inside the SQ, and the timer is
  armed. `__unvmed_id_ns`, `__unvmed_nvm_id_ns` and `__unvmed_id_ctrl` wait inside;
  `unvmed_create_cq` and the other commands leave the SQ first.
-/

namespace Unvmed.Wait

open Lib

/-- Where the thread is that owns the command. -/
inductive Waiter where
  | idle
  /-- The command is allocated, under the SQ lock. -/
  | post
  /-- `unvmed_sq_exit`, where it comes before the wait. -/
  | exitEarly
  /-- `__unvmed_cmd_wait`: look at `completed`. -/
  | check
  /-- `unvmed_futex_wait`: sleep if `completed` is still 0. -/
  | enter
  | asleep
  /-- The wait is over, and the entry is read. -/
  | done
  deriving DecidableEq, Repr

/-- An entry, and the life of the slot that it was made for. -/
structure Entry (κ : Type) where
  life : Nat
  cqe : κ
  deriving DecidableEq, Repr

/-- Where a completer is in `unvmed_cmd_cmpl_wakeup`. -/
inductive Completer (κ : Type) where
  | idle
  /-- The state was `SUBMITTED`, and becomes `TO_BE_COMPLETED`. -/
  | store (e : Entry κ)
  /-- `__unvmed_cmd_cmpl` -/
  | copy (e : Entry κ)
  /-- `completed = 1` -/
  | mark
  /-- `unvmed_futex_wake` -/
  | wake
  deriving DecidableEq, Repr

/-- Where `unvmed_timer_handler` is, once a command has expired. -/
inductive Timer (κ : Type) where
  | idle
  /-- `unvmed_sq_enter` -/
  | enter
  /-- The loop over the commands: load the state of this one. -/
  | scan
  | complete (pc : Completer κ)
  deriving DecidableEq, Repr

/-- Another thread with a command of the same SQ. -/
inductive Other where
  | away
  | inside
  /-- It stays inside the SQ: it waits for its command or for a free request, or it has ended and
  kept the lock. -/
  | waits
  deriving DecidableEq, Repr

inductive Owner where
  | waiter
  | timer
  | other
  deriving DecidableEq, Repr

/-- One slot of an SQ. -/
structure State (ι κ : Type) where
  completed : Bool := false
  cqe : Option (Entry κ) := none
  /-- The state of the command is `SUBMITTED`. -/
  submitted : Bool := false
  /-- The commands that the slot has had so far. -/
  life : Nat := 0
  lock : Option Owner := none
  /-- The caller keeps the lock while it waits. -/
  keeps : Bool := false
  waiter : Waiter := .idle
  timer : Timer κ := .idle
  /-- The timer of the SQ is armed. -/
  armed : Bool := false
  other : Other := .away
  reapers : ι → Completer κ := fun _ => .idle

/-- Who waits for an admin command. -/
inductive Caller where
  /-- `__unvmed_id_ns`, `__unvmed_nvm_id_ns` and `__unvmed_id_ctrl` -/
  | idNs
  | nvmIdNs
  | idCtrl
  /-- `unvmed_create_cq`, `unvmed_delete_cq`, `unvmed_create_sq` and `unvmed_delete_sq` -/
  | createCq
  | deleteCq
  | createSq
  | deleteSq
  /-- A command of the daemon. -/
  | daemon
  deriving DecidableEq, Repr

/-- The caller leaves the SQ after it has waited. The others do before. -/
def Caller.keepsLock : Caller → Bool
  | .idNs | .nvmIdNs | .idCtrl => true
  | .createCq | .deleteCq | .createSq | .deleteSq | .daemon => false

inductive Act (ι κ : Type) where
  /-- A thread takes the SQ lock and allocates the command. -/
  | call (c : Caller)
  | waiter
  /-- A signal or a wakeup that is not meant for the sleeper. -/
  | interrupted
  /-- A reaper finds an entry with the cid of the slot on the CQ, and loads the state. -/
  | reap (i : ι) (e : Entry κ)
  | reaper (i : ι)
  /-- The timer goes off and finds a command that has expired. -/
  | expire
  | timer
  /-- Somebody arms the timer or stops it. -/
  | arm (on : Bool)
  /-- Another thread enters the SQ and leaves it, or stays inside until its command is answered or a
  request is free. -/
  | enter
  | leave
  | stay
  | answered
  deriving DecidableEq, Repr

section Step

variable {ι κ : Type}

/-- One access of a completer. -/
def State.complete (s : State ι κ) : Completer κ → State ι κ × Completer κ
  | .idle => (s, .idle)
  | .store e => ({ s with submitted := false }, .copy e)
  | .copy e => ({ s with cqe := some e }, .mark)
  | .mark => ({ s with completed := true }, .wake)
  | .wake => ({ s with waiter := if s.waiter = .asleep then .check else s.waiter }, .idle)

/-- The owner's next access. At the end it puts the command. -/
def State.wait (s : State ι κ) : Option (State ι κ) :=
  match s.waiter with
  | .idle => none
  | .post => some { s with
      submitted := true, waiter := if s.keeps then .check else .exitEarly }
  | .exitEarly => some { s with lock := none, waiter := .check }
  | .check => some { s with waiter := if s.completed then .done else .enter }
  | .enter => some { s with waiter := if s.completed then .check else .asleep }
  | .asleep => none
  | .done => some { s with
      submitted := false, lock := if s.keeps then none else s.lock, waiter := .idle }

/-- The timer's next access; `timeoutCqe` is the entry it makes. -/
def State.tick (timeoutCqe : κ) (s : State ι κ) : Option (State ι κ) :=
  match s.timer with
  | .idle => none
  | .enter => if s.lock = none then some { s with lock := some .timer, timer := .scan } else none
  | .scan =>
      if s.submitted then some { s with timer := .complete (.store ⟨s.life, timeoutCqe⟩) }
      else some { s with lock := none, timer := .idle }
  | .complete .idle => some { s with timer := .scan }
  | .complete pc =>
      let (s, pc) := s.complete pc
      some { s with timer := .complete pc }

def step [DecidableEq ι] (timeoutCqe : κ) (s : State ι κ) : Act ι κ → Option (State ι κ)
  | .call c =>
      if s.waiter = .idle ∧ s.lock = none then some { s with
        lock := some .waiter, keeps := c.keepsLock, waiter := .post
        completed := false, cqe := none, submitted := false, life := s.life + 1 }
      else none
  | .waiter => s.wait
  | .interrupted => if s.waiter = .asleep then some { s with waiter := .check } else none
  | .reap i e =>
      match s.reapers i with
      | .idle => some <|
          if s.submitted then { s with reapers := Function.update s.reapers i (.store e) } else s
      | _ => none
  | .reaper i =>
      match s.reapers i with
      | .idle => none
      | pc =>
          let (s, pc) := s.complete pc
          some { s with reapers := Function.update s.reapers i pc }
  | .expire => match s.timer with
      -- the timer goes off once
      | .idle => if s.armed then some { s with armed := false, timer := .enter } else none
      | _ => none
  | .timer => s.tick timeoutCqe
  | .arm on => some { s with armed := on }
  | .enter => if s.lock = none then some { s with lock := some .other, other := .inside } else none
  | .leave => match s.other with
      | .inside => some { s with lock := none, other := .away }
      | _ => none
  | .stay => match s.other with
      | .inside => some { s with other := .waits }
      | _ => none
  | .answered => match s.other with
      | .waits => some { s with other := .inside }
      | _ => none

end Step

/-! ### Invariant -/

/-- The command is posted, and its owner has not seen it completed. -/
def Waiter.waits : Waiter → Bool
  | .exitEarly | .check | .enter | .asleep => true
  | _ => false

/-- The owner of the command has the SQ lock. -/
def Waiter.holds (keeps : Bool) : Waiter → Bool
  | .idle => false
  | .post | .exitEarly => true
  | _ => keeps

def Timer.holds {κ : Type} : Timer κ → Bool
  | .scan | .complete _ => true
  | _ => false

/-- The completer has loaded `SUBMITTED`, and has stored nothing. -/
def Completer.claims {κ : Type} : Completer κ → Bool
  | .store _ => true
  | _ => false

/-- The completer has the command, and has not set `completed`. -/
def Completer.has {κ : Type} : Completer κ → Bool
  | .store _ | .copy _ | .mark => true
  | _ => false

section Invariant

variable {ι κ : Type} {s t : State ι κ}

/-- The completers: the timer, and the reapers. -/
def State.at (s : State ι κ) : Option ι → Completer κ
  | some i => s.reapers i
  | none => match s.timer with
    | .complete pc => pc
    | _ => .idle

/-- No completer is between its load and its store. -/
def State.Unclaimed (s : State ι κ) : Prop := ∀ a, (s.at a).claims = false

/-- Who finds the command `SUBMITTED` is the only one, and has an entry that was made for it. -/
def Sole (s : State ι κ) : Act ι κ → Prop
  | .reap _ e => s.submitted = true → s.Unclaimed ∧ e.life = s.life
  | .timer => s.timer = .scan → s.submitted = true → s.Unclaimed
  | _ => True

instance [Fintype ι] : Decidable s.Unclaimed :=
  inferInstanceAs (Decidable (∀ a, (s.at a).claims = false))

instance [Fintype ι] [DecidableEq κ] : DecidablePred (Sole s) := fun a => by
  cases a <;> unfold Sole <;> infer_instance

/-- What a completer knows of the slot. -/
def Completer.Ok (completed : Bool) (cqe : Option (Entry κ)) (submitted : Bool) (life : Nat)
    (waiter : Waiter) : Completer κ → Prop
  | .store e => submitted = true ∧ e.life = life ∧ completed = false ∧ waiter.waits = true
  | .copy e => submitted = false ∧ e.life = life ∧ completed = false ∧ waiter.waits = true
  | .mark => submitted = false ∧ (∃ v, cqe = some ⟨life, v⟩) ∧ completed = false ∧
      waiter.waits = true
  | .idle | .wake => True

/-- The owner and the completers. -/
structure Core (completed : Bool) (cqe : Option (Entry κ)) (submitted : Bool) (life : Nat)
    (waiter : Waiter) (pcs : Option ι → Completer κ) : Prop where
  /-- One completer at most has the command. -/
  sole : ∀ a b, (pcs a).has = true → (pcs b).has = true → a = b
  each : ∀ a, (pcs a).Ok completed cqe submitted life waiter
  pending : submitted = true → completed = false ∧ waiter.waits = true
  /-- The command is with the device, with a completer or completed. -/
  somewhere : waiter.waits = true →
    completed = true ∨ submitted = true ∨ ∃ a, (pcs a).has = true
  own : completed = true → ∃ v, cqe = some ⟨life, v⟩
  done : waiter = .done → completed = true
  /-- No wakeup is lost. -/
  woken : waiter = .asleep → completed = true → ∃ a, pcs a = .wake
  fresh : waiter = .post → completed = false

/-- Who has the SQ lock. -/
structure Locks (waiter : Waiter) (keeps : Bool) (timer : Timer κ) (other : Other)
    (lock : Option Owner) : Prop where
  owner : waiter.holds keeps = true ↔ lock = some .waiter
  timer : timer.holds = true ↔ lock = some .timer
  other : other ≠ .away ↔ lock = some .other
  early : waiter = .exitEarly → keeps = false

structure Inv (s : State ι κ) : Prop where
  core : Core s.completed s.cqe s.submitted s.life s.waiter s.at
  locks : Locks s.waiter s.keeps s.timer s.other s.lock

/-! ### Steps of the completers -/

section Completers

variable {completed : Bool} {cqe : Option (Entry κ)} {submitted : Bool} {life : Nat}
  {waiter : Waiter} {pcs : Option ι → Completer κ} {a : Option ι} {e : Entry κ}

theorem Completer.Ok.has {pc : Completer κ} (ok : pc.Ok completed cqe submitted life waiter)
    (has : pc.has = true) : completed = false ∧ waiter.waits = true := by
  cases pc with
  | idle | wake => cases has
  | store | copy | mark => exact ok.2.2

/-- A completer without the command knows nothing. -/
theorem Completer.ok_of_not_has {pc : Completer κ} (off : pc.has = false) :
    pc.Ok completed cqe submitted life waiter := by
  cases pc with
  | idle | wake => trivial
  | store | copy | mark => cases off

theorem Core.alone (core : Core completed cqe submitted life waiter pcs) {b : Option ι}
    (has : (pcs a).has = true) (ne : b ≠ a) : (pcs b).has = false := by
  by_contra other
  exact ne (core.sole b a (by simpa using other) has)

/-- Where nobody is between its load and its store, nobody has a command that is `SUBMITTED`. -/
theorem Core.calm (core : Core completed cqe submitted life waiter pcs) (pending : submitted = true)
    (unclaimed : ∀ a, (pcs a).claims = false) (a : Option ι) : (pcs a).has = false := by
  have each := core.each a
  have off := unclaimed a
  cases at_ : pcs a with
  | idle | wake => rfl
  | store e =>
      rw [at_] at off
      cases off
  | copy e | mark =>
      rw [at_] at each
      cases pending.symm.trans each.1

variable [DecidableEq ι]

/-- One completer moves, and the others do not have the command. -/
theorem sole_update {pc : Completer κ} (others : ∀ b, b ≠ a → (pcs b).has = false) (b c : Option ι)
    (hb : (Function.update pcs a pc b).has = true) (hc : (Function.update pcs a pc c).has = true) :
    b = c := by
  have only (b : Option ι) (h : (Function.update pcs a pc b).has = true) : b = a := by
    by_contra ne
    rw [Function.update_of_ne ne, others b ne] at h
    cases h
  rw [only b hb, only c hc]

theorem each_update {pc : Completer κ} (others : ∀ b, b ≠ a → (pcs b).has = false)
    (new : pc.Ok completed cqe submitted life waiter) (b : Option ι) :
    (Function.update pcs a pc b).Ok completed cqe submitted life waiter := by
  rcases eq_or_ne b a with rfl | ne
  · rwa [Function.update_self]
  · rw [Function.update_of_ne ne]
    exact Completer.ok_of_not_has (others b ne)

/-- A completer finds the command `SUBMITTED`. -/
theorem Core.claims (core : Core completed cqe submitted life waiter pcs)
    (pending : submitted = true) (unclaimed : ∀ a, (pcs a).claims = false) (own : e.life = life)
    (a : Option ι) :
    Core completed cqe submitted life waiter (Function.update pcs a (.store e)) := by
  have calm (b : Option ι) (_ : b ≠ a) := core.calm pending unclaimed b
  obtain ⟨open_, waits⟩ := core.pending pending
  refine ⟨sole_update calm, each_update calm ⟨pending, own, open_, waits⟩, core.pending,
    fun _ => .inr (.inl pending), core.own, core.done, fun _ completed => ?_, core.fresh⟩
  cases open_.symm.trans completed

/-- `TO_BE_COMPLETED`. -/
theorem Core.stores (core : Core completed cqe submitted life waiter pcs)
    (here : pcs a = .store e) :
    Core completed cqe false life waiter (Function.update pcs a (.copy e)) := by
  have others (b : Option ι) (ne : b ≠ a) := core.alone (by rw [here]; rfl) ne
  have knows := core.each a
  rw [here] at knows
  obtain ⟨-, own, open_, waits⟩ := knows
  refine ⟨sole_update others, each_update others ⟨rfl, own, open_, waits⟩, nofun,
    fun _ => .inr (.inr ⟨a, by rw [Function.update_self]; rfl⟩), core.own, core.done,
    fun _ completed => ?_, core.fresh⟩
  cases open_.symm.trans completed

/-- `__unvmed_cmd_cmpl`: the entry is copied. -/
theorem Core.copies (core : Core completed cqe submitted life waiter pcs) (here : pcs a = .copy e) :
    Core completed (some e) submitted life waiter (Function.update pcs a .mark) := by
  have others (b : Option ι) (ne : b ≠ a) := core.alone (by rw [here]; rfl) ne
  have knows := core.each a
  rw [here] at knows
  obtain ⟨taken, own, open_, waits⟩ := knows
  have mine : ∃ v, some e = some (⟨life, v⟩ : Entry κ) := ⟨e.cqe, by rw [← own]⟩
  refine ⟨sole_update others, each_update others ⟨taken, mine, open_, waits⟩, core.pending,
    fun _ => .inr (.inr ⟨a, by rw [Function.update_self]; rfl⟩), fun _ => mine, core.done,
    fun _ completed => ?_, core.fresh⟩
  cases open_.symm.trans completed

/-- `completed = 1`. -/
theorem Core.marks (core : Core completed cqe submitted life waiter pcs) (here : pcs a = .mark) :
    Core true cqe submitted life waiter (Function.update pcs a .wake) := by
  have others (b : Option ι) (ne : b ≠ a) := core.alone (by rw [here]; rfl) ne
  have knows := core.each a
  rw [here] at knows
  obtain ⟨taken, mine, -, waits⟩ := knows
  refine ⟨sole_update others, each_update others trivial, ?_, fun _ => .inl rfl, fun _ => mine,
    fun _ => rfl, fun _ _ => ⟨a, Function.update_self ..⟩, ?_⟩
  · intro pending
    cases taken.symm.trans pending
  · rintro rfl
    cases waits

/-- `unvmed_futex_wake`: who sleeps goes back to look. -/
theorem Core.wakes (core : Core completed cqe submitted life waiter pcs) (here : pcs a = .wake) :
    Core completed cqe submitted life (if waiter = .asleep then .check else waiter)
      (Function.update pcs a .idle) := by
  have waits : (if waiter = .asleep then Waiter.check else waiter).waits = waiter.waits := by
    split
    · rename_i asleep
      rw [asleep]
      rfl
    · rfl
  have has (b : Option ι) : (Function.update pcs a .idle b).has = (pcs b).has := by
    rcases eq_or_ne b a with rfl | ne
    · rw [Function.update_self, here]
      rfl
    · rw [Function.update_of_ne ne]
  refine ⟨?_, ?_, ?_, ?_, core.own, ?_, ?_, ?_⟩
  · intro b c hb hc
    rw [has] at hb hc
    exact core.sole b c hb hc
  · intro b
    rcases eq_or_ne b a with rfl | ne
    · rw [Function.update_self]
      trivial
    · rw [Function.update_of_ne ne]
      have knows := core.each b
      cases at_ : pcs b with
      | idle | wake => trivial
      | store | copy | mark =>
          rw [at_] at knows
          unfold Completer.Ok at knows ⊢
          rwa [waits]
  · rw [waits]
    exact core.pending
  · rw [waits]
    intro waiting
    refine (core.somewhere waiting).imp_right (Or.imp_right ?_)
    rintro ⟨b, hb⟩
    exact ⟨b, by rw [has, hb]⟩
  · split
    · nofun
    · exact core.done
  · split
    · nofun
    · rename_i up
      exact fun asleep => absurd asleep up
  · split
    · nofun
    · exact core.fresh

end Completers

/-! ### Steps of the SQ lock -/

section Locking

variable {waiter : Waiter} {keeps : Bool} {timer : Timer κ} {other : Other} {lock : Option Owner}

/-- A free lock is with nobody. -/
theorem Locks.free (locks : Locks waiter keeps timer other none) :
    waiter.holds keeps = false ∧ timer.holds = false ∧ other = .away := by
  refine ⟨?_, ?_, ?_⟩
  · by_contra holds
    exact nomatch locks.owner.mp (by simpa using holds)
  · by_contra holds
    exact nomatch locks.timer.mp (by simpa using holds)
  · by_contra inside
    exact nomatch locks.other.mp inside

/-- Where the owner of the command has the lock, nobody else does. -/
theorem Locks.owned (locks : Locks waiter keeps timer other lock)
    (holds : waiter.holds keeps = true) :
    lock = some .waiter ∧ timer.holds = false ∧ other = .away := by
  have mine := locks.owner.mp holds
  subst mine
  refine ⟨rfl, ?_, ?_⟩
  · by_contra holds
    exact nomatch locks.timer.mp (by simpa using holds)
  · by_contra inside
    exact nomatch locks.other.mp inside

theorem Locks.timed (locks : Locks waiter keeps timer other lock) (holds : timer.holds = true) :
    lock = some .timer ∧ waiter.holds keeps = false ∧ other = .away := by
  have mine := locks.timer.mp holds
  subst mine
  refine ⟨rfl, ?_, ?_⟩
  · by_contra holds
    exact nomatch locks.owner.mp (by simpa using holds)
  · by_contra inside
    exact nomatch locks.other.mp inside

theorem Locks.elsewhere (locks : Locks waiter keeps timer other lock) (inside : other ≠ .away) :
    lock = some .other ∧ waiter.holds keeps = false ∧ timer.holds = false := by
  have mine := locks.other.mp inside
  subst mine
  refine ⟨rfl, ?_, ?_⟩
  · by_contra holds
    exact nomatch locks.owner.mp (by simpa using holds)
  · by_contra holds
    exact nomatch locks.timer.mp (by simpa using holds)

/-- The owner goes on, and keeps what it has of the lock. -/
theorem Locks.goes (locks : Locks waiter keeps timer other lock) {w : Waiter}
    (same : w.holds keeps = waiter.holds keeps) (early : w = .exitEarly → keeps = false) :
    Locks w keeps timer other lock :=
  ⟨by rw [same, locks.owner], locks.timer, locks.other, early⟩

theorem Locks.ticks (locks : Locks waiter keeps timer other lock) {t : Timer κ}
    (same : t.holds = timer.holds) : Locks waiter keeps t other lock :=
  ⟨locks.owner, by rw [same, locks.timer], locks.other, locks.early⟩

end Locking

/-! ### Every step -/

variable [DecidableEq ι]

omit [DecidableEq ι] in
theorem inv_start : Inv ({} : State ι κ) := by
  have calm (a : Option ι) : ({} : State ι κ).at a = .idle := by cases a <;> rfl
  constructor
  · refine ⟨?_, ?_, nofun, nofun, nofun, nofun, nofun, nofun⟩
    · intro a b h
      rw [calm] at h
      cases h
    · intro a
      rw [calm]
      trivial
  · exact ⟨by simp [Waiter.holds], by simp [Timer.holds], by simp, nofun⟩

omit [DecidableEq ι] in
/-- Where the owner does not wait, no completer has its command. -/
theorem Core.off {completed submitted : Bool} {cqe : Option (Entry κ)} {life : Nat}
    {waiter : Waiter} {pcs : Option ι → Completer κ}
    (core : Core completed cqe submitted life waiter pcs) (off : waiter.waits = false)
    (a : Option ι) : (pcs a).has = false := by
  by_contra has
  have waits := ((core.each a).has (by simpa using has)).2
  cases off.symm.trans waits

omit [DecidableEq ι] in
/-- The owner goes on without posting. -/
theorem Core.goes {completed submitted : Bool} {cqe : Option (Entry κ)} {life : Nat}
    {waiter w : Waiter} {pcs : Option ι → Completer κ}
    (core : Core completed cqe submitted life waiter pcs) (waits : waiter.waits = true)
    (on : w.waits = true ∨ completed = true) (done : w = .done → completed = true)
    (asleep : w = .asleep → completed = false) (posted : w ≠ .post) :
    Core completed cqe submitted life w pcs := by
  have still (open_ : completed = false) : w.waits = true := by
    rcases on with waits | completed
    · exact waits
    · cases open_.symm.trans completed
  refine ⟨core.sole, ?_, ?_, fun _ => core.somewhere waits, core.own, done, ?_,
    fun at_ => absurd at_ posted⟩
  · intro a
    have knows := core.each a
    cases at_ : pcs a with
    | idle | wake => trivial
    | store | copy | mark =>
        rw [at_] at knows
        obtain ⟨taken, mine, open_, -⟩ := knows
        exact ⟨taken, mine, open_, still open_⟩
  · intro pending
    have open_ := (core.pending pending).1
    exact ⟨open_, still open_⟩
  · intro sleeps completed
    cases (asleep sleeps).symm.trans completed

omit [DecidableEq ι] in
/-- The owner posts its command. -/
theorem Core.posts {completed submitted : Bool} {cqe : Option (Entry κ)} {life : Nat} {w : Waiter}
    {pcs : Option ι → Completer κ} (core : Core completed cqe submitted life .post pcs)
    (waits : w.waits = true) : Core completed cqe true life w pcs := by
  have open_ := core.fresh rfl
  have off := core.off rfl
  refine ⟨core.sole, fun a => Completer.ok_of_not_has (off a), fun _ => ⟨open_, waits⟩,
    fun _ => .inr (.inl rfl), core.own, ?_, ?_, fun _ => open_⟩
  · rintro rfl
    cases waits
  · intro _ completed
    cases open_.symm.trans completed

omit [DecidableEq ι] in
/-- An access of the owner. -/
theorem Inv.wait (inv : Inv s) (went : s.wait = some t) : Inv t := by
  obtain ⟨core, locks⟩ := inv
  unfold State.wait at went
  cases at_ : s.waiter with
  | idle | asleep => simp [at_] at went
  | post =>
      simp only [at_] at went core locks
      cases went
      obtain ⟨mine, timer, away⟩ := locks.owned rfl
      refine ⟨core.posts (by cases s.keeps <;> rfl), ?_, by simp [timer, mine],
        by simp [away, mine], ?_⟩
      · cases s.keeps <;> simp [Waiter.holds, mine]
      · cases s.keeps <;> simp
  | exitEarly =>
      simp only [at_] at went core locks
      cases went
      have keeps := locks.early rfl
      obtain ⟨-, timer, away⟩ := locks.owned rfl
      exact ⟨core.goes rfl (.inl rfl) nofun nofun nofun, by simp [Waiter.holds, keeps],
        by simp [timer], by simp [away], nofun⟩
  | check =>
      simp only [at_] at went core locks
      cases went
      cases completed : s.completed with
      | true =>
          rw [completed] at core
          exact ⟨core.goes rfl (.inr rfl) (fun _ => rfl) nofun nofun, locks.goes rfl nofun⟩
      | false =>
          rw [completed] at core
          exact ⟨core.goes rfl (.inl rfl) nofun nofun nofun, locks.goes rfl nofun⟩
  | enter =>
      simp only [at_] at went core locks
      cases went
      cases completed : s.completed with
      | true =>
          rw [completed] at core
          exact ⟨core.goes rfl (.inl rfl) nofun nofun nofun, locks.goes rfl nofun⟩
      | false =>
          rw [completed] at core
          exact ⟨core.goes rfl (.inl rfl) nofun (fun _ => rfl) nofun, locks.goes rfl nofun⟩
  | done =>
      simp only [at_] at went core locks
      cases went
      refine ⟨⟨core.sole, fun a => Completer.ok_of_not_has (core.off rfl a), nofun, nofun, core.own,
        nofun, nofun, nofun⟩, ?_⟩
      cases keeps : s.keeps with
      | true =>
          rw [keeps] at locks
          obtain ⟨-, timer, away⟩ := locks.owned rfl
          exact ⟨by simp [Waiter.holds], by simp [timer], by simp [away], nofun⟩
      | false =>
          rw [keeps] at locks
          exact locks.goes rfl nofun

/-- The completers after one of them has moved on. -/
theorem at_reaper (i : ι) (pc : Completer κ) :
    ({ s with reapers := Function.update s.reapers i pc } : State ι κ).at =
      Function.update s.at (some i) pc := by
  funext a
  cases a with
  | none => simp [State.at]
  | some j =>
      rcases eq_or_ne j i with rfl | ne
      · simp [State.at]
      · simp [State.at, ne]

theorem at_timer (pc : Completer κ) :
    ({ s with timer := .complete pc } : State ι κ).at = Function.update s.at none pc := by
  funext a
  cases a <;> simp [State.at]

omit [DecidableEq ι] in
theorem at_quiet (timer : Timer κ) (old : s.at none = .idle)
    (new : ({ s with timer } : State ι κ).at none = .idle) :
    ({ s with timer } : State ι κ).at = s.at := by
  funext a
  cases a with
  | none => rw [old, new]
  | some j => rfl

omit [DecidableEq ι] in
/-- The access of one completer leaves where the others are. -/
theorem complete_at (pc : Completer κ) :
    (s.complete pc).1.at = s.at ∧ (s.complete pc).1.timer = s.timer := by
  cases pc <;> exact ⟨rfl, rfl⟩

/-- An access of a completer, whose place is then `pc`. -/
theorem Core.complete {a : Option ι} {pc : Completer κ}
    (core : Core s.completed s.cqe s.submitted s.life s.waiter s.at) (here : s.at a = pc)
    (off : pc ≠ .idle) :
    Core (s.complete pc).1.completed (s.complete pc).1.cqe (s.complete pc).1.submitted
      (s.complete pc).1.life (s.complete pc).1.waiter
      (Function.update s.at a (s.complete pc).2) := by
  cases pc with
  | idle => exact absurd rfl off
  | store e => exact core.stores here
  | copy e => exact core.copies here
  | mark => exact core.marks here
  | wake => exact core.wakes here

omit [DecidableEq ι] in
/-- A completer has nothing to do with the SQ lock. -/
theorem Locks.complete (locks : Locks s.waiter s.keeps s.timer s.other s.lock) (pc : Completer κ) :
    Locks (s.complete pc).1.waiter (s.complete pc).1.keeps (s.complete pc).1.timer
      (s.complete pc).1.other (s.complete pc).1.lock := by
  cases pc with
  | idle | store | copy | mark => exact locks
  | wake =>
      change Locks (if s.waiter = .asleep then .check else s.waiter) _ _ _ _
      split
      · rename_i asleep
        rw [asleep] at locks
        exact locks.goes rfl nofun
      · exact locks

/-- An access of the timer. -/
theorem Inv.tick (inv : Inv s) {timeoutCqe : κ} (sole : Sole s .timer)
    (went : s.tick timeoutCqe = some t) : Inv t := by
  obtain ⟨core, locks⟩ := inv
  unfold State.tick at went
  cases at_ : s.timer with
  | idle => simp [at_] at went
  | enter =>
      simp only [at_] at went
      split at went
      · rename_i open_
        cases went
        rw [at_, open_] at locks
        obtain ⟨owner, -, away⟩ := locks.free
        have quiet := at_quiet (s := s) .scan (by simp [State.at, at_]) rfl
        refine ⟨?_, by simp [owner], by simp [Timer.holds], by simp [away], locks.early⟩
        exact quiet ▸ core
      · cases went
  | scan =>
      simp only [at_] at went
      rw [at_] at locks
      obtain ⟨mine, owner, away⟩ := locks.timed rfl
      split at went
      · rename_i pending
        cases went
        refine ⟨?_, locks.ticks rfl⟩
        have claims := core.claims pending (sole at_ pending) (e := ⟨s.life, timeoutCqe⟩) rfl none
        rw [← at_timer] at claims
        exact claims
      · cases went
        have quiet := at_quiet (s := s) .idle (by simp [State.at, at_]) rfl
        refine ⟨?_, by simp [owner], by simp [Timer.holds], by simp [away], locks.early⟩
        exact quiet ▸ core
  | complete pc =>
      have here : s.at none = pc := by simp [State.at, at_]
      by_cases idle : pc = .idle
      · subst idle
        simp only [at_] at went
        cases went
        have quiet := at_quiet (s := s) .scan here rfl
        exact ⟨quiet ▸ core, locks.ticks (by rw [at_]; rfl)⟩
      · have on : t = { (s.complete pc).1 with timer := .complete (s.complete pc).2 } := by
          cases pc <;> simp_all
        subst on
        obtain ⟨same, timer⟩ := complete_at (s := s) pc
        have moved := core.complete here idle
        rw [← same, ← at_timer] at moved
        exact ⟨moved, (locks.complete pc).ticks (by rw [timer, at_]; rfl)⟩

/-- One step. -/
theorem Inv.step (inv : Inv s) {timeoutCqe : κ} {a : Act ι κ} (sole : Sole s a)
    (went : step timeoutCqe s a = some t) : Inv t := by
  cases a with
  | call c =>
      obtain ⟨core, locks⟩ := inv
      simp only [Wait.step] at went
      split at went
      · rename_i free
        obtain ⟨idle, open_⟩ := free
        cases went
        rw [idle] at core
        rw [open_] at locks
        obtain ⟨-, timer, away⟩ := locks.free
        have off := core.off rfl
        refine ⟨⟨core.sole, fun a => Completer.ok_of_not_has (off a), nofun, nofun, nofun, nofun,
          nofun, fun _ => rfl⟩, by simp [Waiter.holds], by simp [timer], by simp [away], nofun⟩
      · cases went
  | waiter => exact inv.wait went
  | interrupted =>
      obtain ⟨core, locks⟩ := inv
      simp only [Wait.step] at went
      split at went
      · rename_i asleep
        cases went
        rw [asleep] at core locks
        exact ⟨core.goes rfl (.inl rfl) nofun nofun nofun, locks.goes rfl nofun⟩
      · cases went
  | reap i e =>
      obtain ⟨core, locks⟩ := inv
      simp only [Wait.step] at went
      split at went
      · cases went
        split
        · rename_i pending
          obtain ⟨unclaimed, own⟩ := sole pending
          refine ⟨?_, locks⟩
          have claims := core.claims pending unclaimed own (some i)
          rw [← at_reaper] at claims
          exact claims
        · exact ⟨core, locks⟩
      · cases went
  | reaper i =>
      obtain ⟨core, locks⟩ := inv
      simp only [Wait.step] at went
      split at went
      · cases went
      · rename_i busy
        cases went
        obtain ⟨same, -⟩ := complete_at (s := s) (s.reapers i)
        have here : s.at (some i) = s.reapers i := rfl
        have moved := core.complete here busy
        rw [← same, ← at_reaper] at moved
        exact ⟨moved, locks.complete _⟩
  | expire =>
      obtain ⟨core, locks⟩ := inv
      simp only [Wait.step] at went
      split at went
      · rename_i idle
        split at went
        · cases went
          have quiet := at_quiet (s := s) .enter (by simp [State.at, idle]) rfl
          exact ⟨quiet ▸ core, locks.ticks (by rw [idle]; rfl)⟩
        · cases went
      · cases went
  | timer => exact inv.tick sole went
  | arm on =>
      cases went
      exact ⟨inv.core, inv.locks⟩
  | enter =>
      obtain ⟨core, locks⟩ := inv
      simp only [Wait.step] at went
      split at went
      · rename_i open_
        cases went
        rw [open_] at locks
        obtain ⟨owner, timer, -⟩ := locks.free
        exact ⟨core, by simp [owner], by simp [timer], by simp, locks.early⟩
      · cases went
  | leave =>
      obtain ⟨core, locks⟩ := inv
      simp only [Wait.step] at went
      split at went
      · rename_i inside
        cases went
        obtain ⟨-, owner, timer⟩ := locks.elsewhere (by rw [inside]; nofun)
        exact ⟨core, by simp [owner], by simp [timer], by simp, locks.early⟩
      · cases went
  | stay | answered =>
      obtain ⟨core, locks⟩ := inv
      simp only [Wait.step] at went
      split at went
      · rename_i inside
        cases went
        obtain ⟨mine, -, -⟩ := locks.elsewhere (by rw [inside]; nofun)
        exact ⟨core, locks.owner, locks.timer, by simp [mine], locks.early⟩
      · cases went

theorem inv_run {timeoutCqe : κ} {as : List (Act ι κ)}
    (guard : Guarded (step timeoutCqe) Sole {} as)
    (ran : run (step timeoutCqe) ({} : State ι κ) as = some t) : Inv t :=
  run_inv (fun _ _ _ inv sole went => Inv.step inv sole went) inv_start guard ran

/-! ### Results -/

/-- No entry comes from the device, no request gets free, and nobody else touches the timer. -/
def Act.quiet : Act ι κ → Bool
  | .call _ | .reap _ _ | .arm _ | .answered => false
  | _ => true

/-- One of them, where the condition is met. -/
def Move (timeoutCqe : κ) (s t : State ι κ) : Prop :=
  ∃ a, a.quiet = true ∧ Sole s a ∧ step timeoutCqe s a = some t

abbrev Goes (timeoutCqe : κ) : State ι κ → State ι κ → Prop :=
  Relation.ReflTransGen (Move timeoutCqe)

variable {timeoutCqe : κ}

theorem goes_one {a : Act ι κ} (quiet : a.quiet = true) (sole : Sole s a)
    (went : step timeoutCqe s a = some t) : Goes timeoutCqe s t :=
  .single ⟨a, quiet, sole, went⟩

/-- Once the command is completed its owner comes to the end of the wait. -/
theorem Inv.returns (inv : Inv s) (timeoutCqe : κ) (waits : s.waiter.waits = true)
    (completed : s.completed = true) : ∃ t, Goes timeoutCqe s t ∧ t.waiter = .done := by
  have check (s : State ι κ) (at_ : s.waiter = .check) (completed : s.completed = true) :
      ∃ t, Goes timeoutCqe s t ∧ t.waiter = .done :=
    ⟨_, goes_one (a := .waiter) rfl trivial
      (by simp only [Wait.step, State.wait, at_, completed]; rfl), rfl⟩
  cases at_ : s.waiter with
  | check => exact check s at_ completed
  | exitEarly =>
      obtain ⟨t, goes, done⟩ := check { s with lock := none, waiter := .check } rfl completed
      have leaves : Goes timeoutCqe s { s with lock := none, waiter := .check } :=
        goes_one (a := .waiter) rfl trivial (by simp only [Wait.step, State.wait, at_])
      exact ⟨t, leaves.trans goes, done⟩
  | enter =>
      obtain ⟨t, goes, done⟩ := check { s with waiter := .check } rfl completed
      refine ⟨t, .trans (goes_one (a := .waiter) rfl trivial ?_) goes, done⟩
      simp [Wait.step, State.wait, at_, completed]
  | asleep =>
      obtain ⟨a, wakes⟩ := inv.core.woken at_ completed
      cases a with
      | some i =>
          have here : s.reapers i = .wake := wakes
          obtain ⟨t, goes, done⟩ := check
            { s with waiter := .check, reapers := Function.update s.reapers i .idle } rfl completed
          refine ⟨t, .trans (goes_one (a := .reaper i) rfl trivial ?_) goes, done⟩
          simp [Wait.step, here, State.complete, at_]
      | none =>
          have here : s.timer = .complete .wake := by
            unfold State.at at wakes
            cases timer : s.timer <;> simp [timer] at wakes ⊢
            exact wakes
          obtain ⟨t, goes, done⟩ := check
            { s with waiter := .check, timer := .complete .idle } rfl completed
          refine ⟨t, .trans (goes_one (a := .timer) rfl ?_ ?_) goes, done⟩
          · intro scan
            cases here.symm.trans scan
          · simp [Wait.step, State.tick, here, State.complete, at_]
  | idle | post | done =>
      rw [at_] at waits
      cases waits

/-- The caller gives the lock up before it waits, nobody else stays inside the SQ, and the timer is
armed or on its way. -/
def State.Supervised (s : State ι κ) : Prop :=
  s.keeps = false ∧ s.other ≠ .waits ∧ (s.armed = true ∨ s.timer ≠ .idle)

/-- A command that no completer has found, and to which the timer cannot come. -/
structure Stuck (s : State ι κ) : Prop where
  inv : Inv s
  pending : s.submitted = true
  unclaimed : s.Unclaimed
  away : ¬ s.Supervised

omit [DecidableEq ι] in
/-- Who waits without the lock has given it up. -/
theorem gives_of_waits (waits : s.waiter.waits = true) (off : s.waiter.holds s.keeps = false) :
    s.keeps = false := by
  cases at_ : s.waiter with
  | idle | post | done =>
      rw [at_] at waits
      cases waits
  | exitEarly =>
      rw [at_] at off
      cases off
  | check | enter | asleep =>
      rw [at_] at off
      exact off

omit [DecidableEq ι] in
/-- The timer does not come to look at the command, or does not come at all. -/
theorem Stuck.not_scan (stuck : Stuck s) : s.timer.holds = false := by
  by_contra holds
  obtain ⟨-, owner, away⟩ := stuck.inv.locks.timed (by simpa using holds)
  have waits := (stuck.inv.core.pending stuck.pending).2
  refine stuck.away ⟨gives_of_waits waits owner, by simp [away], .inr ?_⟩
  intro idle
  rw [idle] at holds
  exact holds rfl

omit [DecidableEq ι] in
/-- A completer that has not claimed the command leaves it. -/
theorem complete_pending (pc : Completer κ) (off : pc.claims = false) :
    (s.complete pc).1.submitted = s.submitted ∧ (s.complete pc).2.claims = false := by
  cases pc with
  | store e => cases off
  | idle | copy | mark | wake => exact ⟨rfl, rfl⟩

/-- Nothing but the device helps a command that the timer cannot come to. -/
theorem Stuck.step (stuck : Stuck s) {a : Act ι κ} (quiet : a.quiet = true)
    (went : Wait.step timeoutCqe s a = some t) : Stuck t := by
  have off := stuck.not_scan
  have sole : Sole s a := by
    cases a with
    | reap i e => cases quiet
    | timer =>
        intro scan
        rw [scan] at off
        cases off
    | _ => trivial
  have inv := stuck.inv.step sole went
  have waits := (stuck.inv.core.pending stuck.pending).2
  cases a with
  | call c | reap i e | arm on | answered => cases quiet
  | waiter =>
      simp only [Wait.step, State.wait] at went
      cases at_ : s.waiter with
      | idle | post | done =>
          rw [at_] at waits
          cases waits
      | asleep => simp [at_] at went
      | exitEarly | check | enter =>
          simp only [at_] at went
          cases went
          exact ⟨inv, stuck.pending, stuck.unclaimed, stuck.away⟩
  | interrupted =>
      simp only [Wait.step] at went
      split at went <;> cases went
      exact ⟨inv, stuck.pending, stuck.unclaimed, stuck.away⟩
  | reaper i =>
      simp only [Wait.step] at went
      split at went
      · cases went
      · cases went
        obtain ⟨same, calm⟩ := complete_pending (s := s) (s.reapers i) (stuck.unclaimed (some i))
        refine ⟨inv, same.trans stuck.pending, ?_, ?_⟩
        · intro b
          rw [at_reaper, (complete_at _).1]
          rcases eq_or_ne b (some i) with rfl | ne
          · rwa [Function.update_self]
          · rw [Function.update_of_ne ne]
            exact stuck.unclaimed b
        · cases s.reapers i <;> exact stuck.away
  | expire =>
      simp only [Wait.step] at went
      split at went
      · rename_i idle
        split at went
        · rename_i armed
          cases went
          refine ⟨inv, stuck.pending, ?_, fun on => stuck.away ⟨on.1, on.2.1, .inl armed⟩⟩
          intro b
          cases b with
          | none => rfl
          | some i => exact stuck.unclaimed (some i)
        · cases went
      · cases went
  | timer =>
      simp only [Wait.step, State.tick] at went
      cases at_ : s.timer with
      | idle => simp [at_] at went
      | enter =>
          simp only [at_] at went
          split at went
          · rename_i open_
            have locks := stuck.inv.locks
            rw [open_] at locks
            obtain ⟨owner, -, away⟩ := locks.free
            refine absurd ⟨?_, by simp [away], .inr (by simp [at_])⟩ stuck.away
            exact gives_of_waits waits owner
          · cases went
      | scan | complete pc =>
          rw [at_] at off
          cases off
  | enter =>
      simp only [Wait.step] at went
      split at went
      · rename_i open_
        cases went
        have locks := stuck.inv.locks
        rw [open_] at locks
        exact ⟨inv, stuck.pending, stuck.unclaimed,
          fun on => stuck.away ⟨on.1, by simp [locks.free.2.2], on.2.2⟩⟩
      · cases went
  | leave =>
      simp only [Wait.step] at went
      split at went
      · rename_i inside
        cases went
        exact ⟨inv, stuck.pending, stuck.unclaimed,
          fun on => stuck.away ⟨on.1, by simp [inside], on.2.2⟩⟩
      · cases went
  | stay =>
      simp only [Wait.step] at went
      split at went
      · cases went
        exact ⟨inv, stuck.pending, stuck.unclaimed, fun on => on.2.1 rfl⟩
      · cases went

/-- The owner and the other thread leave the SQ. -/
theorem Inv.leaves (inv : Inv s) (timeoutCqe : κ) (pending : s.submitted = true)
    (unclaimed : s.Unclaimed) (on : s.Supervised) :
    ∃ u, Goes timeoutCqe s u ∧ u.submitted = true ∧ u.Unclaimed ∧ u.timer = s.timer ∧
      u.armed = s.armed ∧ (u.timer.holds = false → u.lock = none) := by
  obtain ⟨gives, alone, -⟩ := on
  have waits := (inv.core.pending pending).2
  by_cases early : s.waiter = .exitEarly
  · exact ⟨{ s with lock := none, waiter := .check },
      goes_one (a := .waiter) rfl trivial (by simp only [Wait.step, State.wait, early]), pending,
      unclaimed, rfl, rfl, fun _ => rfl⟩
  · have owner : s.waiter.holds s.keeps = false := by
      cases at_ : s.waiter <;> simp_all [Waiter.waits, Waiter.holds]
    cases other : s.other with
    | waits => exact absurd other alone
    | inside =>
        exact ⟨{ s with lock := none, other := .away },
          goes_one (a := .leave) rfl trivial (by simp only [Wait.step, other]), pending, unclaimed,
          rfl, rfl, fun _ => rfl⟩
    | away =>
        refine ⟨s, .refl, pending, unclaimed, rfl, rfl, fun off => ?_⟩
        cases lock : s.lock with
        | none => rfl
        | some who =>
            cases who with
            | waiter => cases owner.symm.trans (inv.locks.owner.mpr lock)
            | timer => cases off.symm.trans (inv.locks.timer.mpr lock)
            | other => exact absurd other (inv.locks.other.mpr lock)

end Invariant

end Unvmed.Wait
