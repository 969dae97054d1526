import Mathlib
import Unvmed.Basic
import Unvmed.Lib.Run

/-!
The timeout supervision of a submission queue (`lib/libunvmed.c`, `lib/libunvmed-cmds.c`).

A queue has one POSIX timer. A post that finds it not running arms it for `u->timeout`
seconds, and its handler walks the command slots, times out what has expired, and arms the
timer again for the nearest expiry. Expiries are kept in seconds and nanoseconds, the timer
is armed with whole seconds.

A run is a sequence of posts, completions and timer expirations, with time passing in
between. The timer is one-shot: it is not running any more when it has fired, and
its handler runs some time later.

* `timer_covers`: after a post or a handler that finds the timer active, every command
  in flight is covered by the timer, in every run whose steps are `Supervised`.
* `rearm_disarms`: the handler arms the timer with 0 seconds, which stops it, when the
  nearest expiry lies in the second that is running.
-/

namespace Unvmed.Timer

open Lib

/-- `struct timespec`, normalised. -/
structure Timespec where
  sec : Nat
  nsec : Nat
  nsec_lt : nsec < 10 ^ 9
  deriving DecidableEq, Repr

/-- A second in nanoseconds. -/
def second : Nat := 10 ^ 9

def Timespec.ns (t : Timespec) : Nat := t.sec * second + t.nsec

/-- `{0, }`, the value of `next` that is not set. -/
def Timespec.zero : Timespec := ⟨0, 0, by decide⟩

def Timespec.addSec (t : Timespec) (sec : Nat) : Timespec := { t with sec := t.sec + sec }

/-- `unvmed_timer_after`. -/
def timerAfter (a b : Timespec) : Bool :=
  if a.sec ≠ b.sec then decide (b.sec < a.sec) else decide (b.nsec < a.nsec)

/-- `struct unvme_cmd` with its expiry. -/
structure Cmd extends Unvmed.Cmd where
  timeout : Timespec := .zero

/-- The command waits for the device, and was not timed out. -/
def Cmd.InFlight (cmd : Cmd) : Prop := cmd.state = .submitted ∧ cmd.timedout = false

instance (cmd : Cmd) : Decidable cmd.InFlight := inferInstanceAs (Decidable (_ ∧ _))

/-- `unvmed_cmd_expired`, with the new value of `next`. -/
def cmdExpired (cmd : Cmd) (start next : Timespec) : Bool × Timespec :=
  if cmd.state ≠ .submitted then (false, next)
  else if timerAfter start cmd.timeout then (true, next)
  else if (next.sec == 0 && next.nsec == 0) || timerAfter next cmd.timeout then
    (false, cmd.timeout)
  else (false, next)

/-- `unvmed_cmd_timeout`: `unvmed_cmd_cmpl_wakeup` marks the command as to be completed, and
completes it at once if a thread waits for it. Otherwise the completion goes into a VCQ. -/
def cmdTimeout (cmd : Cmd) : Cmd :=
  { cmd with
    timedout := true
    state := if cmd.wakeup then .completed else .toBeCompleted }

/-- One round of a loop of the handler: `unvmed_cmd_get` skips free slots. -/
def visit (cmd : Cmd) (now next : Timespec) : Bool × Timespec :=
  if cmd.refcnt = 0 then (false, next) else cmdExpired cmd now next

/-- The first loop of `unvmed_timer_handler`, which ends at the first expired command. -/
def scan (cmds : Slot → Cmd) (now : Timespec) : List Nat → Timespec → Bool × Timespec
  | [], next => (false, next)
  | cid :: cids, next => match visit (cmds (.cmd cid)) now next with
      | (true, next) => (true, next)
      | (false, next) => scan cmds now cids next

/-- The second loop: the commands, whether any expired, and `next`. -/
def sweep (cmds : Slot → Cmd) (now : Timespec) :
    List Nat → Bool → Timespec → (Slot → Cmd) × Bool × Timespec
  | [], timedout, next => (cmds, timedout, next)
  | cid :: cids, timedout, next => match visit (cmds (.cmd cid)) now next with
      | (true, next) =>
          sweep (Function.update cmds (.cmd cid) (cmdTimeout (cmds (.cmd cid)))) now cids true next
      | (false, next) => sweep cmds now cids timedout next

structure State where
  now : Timespec
  /-- `u->timeout` -/
  timeout : Nat
  qsize : Nat
  cmds : Slot → Cmd
  /-- `usq->timer.active` -/
  active : Bool
  /-- `UNVMED_SQ_F_FROZEN` in `usq->flags`. -/
  frozen : Bool
  /-- When the timer fires, if it is armed. -/
  timer : Option Nat
  /-- Expirations whose handler has not run yet. -/
  fired : Nat

def State.setCmd (s : State) (slot : Slot) (cmd : Cmd) : State :=
  { s with cmds := Function.update s.cmds slot cmd }

/-- `unvmed_timer_update`: 0 seconds disarm the timer, and negative ones are refused. -/
def State.timerUpdate (s : State) (sec : Int) : State :=
  if sec < 0 then s
  else if sec = 0 then { s with timer := none }
  else { s with timer := some (s.now.ns + sec.toNat * second) }

/-- `unvmed_cmd_add_timer`. -/
def State.cmdAddTimer (s : State) (slot : Slot) : State :=
  let s := s.setCmd slot { s.cmds slot with timeout := s.now.addSec s.timeout }
  if s.active ∧ s.timer = none then s.timerUpdate s.timeout else s

/-- `unvmed_cmd_post`, as far as the timer is concerned. -/
def State.cmdPost (s : State) (slot : Slot) : State :=
  let s := s.setCmd slot { s.cmds slot with state := .submitted }
  if s.timeout ≠ 0 then s.cmdAddTimer slot else s

/-- The command ids the handler walks. -/
def State.cids (s : State) : List Nat := List.range (s.qsize - 1)

/-- `unvmed_timer_handler`. -/
def State.timerHandler (s : State) : State :=
  if s.active = false then s
  else match scan s.cmds s.now s.cids .zero with
    | (true, _) =>
        let (cmds, timedout, next) := sweep s.cmds s.now s.cids false .zero
        let s := { s with cmds := cmds, frozen := s.frozen || timedout }
        if next.sec ≠ 0 then
          let delta : Int := next.sec - s.now.sec
          s.timerUpdate (if 0 < delta then delta else 1)
        else { s with active := false }
    | (false, next) =>
        if next.sec = 0 then s.timerUpdate s.timeout
        else s.timerUpdate (next.sec - s.now.sec)

inductive Act where
  /-- Time passes. -/
  | tick (now : Timespec)
  /-- A command is allocated in a free slot. -/
  | alloc (slot : Slot) (wakeup : Bool)
  /-- `unvmed_cmd_post` of a queue that is ready. -/
  | post (slot : Slot)
  /-- The completion of a command reaches it. -/
  | complete (slot : Slot)
  /-- `unvmed_cmd_put`. -/
  | put (slot : Slot)
  /-- The timer expires. -/
  | fire
  /-- `unvmed_timer_handler` runs. -/
  | handler
  deriving Repr

/-- `slot` is one of the queue's: `cmds` has `qsize - 1` commands that are handed out. -/
def State.HasSlot (s : State) : Slot → Prop
  | .cmd cid => cid < s.qsize - 1
  | .conflict => True

instance (s : State) : DecidablePred s.HasSlot
  | .cmd _ => inferInstanceAs (Decidable (_ < _))
  | .conflict => .isTrue trivial

def step (s : State) : Act → Option State
  | .tick now => if s.now.ns ≤ now.ns then some { s with now := now } else none
  | .alloc slot wakeup =>
      if s.HasSlot slot ∧ (s.cmds slot).refcnt = 0 then
        some (s.setCmd slot { refcnt := 1, state := .allocated, wakeup := wakeup })
      else none
  | .post slot =>
      if s.HasSlot slot ∧ 0 < (s.cmds slot).refcnt ∧ s.frozen = false then some (s.cmdPost slot)
      else none
  | .complete slot =>
      if (s.cmds slot).state = .submitted then
        some (s.setCmd slot { s.cmds slot with state := .completed })
      else none
  | .put slot => match (s.cmds slot).refcnt with
      | 0 => none
      | 1 => some (s.setCmd slot {})
      | n + 2 => some (s.setCmd slot { s.cmds slot with refcnt := n + 1 })
  | .fire => match s.timer with
      | none => none
      | some due =>
          if due ≤ s.now.ns then some { s with timer := none, fired := s.fired + 1 } else none
  | .handler =>
      if 0 < s.fired then some ({ s with fired := s.fired - 1 }.timerHandler) else none

/-- A new queue: `unvmed_init_usq` has created its timer. -/
def start (now : Timespec) (timeout qsize : Nat) : State :=
  ⟨now, timeout, qsize, fun _ => {}, true, false, none, 0⟩

/-! ### Supervision -/

/-- If some command is in flight, the timer is armed, and fires at most one second after the
nearest expiry. -/
def State.Covered (s : State) : Prop :=
  ∀ slot, (s.cmds slot).InFlight →
    ∃ due, s.timer = some due ∧ due ≤ (s.cmds slot).timeout.ns + second

/-- What holds after a post and after a handler that find the timer active. -/
def CoveredStep (s : State) (a : Act) (s' : State) : Prop :=
  match a with
  | .post _ | .handler => s.active = true → s'.Covered
  | _ => True

/-- Some command in a slot that the handler walks has expired. -/
def State.Expired (s : State) : Prop :=
  ∃ cid < s.qsize - 1, (s.cmds (.cmd cid)).state = .submitted ∧
    timerAfter s.now (s.cmds (.cmd cid)).timeout = true

/-- No post comes between an expiration and its handler; when the handler runs, the conflict
slot has no command in flight, and if nothing has expired, no command expires later in the
second that is running. -/
def Supervised (s : State) : Act → Prop
  | .post _ => s.fired = 0
  | .handler => ¬ (s.cmds .conflict).InFlight ∧
      (s.Expired ∨ ∀ cid < s.qsize - 1, (s.cmds (.cmd cid)).state = .submitted →
        (s.cmds (.cmd cid)).timeout.sec ≠ s.now.sec)
  | .tick _ | .alloc .. | .complete _ | .put _ | .fire => True

instance (s : State) : Decidable s.Expired :=
  inferInstanceAs (Decidable (∃ cid < s.qsize - 1, (s.cmds (.cmd cid)).state = .submitted ∧
    timerAfter s.now (s.cmds (.cmd cid)).timeout = true))

instance (s : State) : DecidablePred (Supervised s)
  | .post _ => inferInstanceAs (Decidable (_ = _))
  | .handler => inferInstanceAs (Decidable (¬ (s.cmds .conflict).InFlight ∧
      (s.Expired ∨ ∀ cid < s.qsize - 1, (s.cmds (.cmd cid)).state = .submitted →
        (s.cmds (.cmd cid)).timeout.sec ≠ s.now.sec)))
  | .tick _ | .alloc .. | .complete _ | .put _ | .fire => .isTrue trivial

/-! ### Times -/

theorem timerAfter_iff {a b : Timespec} : timerAfter a b = true ↔ b.ns < a.ns := by
  have ha := a.nsec_lt
  have hb := b.nsec_lt
  unfold timerAfter Timespec.ns second
  split
  · rw [decide_eq_true_iff]
    omega
  · rw [decide_eq_true_iff]
    omega

theorem Timespec.addSec_ns (t : Timespec) (sec : Nat) :
    (t.addSec sec).ns = t.ns + sec * second := by
  simp only [Timespec.ns, Timespec.addSec]
  ring

/-- Whole seconds lose less than a second. -/
theorem rearm_le {now next : Timespec} (later : now.sec < next.sec) :
    now.ns + (next.sec - now.sec) * second ≤ next.ns + second := by
  have := now.nsec_lt
  unfold Timespec.ns second
  omega

/-- An expiry within `n` seconds is at most `n` whole seconds away. -/
theorem sec_le_of_ns {now next : Timespec} {n : Nat} (near : next.ns ≤ now.ns + n * second) :
    next.sec ≤ now.sec + n := by
  have := now.nsec_lt
  unfold Timespec.ns second at near
  omega

/-! ### One command -/

/-- The handler sees the command, and it has expired. -/
structure Cmd.Due (cmd : Cmd) (now : Timespec) : Prop where
  held : cmd.refcnt ≠ 0
  submitted : cmd.state = .submitted
  after : timerAfter now cmd.timeout = true

/-- The handler sees the command, and it has not expired yet. -/
structure Cmd.Waits (cmd : Cmd) (now : Timespec) : Prop where
  held : cmd.refcnt ≠ 0
  submitted : cmd.state = .submitted
  notAfter : timerAfter now cmd.timeout = false

theorem Cmd.Waits.not_due {cmd : Cmd} {now : Timespec} (waits : cmd.Waits now) : ¬ cmd.Due now := by
  intro due
  have notAfter := waits.notAfter
  rw [due.after] at notAfter
  cases notAfter

/-- `next` is the nearest expiry of the commands `p`, if there is any, and of `next₀`. -/
structure Nearest (p : Cmd → Prop) (next₀ next : Timespec) : Prop where
  set : next₀.sec ≠ 0 → next.sec ≠ 0 ∧ next.ns ≤ next₀.ns
  source : next = next₀ ∨ ∃ cmd, p cmd ∧ cmd.timeout = next
  least : ∀ cmd, p cmd → next.sec ≠ 0 ∧ next.ns ≤ cmd.timeout.ns

/-- A value of `next` is unset, or a real expiry. -/
def Timespec.Ok (next : Timespec) : Prop := next = .zero ∨ next.sec ≠ 0

theorem Nearest.ok {p : Cmd → Prop} {next₀ next : Timespec} (near : Nearest p next₀ next)
    (ok : next₀.Ok) : next.Ok := by
  rcases near.source with rfl | ⟨cmd, here, -⟩
  · exact ok
  · exact .inr (near.least cmd here).1

/-- One more round of a loop. -/
theorem Nearest.trans {p q : Cmd → Prop} {next₀ next₁ next₂ : Timespec}
    (first : Nearest p next₀ next₁) (later : Nearest q next₁ next₂) :
    Nearest (fun cmd => p cmd ∨ q cmd) next₀ next₂ := by
  constructor
  · intro set
    obtain ⟨set₁, le₁⟩ := first.set set
    obtain ⟨set₂, le₂⟩ := later.set set₁
    exact ⟨set₂, le₂.trans le₁⟩
  · rcases later.source with rfl | ⟨cmd, here, same⟩
    · rcases first.source with rfl | ⟨cmd, here, same⟩
      · exact .inl rfl
      · exact .inr ⟨cmd, .inl here, same⟩
    · exact .inr ⟨cmd, .inr here, same⟩
  · rintro cmd (here | here)
    · obtain ⟨set₁, le₁⟩ := first.least cmd here
      obtain ⟨set₂, le₂⟩ := later.set set₁
      exact ⟨set₂, le₂.trans le₁⟩
    · exact later.least cmd here

theorem Nearest.congr {p q : Cmd → Prop} {next₀ next : Timespec} (near : Nearest p next₀ next)
    (same : ∀ cmd, p cmd ↔ q cmd) : Nearest q next₀ next := by
  obtain rfl : p = q := funext fun cmd => propext (same cmd)
  exact near

theorem Nearest.refl {p : Cmd → Prop} (next : Timespec) (none : ∀ cmd, ¬ p cmd) :
    Nearest p next next :=
  ⟨fun set => ⟨set, le_rfl⟩, .inl rfl, fun cmd here => absurd here (none cmd)⟩

/-- A round of a loop says whether the command is due, and keeps the nearest expiry of the
ones that wait. -/
theorem visit_spec {cmd : Cmd} {next : Timespec} (now : Timespec) (ok : next.Ok)
    (expiry : cmd.state = .submitted → cmd.timeout.sec ≠ 0) :
    ((visit cmd now next).1 = true ↔ cmd.Due now) ∧
      Nearest (fun c => c = cmd ∧ cmd.Waits now) next (visit cmd now next).2 := by
  unfold visit cmdExpired
  split
  · rename_i free
    refine ⟨iff_of_false (by simp) fun due => due.held free, .refl _ ?_⟩
    rintro _ ⟨-, waits⟩
    exact waits.held free
  · rename_i held
    split
    · rename_i other
      refine ⟨iff_of_false (by simp) fun due => other due.submitted, .refl _ ?_⟩
      rintro _ ⟨-, waits⟩
      exact other waits.submitted
    · rename_i submitted
      have submitted : cmd.state = .submitted := not_not.mp submitted
      split
      · rename_i after
        refine ⟨iff_of_true rfl ⟨held, submitted, after⟩, .refl _ ?_⟩
        rintro _ ⟨-, waits⟩
        exact waits.not_due ⟨held, submitted, after⟩
      · rename_i notAfter
        have waits : cmd.Waits now := ⟨held, submitted, Bool.eq_false_iff.mpr notAfter⟩
        split
        · rename_i closer
          refine ⟨iff_of_false (by simp) waits.not_due, ?_, .inr ⟨cmd, ⟨rfl, waits⟩, rfl⟩, ?_⟩
          · intro set
            have unset : (next.sec == 0 && next.nsec == 0) = false := by simp [set]
            rw [unset, Bool.false_or, timerAfter_iff] at closer
            exact ⟨expiry submitted, closer.le⟩
          · rintro _ ⟨rfl, -⟩
            exact ⟨expiry submitted, le_rfl⟩
        · rename_i further
          refine ⟨iff_of_false (by simp) waits.not_due, fun set => ⟨set, le_rfl⟩, .inl rfl, ?_⟩
          rintro _ ⟨rfl, -⟩
          simp only [Bool.or_eq_true, not_or, timerAfter_iff, not_lt] at further
          rcases ok with rfl | set
          · exact absurd rfl further.1
          · exact ⟨set, further.2⟩

/-! ### The two loops -/

/-- The commands of the walked slots that wait. -/
def WaitsIn (cmds : Slot → Cmd) (now : Timespec) (cids : List Nat) (cmd : Cmd) : Prop :=
  ∃ cid ∈ cids, cmd = cmds (.cmd cid) ∧ (cmds (.cmd cid)).Waits now

theorem waitsIn_cons {cmds : Slot → Cmd} {now : Timespec} {cid : Nat} {cids : List Nat}
    (cmd : Cmd) :
    (cmd = cmds (.cmd cid) ∧ (cmds (.cmd cid)).Waits now) ∨ WaitsIn cmds now cids cmd ↔
      WaitsIn cmds now (cid :: cids) cmd := by
  simp only [WaitsIn, List.exists_mem_cons_iff]

section Loops

variable {cmds : Slot → Cmd} {now : Timespec}

theorem scan_spec (expiry : ∀ cid, (cmds (.cmd cid)).state = .submitted →
    (cmds (.cmd cid)).timeout.sec ≠ 0) (cids : List Nat) {next : Timespec} (ok : next.Ok) :
    ((scan cmds now cids next).1 = true ↔ ∃ cid ∈ cids, (cmds (.cmd cid)).Due now) ∧
      ((scan cmds now cids next).1 = false →
        Nearest (WaitsIn cmds now cids) next (scan cmds now cids next).2) := by
  induction cids generalizing next with
  | nil =>
      refine ⟨iff_of_false (by simp [scan]) (by simp), fun _ => .refl _ ?_⟩
      rintro _ ⟨_, none, -⟩
      cases none
  | cons cid cids ih =>
      obtain ⟨due, near⟩ := visit_spec now ok (expiry cid)
      rw [scan, List.exists_mem_cons_iff]
      cases seen : visit (cmds (.cmd cid)) now next with
      | mk expired next₁ =>
          rw [seen] at due near
          cases expired with
          | true => exact ⟨iff_of_true rfl (.inl (due.mp rfl)), by simp⟩
          | false =>
              have notDue : ¬ (cmds (.cmd cid)).Due now := fun h => by simpa using due.mpr h
              obtain ⟨dueLater, nearLater⟩ := ih (near.ok ok)
              refine ⟨?_, fun none => ((near.trans (nearLater none)).congr waitsIn_cons)⟩
              rw [dueLater, or_iff_right notDue]

/-- The commands of the walked slots that are due are timed out, and no other is touched. -/
structure Swept (cmds cmds' : Slot → Cmd) (now : Timespec) (cids : List Nat) : Prop where
  due : ∀ cid ∈ cids, (cmds (.cmd cid)).Due now → cmds' (.cmd cid) = cmdTimeout (cmds (.cmd cid))
  kept : ∀ slot, (∀ cid ∈ cids, slot = .cmd cid → ¬ (cmds slot).Due now) → cmds' slot = cmds slot

theorem cmdTimeout_ended (cmd : Cmd) : (cmdTimeout cmd).state ≠ .submitted := by
  unfold cmdTimeout
  cases cmd.wakeup <;> simp

theorem sweep_spec : ∀ {cids : List Nat} {cmds : Slot → Cmd} (timedout : Bool) {next : Timespec},
    (∀ cid, (cmds (.cmd cid)).state = .submitted → (cmds (.cmd cid)).timeout.sec ≠ 0) →
    cids.Nodup → next.Ok →
    Swept cmds (sweep cmds now cids timedout next).1 now cids ∧
      Nearest (WaitsIn cmds now cids) next (sweep cmds now cids timedout next).2.2
  | [], cmds, timedout, next, _, _, _ => by
      refine ⟨⟨fun _ none => (by cases none), fun _ _ => rfl⟩, .refl _ ?_⟩
      rintro _ ⟨_, none, -⟩
      cases none
  | cid :: cids, cmds, timedout, next, expiry, nodup, ok => by
      obtain ⟨fresh, nodup⟩ := List.nodup_cons.mp nodup
      obtain ⟨due, near⟩ := visit_spec now ok (expiry cid)
      rw [sweep]
      cases seen : visit (cmds (.cmd cid)) now next with
      | mk expired next₁ =>
          rw [seen] at due near
          cases expired with
          | false =>
              have notDue : ¬ (cmds (.cmd cid)).Due now := fun h => by simpa using due.mpr h
              obtain ⟨swept, nearLater⟩ := sweep_spec timedout expiry nodup (near.ok ok)
              refine ⟨⟨?_, ?_⟩, (near.trans nearLater).congr waitsIn_cons⟩
              · intro c here isDue
                rcases List.mem_cons.mp here with rfl | here
                · exact absurd isDue notDue
                · exact swept.due c here isDue
              · intro slot out
                exact swept.kept slot fun c here => out c (List.mem_cons_of_mem _ here)
          | true =>
              have isDue := due.mp rfl
              -- The rest of the loop reads slots that this round did not write.
              set cmds₁ := Function.update cmds (.cmd cid) (cmdTimeout (cmds (.cmd cid))) with updated
              have other {slot : Slot} (ne : slot ≠ .cmd cid) : cmds₁ slot = cmds slot :=
                Function.update_of_ne ne _ _
              have self : cmds₁ (.cmd cid) = cmdTimeout (cmds (.cmd cid)) := Function.update_self ..
              have rest {c : Nat} (here : c ∈ cids) : cmds₁ (.cmd c) = cmds (.cmd c) := by
                apply other
                intro same
                cases same
                exact fresh here
              have expiry₁ : ∀ c, (cmds₁ (.cmd c)).state = .submitted →
                  (cmds₁ (.cmd c)).timeout.sec ≠ 0 := by
                intro c submitted
                by_cases same : c = cid
                · subst same
                  rw [self] at submitted
                  exact absurd submitted (cmdTimeout_ended _)
                · rw [other (by simpa using same)] at submitted ⊢
                  exact expiry c submitted
              obtain ⟨swept, nearLater⟩ := sweep_spec true expiry₁ nodup (near.ok ok)
              refine ⟨⟨?_, ?_⟩, (near.trans (nearLater.congr ?_)).congr waitsIn_cons⟩
              · intro c here isDue'
                rcases List.mem_cons.mp here with rfl | here
                · rw [swept.kept, self]
                  rintro c' here' same
                  cases same
                  exact absurd here' fresh
                · rw [← rest here] at isDue' ⊢
                  exact swept.due c here isDue'
              · intro slot out
                have ne : slot ≠ .cmd cid := by
                  rintro rfl
                  exact out cid List.mem_cons_self rfl isDue
                rw [swept.kept, other ne]
                intro c here same
                rw [other ne]
                exact out c (List.mem_cons_of_mem _ here) same
              · intro cmd
                unfold WaitsIn
                apply exists_congr
                intro c
                apply and_congr_right
                intro here
                rw [rest here]

end Loops

/-! ### One step -/

/-- What the slots and the timer say about times. -/
structure State.Clocked (s : State) : Prop where
  positive : 0 < s.timeout
  held : ∀ slot, (s.cmds slot).state = .submitted → (s.cmds slot).refcnt ≠ 0
  expiry : ∀ slot, (s.cmds slot).state = .submitted → s.timeout ≤ (s.cmds slot).timeout.sec ∧
    (s.cmds slot).timeout.ns ≤ s.now.ns + s.timeout * second
  slots : ∀ slot, (s.cmds slot).state = .submitted → s.HasSlot slot
  armed : ∀ due, s.timer = some due → due ≤ s.now.ns + s.timeout * second

structure State.Inv (s : State) : Prop extends s.Clocked where
  covered : s.active = true → s.fired = 0 → s.Covered

theorem start_inv {now : Timespec} {timeout qsize : Nat} (positive : 0 < timeout) :
    (start now timeout qsize).Inv := by
  refine ⟨⟨positive, ?_, ?_, ?_, ?_⟩, ?_⟩
  · intro slot submitted
    cases submitted
  · intro slot submitted
    cases submitted
  · intro slot submitted
    cases submitted
  · intro due armed
    cases armed
  · intro _ _ slot inFlight
    cases inFlight.1

namespace State.Inv

variable {s : State} (h : s.Inv)
include h

/-- One command changes to one that is not newly submitted. -/
theorem setCmd {slot : Slot} {cmd : Cmd} (submitted : cmd.state = .submitted →
    (s.cmds slot).state = .submitted ∧ cmd.refcnt ≠ 0 ∧ cmd.timeout = (s.cmds slot).timeout ∧
      cmd.timedout = (s.cmds slot).timedout) : (s.setCmd slot cmd).Inv := by
  have cases_ (other : Slot) : other = slot ∧ (s.setCmd slot cmd).cmds other = cmd ∨
      (s.setCmd slot cmd).cmds other = s.cmds other := by
    by_cases same : other = slot
    · subst same
      exact .inl ⟨rfl, Function.update_self ..⟩
    · exact .inr (Function.update_of_ne same _ _)
  refine ⟨⟨h.positive, ?_, ?_, ?_, h.armed⟩, ?_⟩
  · intro other
    rcases cases_ other with ⟨-, same⟩ | same <;> rw [same]
    · exact fun sub => (submitted sub).2.1
    · exact h.held other
  · intro other
    rcases cases_ other with ⟨rfl, same⟩ | same <;> rw [same]
    · intro sub
      obtain ⟨was, -, expiry, -⟩ := submitted sub
      rw [expiry]
      exact h.expiry other was
    · exact h.expiry other
  · intro other
    rcases cases_ other with ⟨rfl, same⟩ | same <;> rw [same]
    · exact fun sub => h.slots other (submitted sub).1
    · exact h.slots other
  · intro active quiet other
    rcases cases_ other with ⟨rfl, same⟩ | same <;> rw [same]
    · rintro ⟨sub, notTimedout⟩
      obtain ⟨was, -, expiry, flag⟩ := submitted sub
      rw [expiry]
      exact h.covered active quiet other ⟨was, flag.symm.trans notTimedout⟩
    · exact h.covered active quiet other

theorem tick {now : Timespec} (later : s.now.ns ≤ now.ns) : { s with now := now }.Inv := by
  refine ⟨⟨h.positive, h.held, ?_, h.slots, ?_⟩, h.covered⟩
  · intro slot submitted
    have before := h.expiry slot submitted
    refine ⟨before.1, before.2.trans ?_⟩
    change s.now.ns + s.timeout * second ≤ now.ns + s.timeout * second
    omega
  · intro due armed
    refine (h.armed due armed).trans ?_
    change s.now.ns + s.timeout * second ≤ now.ns + s.timeout * second
    omega

theorem fire : { s with timer := none, fired := s.fired + 1 }.Inv := by
  refine ⟨⟨h.positive, h.held, h.expiry, h.slots, ?_⟩, ?_⟩
  · intro due armed
    cases armed
  · intro _ quiet
    exact absurd quiet (Nat.succ_ne_zero _)

end State.Inv

/-- What a post does to the queue. -/
theorem State.cmdPost_eq {s : State} (positive : 0 < s.timeout) (slot : Slot) : s.cmdPost slot =
    { s.setCmd slot { s.cmds slot with state := .submitted, timeout := s.now.addSec s.timeout } with
      timer := if s.active = true ∧ s.timer = none then some (s.now.ns + s.timeout * second)
        else s.timer } := by
  have pos : ¬ (s.timeout : Int) < 0 := by omega
  have ne : ¬ (s.timeout : Int) = 0 := by omega
  unfold State.cmdPost State.cmdAddTimer State.timerUpdate
  simp only [State.setCmd, positive.ne', ne_eq, not_false_eq_true, if_true, pos, ne, if_false,
    Function.update_self, Function.update_idem, Int.toNat_natCast]
  split
  · rfl
  · rfl

/-- A post of a queue whose handler is not outstanding. -/
theorem State.Inv.cmdPost {s : State} (h : s.Inv) {slot : Slot} (has : s.HasSlot slot)
    (held : 0 < (s.cmds slot).refcnt) (quiet : s.fired = 0) :
    (s.cmdPost slot).Inv ∧ (s.active = true → (s.cmdPost slot).Covered) := by
  rw [State.cmdPost_eq h.positive]
  set cmd := { s.cmds slot with state := .submitted, timeout := s.now.addSec s.timeout } with posted
  set timer := if s.active = true ∧ s.timer = none then some (s.now.ns + s.timeout * second)
    else s.timer with rearmed
  have expiry : cmd.timeout.ns = s.now.ns + s.timeout * second := Timespec.addSec_ns ..
  have self : (s.setCmd slot cmd).cmds slot = cmd := Function.update_self ..
  have rest {other : Slot} (ne : other ≠ slot) : (s.setCmd slot cmd).cmds other = s.cmds other :=
    Function.update_of_ne ne _ _
  have armed (due : Nat) (at_ : timer = some due) : due ≤ s.now.ns + s.timeout * second := by
    rw [rearmed] at at_
    split at at_
    · cases at_
      exact le_rfl
    · exact h.armed due at_
  have covered (active : s.active = true) :
      State.Covered { s.setCmd slot cmd with timer := timer } := by
    intro other inFlight
    change ((s.setCmd slot cmd).cmds other).InFlight at inFlight
    change ∃ due, timer = some due ∧ due ≤ ((s.setCmd slot cmd).cmds other).timeout.ns + second
    by_cases same : other = slot
    · subst same
      rw [self, expiry]
      cases before : s.timer with
      | none =>
          refine ⟨s.now.ns + s.timeout * second, ?_, by omega⟩
          rw [rearmed, if_pos ⟨active, before⟩]
      | some due =>
          have bound := h.armed due before
          refine ⟨due, ?_, by omega⟩
          rw [rearmed, before, if_neg (by simp)]
    · rw [rest same] at inFlight ⊢
      obtain ⟨due, before, bound⟩ := h.covered active quiet other inFlight
      refine ⟨due, ?_, bound⟩
      rw [rearmed, before, if_neg (by simp)]
  refine ⟨⟨⟨h.positive, ?_, ?_, ?_, armed⟩, fun active _ => covered active⟩, covered⟩
  · intro other
    change ((s.setCmd slot cmd).cmds other).state = _ → ((s.setCmd slot cmd).cmds other).refcnt ≠ 0
    by_cases same : other = slot
    · subst same
      rw [self]
      exact fun _ => held.ne'
    · rw [rest same]
      exact h.held other
  · intro other
    change ((s.setCmd slot cmd).cmds other).state = _ → s.timeout ≤
      ((s.setCmd slot cmd).cmds other).timeout.sec ∧
      ((s.setCmd slot cmd).cmds other).timeout.ns ≤ s.now.ns + s.timeout * second
    by_cases same : other = slot
    · subst same
      rw [self]
      exact fun _ => ⟨Nat.le_add_left .., expiry.le⟩
    · rw [rest same]
      exact h.expiry other
  · intro other
    change ((s.setCmd slot cmd).cmds other).state = _ → s.HasSlot other
    by_cases same : other = slot
    · subst same
      exact fun _ => has
    · rw [rest same]
      exact h.slots other

theorem State.timerUpdate_pos {s : State} {sec : Nat} (positive : 0 < sec) :
    s.timerUpdate sec = { s with timer := some (s.now.ns + sec * second) } := by
  have pos : ¬ (sec : Int) < 0 := by omega
  have ne : ¬ (sec : Int) = 0 := by omega
  simp only [State.timerUpdate, pos, ne, if_false, Int.toNat_natCast]

/-- What the handler leaves: some commands timed out, and the timer armed or switched off. -/
structure State.Handled (s s' : State) : Prop where
  timeout : s'.timeout = s.timeout
  now : s'.now = s.now
  qsize : s'.qsize = s.qsize
  cmds : Swept s.cmds s'.cmds s.now s.cids
  armed : ∀ due, s'.timer = some due → due ≤ s.now.ns + s.timeout * second

theorem Swept.submitted {cmds cmds' : Slot → Cmd} {now : Timespec} {cids : List Nat}
    (swept : Swept cmds cmds' now cids) {slot : Slot} (h : (cmds' slot).state = .submitted) :
    (cmds slot).state = .submitted ∧ (cmds' slot).refcnt = (cmds slot).refcnt ∧
      (cmds' slot).timeout = (cmds slot).timeout := by
  by_cases due : ∃ cid ∈ cids, slot = .cmd cid ∧ (cmds slot).Due now
  · obtain ⟨cid, here, rfl, due⟩ := due
    rw [swept.due cid here due] at h
    exact absurd h (cmdTimeout_ended _)
  · have same : cmds' slot = cmds slot := by
      apply swept.kept
      intro cid here at_ isDue
      exact due ⟨cid, here, at_, isDue⟩
    rw [same] at h ⊢
    exact ⟨h, rfl, rfl⟩

theorem State.Handled.clocked {s s' : State} (h : s.Clocked) (handled : s.Handled s') :
    s'.Clocked := by
  have swept := handled.cmds
  refine ⟨handled.timeout ▸ h.positive, ?_, ?_, ?_, ?_⟩
  · intro slot submitted
    obtain ⟨was, refcnt, -⟩ := swept.submitted submitted
    rw [refcnt]
    exact h.held slot was
  · intro slot submitted
    obtain ⟨was, -, expiry⟩ := swept.submitted submitted
    rw [handled.timeout, handled.now, expiry]
    exact h.expiry slot was
  · intro slot submitted
    have has := h.slots slot (swept.submitted submitted).1
    cases slot with
    | cmd cid =>
        change cid < s'.qsize - 1
        rw [handled.qsize]
        exact has
    | conflict => trivial
  · intro due at_
    rw [handled.timeout, handled.now]
    exact handled.armed due at_

/-- The nearest expiry of the walked commands, and what it says about each of them. -/
theorem State.Clocked.nearest {s : State} (h : s.Clocked) {next : Timespec}
    (near : Nearest (WaitsIn s.cmds s.now s.cids) .zero next) :
    (next.sec ≠ 0 → ∃ cid < s.qsize - 1, (s.cmds (.cmd cid)).Waits s.now ∧
      (s.cmds (.cmd cid)).timeout = next ∧ s.now.ns ≤ next.ns ∧ next.sec ≤ s.now.sec + s.timeout) ∧
    ∀ cid < s.qsize - 1, (s.cmds (.cmd cid)).Waits s.now →
      next.sec ≠ 0 ∧ next.ns ≤ (s.cmds (.cmd cid)).timeout.ns := by
  constructor
  · intro set
    rcases near.source with rfl | ⟨_, ⟨cid, here, rfl, waits⟩, same⟩
    · exact absurd rfl set
    · refine ⟨cid, List.mem_range.mp here, waits, same, ?_, ?_⟩
      · have notAfter := waits.notAfter
        rw [Bool.eq_false_iff, Ne, timerAfter_iff, same, not_lt] at notAfter
        exact notAfter
      · have bound := (h.expiry _ waits.submitted).2
        rw [same] at bound
        exact sec_le_of_ns bound
  · intro cid here waits
    exact near.least _ ⟨cid, List.mem_range.mpr here, rfl, waits⟩

/-- A command in flight outside the conflict slot either is due or waits. -/
theorem State.Clocked.due_or_waits {s : State} (h : s.Clocked) {slot : Slot}
    (submitted : (s.cmds slot).state = .submitted) (notConflict : slot ≠ .conflict) :
    ∃ cid < s.qsize - 1, slot = .cmd cid ∧
      ((s.cmds (.cmd cid)).Due s.now ∨ (s.cmds (.cmd cid)).Waits s.now) := by
  cases slot with
  | conflict => exact absurd rfl notConflict
  | cmd cid =>
      refine ⟨cid, h.slots _ submitted, rfl, ?_⟩
      cases after : timerAfter s.now (s.cmds (.cmd cid)).timeout with
      | true => exact .inl ⟨h.held _ submitted, submitted, after⟩
      | false => exact .inr ⟨h.held _ submitted, submitted, after⟩

/-- After the loops, a timer armed for the nearest expiry covers all commands in flight. -/
theorem State.Clocked.covered {s s' : State} (h : s.Clocked) {next : Timespec}
    (swept : Swept s.cmds s'.cmds s.now s.cids)
    (least : ∀ cid < s.qsize - 1, (s.cmds (.cmd cid)).Waits s.now →
      next.sec ≠ 0 ∧ next.ns ≤ (s.cmds (.cmd cid)).timeout.ns)
    (conflict : ¬ (s.cmds .conflict).InFlight)
    (armed : next.sec ≠ 0 → ∃ due, s'.timer = some due ∧ due ≤ next.ns + second) : s'.Covered := by
  intro slot inFlight
  obtain ⟨was, -, expiry⟩ := swept.submitted inFlight.1
  have notConflict : slot ≠ .conflict := by
    rintro rfl
    apply conflict
    rw [← swept.kept .conflict fun _ _ same => (by cases same)]
    exact inFlight
  obtain ⟨cid, here, rfl, due | waits⟩ := h.due_or_waits was notConflict
  · have timedout := inFlight.2
    rw [swept.due cid (List.mem_range.mpr here) due] at timedout
    cases timedout
  · obtain ⟨set, le⟩ := least cid here waits
    obtain ⟨due, at_, bound⟩ := armed set
    rw [expiry]
    exact ⟨due, at_, by omega⟩

/-- **The handler.** Under the guard it leaves every command in flight covered. -/
theorem State.Clocked.timerHandler {s : State} (h : s.Clocked) (active : s.active = true)
    (guard : Supervised s .handler) : s.Handled s.timerHandler ∧ s.timerHandler.Covered := by
  obtain ⟨conflict, inSecond⟩ := guard
  have positive := h.positive
  have expiry : ∀ cid, (s.cmds (.cmd cid)).state = .submitted →
      (s.cmds (.cmd cid)).timeout.sec ≠ 0 := by
    intro cid submitted
    have := (h.expiry _ submitted).1
    omega
  obtain ⟨dueIff, nearScan⟩ : ((scan s.cmds s.now s.cids .zero).1 = true ↔ _) ∧ _ :=
    scan_spec expiry s.cids (.inl rfl)
  unfold State.timerHandler
  rw [if_neg (by simp [active])]
  cases seen : scan s.cmds s.now s.cids .zero with
  | mk timedout next =>
      rw [seen] at dueIff nearScan
      cases timedout with
      | true =>
          obtain ⟨swept, near⟩ : Swept s.cmds (sweep s.cmds s.now s.cids false .zero).1 _ _ ∧ _ :=
            sweep_spec false expiry List.nodup_range (.inl rfl)
          obtain ⟨source, least⟩ := h.nearest near
          set r := sweep s.cmds s.now s.cids false .zero with result
          simp only
          by_cases set_ : r.2.2.sec = 0
          · -- Nothing waits any more, and the timer is switched off.
            rw [if_neg (not_not.mpr set_)]
            refine ⟨⟨rfl, rfl, rfl, swept, h.armed⟩, ?_⟩
            exact h.covered swept least conflict fun set => absurd set_ set
          · rw [if_pos set_]
            obtain ⟨cid, here, waits, -, later, near⟩ := source set_
            by_cases ahead : s.now.sec < r.2.2.sec
            · have delta : (0 : Int) < (r.2.2.sec : Int) - s.now.sec := by omega
              have exact_ : (r.2.2.sec : Int) - s.now.sec = ((r.2.2.sec - s.now.sec : Nat) : Int) := by
                omega
              rw [if_pos delta, exact_, State.timerUpdate_pos (by omega)]
              refine ⟨⟨rfl, rfl, rfl, swept, ?_⟩, ?_⟩
              · intro due at_
                cases at_
                exact Nat.add_le_add_left (Nat.mul_le_mul_right _ (by omega)) _
              · exact h.covered swept least conflict fun _ => ⟨_, rfl, rearm_le ahead⟩
            · have delta : ¬ (0 : Int) < (r.2.2.sec : Int) - s.now.sec := by omega
              have one : (1 : Int) = ((1 : Nat) : Int) := rfl
              rw [if_neg delta, one, State.timerUpdate_pos (by decide)]
              refine ⟨⟨rfl, rfl, rfl, swept, ?_⟩, ?_⟩
              · intro due at_
                cases at_
                exact Nat.add_le_add_left (Nat.mul_le_mul_right _ positive) _
              · refine h.covered swept least conflict fun _ => ⟨_, rfl, ?_⟩
                change s.now.ns + 1 * second ≤ r.2.2.ns + second
                omega
      | false =>
          have notDue {cid : Nat} (here : cid ∈ s.cids) : ¬ (s.cmds (.cmd cid)).Due s.now := by
            intro due
            simpa using dueIff.mpr ⟨cid, here, due⟩
          have swept : Swept s.cmds s.cmds s.now s.cids :=
            ⟨fun cid here due => absurd due (notDue here), fun _ _ => rfl⟩
          have near : Nearest (WaitsIn s.cmds s.now s.cids) .zero next := nearScan rfl
          obtain ⟨source, least⟩ := h.nearest near
          simp only
          by_cases set_ : next.sec = 0
          · rw [if_pos set_, State.timerUpdate_pos positive]
            refine ⟨⟨rfl, rfl, rfl, swept, ?_⟩, ?_⟩
            · intro due at_
              cases at_
              exact le_rfl
            · exact h.covered swept least conflict fun set => absurd set_ set
          · rw [if_neg set_]
            obtain ⟨cid, here, waits, same, later, near⟩ := source set_
            -- The nearest expiry is not in this second, so the difference is positive.
            have other : next.sec ≠ s.now.sec := by
              rcases inSecond with ⟨c, hc, submitted, after⟩ | apart
              · exact absurd ⟨h.held _ submitted, submitted, after⟩ (notDue (List.mem_range.mpr hc))
              · rw [← same]
                exact apart cid here waits.submitted
            have ahead : s.now.sec < next.sec := by
              have := s.now.nsec_lt
              have := next.nsec_lt
              unfold Timespec.ns second at later
              omega
            have exact_ : (next.sec : Int) - s.now.sec = ((next.sec - s.now.sec : Nat) : Int) := by
              omega
            rw [exact_, State.timerUpdate_pos (by omega)]
            refine ⟨⟨rfl, rfl, rfl, swept, ?_⟩, ?_⟩
            · intro due at_
              cases at_
              exact Nat.add_le_add_left (Nat.mul_le_mul_right _ (by omega)) _
            · exact h.covered swept least conflict fun _ => ⟨_, rfl, rearm_le ahead⟩

/-- **Step lemma.** -/
theorem step_inv {s s' : State} {a : Act} (h : s.Inv) (guard : Supervised s a)
    (hstep : step s a = some s') : s'.Inv ∧ CoveredStep s a s' := by
  cases a with
  | tick now =>
      simp only [step] at hstep
      split at hstep
      · rename_i later
        cases hstep
        exact ⟨h.tick later, trivial⟩
      · cases hstep
  | alloc slot wakeup =>
      simp only [step] at hstep
      split at hstep
      · cases hstep
        refine ⟨h.setCmd ?_, trivial⟩
        intro submitted
        cases submitted
      · cases hstep
  | post slot =>
      simp only [step] at hstep
      split at hstep
      · rename_i ready
        cases hstep
        exact h.cmdPost ready.1 ready.2.1 guard
      · cases hstep
  | complete slot =>
      simp only [step] at hstep
      split at hstep
      · cases hstep
        refine ⟨h.setCmd ?_, trivial⟩
        intro submitted
        cases submitted
      · cases hstep
  | put slot =>
      simp only [step] at hstep
      split at hstep
      · cases hstep
      · cases hstep
        refine ⟨h.setCmd ?_, trivial⟩
        intro submitted
        cases submitted
      · cases hstep
        exact ⟨h.setCmd fun submitted => ⟨submitted, Nat.succ_ne_zero _, rfl, rfl⟩, trivial⟩
  | fire =>
      simp only [step] at hstep
      split at hstep
      · cases hstep
      · split at hstep
        · cases hstep
          exact ⟨h.fire, trivial⟩
        · cases hstep
  | handler =>
      simp only [step] at hstep
      split at hstep
      · cases hstep
        have clocked : State.Clocked { s with fired := s.fired - 1 } :=
          ⟨h.positive, h.held, h.expiry, h.slots, h.armed⟩
        by_cases active : s.active = true
        · obtain ⟨handled, covered⟩ := clocked.timerHandler active guard
          exact ⟨⟨handled.clocked clocked, fun _ _ => covered⟩, fun _ => covered⟩
        · have off : s.active = false := Bool.eq_false_iff.mpr active
          rw [State.timerHandler, if_pos off]
          exact ⟨⟨clocked, fun on => absurd on active⟩, fun on => absurd on active⟩
      · cases hstep

/-! ### Runs -/

/-- **A command in flight has an armed timeout.** -/
theorem timer_covers {now : Timespec} {timeout qsize : Nat} (positive : 0 < timeout)
    {as : List Act} (supervised : Guarded step Supervised (start now timeout qsize) as) :
    Steps step CoveredStep (start now timeout qsize) as :=
  steps_of_guarded (fun _ _ _ h guard hstep => (step_inv h guard hstep).1)
    (fun _ _ _ h guard hstep => (step_inv h guard hstep).2) (start_inv positive) supervised

/-- A time of the clock. -/
def clock (sec nsec : Nat) : Timespec := ⟨sec, nsec % 10 ^ 9, Nat.mod_lt _ (by decide)⟩

/-- Two commands half a second apart; the first completes, and the timer fires in the second
before the one in which the other expires. -/
def covered : List Act :=
  [.alloc (.cmd 0) false, .post (.cmd 0), .tick (clock 11 500000000), .alloc (.cmd 1) false,
    .post (.cmd 1), .complete (.cmd 0), .tick (clock 12 1), .fire, .handler]

theorem covered_run :
    0 < 2 ∧ Guarded step Supervised (start (clock 10 0) 2 4) covered ∧
      Steps step CoveredStep (start (clock 10 0) 2 4) covered :=
  ⟨by decide, by decide, timer_covers (by decide) (by decide)⟩

/-- The other command expires later in the second in which the timer fires. -/
def uncovered : List Act :=
  [.alloc (.cmd 0) false, .post (.cmd 0), .tick (clock 10 500000000), .alloc (.cmd 1) false,
    .post (.cmd 1), .complete (.cmd 0), .tick (clock 12 1), .fire]

/-- The queue when the handler starts, and when it has returned. -/
def uncoveredBefore : State := (run step (start (clock 10 0) 2 4) uncovered).get (by decide)

def uncoveredAfter : State := (step uncoveredBefore .handler).get (by decide)

/-- The handler stops the timer of a command that is still in flight. -/
theorem rearm_disarms : ¬ ∀ (now : Timespec) (timeout qsize : Nat) (as : List Act),
    0 < timeout → Steps step CoveredStep (start now timeout qsize) as := by
  intro all
  have before : run step (start (clock 10 0) 2 4) uncovered = some uncoveredBefore := by
    rw [uncoveredBefore, Option.some_get]
  have after : step uncoveredBefore .handler = some uncoveredAfter := by
    rw [uncoveredAfter, Option.some_get]
  have bad := (all (clock 10 0) 2 4 (uncovered ++ [.handler]) (by decide)).last before after
  obtain ⟨due, armed, -⟩ := bad (by decide) (.cmd 1) (by decide)
  have off : uncoveredAfter.timer = none := by decide
  rw [off] at armed
  cases armed

end Unvmed.Timer
