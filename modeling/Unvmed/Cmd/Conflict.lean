import Unvmed.Cmd.Routing

/-!
Conflict commands and their residents.

A resident command at `cmds[cid]` and a conflict command can be in flight with
the same id. The reaper completes the resident first and the conflict command
with the second entry, and a VCQ entry says in `injected` which of them it is
for. `__unvmed_cq_run_n` and `__unvmed_get_completion` do not read it.

* `pop_records_on_resident`: an entry pushed for the conflict command is recorded
  on the resident one.
* `conflicts_kept_apart`: in every run where no caller pops an entry marked as a
  conflict (conflict commands are posted with the wakeup flag) and a poller finds
  `cmds[cid]` in flight (`ApartGuard`), each entry completes one submitted command
  and each popped entry is recorded on the command it was pushed for.
-/

namespace Unvmed.Path

open Lib

section Statement

variable {ι : Type}

/-- The command an entry of a VCQ was pushed for, by `injected`. -/
def Vcqe.target (vcqe : Vcqe) : Ref :=
  ⟨vcqe.cqe.sqid, if vcqe.injected = .conflict then .conflict else .cmd vcqe.cqe.cid⟩

/-- The entry `cqe` completes one submitted command that it names. -/
def DeliveredOnce (τ : Topo) (s : State ι) (cqe : Cqe) (s' : State ι) : Prop :=
  ∃ r s₁, s.Names cqe r ∧ (s.cmds r).state = .submitted ∧ Completed τ s r cqe s₁ ∧
    s'.cmds = s₁.cmds ∧ s'.vcqs = s₁.vcqs

/-- What an action does with the entries of a resident and a conflict command. -/
def ApartStep (τ : Topo) (s : State ι) (a : Act ι) (s' : State ι) : Prop :=
  match a with
  | .reap cqid => ∀ cqe rest, s.rings cqid = cqe :: rest → DeliveredOnce τ s cqe s'
  | .iter t => (∀ sqid cqe, s.polls τ t = some (sqid, cqe) → DeliveredOnce τ s cqe s') ∧
      ∀ sqid e, s.pops t = some (sqid, e) → s'.cmds =
        Function.update s.cmds (Vcqe.target e.vcqe) ((s.cmds (Vcqe.target e.vcqe)).record e.vcqe.cqe)
  | _ => True

/-- Callers meet entries of their own SQ, find the polled command in flight, pop
no conflict entry, and free no command whose completion is under way. -/
def ApartGuard (τ : Topo) (s : State ι) : Act ι → Prop
  | .iter t =>
      (match s.polls τ t with
        | none => True
        | some (sqid, cqe) =>
            cqe.sqid = sqid ∧ (s.cmds ⟨sqid, .cmd cqe.cid⟩).state = .submitted) ∧
      match s.pops t with
        | none => True
        | some (sqid, e) => e.vcqe.cqe.sqid = sqid ∧ e.vcqe.injected ≠ .conflict
  | .free r => (s.cmds r).state ≠ .toBeCompleted
  | _ => True

instance (τ : Topo) (s : State ι) : DecidablePred (ApartGuard τ s)
  | .iter t =>
      @instDecidableAnd _ _
        (match s.polls τ t with
          | none => .isTrue trivial
          | some (_, _) => inferInstanceAs (Decidable (_ ∧ _)))
        (match s.pops t with
          | none => .isTrue trivial
          | some (_, _) => inferInstanceAs (Decidable (_ ∧ _)))
  | .free _ => inferInstanceAs (Decidable (_ ≠ _))
  | .alloc .. | .post _ | .device .. | .reap _ | .cqRun .. | .vcqRun .. | .ret _ | .timeout _
  | .cancel _ | .cancelAllocated _ | .vcqInit _ | .vcqFree _ => .isTrue trivial

/-! ### The invariant -/

/-- 1 while a completion of the command is on its way. -/
def marked (cmd : Cmd) : Nat := if cmd.state = .toBeCompleted then 1 else 0

/-- An entry says for which command it was pushed. -/
def Entry.Fits (e : Entry) : Prop := Vcqe.target e.vcqe = e.owner

structure State.Apart (s : State ι) : Prop where
  /-- A command has at most one entry, and only while it is marked. -/
  one : ∀ r, tallyTo vcqMax (inVcq r) s.vcqs ≤ marked (s.cmds r)
  fits : ∀ qid vcq, s.vcqs qid = some vcq → ∀ e ∈ vcq.entries, e.Fits
  injected : ∀ r, (s.cmds r).state ≠ .init →
    ((s.cmds r).injected = .conflict ↔ r.slot = .conflict)
  posted : ∀ r, (s.cmds r).state = .toBeCompleted → s.home r ≠ none

/-- **Step lemma.** One command changes: it keeps its mark, or had no entry. -/
theorem State.Apart.setCmd {s : State ι} (h : s.Apart) {r : Ref} {m : Cmd}
    (unmarked : (s.cmds r).state ≠ .toBeCompleted) (still : m.state ≠ .toBeCompleted)
    (injected : m.state ≠ .init → (m.injected = .conflict ↔ r.slot = .conflict)) :
    (s.setCmd r m).Apart := by
  refine ⟨?_, h.fits, ?_, ?_⟩
  · intro r'
    have := h.one r'
    simp only [State.setCmd]
    by_cases same : r' = r
    · subst same
      rw [marked, if_neg unmarked] at this
      exact this.trans (Nat.zero_le _)
    · rwa [Function.update_of_ne same]
  · intro r' live
    simp only [State.setCmd] at live ⊢
    by_cases same : r' = r
    · subst same
      rw [Function.update_self] at live ⊢
      exact injected live
    · rw [Function.update_of_ne same] at live ⊢
      exact h.injected r' live
  · intro r' isMarked
    simp only [State.setCmd] at isMarked ⊢
    by_cases same : r' = r
    · subst same
      rw [Function.update_self] at isMarked
      exact absurd isMarked still
    · rw [Function.update_of_ne same] at isMarked
      exact h.posted r' isMarked

/-- CQs, calls and the device are not accounted for. -/
theorem State.Apart.frame {s s' : State ι} (h : s.Apart) (cmds : s'.cmds = s.cmds)
    (vcqs : s'.vcqs = s.vcqs) (home : s'.home = s.home) : s'.Apart := by
  obtain ⟨cmds', rings', vcqs', freeIds', nextReg', nrCmds', cmdCount', calls', sqes', home', pending'⟩
    := s'
  subst cmds vcqs home
  exact ⟨h.one, h.fits, h.injected, h.posted⟩

/-- A VCQ loses entries. -/
theorem State.Apart.setVcq {s : State ι} (h : s.Apart) {qid : Nat} (hq : qid < vcqMax)
    {v : Option Vcq} (fewer : ∀ r, inVcq r v ≤ inVcq r (s.vcqs qid))
    (fits : ∀ w, v = some w → ∀ e ∈ w.entries, e.Fits) : (s.setVcq qid v).Apart := by
  refine ⟨?_, ?_, h.injected, h.posted⟩
  · intro r
    have moved := tallyTo_update hq (inVcq r) s.vcqs v
    have := fewer r
    have := h.one r
    simp only [State.setVcq]
    omega
  · intro q w found
    simp only [State.setVcq] at found
    by_cases same : q = qid
    · subst same
      rw [Function.update_self] at found
      exact fits w found
    · rw [Function.update_of_ne same] at found
      exact h.fits q w found

/-- The entry at the head of a VCQ belongs to a marked command. -/
theorem State.Apart.head_marked {s : State ι} (h : s.Apart) (range : s.IdsInRange) {qid : Nat}
    {vcq : Vcq} {e : Entry} {rest : List Entry} (found : s.vcqs qid = some vcq)
    (head : vcq.entries = e :: rest) : (s.cmds (Vcqe.target e.vcqe)).state = .toBeCompleted := by
  have fits : Vcqe.target e.vcqe = e.owner :=
    h.fits qid vcq found e (by rw [head]; exact List.mem_cons_self)
  have one := h.one e.owner
  have held := le_tally (inVcq e.owner) (fun i : Fin vcqMax => s.vcqs i)
    ⟨qid, range.registered qid vcq found⟩
  simp only [found, inVcq, head, owned_cons, if_true] at held
  rw [fits]
  by_contra other
  rw [marked, if_neg other] at one
  simp only [tallyTo] at one
  omega

theorem State.Apart.pop {s : State ι} (h : s.Apart) (range : s.IdsInRange) {qid : Nat} {vcq : Vcq}
    {e : Entry} {rest : List Entry} (found : s.vcqs qid = some vcq)
    (head : vcq.entries = e :: rest) :
    (s.setVcq qid (some { vcq with entries := rest })).Apart := by
  refine h.setVcq (range.registered qid vcq found) ?_ ?_
  · intro r
    simp only [found, inVcq, head, owned_cons]
    omega
  · intro v same
    cases same
    intro e' mem
    exact h.fits qid vcq found e' (by rw [head]; exact List.mem_cons_of_mem _ mem)

/-- The entry goes to the command it was pushed for, which has no other. -/
theorem State.Apart.recorded {s : State ι} (h : s.Apart) (range : s.IdsInRange) {qid : Nat}
    {vcq : Vcq} {e : Entry} {rest : List Entry} (found : s.vcqs qid = some vcq)
    (head : vcq.entries = e :: rest) (cqe : Cqe) :
    ((s.setVcq qid (some { vcq with entries := rest })).setCmd (Vcqe.target e.vcqe)
      ((s.cmds (Vcqe.target e.vcqe)).record cqe)).Apart := by
  have fits : Vcqe.target e.vcqe = e.owner :=
    h.fits qid vcq found e (by rw [head]; exact List.mem_cons_self)
  have isMarked := h.head_marked range found head
  have popped := h.pop range found head
  have hq := range.registered qid vcq found
  refine ⟨?_, popped.fits, ?_, ?_⟩
  · intro r
    have before := h.one r
    have moved := tallyTo_update hq (inVcq r) s.vcqs (some { vcq with entries := rest })
    simp only [found, inVcq, head, owned_cons] at moved
    simp only [State.setCmd, State.setVcq]
    by_cases same : r = Vcqe.target e.vcqe
    · have owner : e.owner = r := fits ▸ same.symm
      rw [if_pos owner] at moved
      rw [same, marked, if_pos isMarked, ← same] at before
      rw [← same, Function.update_self]
      have done : marked ((s.cmds r).record cqe) = 0 := rfl
      omega
    · rw [Function.update_of_ne same]
      omega
  · intro r live
    simp only [State.setCmd] at live ⊢
    by_cases same : r = Vcqe.target e.vcqe
    · rw [same, Function.update_self]
      exact h.injected _ (by rw [isMarked]; decide)
    · rw [Function.update_of_ne same] at live ⊢
      exact h.injected r live
  · intro r still
    simp only [State.setCmd] at still ⊢
    by_cases same : r = Vcqe.target e.vcqe
    · rw [same, Function.update_self] at still
      cases still
    · rw [Function.update_of_ne same] at still
      exact h.posted r still

/-- The entry written for a command carries its queue, its id and its kind. -/
theorem State.Answered.entry_fits {τ : Topo} {s : State ι} (answered : s.Answered τ) (h : s.Apart)
    {r : Ref} {cqe : Cqe} (names : s.Names cqe r) (live : (s.cmds r).state ≠ .init) :
    (s.entryFor τ r cqe).Fits := by
  have kind := h.injected r live
  obtain ⟨q, slot⟩ := r
  obtain ⟨rfl, cid⟩ := names
  cases slot with
  | cmd c =>
      have own := answered.cids cqe.sqid c live
      have normal : (s.cmds ⟨cqe.sqid, .cmd c⟩).injected ≠ .conflict := fun bad => by
        simpa using kind.mp bad
      simp [Entry.Fits, State.entryFor, Vcqe.target, normal, ← cid, own]
  | conflict =>
      have injected := kind.mpr rfl
      simp [Entry.Fits, State.entryFor, Vcqe.target, injected]

/-- A submitted command is marked; it has no entry yet. -/
theorem State.Apart.mark {s : State ι} (h : s.Apart) {r : Ref}
    (submitted : (s.cmds r).state = .submitted) (posted : s.home r ≠ none) :
    (s.setCmd r ((s.cmds r).setState .toBeCompleted)).Apart ∧
      tallyTo vcqMax (inVcq r) s.vcqs = 0 := by
  have none_yet : tallyTo vcqMax (inVcq r) s.vcqs = 0 := by
    have := h.one r
    rw [marked, submitted, if_neg (by decide)] at this
    omega
  refine ⟨⟨?_, h.fits, ?_, ?_⟩, none_yet⟩
  · intro r'
    simp only [State.setCmd]
    by_cases same : r' = r
    · subst same
      rw [none_yet]
      exact Nat.zero_le _
    · rw [Function.update_of_ne same]
      exact h.one r'
  · intro r' live
    simp only [State.setCmd] at live ⊢
    by_cases same : r' = r
    · subst same
      rw [Function.update_self]
      exact h.injected r' (by rw [submitted]; decide)
    · rw [Function.update_of_ne same] at live ⊢
      exact h.injected r' live
  · intro r' isMarked
    simp only [State.setCmd] at isMarked ⊢
    by_cases same : r' = r
    · subst same
      exact posted
    · rw [Function.update_of_ne same] at isMarked
      exact h.posted r' isMarked

/-- An entry that names a submitted command completes it. -/
theorem State.Apart.completed {τ : Topo} {s s₁ : State ι} {r : Ref} {cqe : Cqe} (h : s.Apart)
    (answered : s.Answered τ) (range : s.IdsInRange) (names : s.Names cqe r)
    (submitted : (s.cmds r).state = .submitted) (cmpl : Completed τ s r cqe s₁) : s₁.Apart := by
  have live : (s.cmds r).state ≠ .init := by rw [submitted]; decide
  obtain ⟨counted, none_yet⟩ := h.mark submitted (answered.posted r submitted)
  cases cmpl with
  | woken wakeup =>
      have woken := h.setCmd (r := r) (m := (s.cmds r).wake cqe) (by rw [submitted]; decide)
        (by simp) fun _ => h.injected r live
      exact woken.frame rfl rfl rfl
  | @pushed vcq silent registered =>
      have found := vcqGet_some registered
      have hq := range.registered _ _ found
      refine ⟨?_, ?_, counted.injected, counted.posted⟩
      · intro r'
        have moved := tallyTo_update hq (inVcq r') s.vcqs (some (vcq.push (s.entryFor τ r cqe)))
        have before := counted.one r'
        have owner : (s.entryFor τ r cqe).owner = r := rfl
        rw [found, inVcq_push, owner] at moved
        show tallyTo vcqMax (inVcq r')
          (Function.update s.vcqs (s.cmds r).vcq (some (vcq.push (s.entryFor τ r cqe)))) ≤ _
        by_cases same : r = r'
        · subst same
          rw [if_pos rfl] at moved
          have now : marked (((s.incCount r).setCmd r
              ((s.cmds r).setState .toBeCompleted)).cmds r) = 1 := by
            simp [State.setCmd, marked]
          exact (by omega : _ ≤ 1).trans (Nat.le_of_eq now.symm)
        · rw [if_neg same] at moved
          have same_tally : tallyTo vcqMax (inVcq r') (Function.update s.vcqs (s.cmds r).vcq
              (some (vcq.push (s.entryFor τ r cqe)))) = tallyTo vcqMax (inVcq r') s.vcqs := by
            omega
          rw [same_tally]
          exact before
      · intro q v at_ e mem
        simp only [State.setVcq] at at_
        by_cases same : q = (s.cmds r).vcq
        · subst same
          rw [Function.update_self] at at_
          cases at_
          rcases List.mem_append.mp mem with old | new
          · exact h.fits _ vcq found e old
          · cases List.mem_singleton.mp new
            exact answered.entry_fits h names live
        · rw [Function.update_of_ne same] at at_
          exact h.fits q v at_ e mem
  | dropped silent unregistered => exact counted.frame rfl rfl rfl

theorem ApartGuard.polled {τ : Topo} {s : State ι} {t : ι} {sqid : Nat} {cqe : Cqe}
    (guard : ApartGuard τ s (.iter t)) (polls : s.polls τ t = some (sqid, cqe)) :
    cqe.sqid = sqid ∧ (s.cmds ⟨sqid, .cmd cqe.cid⟩).state = .submitted := by
  have := guard.1
  rwa [polls] at this

/-- A popped entry is for the resident command of the caller's queue. -/
theorem ApartGuard.popped {τ : Topo} {s : State ι} {t : ι} {sqid : Nat} {e : Entry}
    (guard : ApartGuard τ s (.iter t)) (pops : s.pops t = some (sqid, e)) :
    e.vcqe.cqe.sqid = sqid ∧ Vcqe.target e.vcqe = ⟨sqid, .cmd e.vcqe.cqe.cid⟩ := by
  have := guard.2
  rw [pops] at this
  obtain ⟨rfl, normal⟩ := this
  exact ⟨rfl, by simp [Vcqe.target, normal]⟩

/-- The invariants of this module and the last. -/
structure State.Separate (τ : Topo) (s : State ι) : Prop where
  answered : s.Answered τ
  range : s.IdsInRange
  apart : s.Apart

/-- While commands are kept apart, callers are in their own queue. -/
theorem State.Separate.ownQueue {τ : Topo} {s : State ι} {a : Act ι} (h : s.Separate τ)
    (guard : ApartGuard τ s a) : OwnQueue τ s a := by
  cases a with
  | iter t =>
      refine ⟨?_, ?_⟩
      · split
        · trivial
        · rename_i sqid cqe polls
          obtain ⟨same, submitted⟩ := guard.polled polls
          exact ⟨same, by rw [submitted]; decide⟩
      · split
        · trivial
        · rename_i sqid e pops
          obtain ⟨same, target⟩ := guard.popped pops
          have isMarked : (s.cmds ⟨sqid, .cmd e.vcqe.cqe.cid⟩).state = .toBeCompleted := by
            obtain ⟨qid, vcq, rest, found, head⟩ := pops_cases pops
            rw [← target]
            exact h.apart.head_marked h.range found head
          exact ⟨same, by rw [isMarked]; decide, by rw [isMarked]; decide⟩
  | _ => trivial

end Statement

/-! ### Runs -/

section Runs

variable {ι : Type} [DecidableEq ι]

theorem step_apart {τ : Topo} {s s' : State ι} {a : Act ι} (h : s.Separate τ)
    (guard : a.Ordinary ∧ ApartGuard τ s a) (hstep : step τ s a = some s') : s'.Apart := by
  obtain ⟨ordinary, guard⟩ := guard
  have own := h.ownQueue guard
  have effect := step_cases hstep
  obtain ⟨answered, range, h⟩ := h
  cases effect with
  | @alloc r cid vcq opcode wakeup empty unposted =>
      apply h.setCmd (by rw [empty]; decide) (by simp)
      intro _
      by_cases conflict : r.slot = .conflict <;> simp [conflict]
  | @post r live unposted =>
      have idle : (s.cmds r).state ≠ .toBeCompleted := fun isMarked => h.posted r isMarked unposted
      have submitted := h.setCmd (m := (s.cmds r).setState .submitted) idle (by simp)
        fun _ => h.injected r live
      refine ⟨submitted.one, submitted.fits, submitted.injected, ?_⟩
      intro r' isMarked
      by_cases same : r' = r
      · subst same
        simp
      · simp only
        rw [Function.update_of_ne same]
        exact submitted.posted r' isMarked
  | @free r live settled =>
      have freed := h.setCmd (m := {}) guard (by simp) fun used => absurd rfl used
      refine ⟨freed.one, freed.fits, freed.injected, ?_⟩
      intro r' isMarked
      have other : r' ≠ r := by
        rintro rfl
        simp [State.setCmd] at isMarked
      simp only
      rw [Function.update_of_ne other]
      exact freed.posted r' isMarked
  | device working mapped => exact h.frame rfl rfl rfl
  | reapDropped head miss => exact h.frame rfl rfl rfl
  | reaped head hit cmpl =>
      exact (h.completed answered range (answered.names hit) (getCmdOnReaper_some hit).1 cmpl).frame
        rfl rfl rfl
  | cqRun idle | vcqRun idle | waited call nothing => exact h.frame rfl rfl rfl
  | popped call usq found head => exact (h.pop range found head).frame rfl rfl rfl
  | @recorded t c sqid qid vcq e rest r call usq arg found head hit =>
      obtain ⟨rfl, live⟩ := getCmd_some hit
      obtain ⟨-, target⟩ := guard.popped (pops_eq call usq arg)
      rw [← target]
      exact (h.recorded range found head e.vcqe.cqe).frame rfl rfl rfl
  | popDropped call usq arg found head miss => exact (h.pop range found head).frame rfl rfl rfl
  | pollDropped call usq empty mapped polling head miss => exact h.frame rfl rfl rfl
  | @polled t c sqid cqid cqe rest done r s₁ call usq empty mapped polling head hit cmpl =>
      obtain ⟨rfl, live⟩ := getCmd_some hit
      obtain ⟨same, submitted⟩ := guard.polled (polls_eq call usq empty mapped polling head)
      exact (h.completed answered range (answered.poll_names same live) submitted cmpl).frame
        rfl rfl rfl
  | ret call => exact h.frame rfl rfl rfl
  | timedOut isSubmitted cmpl => exact ordinary.elim
  | cancelled cmpl open_ => exact ordinary.elim
  | cancelledAllocated cmpl allocated => exact ordinary.elim
  | cancelSkipped | cancelAllocatedSkipped | vcqInitFull => exact h
  | @vcqInit qsize qid rest next =>
      have hq := range.free qid (by rw [next]; exact List.mem_cons_self)
      have fresh := h.setVcq (v := some ⟨s.nextReg, qsize, []⟩) hq (fun r => Nat.zero_le _)
        fun v same => by cases same; intro e mem; cases mem
      exact fresh.frame rfl rfl rfl
  | @vcqFree qid vcq found =>
      have gone := h.setVcq (v := none) (range.registered qid vcq found) (fun r => Nat.zero_le _)
        fun v same => by cases same
      exact gone.frame rfl rfl rfl

theorem step_separate {τ : Topo} {s s' : State ι} {a : Act ι} (h : s.Separate τ)
    (guard : a.Ordinary ∧ ApartGuard τ s a) (hstep : step τ s a = some s') : s'.Separate τ :=
  ⟨step_answered h.answered ⟨guard.1, h.ownQueue guard.2⟩ hstep, step_idsInRange h.range hstep,
    step_apart h guard hstep⟩

/-- One step completes or records the command the entry is for. -/
theorem step_keeps_apart {τ : Topo} {s s' : State ι} {a : Act ι} (h : s.Separate τ)
    (guard : a.Ordinary ∧ ApartGuard τ s a) (hstep : step τ s a = some s') :
    ApartStep τ s a s' := by
  have own := h.ownQueue guard.2
  have effect := step_cases hstep
  cases effect with
  | reapDropped head miss =>
      obtain ⟨r, hit⟩ := h.answered.reaper_finds head
      simp [hit] at miss
  | reaped head hit cmpl =>
      intro cqe rest top
      rw [head] at top
      cases top
      exact ⟨_, _, h.answered.names hit, (getCmdOnReaper_some hit).1, cmpl, rfl, rfl⟩
  | waited call nothing =>
      exact ⟨fun _ _ polls => by simp [nothing.1] at polls,
        fun _ _ pops => by simp [nothing.2] at pops⟩
  | popped call usq found head =>
      exact ⟨fun _ _ polls => by simp [State.polls, call, usq] at polls,
        fun _ _ pops => by simp [State.pops, call, usq] at pops⟩
  | @recorded t c sqid qid vcq e rest r call usq arg found head hit =>
      obtain ⟨rfl, live⟩ := getCmd_some hit
      have pops := pops_eq call usq arg
      obtain ⟨-, target⟩ := guard.2.popped pops
      refine ⟨fun _ _ polls => by simp [polls_eq_none call arg] at polls, ?_⟩
      intro _ _ again
      rw [pops] at again
      cases again
      rw [target]
      rfl
  | popDropped call usq arg found head miss =>
      obtain ⟨-, live, -⟩ := own.popped (pops_eq call usq arg)
      simp [State.getCmd, live] at miss
  | pollDropped call usq empty mapped polling head miss =>
      obtain ⟨-, live⟩ := own.polled (polls_eq call usq empty mapped polling head)
      simp [State.getCmd, live] at miss
  | @polled t c sqid cqid cqe rest done r s₁ call usq empty mapped polling head hit cmpl =>
      obtain ⟨rfl, live⟩ := getCmd_some hit
      have polls := polls_eq call usq empty mapped polling head
      obtain ⟨same, submitted⟩ := guard.2.polled polls
      refine ⟨?_, fun _ _ pops => by simp [State.pops, call, usq, empty] at pops⟩
      intro _ _ again
      rw [polls] at again
      cases again
      exact ⟨_, _, h.answered.poll_names same live, submitted, cmpl, rfl, rfl⟩
  | _ => trivial

/-- **Conflict commands are kept apart.** For every mapping of SQs to CQs and every
order of posts, reaps, polls and pops in which no conflict entry is popped and
pollers find the resident command in flight. -/
theorem conflicts_kept_apart {τ : Topo} {as : List (Act ι)} (ordinary : ∀ a ∈ as, a.Ordinary)
    (guard : Guarded (step τ) (ApartGuard τ) (start ι) as) :
    Steps (step τ) (ApartStep τ) (start ι) as := by
  have initial : (start ι).Separate τ := by
    refine ⟨start_answered τ, start_idsInRange, fun r => ?_, fun _ _ found => by simp [start] at found,
      fun _ live => absurd rfl live, fun _ isMarked => by simp [start] at isMarked⟩
    have : tallyTo vcqMax (inVcq r) (start ι).vcqs = 0 := tallyTo_eq_zero fun _ => rfl
    omega
  exact steps_of_guarded (fun _ _ _ h g hs => step_separate h g hs)
    (fun _ _ _ h g hs => step_keeps_apart h g hs) initial (guard.of_mem ordinary)

/-- A conflict command posted with the wakeup flag, as the collision test posts it,
next to a resident one whose entry is popped. -/
def wokenRun : List (Act Unit) :=
  [.vcqInit 8, .alloc ⟨1, .cmd 0⟩ 0 1 2 false, .post ⟨1, .cmd 0⟩, .alloc ⟨1, .conflict⟩ 0 1 2 true,
    .post ⟨1, .conflict⟩, .device 0 0, .device 0 0, .reap 1, .reap 1, .cqRun () 1 1 1 false,
    .iter (), .ret (), .free ⟨1, .conflict⟩, .free ⟨1, .cmd 0⟩]

theorem conflicts_kept_apart_woken :
    (∃ s, run (step (.one true)) (start Unit) wokenRun = some s ∧ s.nrCmds = 0) ∧
      Steps (step (.one true)) (ApartStep (.one true)) (start Unit) wokenRun :=
  ⟨⟨_, rfl, rfl⟩, conflicts_kept_apart (by decide)
    (show Guarded (step (.one true)) (ApartGuard (.one true)) (start Unit) wokenRun by decide)⟩

/-- Both commands are delivered through the VCQ; the caller pops both entries. -/
def poppedRun : List (Act Unit) :=
  [.vcqInit 8, .alloc ⟨1, .cmd 0⟩ 0 1 2 false, .post ⟨1, .cmd 0⟩, .alloc ⟨1, .conflict⟩ 0 1 2 false,
    .post ⟨1, .conflict⟩, .device 0 0, .device 0 0, .reap 1, .reap 1, .cqRun () 1 1 2 false, .iter ()]

/-- The conflict command's entry is recorded on the resident command. -/
theorem pop_records_on_resident :
    ¬ ∀ as : List (Act Unit), (∀ a ∈ as, a.Ordinary) →
      Steps (step (.one true)) (ApartStep (.one true)) (start Unit) as := by
  intro all
  have bad := (all (poppedRun ++ [.iter ()]) (by decide)).last rfl rfl
  have same := congrFun (bad.2 1 _ rfl) ⟨1, .conflict⟩
  exact absurd (congrArg Cmd.state same) (by decide)

end Runs

end Unvmed.Path
