import Unvmed.Cmd.Path

/-!
Routing of completions by queue id and command id.

Several SQs may share a CQ. The reaper looks a completion's command up in the SQ
that the entry names; a polling caller, and a caller that pops its VCQ, look it
up in the SQ they run for.

* `poller_completes_other_queue`: with two SQs on one CQ a poller takes the other
  queue's entry and completes its own command of the same id.
* `completions_are_routed`: in every run where each caller meets entries of its
  own SQ only (`OwnQueue`), every entry taken from a CQ is delivered to, and every
  entry popped from a VCQ is recorded on, a command of the SQ it names with the
  id it names.
-/

namespace Unvmed.Path

open Lib

section Statement

variable {ι : Type}

/-- The action is not a timeout or a cancellation, which complete a command
without an entry of the device. -/
def Act.Ordinary : Act ι → Prop
  | .timeout _ | .cancel _ | .cancelAllocated _ => False
  | _ => True

instance : DecidablePred (Act.Ordinary (ι := ι))
  | .timeout _ | .cancel _ | .cancelAllocated _ => .isFalse not_false
  | .alloc .. | .post _ | .free _ | .device .. | .reap _ | .cqRun .. | .vcqRun .. | .iter _
  | .ret _ | .vcqInit _ | .vcqFree _ => .isTrue trivial

/-- `cqe` names the command at `r`. -/
def State.Names (s : State ι) (cqe : Cqe) (r : Ref) : Prop :=
  r.sqid = cqe.sqid ∧ (s.cmds r).cid = cqe.cid

/-- The entry `cqe` completes the command it names, and no other changes. -/
def Delivered (τ : Topo) (s : State ι) (cqe : Cqe) (s' : State ι) : Prop :=
  ∃ r s₁, s.Names cqe r ∧ Completed τ s r cqe s₁ ∧ s'.cmds = s₁.cmds ∧ s'.vcqs = s₁.vcqs

/-- The entry `cqe` is recorded on the command it names, and no other changes. -/
def Recorded (s : State ι) (cqe : Cqe) (s' : State ι) : Prop :=
  ∃ r, s.Names cqe r ∧ s'.cmds = Function.update s.cmds r ((s.cmds r).record cqe)

/-- What an action does with the entry it takes from a CQ or pops from a VCQ. -/
def RoutedStep (τ : Topo) (s : State ι) (a : Act ι) (s' : State ι) : Prop :=
  match a with
  | .reap cqid => ∀ cqe rest, s.rings cqid = cqe :: rest → Delivered τ s cqe s'
  | .iter t => (∀ sqid cqe, s.polls τ t = some (sqid, cqe) → Delivered τ s cqe s') ∧
      ∀ sqid e, s.pops t = some (sqid, e) → Recorded s e.vcqe.cqe s'
  | _ => True

/-- A caller polls and pops entries of its own SQ, whose `cmds[cid]` is in use and,
for a pop, no longer in flight. -/
def OwnQueue (τ : Topo) (s : State ι) : Act ι → Prop
  | .iter t =>
      (match s.polls τ t with
        | none => True
        | some (sqid, cqe) => cqe.sqid = sqid ∧ (s.cmds ⟨sqid, .cmd cqe.cid⟩).state ≠ .init) ∧
      match s.pops t with
        | none => True
        | some (sqid, e) => e.vcqe.cqe.sqid = sqid ∧
            (s.cmds ⟨sqid, .cmd e.vcqe.cqe.cid⟩).state ≠ .init ∧
            (s.cmds ⟨sqid, .cmd e.vcqe.cqe.cid⟩).state ≠ .submitted
  | _ => True

instance (τ : Topo) (s : State ι) : DecidablePred (OwnQueue τ s)
  | .iter t =>
      @instDecidableAnd _ _
        (match s.polls τ t with
          | none => .isTrue trivial
          | some (_, _) => inferInstanceAs (Decidable (_ ∧ _)))
        (match s.pops t with
          | none => .isTrue trivial
          | some (_, _) => inferInstanceAs (Decidable (_ ∧ _ ∧ _)))
  | .alloc .. | .post _ | .free _ | .device .. | .reap _ | .cqRun .. | .vcqRun .. | .ret _
  | .timeout _ | .cancel _ | .cancelAllocated _ | .vcqInit _ | .vcqFree _ => .isTrue trivial

/-! ### Every entry has a submitted command -/

/-- 1 if the command waits for an entry with id `cid`. -/
def awaits (cid : Nat) (cmd : Cmd) : Nat := if cmd.state = .submitted ∧ cmd.cid = cid then 1 else 0

/-- The commands of a queue that wait for an entry with id `cid`. -/
def State.awaiting (s : State ι) (sqid cid : Nat) : Nat :=
  awaits cid (s.cmds ⟨sqid, .cmd cid⟩) + awaits cid (s.cmds ⟨sqid, .conflict⟩)

/-- The entries for `cid` of a queue that wait in its CQ. -/
def State.entries (τ : Topo) (s : State ι) (sqid cid : Nat) : Nat := match τ.cqOf sqid with
  | none => 0
  | some cqid => (s.rings cqid).countP fun cqe => cqe.sqid = sqid ∧ cqe.cid = cid

/-- The device and the CQs hold no more entries than there are commands in
flight, and each CQ holds entries of its own SQs. -/
structure State.Answered (τ : Topo) (s : State ι) : Prop where
  mapped : ∀ cqid, ∀ cqe ∈ s.rings cqid, τ.cqOf cqe.sqid = some cqid
  known : ∀ sqid cid, s.entries τ sqid cid + s.sqes.count (sqid, cid) ≤ s.awaiting sqid cid
  cids : ∀ sqid cid, (s.cmds ⟨sqid, .cmd cid⟩).state ≠ .init →
    (s.cmds ⟨sqid, .cmd cid⟩).cid = cid
  posted : ∀ r, (s.cmds r).state = .submitted → s.home r ≠ none

theorem awaits_of_ne {cid : Nat} {cmd : Cmd} (h : cmd.state ≠ .submitted) : awaits cid cmd = 0 :=
  if_neg fun both => h both.1

theorem awaits_le (cid : Nat) (cmd : Cmd) : awaits cid cmd ≤ if cmd.cid = cid then 1 else 0 := by
  unfold awaits
  split
  · rename_i both
    rw [if_pos both.2]
  · exact Nat.zero_le _

/-- One command changes: its old weight leaves, its new weight enters. -/
theorem awaiting_setCmd (s : State ι) (r : Ref) (cmd : Cmd) (sqid cid : Nat) :
    (s.setCmd r cmd).awaiting sqid cid +
        (if r = ⟨sqid, .cmd cid⟩ ∨ r = ⟨sqid, .conflict⟩ then awaits cid (s.cmds r) else 0) =
      s.awaiting sqid cid +
        if r = ⟨sqid, .cmd cid⟩ ∨ r = ⟨sqid, .conflict⟩ then awaits cid cmd else 0 := by
  simp only [State.awaiting, State.setCmd]
  by_cases resident : r = ⟨sqid, .cmd cid⟩
  · subst resident
    simp [Function.update]
    omega
  · by_cases conflict : r = ⟨sqid, .conflict⟩
    · subst conflict
      simp [Function.update]
      omega
    · simp [Function.update, Ne.symm resident, Ne.symm conflict, resident, conflict]

theorem awaiting_mono {s : State ι} {r : Ref} {cmd : Cmd} (idle : (s.cmds r).state ≠ .submitted)
    (sqid cid : Nat) : s.awaiting sqid cid ≤ (s.setCmd r cmd).awaiting sqid cid := by
  have := awaiting_setCmd s r cmd sqid cid
  rw [awaits_of_ne idle] at this
  split at this <;> omega

/-- The command at the head of a CQ is in flight. -/
theorem State.Answered.head_awaited {τ : Topo} {s : State ι} (h : s.Answered τ) {cqid : Nat}
    {cqe : Cqe} {rest : List Cqe} (head : s.rings cqid = cqe :: rest) :
    τ.cqOf cqe.sqid = some cqid ∧ 0 < s.awaiting cqe.sqid cqe.cid := by
  have mapped := h.mapped cqid cqe (by rw [head]; exact List.mem_cons_self)
  have known := h.known cqe.sqid cqe.cid
  simp only [State.entries, mapped, head, List.countP_cons, decide_true, and_self, if_true] at known
  exact ⟨mapped, by omega⟩

/-- The reaper finds the command that the head entry names. -/
theorem State.Answered.reaper_finds {τ : Topo} {s : State ι} (h : s.Answered τ) {cqid : Nat}
    {cqe : Cqe} {rest : List Cqe} (head : s.rings cqid = cqe :: rest) :
    ∃ r, s.getCmdOnReaper τ cqe = some r := by
  obtain ⟨mapped, waits⟩ := h.head_awaited head
  simp only [State.getCmdOnReaper, mapped]
  by_cases resident : (s.cmds ⟨cqe.sqid, .cmd cqe.cid⟩).state = .submitted
  · exact ⟨_, if_neg (not_not.mpr resident)⟩
  · rw [if_pos resident]
    rw [State.awaiting, awaits_of_ne resident] at waits
    unfold awaits at waits
    split at waits
    · rename_i conflict
      exact ⟨_, if_neg (by simp [conflict.1, conflict.2])⟩
    · omega

theorem State.Answered.names {τ : Topo} {s : State ι} (h : s.Answered τ) {cqe : Cqe} {r : Ref}
    (hit : s.getCmdOnReaper τ cqe = some r) : s.Names cqe r := by
  obtain ⟨submitted, sqid, slot⟩ := getCmdOnReaper_some hit
  refine ⟨sqid, ?_⟩
  obtain ⟨q, slot'⟩ := r
  obtain rfl | ⟨-, cid, -⟩ := slot
  · exact h.cids q _ (by rw [submitted]; decide)
  · exact cid

theorem State.Answered.entries_popRing {τ : Topo} {s : State ι} (h : s.Answered τ) {cqid : Nat}
    {cqe : Cqe} {rest : List Cqe} (head : s.rings cqid = cqe :: rest) (sqid cid : Nat) :
    (s.popRing cqid).entries τ sqid cid + (if cqe.sqid = sqid ∧ cqe.cid = cid then 1 else 0) =
      s.entries τ sqid cid := by
  have mapped := (h.head_awaited head).1
  cases hq : τ.cqOf sqid with
  | none =>
      have other : cqe.sqid ≠ sqid := by
        rintro rfl
        simp [hq] at mapped
      simp [State.entries, hq, other]
  | some q =>
      simp only [State.entries, hq, State.popRing]
      by_cases same : q = cqid
      · subst same
        rw [Function.update_self, head, List.tail_cons, List.countP_cons]
        simp only [decide_eq_true_eq]
      · have other : cqe.sqid ≠ sqid := by
          rintro rfl
          rw [mapped] at hq
          exact same (Option.some.inj hq).symm
        rw [Function.update_of_ne same]
        simp [other]

/-- The head entry of a CQ completes a command that it names. -/
theorem State.Answered.taken {τ : Topo} {s s₁ : State ι} (h : s.Answered τ) {cqid : Nat}
    {cqe : Cqe} {rest : List Cqe} {r : Ref} (head : s.rings cqid = cqe :: rest)
    (names : s.Names cqe r) (live : (s.cmds r).state ≠ .init) (cmpl : Completed τ s r cqe s₁) :
    (s₁.popRing cqid).Answered τ := by
  obtain ⟨cmd, hcmds, cid, state⟩ := cmpl.cmds
  have settled : cmd.state ≠ .submitted := by
    obtain state | state := state <;> simp [state]
  refine ⟨fun q c mem => h.mapped q c ?_, ?_, ?_, ?_⟩
  · simp only [State.popRing, cmpl.rings] at mem
    by_cases same : q = cqid
    · subst same
      rw [Function.update_self] at mem
      exact List.mem_of_mem_tail mem
    · rwa [Function.update_of_ne same] at mem
  · intro sqid c
    have popped := h.entries_popRing head sqid c
    have moved := awaiting_setCmd s r cmd sqid c
    have rings : (s₁.popRing cqid).entries τ sqid c = (s.popRing cqid).entries τ sqid c := by
      simp only [State.entries, State.popRing, cmpl.rings]
    have awaiting : (s₁.popRing cqid).awaiting sqid c = (s.setCmd r cmd).awaiting sqid c := by
      simp only [State.awaiting, State.popRing, State.setCmd, hcmds]
    have sqes : (s₁.popRing cqid).sqes = s.sqes := cmpl.sqes
    have known := h.known sqid c
    have old := awaits_le c (s.cmds r)
    rw [awaits_of_ne settled] at moved
    rw [rings, awaiting, sqes]
    -- Only the entry's own id can lose a waiting command.
    by_cases named : cqe.sqid = sqid ∧ cqe.cid = c
    · rw [if_pos named] at popped
      split at moved <;> split at old <;> omega
    · rw [if_neg named] at popped
      split at moved
      · rename_i own
        have sqid_eq : r.sqid = sqid := by obtain rfl | rfl := own <;> rfl
        have : (s.cmds r).cid ≠ c := fun same =>
          named ⟨names.1.symm.trans sqid_eq, names.2.symm.trans same⟩
        rw [if_neg this] at old
        omega
      · omega
  · intro sqid c used
    simp only [State.popRing, hcmds] at used ⊢
    by_cases same : (⟨sqid, .cmd c⟩ : Ref) = r
    · subst same
      rw [Function.update_self, cid]
      exact h.cids sqid c live
    · rw [Function.update_of_ne same] at used ⊢
      exact h.cids sqid c used
  · intro r' submitted
    simp only [State.popRing, hcmds, cmpl.home] at submitted ⊢
    by_cases same : r' = r
    · subst same
      rw [Function.update_self] at submitted
      exact absurd submitted settled
    · rw [Function.update_of_ne same] at submitted
      exact h.posted r' submitted

/-- **Step lemma.** A command that is not in flight changes and stays so. -/
theorem State.Answered.setCmd {τ : Topo} {s : State ι} (h : s.Answered τ) {r : Ref} {m : Cmd}
    (idle : (s.cmds r).state ≠ .submitted) (settled : m.state ≠ .submitted)
    (cid : ∀ c, r.slot = .cmd c → m.state ≠ .init → m.cid = c) : (s.setCmd r m).Answered τ := by
  refine ⟨h.mapped, fun sqid c => (h.known sqid c).trans (awaiting_mono idle sqid c), ?_, ?_⟩
  · intro sqid c live
    simp only [State.setCmd] at live ⊢
    by_cases same : (⟨sqid, .cmd c⟩ : Ref) = r
    · subst same
      rw [Function.update_self] at live ⊢
      exact cid c rfl live
    · rw [Function.update_of_ne same] at live ⊢
      exact h.cids sqid c live
  · intro r' submitted
    simp only [State.setCmd] at submitted ⊢
    by_cases same : r' = r
    · subst same
      rw [Function.update_self] at submitted
      exact absurd submitted settled
    · rw [Function.update_of_ne same] at submitted
      exact h.posted r' submitted

/-- VCQs and calls are not accounted for. -/
theorem State.Answered.frame {τ : Topo} {s s' : State ι} (h : s.Answered τ)
    (cmds : s'.cmds = s.cmds) (rings : s'.rings = s.rings) (sqes : s'.sqes = s.sqes)
    (home : s'.home = s.home) : s'.Answered τ := by
  obtain ⟨cmds', rings', vcqs', freeIds', nextReg', nrCmds', cmdCount', calls', sqes', home', pending'⟩
    := s'
  subst cmds rings sqes home
  exact ⟨h.mapped, h.known, h.cids, h.posted⟩

theorem State.Answered.post {τ : Topo} {s : State ι} (h : s.Answered τ) {r : Ref}
    (live : (s.cmds r).state ≠ .init) (unposted : s.home r = none) (nrCmds : Int)
    (reg : Option Nat) (pending : List Ref) :
    ({ s.setCmd r ((s.cmds r).setState .submitted) with
      nrCmds := nrCmds
      sqes := s.sqes ++ [(r.sqid, (s.cmds r).cid)]
      home := Function.update s.home r (some reg)
      pending := pending } : State ι).Answered τ := by
  have idle : (s.cmds r).state ≠ .submitted := fun submitted => h.posted r submitted unposted
  refine ⟨h.mapped, ?_, ?_, ?_⟩
  · intro sqid c
    have moved := awaiting_setCmd s r ((s.cmds r).setState .submitted) sqid c
    rw [awaits_of_ne idle] at moved
    have known := h.known sqid c
    show s.entries τ sqid c + (s.sqes ++ [(r.sqid, (s.cmds r).cid)]).count (sqid, c) ≤
      (s.setCmd r ((s.cmds r).setState .submitted)).awaiting sqid c
    rw [List.count_append, List.count_singleton]
    by_cases same : (r.sqid, (s.cmds r).cid) = (sqid, c)
    · obtain ⟨rfl, rfl⟩ := Prod.mk.inj same
      have own : r = ⟨r.sqid, .cmd (s.cmds r).cid⟩ ∨ r = ⟨r.sqid, .conflict⟩ := by
        obtain ⟨q, slot⟩ := r
        cases slot with
        | cmd c' => exact Or.inl (by rw [h.cids q c' live])
        | conflict => exact Or.inr rfl
      have now : awaits (s.cmds r).cid ((s.cmds r).setState .submitted) = 1 := if_pos ⟨rfl, rfl⟩
      rw [if_pos own, if_pos own, now] at moved
      simp only [beq_self_eq_true, if_true]
      omega
    · simp only [beq_eq_false_iff_ne.mpr same, Bool.false_eq_true, if_false]
      split at moved <;> omega
  · intro sqid c used
    simp only [State.setCmd] at used ⊢
    by_cases same : (⟨sqid, .cmd c⟩ : Ref) = r
    · subst same
      rw [Function.update_self]
      exact h.cids sqid c live
    · rw [Function.update_of_ne same] at used ⊢
      exact h.cids sqid c used
  · intro r' submitted
    simp only [State.setCmd] at submitted ⊢
    by_cases same : r' = r
    · subst same
      rw [Function.update_self]
      exact Option.some_ne_none _
    · rw [Function.update_of_ne same] at submitted ⊢
      exact h.posted r' submitted

/-- The device turns a command it works on into an entry of the right CQ. -/
theorem State.Answered.device {τ : Topo} {s : State ι} (h : s.Answered τ)
    {i sqid cid cqid : Nat} (status : Nat) (working : s.sqes[i]? = some (sqid, cid))
    (mapped : τ.cqOf sqid = some cqid) :
    ({ s with
      sqes := s.sqes.eraseIdx i
      rings := Function.update s.rings cqid (s.rings cqid ++ [⟨sqid, cid, status⟩]) } :
      State ι).Answered τ := by
  refine ⟨?_, ?_, h.cids, h.posted⟩
  · intro q cqe mem
    simp only at mem
    by_cases same : q = cqid
    · subst same
      rw [Function.update_self] at mem
      obtain old | new := List.mem_append.mp mem
      · exact h.mapped q cqe old
      · cases List.mem_singleton.mp new
        exact mapped
    · rw [Function.update_of_ne same] at mem
      exact h.mapped q cqe mem
  · intro q c
    obtain ⟨inside, hget⟩ := List.getElem?_eq_some_iff.mp working
    have perm := (List.getElem_cons_eraseIdx_perm inside).count_eq (q, c)
    rw [hget, List.count_cons] at perm
    have known := h.known q c
    have moved : (if ((sqid, cid) == (q, c)) = true then 1 else 0) =
        if sqid = q ∧ cid = c then 1 else 0 := by simp
    rw [moved] at perm
    simp only [State.entries, State.awaiting] at known ⊢
    cases hq : τ.cqOf q with
    | none =>
        simp only [hq] at known ⊢
        omega
    | some q' =>
        simp only [hq] at known ⊢
        by_cases same : q' = cqid
        · subst same
          rw [Function.update_self, List.countP_append, List.countP_singleton]
          simp only [decide_eq_true_eq]
          omega
        · have other : ¬ (sqid = q ∧ cid = c) := by
            rintro ⟨rfl, -⟩
            rw [mapped] at hq
            exact same (Option.some.inj hq).symm
          rw [Function.update_of_ne same]
          rw [if_neg other] at perm
          omega

/-- What the guard says where an iteration polls or pops. -/
theorem OwnQueue.polled {τ : Topo} {s : State ι} {t : ι} {sqid : Nat} {cqe : Cqe}
    (guard : OwnQueue τ s (.iter t)) (polls : s.polls τ t = some (sqid, cqe)) :
    cqe.sqid = sqid ∧ (s.cmds ⟨sqid, .cmd cqe.cid⟩).state ≠ .init := by
  have := guard.1
  rwa [polls] at this

theorem OwnQueue.popped {τ : Topo} {s : State ι} {t : ι} {sqid : Nat} {e : Entry}
    (guard : OwnQueue τ s (.iter t)) (pops : s.pops t = some (sqid, e)) :
    e.vcqe.cqe.sqid = sqid ∧ (s.cmds ⟨sqid, .cmd e.vcqe.cqe.cid⟩).state ≠ .init ∧
      (s.cmds ⟨sqid, .cmd e.vcqe.cqe.cid⟩).state ≠ .submitted := by
  have := guard.2
  rwa [pops] at this

/-- A polled entry names the command that the poller finds. -/
theorem State.Answered.poll_names {τ : Topo} {s : State ι} (h : s.Answered τ) {sqid : Nat}
    {cqe : Cqe} (own : cqe.sqid = sqid) (live : (s.cmds ⟨sqid, .cmd cqe.cid⟩).state ≠ .init) :
    s.Names cqe ⟨sqid, .cmd cqe.cid⟩ :=
  ⟨own.symm, h.cids sqid cqe.cid live⟩

end Statement

/-! ### Runs -/

section Runs

variable {ι : Type} [DecidableEq ι]

theorem step_answered {τ : Topo} {s s' : State ι} {a : Act ι} (h : s.Answered τ)
    (guard : a.Ordinary ∧ OwnQueue τ s a) (hstep : step τ s a = some s') : s'.Answered τ := by
  obtain ⟨ordinary, own⟩ := guard
  have effect := step_cases hstep
  cases effect with
  | @alloc r cid vcq opcode wakeup empty unposted =>
      apply h.setCmd (by rw [empty]; decide) (by simp)
      intro c slot _
      simp [slot, Slot.cidOr]
  | post live unposted => exact h.post live unposted _ _ _
  | @free r live settled =>
      have freed := h.setCmd (m := {}) settled (by simp) fun c _ used => absurd rfl used
      refine ⟨freed.mapped, freed.known, freed.cids, ?_⟩
      intro r' submitted
      have other : r' ≠ r := by
        rintro rfl
        simp [State.setCmd] at submitted
      simp only
      rw [Function.update_of_ne other]
      exact freed.posted r' submitted
  | device working mapped => exact h.device _ working mapped
  | reapDropped head miss =>
      obtain ⟨r, hit⟩ := h.reaper_finds head
      simp [hit] at miss
  | reaped head hit cmpl =>
      refine h.taken head (h.names hit) ?_ cmpl
      rw [(getCmdOnReaper_some hit).1]
      decide
  | cqRun idle | vcqRun idle | waited call nothing => exact h.frame rfl rfl rfl rfl
  | popped call usq found head => exact h.frame rfl rfl rfl rfl
  | @recorded t c sqid qid vcq e rest r call usq arg found head hit =>
      obtain ⟨rfl, live⟩ := getCmd_some hit
      obtain ⟨-, -, settled⟩ := own.popped (pops_eq call usq arg)
      have recorded := h.setCmd (r := ⟨sqid, .cmd e.vcqe.cqe.cid⟩)
        (m := (s.cmds ⟨sqid, .cmd e.vcqe.cqe.cid⟩).record e.vcqe.cqe) settled (by simp)
        fun c' slot _ => by
          cases slot
          exact h.cids sqid _ live
      exact recorded.frame rfl rfl rfl rfl
  | popDropped call usq arg found head miss => exact h.frame rfl rfl rfl rfl
  | @pollDropped t c sqid cqid cqe rest done call usq empty mapped polling head miss =>
      obtain ⟨-, live⟩ := own.polled (polls_eq call usq empty mapped polling head)
      simp [State.getCmd, live] at miss
  | @polled t c sqid cqid cqe rest done r s₁ call usq empty mapped polling head hit cmpl =>
      obtain ⟨rfl, live⟩ := getCmd_some hit
      obtain ⟨same, -⟩ := own.polled (polls_eq call usq empty mapped polling head)
      exact (h.taken head (h.poll_names same live) live cmpl).frame rfl rfl rfl rfl
  | ret call => exact h.frame rfl rfl rfl rfl
  | timedOut isSubmitted cmpl => exact ordinary.elim
  | cancelled cmpl open_ => exact ordinary.elim
  | cancelledAllocated cmpl allocated => exact ordinary.elim
  | cancelSkipped | cancelAllocatedSkipped | vcqInitFull => exact h
  | vcqInit next => exact h.frame rfl rfl rfl rfl
  | vcqFree found => exact h.frame rfl rfl rfl rfl

/-- The entry of one step goes where it belongs. -/
theorem step_routed {τ : Topo} {s s' : State ι} {a : Act ι} (h : s.Answered τ)
    (guard : a.Ordinary ∧ OwnQueue τ s a) (hstep : step τ s a = some s') :
    RoutedStep τ s a s' := by
  obtain ⟨-, own⟩ := guard
  have effect := step_cases hstep
  cases effect with
  | reapDropped head miss =>
      obtain ⟨r, hit⟩ := h.reaper_finds head
      simp [hit] at miss
  | reaped head hit cmpl =>
      intro cqe rest top
      rw [head] at top
      cases top
      exact ⟨_, _, h.names hit, cmpl, rfl, rfl⟩
  | waited call nothing =>
      exact ⟨fun _ _ polls => by simp [nothing.1] at polls,
        fun _ _ pops => by simp [nothing.2] at pops⟩
  | popped call usq found head =>
      exact ⟨fun _ _ polls => by simp [State.polls, call, usq] at polls,
        fun _ _ pops => by simp [State.pops, call, usq] at pops⟩
  | @recorded t c sqid qid vcq e rest r call usq arg found head hit =>
      obtain ⟨rfl, live⟩ := getCmd_some hit
      have pops := pops_eq call usq arg
      obtain ⟨same, -, -⟩ := own.popped pops
      refine ⟨fun _ _ polls => by simp [polls_eq_none call arg] at polls, ?_⟩
      intro _ _ again
      rw [pops] at again
      cases again
      exact ⟨_, h.poll_names same live, rfl⟩
  | popDropped call usq arg found head miss =>
      obtain ⟨-, live, -⟩ := own.popped (pops_eq call usq arg)
      simp [State.getCmd, live] at miss
  | pollDropped call usq empty mapped polling head miss =>
      obtain ⟨-, live⟩ := own.polled (polls_eq call usq empty mapped polling head)
      simp [State.getCmd, live] at miss
  | @polled t c sqid cqid cqe rest done r s₁ call usq empty mapped polling head hit cmpl =>
      obtain ⟨rfl, live⟩ := getCmd_some hit
      have polls := polls_eq call usq empty mapped polling head
      obtain ⟨same, -⟩ := own.polled polls
      refine ⟨?_, fun _ _ pops => by simp [State.pops, call, usq, empty] at pops⟩
      intro _ _ again
      rw [polls] at again
      cases again
      exact ⟨_, _, h.poll_names same live, cmpl, rfl, rfl⟩
  | _ => trivial

omit [DecidableEq ι] in
theorem start_answered (τ : Topo) : (start ι).Answered τ := by
  refine ⟨fun _ _ mem => absurd mem List.not_mem_nil, fun sqid cid => ?_,
    fun _ _ used => absurd rfl used, fun _ submitted => by simp [start] at submitted⟩
  cases hq : τ.cqOf sqid <;> simp [State.entries, start, hq]

/-- **Completion routing.** For every mapping of SQs to CQs and every mix of
reapers and callers that meet entries of their own SQ only. -/
theorem completions_are_routed {τ : Topo} {as : List (Act ι)} (ordinary : ∀ a ∈ as, a.Ordinary)
    (guard : Guarded (step τ) (OwnQueue τ) (start ι) as) :
    Steps (step τ) (RoutedStep τ) (start ι) as :=
  steps_of_guarded (fun _ _ _ h g hs => step_answered h g hs)
    (fun _ _ _ h g hs => step_routed h g hs) (start_answered τ) (guard.of_mem ordinary)

/-- SQs 1 and 2 on CQ 1, without interrupts. -/
def Topo.shared : Topo :=
  ⟨fun q => if q = 1 ∨ q = 2 then some 1 else none, fun _ => 4, fun _ => false, 0⟩

/-- Each of two queues on one CQ gets its own entry. -/
def fairRun : List (Act Thread) :=
  [.vcqInit 8, .alloc ⟨1, .cmd 0⟩ 0 1 2 false, .post ⟨1, .cmd 0⟩, .alloc ⟨2, .cmd 0⟩ 0 0 2 true,
    .post ⟨2, .cmd 0⟩, .device 1 0, .cqRun .b 2 0 4 true, .iter .b, .ret .b, .device 0 0,
    .cqRun .a 1 1 1 false, .iter .a, .iter .a, .ret .a]

theorem completions_are_routed_fair :
    (∃ s, run (step .shared) (start Thread) fairRun = some s ∧ s.nrCmds = 0) ∧
      Steps (step .shared) (RoutedStep .shared) (start Thread) fairRun :=
  ⟨⟨_, rfl, rfl⟩, completions_are_routed (by decide)
    (show Guarded (step .shared) (OwnQueue .shared) (start Thread) fairRun by decide)⟩

/-- Both queues have a command with id 0; the device completes that of queue 2,
and a caller polls for queue 1. -/
def stolenRun : List (Act Unit) :=
  [.alloc ⟨1, .cmd 0⟩ 0 0 2 false, .post ⟨1, .cmd 0⟩, .alloc ⟨2, .cmd 0⟩ 0 0 2 false,
    .post ⟨2, .cmd 0⟩, .device 1 0, .cqRun () 1 0 4 true]

/-- A poller completes its own command with another queue's entry. -/
theorem poller_completes_other_queue :
    ¬ ∀ as : List (Act Unit), (∀ a ∈ as, a.Ordinary) →
      Steps (step .shared) (RoutedStep .shared) (start Unit) as := by
  intro all
  have bad := (all (stolenRun ++ [.iter ()]) (by decide)).last rfl rfl
  obtain ⟨r, s₁, names, cmpl, hcmds, -⟩ := bad.1 1 ⟨2, 0, 0⟩ rfl
  obtain ⟨cmd, moved, -, -⟩ := cmpl.cmds
  have other : (⟨1, .cmd 0⟩ : Ref) ≠ r := by
    rintro rfl
    exact absurd names.1 (by decide)
  have same := congrFun (hcmds.trans moved) ⟨1, .cmd 0⟩
  rw [Function.update_of_ne other] at same
  exact absurd (congrArg Cmd.state same) (by decide)

end Runs

end Unvmed.Path
