import Unvmed.Cmd.Path

/-!
VCQ ids and the VCQs behind them (`lib/libunvmed-vcq.c`).

A command carries the id of its poster's VCQ. Ids are recycled last in, first
out, and a VCQ can be freed while commands that carry its id are outstanding.

* `recycled_id_misroutes`: the completion of such a command goes to the VCQ that
  was registered next under the same id.
* `completions_go_home`: in every run where `unvmed_vcq_init` gets an id that no
  posted command carries (`FreshId`), a completion is pushed only into the VCQ
  that was registered when its command was posted.
-/

namespace Unvmed.Path

open Lib

section Home

variable {ι : Type}

/-- Every entry of a VCQ belongs to a command that was posted while this very VCQ
was registered under the command's id, or that was not posted at all. -/
def State.Routed (s : State ι) : Prop :=
  ∀ qid vcq e home, s.vcqs qid = some vcq → e ∈ vcq.entries → e.home = some home →
    home = some vcq.reg

/-- The id a new VCQ gets is carried by no posted command. -/
def FreshId (s : State ι) : Act ι → Prop
  | .vcqInit _ => ∀ qid rest, s.freeIds = qid :: rest → ∀ r, s.home r ≠ none → (s.cmds r).vcq ≠ qid
  | _ => True

/-- A posted command's id names the VCQ of its post or none. -/
structure State.AtHome (s : State ι) : Prop where
  routed : s.Routed
  current : ∀ r home vcq, s.home r = some home → vcqGet s.vcqs (s.cmds r).vcq = some vcq →
    home = some vcq.reg

theorem vcqGet_update {α : Type} {vcqs : Nat → Option α} {qid q : Nat} {x : Option α} {v : α}
    (h : vcqGet (Function.update vcqs qid x) q = some v) :
    q = qid ∧ x = some v ∨ q ≠ qid ∧ vcqGet vcqs q = some v := by
  unfold vcqGet at *
  split at h
  · cases h
  · rename_i inRange
    by_cases same : q = qid
    · subst same
      rw [Function.update_self] at h
      exact Or.inl ⟨rfl, h⟩
    · rw [Function.update_of_ne same] at h
      exact Or.inr ⟨same, by rw [if_neg inRange]; exact h⟩

/-- The VCQ at one id changes, and its entries were posted for it. -/
theorem State.Routed.setVcq {s : State ι} (h : s.Routed) {qid : Nat} {new : Option Vcq}
    (homes : ∀ v, new = some v → ∀ e ∈ v.entries, ∀ home, e.home = some home →
      home = some v.reg) : (s.setVcq qid new).Routed := by
  intro q v e home found mem was
  simp only [State.setVcq] at found
  by_cases same : q = qid
  · subst same
    rw [Function.update_self] at found
    exact homes v found e mem home was
  · rw [Function.update_of_ne same] at found
    exact h q v e home found mem was

/-- **Step lemma.** A step that posts nothing and registers nothing. -/
theorem State.AtHome.mono {s s' : State ι} (h : s.AtHome) (routed : s'.Routed)
    (posted : ∀ r home, s'.home r = some home →
      s.home r = some home ∧ (s'.cmds r).vcq = (s.cmds r).vcq)
    (regs : ∀ q v', vcqGet s'.vcqs q = some v' → ∃ v, vcqGet s.vcqs q = some v ∧ v.reg = v'.reg) :
    s'.AtHome := by
  refine ⟨routed, ?_⟩
  intro r home vcq was found
  obtain ⟨before, same⟩ := posted r home was
  rw [same] at found
  obtain ⟨v, found, reg⟩ := regs _ _ found
  rw [← reg]
  exact h.current r home v before found

/-- A command changes in fields other than its VCQ id. -/
theorem State.AtHome.setCmd {s : State ι} (h : s.AtHome) {r : Ref} {m : Cmd}
    (same : s.home r ≠ none → m.vcq = (s.cmds r).vcq) : (s.setCmd r m).AtHome := by
  refine h.mono h.routed (fun r' home was => ⟨was, ?_⟩) fun q v found => ⟨v, found, rfl⟩
  simp only [State.setCmd]
  by_cases own : r' = r
  · subst own
    rw [Function.update_self]
    have posted : s.home r' = some home := was
    exact same (by simp [posted])
  · rw [Function.update_of_ne own]

/-- A registered VCQ changes in its entries. -/
theorem State.AtHome.setVcq {s : State ι} (h : s.AtHome) {qid : Nat} {vcq vcq' : Vcq}
    (found : s.vcqs qid = some vcq) (reg : vcq'.reg = vcq.reg)
    (homes : ∀ e ∈ vcq'.entries, ∀ home, e.home = some home → home = some vcq.reg) :
    (s.setVcq qid (some vcq')).AtHome := by
  refine h.mono ?_ (fun r home was => ⟨was, rfl⟩) ?_
  · apply h.routed.setVcq
    rintro v ⟨⟩ e mem home was
    rw [reg]
    exact homes e mem home was
  · intro q v at_
    have inRange := at_
    rcases vcqGet_update at_ with ⟨rfl, hv⟩ | ⟨-, before⟩
    · cases hv
      refine ⟨vcq, ?_, reg.symm⟩
      unfold vcqGet at inRange ⊢
      split at inRange
      · cases inRange
      · rw [if_neg ‹_›]
        exact found
    · exact ⟨v, before, rfl⟩

theorem State.AtHome.completed {τ : Topo} {s s₁ : State ι} {r : Ref} {cqe : Cqe} (h : s.AtHome)
    (cmpl : Completed τ s r cqe s₁) : s₁.AtHome := by
  have counted : (s.incCount r).AtHome := ⟨h.routed, h.current⟩
  cases cmpl with
  | woken wakeup =>
      have woken := counted.setCmd (r := r) (m := (s.cmds r).wake cqe) fun _ => rfl
      exact ⟨woken.routed, woken.current⟩
  | @pushed vcq silent registered =>
      have marked := counted.setCmd (r := r) (m := (s.cmds r).setState .toBeCompleted)
        fun _ => rfl
      have found := vcqGet_some registered
      refine marked.setVcq found rfl ?_
      intro e mem home was
      rcases List.mem_append.mp mem with old | new
      · exact h.routed _ vcq e home found old was
      · cases List.mem_singleton.mp new
        exact h.current r home vcq was registered
  | dropped silent unregistered => exact counted.setCmd fun _ => rfl

variable [DecidableEq ι]

theorem State.AtHome.setCall {s : State ι} (h : s.AtHome) (t : ι) (c : Option Call) :
    (s.setCall t c).AtHome :=
  ⟨h.routed, h.current⟩

omit [DecidableEq ι] in
theorem State.AtHome.popRing {s : State ι} (h : s.AtHome) (cqid : Nat) : (s.popRing cqid).AtHome :=
  ⟨h.routed, h.current⟩

omit [DecidableEq ι] in
theorem State.AtHome.pop {s : State ι} (h : s.AtHome) {qid : Nat} {vcq : Vcq} {e : Entry}
    {rest : List Entry} (found : s.vcqs qid = some vcq) (head : vcq.entries = e :: rest) :
    (s.setVcq qid (some { vcq with entries := rest })).AtHome := by
  refine h.setVcq found rfl ?_
  intro e' mem home was
  exact h.routed qid vcq e' home found (by rw [head]; exact List.mem_cons_of_mem _ mem) was

theorem step_atHome {τ : Topo} {s s' : State ι} {a : Act ι} (h : s.AtHome) (guard : FreshId s a)
    (hstep : step τ s a = some s') : s'.AtHome := by
  have effect := step_cases hstep
  cases effect with
  | alloc empty unposted => exact h.setCmd fun posted => absurd unposted posted
  | @post r live unposted =>
      refine ⟨h.routed, ?_⟩
      intro r' home vcq was found
      simp only [State.setCmd] at was found
      by_cases same : r' = r
      · subst same
        rw [Function.update_self] at was found
        rw [Cmd.setState_vcq] at found
        rw [found] at was
        cases was
        rfl
      · rw [Function.update_of_ne same] at was found
        exact h.current r' home vcq was found
  | @free r live settled =>
      refine h.mono h.routed ?_ fun q v found => ⟨v, found, rfl⟩
      intro r' home was
      simp only [State.setCmd] at was ⊢
      by_cases same : r' = r
      · subst same
        rw [Function.update_self] at was
        cases was
      · rw [Function.update_of_ne same] at was ⊢
        exact ⟨was, rfl⟩
  | device working mapped => exact ⟨h.routed, h.current⟩
  | reapDropped head miss => exact h.popRing _
  | reaped head hit cmpl => exact (h.completed cmpl).popRing _
  | cqRun idle | vcqRun idle | waited call nothing => exact h.setCall _ _
  | popped call usq found head => exact (h.pop found head).setCall _ _
  | recorded call usq arg found head hit =>
      exact ((h.pop found head).setCmd (m := Cmd.record _ _) fun _ => rfl).setCall _ _
  | popDropped call usq arg found head miss => exact (h.pop found head).setCall _ _
  | pollDropped call usq empty mapped polling head miss => exact (h.popRing _).setCall _ _
  | polled call usq empty mapped polling head hit cmpl =>
      exact ((h.completed cmpl).popRing _).setCall _ _
  | ret call => exact ⟨h.routed, h.current⟩
  | @timedOut r cqe s₁ isSubmitted cmpl =>
      exact (h.setCmd (r := r) (m := { s.cmds r with timedout := true }) fun _ => rfl).completed
        cmpl
  | cancelled cmpl open_ => exact h.completed cmpl
  | cancelledAllocated cmpl allocated => exact h.completed cmpl
  | cancelSkipped | cancelAllocatedSkipped | vcqInitFull => exact h
  | @vcqInit qsize qid rest next =>
      have fresh := guard qid rest next
      have routed : (s.setVcq qid (some ⟨s.nextReg, qsize, []⟩)).Routed := by
        apply h.routed.setVcq
        rintro v ⟨⟩ e mem
        cases mem
      constructor
      · exact routed
      · intro r home v was found
        have posted : s.home r = some home := was
        rcases vcqGet_update found with ⟨same, -⟩ | ⟨-, before⟩
        · exact absurd same (fresh r (by simp [posted]))
        · exact h.current r home v was before
  | @vcqFree qid vcq found =>
      refine h.mono ?_ (fun r home was => ⟨was, rfl⟩) ?_
      · apply h.routed.setVcq
        intro v gone
        cases gone
      · intro q v at_
        obtain ⟨-, gone⟩ | ⟨-, before⟩ := vcqGet_update at_
        · cases gone
        · exact ⟨v, before, rfl⟩

/-- **VCQ routing is stable.** In every run where a new VCQ never gets an id that a
posted command carries, completions go to the VCQ of their post or are dropped. -/
theorem completions_go_home {τ : Topo} {as : List (Act ι)} {s : State ι}
    (guard : Guarded (step τ) FreshId (start ι) as)
    (hrun : run (step τ) (start ι) as = some s) : s.Routed := by
  have initial : (start ι).AtHome :=
    ⟨fun _ _ _ _ found => by simp [start] at found, fun _ _ _ was => by simp [start] at was⟩
  exact (run_inv (fun _ _ _ h g hs => step_atHome h g hs) initial guard hrun).routed

/-- The command is popped and freed before its VCQ is freed and the id reused. -/
def tidyRun : List (Act Unit) :=
  [.vcqInit 8, .alloc ⟨1, .cmd 0⟩ 0 1 2 false, .post ⟨1, .cmd 0⟩, .device 0 0, .reap 1,
    .cqRun () 1 1 4 true, .iter (), .iter (), .ret (), .free ⟨1, .cmd 0⟩, .vcqFree 1, .vcqInit 8,
    .alloc ⟨1, .cmd 0⟩ 0 1 2 false, .post ⟨1, .cmd 0⟩, .device 0 0, .reap 1]

theorem tidyRun_fresh : Guarded (step (.one true)) FreshId (start Unit) tidyRun := by
  apply And.intro (fun _ _ _ r posted => absurd rfl posted)
  iterate 10 refine And.intro trivial ?_
  -- At the second `unvmed_vcq_init` the only command ever posted is freed.
  refine And.intro (fun qid rest next r posted => absurd ?_ posted) ?_
  · by_cases same : r = ⟨1, .cmd 0⟩
    · subst same
      rfl
    · have freed : ∀ x, Function.update (Function.update (start Unit).home ⟨1, .cmd 0⟩ x)
          ⟨1, .cmd 0⟩ none r = none := fun x => by simp [same, start]
      exact freed _
  · iterate 4 refine And.intro trivial ?_
    trivial

theorem completions_go_home_tidy :
    ∃ s vcq, run (step (.one true)) (start Unit) tidyRun = some s ∧ s.vcqs 1 = some vcq ∧
      vcq.reg = 1 ∧ vcq.entries.length = 1 ∧ s.Routed :=
  ⟨_, _, rfl, rfl, rfl, rfl, completions_go_home tidyRun_fresh rfl⟩

/-- The VCQ is freed and its id reused while the command is outstanding. -/
def recycledRun : List (Act Unit) :=
  [.vcqInit 8, .alloc ⟨1, .cmd 0⟩ 0 1 2 false, .post ⟨1, .cmd 0⟩, .vcqFree 1, .vcqInit 8,
    .device 0 0, .reap 1]

/-- A completion reaches the VCQ that was registered later under the same id. -/
theorem recycled_id_misroutes :
    ¬ ∀ (as : List (Act Unit)) (s : State Unit),
      run (step (.one true)) (start Unit) as = some s → s.Routed := by
  intro all
  have bad := all recycledRun _ rfl 1 _ _ _ rfl (List.mem_singleton.mpr rfl) rfl
  exact absurd bad (by decide)

end Home

end Unvmed.Path
