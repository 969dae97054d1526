import Unvmed.Queue.Vectors

/-!
The reference counts of the interrupt vectors.

A vector should count the initialised CQs that use it. The count is taken before a chain of
steps that may fail and is dropped when a CQ is deleted; `irqs_counted` says of which calls
the two stay in step over a whole run.
-/

namespace Unvmed.Vectors

open Lib Irq

/-- One for an initialised CQ whose interrupt vector is `v`. -/
def uses (v : Nat) : Option Cq → Nat
  | none => 0
  | some c => if c.q = true ∧ c.vector = v then 1 else 0

/-- The initialised CQs whose interrupt vector is `v`. -/
def State.users (nr : Nat) (s : State) (v : Nat) : Nat := tallyTo nr (uses v) s.cqs

/-- Every vector counts its users, and a vector that is used has its reaper and the reaper's
thread. -/
def State.IrqsCounted (nr : Nat) (s : State) : Prop :=
  ∀ v < s.irqs.nr, (s.irqs.reapers v).refcnt = s.users nr v ∧
    (0 < (s.irqs.reapers v).refcnt →
      (s.irqs.reapers v).ready = true ∧ (s.irqs.reapers v).running = true)

/-! ### Condition -/

/-- A CQ with an interrupt vector gets its reaper, and once it has taken the vector nothing
fails up to the end of `unvmed_init_ucq`, which finds no instance from before. A CQ without
one finds no instance from before that is not enabled. -/
def State.countable (s : State) (qid : Nat) (vector : Int) (o : Outcome) (pass : Bool) : Bool :=
  if vector < 0 then !pass || match s.cqs qid with
    | some c => c.enabled
    | none => true
  else (decide (s.irqs.nr ≤ vector.toNat) || decide (0 < (s.irqs.reapers vector.toNat).refcnt) ||
      o.irq != .reaper) &&
    (!s.irqReady vector o.irq || pass && (s.cqs qid).isNone && o.allocated)

/-- `__unvmed_init_cq` discards no queue of a CQ with an interrupt vector. -/
def State.spares (s : State) (qid : Nat) (vector : Int) (o : Outcome) (pass : Bool) : Bool :=
  !(s.irqReady vector o.irq && pass) || match s.cqs qid with
    | some c => decide (c.vector < 0)
    | none => true

/-- Both conditions on `__unvmed_init_cq`. -/
def State.initCountable (nr : Nat) (s : State) (qid : Nat) (vector : Int) (o : Outcome) : Bool :=
  s.countable qid vector o (o.accepts nr qid) && s.spares qid vector o (o.accepts nr qid)

/-- The condition on a call. -/
def Countable (nr : Nat) (s : State) : Act → Prop
  | .createAdminq irq o => (o.disabled = true → s.initCountable nr 0 0 o.cq = true) ∧
      (irq = true ∨ s.adminqReady nr o = false)
  | .createCq qid vector o => s.countable qid vector o (o.creates nr qid) = true
  | .initCq qid vector o => s.initCountable nr qid vector o = true
  | .initCqIova qid vector o => o.mapped = true → s.initCountable nr qid vector o = true
  | .deleteCq _ _ | .freeCq _ _ | .reset | .freeCtx _ | .resetGraceful _ => True

instance (nr : Nat) (s : State) : DecidablePred (Countable nr s)
  | .createAdminq _ _ => inferInstanceAs (Decidable (_ ∧ _))
  | .createCq _ _ _ => inferInstanceAs (Decidable (_ = true))
  | .initCq _ _ _ => inferInstanceAs (Decidable (_ = true))
  | .initCqIova _ _ _ => inferInstanceAs (Decidable (_ = true → _ = true))
  | .deleteCq _ _ | .freeCq _ _ | .reset | .freeCtx _ | .resetGraceful _ => .isTrue trivial

/-! ### Invariant -/

/-- What holds of a CQ in a slot. -/
structure State.Settled (nr : Nat) (s : State) (qid : Nat) (c : Cq) : Prop where
  one : c.refcnt = 1
  inside : qid < nr
  vector : c.vector < s.irqs.nr
  initialised : 0 ≤ c.vector → c.q = true

structure State.Counted (nr : Nat) (s : State) : Prop where
  settled : ∀ qid c, s.cqs qid = some c → s.Settled nr qid c
  counted : s.IrqsCounted nr

theorem start_counted (nr nrIrqs : Nat) : (start nrIrqs).Counted nr where
  settled := fun _ _ there => nomatch there
  counted := by
    intro v _
    have none : (start nrIrqs).users nr v = 0 := tallyTo_eq_zero fun _ => rfl
    rw [none]
    exact ⟨rfl, fun used => absurd used (Nat.lt_irrefl 0)⟩

section Steps

variable {nr : Nat} {s s' : State}

theorem uses_away {v : Nat} {c : Cq} (away : ¬ c.vector = (v : Int)) : uses v (some c) = 0 :=
  if_neg fun both => away both.2

/-- Only what the counts depend on matters. -/
def Cq.usage (c : Cq) : Nat × Bool × Int := (c.refcnt, c.q, c.vector)

theorem uses_usage {v : Nat} {c c' : Option Cq} (same : c.map Cq.usage = c'.map Cq.usage) :
    uses v c = uses v c' := by
  cases c with
  | none =>
      rw [Option.map_none, eq_comm, Option.map_eq_none_iff] at same
      rw [same]
  | some c =>
      rw [Option.map_some, eq_comm] at same
      obtain ⟨d, rfl, usage⟩ := Option.map_eq_some_iff.mp same
      obtain ⟨-, q, vector⟩ : d.refcnt = c.refcnt ∧ d.q = c.q ∧ d.vector = c.vector := by
        simpa [Cq.usage] using usage
      simp only [uses, q, vector]

theorem State.Counted.congr (h : s.Counted nr) (irqs : s'.irqs = s.irqs)
    (cqs : ∀ qid, (s'.cqs qid).map Cq.usage = (s.cqs qid).map Cq.usage) : s'.Counted nr := by
  constructor
  · intro qid c' there
    have usage := cqs qid
    rw [there, Option.map_some] at usage
    obtain ⟨c, before, same⟩ := Option.map_eq_some_iff.mp usage.symm
    obtain ⟨refcnt, q, vector⟩ : c.refcnt = c'.refcnt ∧ c.q = c'.q ∧ c.vector = c'.vector := by
      simpa [Cq.usage] using same
    have settled := h.settled qid c before
    exact ⟨refcnt ▸ settled.one, settled.inside, irqs ▸ vector ▸ settled.vector,
      q ▸ vector ▸ settled.initialised⟩
  · intro v known
    have same : s'.users nr v = s.users nr v := tallyTo_congr fun qid => uses_usage (cqs qid)
    rw [irqs] at known ⊢
    rw [same]
    exact h.counted v known

theorem State.Counted.setEnabled (h : s.Counted nr) (qid : Nat) (enabled : Bool) :
    (s.setEnabled qid enabled).Counted nr :=
  h.congr rfl (s.modify_map qid Cq.usage fun _ => rfl)

theorem State.Counted.disableCqAll (h : s.Counted nr) : s.disableCqAll.Counted nr :=
  h.congr rfl (s.disableCqAll_map Cq.usage fun _ => rfl)

/-- One slot changes, together with the counts. -/
theorem State.Counted.slot (h : s.Counted nr) {qid : Nat} (inside : qid < nr) {c : Option Cq}
    (cqs : s'.cqs = Function.update s.cqs qid c) (irqs : s'.irqs.nr = s.irqs.nr)
    (settled : ∀ c', c = some c' → s'.Settled nr qid c')
    (moved : ∀ v < s.irqs.nr, (s'.irqs.reapers v).refcnt + uses v (s.cqs qid) =
      (s.irqs.reapers v).refcnt + uses v c)
    (ready : ∀ v < s.irqs.nr, 0 < (s'.irqs.reapers v).refcnt →
      (s'.irqs.reapers v).ready = true ∧ (s'.irqs.reapers v).running = true) : s'.Counted nr := by
  constructor
  · intro k c' there
    rw [cqs] at there
    by_cases same : k = qid
    · subst same
      rw [Function.update_self] at there
      exact settled c' there
    · rw [Function.update_of_ne same] at there
      have before := h.settled k c' there
      exact ⟨before.one, before.inside, irqs ▸ before.vector, before.initialised⟩
  · intro v known
    rw [irqs] at known
    have before := (h.counted v known).1
    have tallied := tallyTo_update inside (uses v) s.cqs c
    have balance := moved v known
    refine ⟨?_, ready v known⟩
    rw [State.users, cqs]
    unfold State.users at before
    omega

/-- The vectors change and no count does. -/
theorem State.Counted.setIrqs (h : s.Counted nr) {irqs : Irqs Ptr} (same : irqs.nr = s.irqs.nr)
    (refcnt : ∀ v < s.irqs.nr, (irqs.reapers v).refcnt = (s.irqs.reapers v).refcnt)
    (ready : ∀ v < s.irqs.nr, 0 < (irqs.reapers v).refcnt →
      (irqs.reapers v).ready = true ∧ (irqs.reapers v).running = true) :
    State.Counted nr { s with irqs := irqs } := by
  constructor
  · intro qid c there
    have settled := h.settled qid c there
    exact ⟨settled.one, settled.inside, same ▸ settled.vector, settled.initialised⟩
  · intro v known
    change v < irqs.nr at known
    rw [same] at known
    refine ⟨?_, ready v known⟩
    exact (refcnt v known).trans (h.counted v known).1

/-- A vector that cannot be taken counts what it did. -/
theorem State.Counted.takeIrq_failed (h : s.Counted nr) {vector : Int} {o : InitOutcome}
    (failed : (s.takeIrq vector o).1 = false) (reaper : s.irqs.nr ≤ vector.toNat ∨
      0 < (s.irqs.reapers vector.toNat).refcnt ∨ o ≠ .reaper) :
    (s.takeIrq vector o).2.Counted nr := by
  unfold State.takeIrq at failed ⊢
  split at failed
  · cases failed
  · rename_i irq
    rw [if_neg irq]
    obtain ⟨refcnt, kept⟩ := s.irqs.initIrq_failed vector.toNat failed reaper
    refine h.setIrqs (Irqs.initIrq_nr ..) ?_ ?_
    · intro v _
      by_cases same : v = vector.toNat
      · rw [same]
        exact refcnt
      · rw [Irqs.initIrq_other _ _ same]
    · intro v known
      by_cases same : v = vector.toNat
      · subst same
        rw [refcnt]
        intro used
        rw [kept used]
        exact (h.counted _ known).2 used
      · rw [Irqs.initIrq_other _ _ same]
        exact (h.counted v known).2

/-- A new CQ is counted by the vector it took. -/
theorem State.Counted.publish (h : s.Counted nr) {qid : Nat} (free : s.cqs qid = none)
    (inside : qid < nr) {vector : Int} {o : InitOutcome} (taken : (s.takeIrq vector o).1 = true) :
    ((s.takeIrq vector o).2.publish qid vector).Counted nr := by
  have cqs : ((s.takeIrq vector o).2.publish qid vector).cqs = Function.update s.cqs qid
      (some { serial := (s.takeIrq vector o).2.next qid, vector := vector }) := by
    change Function.update (s.takeIrq vector o).2.cqs qid _ = _
    rw [s.takeIrq_cqs]
  refine h.slot inside cqs (s.takeIrq_nr vector o) ?_ ?_ ?_
  · rintro c' ⟨⟩
    refine ⟨rfl, inside, ?_, fun _ => rfl⟩
    change vector < (s.takeIrq vector o).2.irqs.nr
    rw [s.takeIrq_nr]
    exact s.takeIrq_known taken
  · intro v _
    change ((s.takeIrq vector o).2.irqs.reapers v).refcnt + _ = _
    rw [free]
    unfold State.takeIrq at taken ⊢
    split at taken
    · rename_i masked
      have away : ¬ vector = (v : Int) := by omega
      simp [masked, uses, away]
    · rename_i irq
      simp only [if_neg irq, uses]
      by_cases same : v = vector.toNat
      · subst same
        have named : vector = (vector.toNat : Int) := (Int.toNat_of_nonneg (not_lt.mp irq)).symm
        rw [(s.irqs.initIrq_self vector.toNat o).1 taken, if_pos ⟨trivial, named⟩]
      · have away : ¬ vector = (v : Int) := by omega
        rw [Irqs.initIrq_other _ _ same, if_neg (fun both => away both.2)]
  · intro v known
    change 0 < ((s.takeIrq vector o).2.irqs.reapers v).refcnt →
      ((s.takeIrq vector o).2.irqs.reapers v).ready = true ∧
        ((s.takeIrq vector o).2.irqs.reapers v).running = true
    unfold State.takeIrq at taken ⊢
    split at taken
    · rename_i masked
      rw [if_pos masked]
      exact (h.counted v known).2
    · rename_i irq
      rw [if_neg irq]
      by_cases same : v = vector.toNat
      · subst same
        intro _
        exact s.irqs.initIrq_ready vector.toNat taken (h.counted _ known).2
      · simp only [Irqs.initIrq_other _ _ same]
        exact (h.counted v known).2

/-- The list entry does not count. -/
theorem State.Counted.register (h : s.Counted nr) {qid : Nat} {vector : Int} {entry : Bool}
    (done : s.register qid vector entry = some s')
    (here : ∀ c, s.cqs qid = some c → c.vector = vector) : s'.Counted nr := by
  unfold State.register at done
  split at done
  · cases done
    exact h
  · rename_i c there
    have settled := h.settled qid c there
    split at done
    · rename_i masked
      cases done
      refine h.slot settled.inside (c := some { c with vector := -1 }) ?_ rfl ?_ ?_ ?_
      · rw [State.modify, State.setCq, there]
        rfl
      · rintro c' ⟨⟩
        have none : ¬ (0 : Int) ≤ -1 := by decide
        refine ⟨settled.one, settled.inside, ?_, fun irq => absurd irq none⟩
        change (-1 : Int) < s.irqs.nr
        omega
      · intro v _
        have away : ¬ c.vector = (v : Int) := by
          have := here c there
          omega
        have away' : ¬ (-1 : Int) = v := by omega
        simp [uses, there, away, away', State.modify, State.setCq]
      · intro v known
        exact (h.counted v known).2
    · split at done
      · cases done
      · rename_i added
        cases done
        obtain ⟨nrs, fields⟩ := Irqs.reaperAddCq_fields added
        refine h.setIrqs nrs (fun v _ => (fields v).1) ?_
        intro v known
        obtain ⟨refcnt, ready, running⟩ := fields v
        rw [refcnt, ready, running]
        exact (h.counted v known).2

/-- A CQ is deleted, and its vector counts one less. -/
theorem State.Counted.delete (h : s.Counted nr) (qid : Nat) (vfio : Bool) :
    (s.delete qid vfio).Counted nr := by
  cases there : s.cqs qid with
  | none =>
      rw [State.delete, there]
      exact h
  | some c =>
      have settled := h.settled qid c there
      rw [s.delete_eq there, s.deleteOne_eq there settled.one]
      have fields := s.irqs.reaperDelCq_fields ⟨qid, c.serial⟩ c.vector
      split
      · rename_i irq
        have named : c.vector = (c.vector.toNat : Int) := (Int.toNat_of_nonneg irq).symm
        refine h.slot settled.inside (c := none) rfl ?_ (fun _ there => by cases there) ?_ ?_
        · exact (Irqs.freeIrq_nr ..).trans (Irqs.reaperDelCq_nr ..)
        · intro v known
          change (((s.irqs.reaperDelCq ⟨qid, c.serial⟩ c.vector).freeIrq c.vector.toNat vfio).reapers
            v).refcnt + _ = _ + 0
          rw [there]
          by_cases same : v = c.vector.toNat
          · subst same
            have mine : uses c.vector.toNat (s.cqs qid) = 1 := by
              rw [there]
              exact if_pos ⟨settled.initialised irq, named⟩
            have counts : uses c.vector.toNat (s.cqs qid) ≤ s.users nr c.vector.toNat :=
              le_tallyTo settled.inside _ _
            have counted := (h.counted _ known).1
            rw [(Irqs.freeIrq_self ..).1, (fields _).1, ← there, mine]
            omega
          · have away : ¬ c.vector = (v : Int) := by omega
            rw [Irqs.freeIrq_other _ _ same, (fields v).1, uses_away away]
        · intro v known
          change 0 < (((s.irqs.reaperDelCq ⟨qid, c.serial⟩ c.vector).freeIrq c.vector.toNat
            vfio).reapers v).refcnt → (((s.irqs.reaperDelCq ⟨qid, c.serial⟩ c.vector).freeIrq
            c.vector.toNat vfio).reapers v).ready = true ∧ (((s.irqs.reaperDelCq ⟨qid, c.serial⟩
            c.vector).freeIrq c.vector.toNat vfio).reapers v).running = true
          have ready := (h.counted v known).2
          obtain ⟨refcnt, ready', running⟩ := fields v
          rw [← refcnt, ← ready', ← running] at ready
          by_cases same : v = c.vector.toNat
          · subst same
            obtain ⟨less, more, -⟩ := (s.irqs.reaperDelCq ⟨qid, c.serial⟩ c.vector).freeIrq_self
              c.vector.toNat vfio
            rw [less]
            intro used
            rw [more (by omega)]
            exact ready (by omega)
          · rw [Irqs.freeIrq_other _ _ same]
            exact ready
      · rename_i masked
        rw [Irqs.reaperDelCq_masked _ _ (not_le.mp masked)]
        refine h.slot settled.inside (c := none) rfl rfl (fun _ there => by cases there) ?_
          (fun v known => (h.counted v known).2)
        intro v _
        have away : ¬ c.vector = (v : Int) := by omega
        rw [there, uses_away away]
        rfl

/-- With no CQ left, no vector counts any. -/
theorem State.Counted.freeCtx (h : s.Counted nr) (vfio : Nat → Bool) :
    (s.freeCtx nr vfio).Counted nr := by
  -- The counts are dropped only after the loop, so it keeps no more than this.
  obtain ⟨kept, gone⟩ := State.deleteAll_rule (s := s)
    (P := fun s => ∀ qid c, s.cqs qid = some c → c.refcnt = 1 ∧ qid < nr) (fun s qid h => by
      cases there : s.cqs qid with
      | none => rw [s.deleteOne_none there]; exact ⟨h, there⟩
      | some c =>
          rw [s.deleteOne_eq there (h qid c there).1]
          refine ⟨?_, State.setCq_self ..⟩
          intro k c' here
          by_cases same : k = qid
          · subst same
            exact absurd ((State.setCq_self ..).symm.trans here) nofun
          · exact h k c' ((State.setCq_other _ _ same _).symm.trans here))
    (fun qid c there => ⟨(h.settled qid c there).one, (h.settled qid c there).inside⟩) nr
  unfold State.freeCtx
  generalize (List.range nr).foldl State.deleteOne s = t at kept gone
  have free (qid : Nat) : t.cqs qid = none := by
    cases there : t.cqs qid with
    | none => rfl
    | some c => exact absurd ((gone qid (kept qid c there).2).symm.trans there) nofun
  obtain ⟨-, nrs, dropped⟩ := Irqs.freeIrqAll_rule (P := fun _ => True) (Q := fun r => r.refcnt = 0)
    (q := t.irqs) (fun _ _ _ _ => trivial) (fun q v => q.freeIrqLast_self vfio v) trivial
  constructor
  · intro qid c there
    exact absurd ((free qid).symm.trans there) nofun
  · intro v known
    have unused := dropped v (nrs ▸ known)
    have nobody : State.users nr { t with irqs := t.irqs.freeIrqAll vfio } v = 0 :=
      tallyTo_eq_zero fun k => by
        change uses v (t.cqs k) = 0
        rw [free]
        rfl
    refine ⟨unused.trans nobody.symm, fun used => ?_⟩
    change 0 < ((t.irqs.freeIrqAll vfio).reapers v).refcnt at used
    omega

/-- The queue of a CQ without interrupts does not count. -/
theorem State.Counted.discardCq (h : s.Counted nr) {qid : Nat}
    (masked : ∀ c, s.cqs qid = some c → c.vector < 0) : (s.discardCq qid).Counted nr := by
  cases there : s.cqs qid with
  | none =>
      rw [State.discardCq, s.modify_none there]
      exact h
  | some c =>
      have settled := h.settled qid c there
      have none := masked c there
      refine h.slot settled.inside (c := some { c with q := false }) ?_ rfl ?_ ?_
        (fun v known => (h.counted v known).2)
      · rw [State.discardCq, State.modify, State.setCq, there]
        rfl
      · rintro c' ⟨⟩
        exact ⟨settled.one, settled.inside, settled.vector, fun irq => absurd irq (not_le.mpr none)⟩
      · intro v _
        have away : ¬ c.vector = (v : Int) := by omega
        have away' : uses v (some { c with q := false }) = 0 := uses_away away
        rw [there, uses_away away, away']
        rfl

/-- What becomes of a CQ that is counted. -/
theorem State.Counted.setUp (h : s.Counted nr) {qid : Nat} {vector : Int} {o : Outcome}
    {pass : Bool} (inside : pass = true → qid < nr) (ok : s.countable qid vector o pass = true) :
    match s.setUp qid vector o pass with
    | .stopped s' => s'.Counted nr
    | .refused s' => s' = s ∧ s.irqReady vector o.irq = true ∧ pass = true
    | .unlisted s' => s'.Counted nr
    | .done s' => s'.Counted nr ∧ s.First qid vector o pass := by
  have fst := s.takeIrq_fst vector o.irq
  unfold State.setUp
  cases ready : s.irqReady vector o.irq with
  | false =>
      have irq : ¬ vector < 0 := fun masked => by simp [State.irqReady, masked] at ready
      have failed : (s.takeIrq vector o.irq).1 = false := fst.trans ready
      simp only [State.countable, if_neg irq, ready, Bool.not_false, Bool.true_or, Bool.and_true,
        Bool.or_eq_true, decide_eq_true_eq, bne_iff_ne, or_assoc] at ok
      have kept := h.takeIrq_failed failed ok
      generalize s.takeIrq vector o.irq = taken at failed kept
      obtain ⟨taken, t⟩ := taken
      cases failed
      exact kept
  | true =>
      have taken : (s.takeIrq vector o.irq).1 = true := fst.trans ready
      have pair : s.takeIrq vector o.irq = (true, (s.takeIrq vector o.irq).2) := Prod.ext taken rfl
      -- Only a CQ without interrupts may stop now, and it has changed nothing yet.
      by_cases through : pass = true ∧ s.cqs qid = none ∧ o.allocated = true
      · obtain ⟨rfl, free, allocated⟩ := through
        have free' : (s.takeIrq vector o.irq).2.cqs qid = none := by
          rw [s.takeIrq_cqs]
          exact free
        have published := h.publish free (inside rfl) taken
        have there (c : Cq)
            (here : ((s.takeIrq vector o.irq).2.publish qid vector).cqs qid = some c) :
            c.vector = vector := by
          cases (State.setCq_self ..).symm.trans here
          rfl
        rw [pair]
        simp only [Bool.not_true, Bool.false_eq_true, if_false, State.initUcq_free _ free',
          allocated, if_true]
        cases registered : ((s.takeIrq vector o.irq).2.publish qid vector).register qid vector
            o.entry with
        | none => exact published
        | some s' =>
            exact ⟨published.register registered there, ready, rfl, free, allocated,
              s.register_entry qid taken registered⟩
      · have masked : vector < 0 := by
          by_contra irq
          simp only [State.countable, if_neg irq, ready, Bool.not_true, Bool.false_or,
            Bool.and_eq_true, Option.isNone_iff_eq_none] at ok
          exact through ⟨ok.2.1.1, ok.2.1.2, ok.2.2⟩
        rw [s.takeIrq_masked masked]
        cases pass with
        | false => exact h
        | true =>
            simp only [State.countable, if_pos masked, Bool.not_true, Bool.false_or] at ok
            have refused : s.initUcq qid vector o.allocated = none := by
              cases there : s.cqs qid with
              | some c =>
                  rw [there] at ok
                  exact s.initUcq_enabled there ok vector _
              | none =>
                  have unallocated : o.allocated ≠ true := fun yes => through ⟨rfl, there, yes⟩
                  rw [s.initUcq_free there, if_neg unallocated]
            simp only [Bool.not_true, Bool.false_eq_true, if_false, refused]
            exact ⟨trivial, trivial, trivial⟩

theorem State.Counted.createCq (h : s.Counted nr) {qid : Nat} {vector : Int} {o : Outcome}
    (ok : s.countable qid vector o (o.creates nr qid) = true) :
    (s.createCq nr qid vector o).Counted nr := by
  have done := h.setUp o.creates_inside ok
  unfold State.createCq
  cases far : s.setUp qid vector o (o.creates nr qid) with
  | stopped s' => simpa only [far] using done
  | refused s' =>
      rw [far] at done
      rw [done.1]
      exact h
  | unlisted s' => simpa only [far] using done
  | done s' =>
      rw [far] at done
      exact done.1.setEnabled qid true

theorem State.Counted.initCq (h : s.Counted nr) {qid : Nat} {vector : Int} {o : Outcome}
    (ok : s.initCountable nr qid vector o = true) : (s.initCq nr qid vector o).2.Counted nr ∧
      ((s.initCq nr qid vector o).1 = true → s.First qid vector o (o.accepts nr qid)) := by
  simp only [State.initCountable, Bool.and_eq_true] at ok
  have done := h.setUp o.accepts_inside ok.1
  unfold State.initCq
  cases far : s.setUp qid vector o (o.accepts nr qid) with
  | stopped s' =>
      rw [far] at done
      exact ⟨done, nofun⟩
  | refused s' =>
      rw [far] at done
      obtain ⟨rfl, ready, accepted⟩ := done
      refine ⟨h.discardCq ?_, nofun⟩
      intro c there
      have spared := ok.2
      simpa [State.spares, ready, accepted, there] using spared
  | unlisted s' =>
      rw [far] at done
      exact ⟨done, nofun⟩
  | done s' =>
      rw [far] at done
      exact ⟨done.1, fun _ => done.2⟩

theorem State.Counted.step {a : Act} (h : s.Counted nr) (ok : Countable nr s a)
    (hstep : step nr s a = some s') : s'.Counted nr := by
  refine step_rule h (fun _ qid enabled h => h.setEnabled qid enabled) (fun _ h => h.disableCqAll)
    (fun _ qid vfio h => h.delete qid vfio) (fun vfio h => h.freeCtx vfio) ?_ ?_ ?_ hstep
  · rintro irq o rfl
    exact State.createAdminq_rule h (fun disabled => h.initCq (ok.1 disabled))
      (fun _ h => (h.setEnabled 0 false).delete 0 o.vfio) ok.2
  · rintro qid vector o rfl
    exact h.createCq ok
  · rintro qid vector o (rfl | ⟨rfl, mapped⟩)
    · exact (h.initCq ok).1
    · exact (h.initCq (ok mapped)).1

end Steps

/-- **Vector counts.** In every state of every run whose calls meet the condition, every
vector counts its initialised CQs, and a vector in use has a reaper that runs. -/
theorem irqs_counted {nr nrIrqs : Nat} {as : List Act} {t : State}
    (ok : Guarded (step nr) (Countable nr) (start nrIrqs) as)
    (reached : run (step nr) (start nrIrqs) as = some t) : t.IrqsCounted nr :=
  (run_inv (fun _ _ _ h => h.step) (start_counted nr nrIrqs) ok reached).counted

/-- CQs come and go on two vectors; an entry and a thread are missing once. -/
def twoVectors : List Act :=
  [.createAdminq true {}, .createCq 1 1 { irq := .thread }, .createCq 1 1 {},
    .createCq 2 0 { entry := false }, .initCq 3 1 {}, .createCq 4 (-1) {}, .createCq 5 7 {},
    .createCq 4 (-1) { cqeOk := false }, .deleteCq 1 {}, .freeCq 2 false,
    .freeCtx fun _ => false, .createAdminq true {}, .createCq 1 0 {}]

def twoVectorsEnd : State := (run (step 6) (start 2) twoVectors).get (by decide)

theorem twoVectors_counted : Guarded (step 6) (Countable 6) (start 2) twoVectors ∧
    (twoVectorsEnd.irqs.reapers 0).refcnt = 2 ∧ twoVectorsEnd.IrqsCounted 6 :=
  have ok : Guarded (step 6) (Countable 6) (start 2) twoVectors := by decide
  ⟨ok, by decide, irqs_counted ok (Option.some_get _).symm⟩

/-- The controller refuses a CQ after its vector was taken: the vector counts a CQ that does
not exist. -/
theorem refused_cq_counted : ∃ t,
    run (step 4) (start 2) [.createAdminq true {}, .createCq 1 1 { cqeOk := false }] = some t ∧
      (t.irqs.reapers 1).refcnt = 1 ∧ t.cqs 1 = none ∧ ¬ t.IrqsCounted 4 := by
  refine ⟨_, rfl, rfl, rfl, ?_⟩
  intro counted
  exact absurd (counted 1 (by decide)).1 (by decide)

end Unvmed.Vectors
