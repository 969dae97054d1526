import Unvmed.Queue.Vectors

/-!
Which CQs the reapers' lists name.

A reaper's thread walks its list at every interrupt, so an entry must not outlive its CQ. An
entry goes in by the vector of the call that sets the CQ up and comes out by the vector the
CQ has when it is deleted; `lists_live` says when the two agree over a whole run. The list of
a vector is never longer than the vector's count, which is why no list is dropped with CQs
on it.
-/

namespace Unvmed.Vectors

open Lib Irq

/-- Every entry names a CQ that is there and has the list's vector, and every initialised CQ
with an interrupt vector is listed once. -/
def State.ListsLive (s : State) : Prop :=
  (∀ v, ∀ x ∈ (s.irqs.reapers v).cqList,
    ∃ c, s.cqs x.qid = some c ∧ c.serial = x.serial ∧ c.vector = v) ∧
  ∀ qid c, s.cqs qid = some c → c.q = true → 0 ≤ c.vector →
    (s.irqs.reapers c.vector.toNat).cqList.count ⟨qid, c.serial⟩ = 1

/-! ### Condition -/

/-- A CQ that gets as far as `unvmed_init_ucq` has no instance from before that is not enabled,
and its list entry is allocated. -/
def State.listable (s : State) (qid : Nat) (vector : Int) (o : Outcome) (pass : Bool) : Bool :=
  !(s.irqReady vector o.irq && pass) ||
    match s.cqs qid with
    | some c => c.enabled
    | none => !o.allocated || decide (vector < 0) || o.entry

/-- The condition on a call. -/
def Listable (nr : Nat) (s : State) : Act → Prop
  | .createAdminq irq o => (o.disabled = true → s.listable 0 0 o.cq (o.cq.accepts nr 0) = true) ∧
      (irq = true ∨ s.adminqReady nr o = false)
  | .createCq qid vector o => s.listable qid vector o (o.creates nr qid) = true
  | .initCq qid vector o => s.listable qid vector o (o.accepts nr qid) = true
  | .initCqIova qid vector o => o.mapped = true → s.listable qid vector o (o.accepts nr qid) = true
  | .deleteCq _ _ | .freeCq _ _ | .reset | .freeCtx _ | .resetGraceful _ => True

instance (nr : Nat) (s : State) : DecidablePred (Listable nr s)
  | .createAdminq _ _ => inferInstanceAs (Decidable (_ ∧ _))
  | .createCq _ _ _ => inferInstanceAs (Decidable (_ = true))
  | .initCq _ _ _ => inferInstanceAs (Decidable (_ = true))
  | .initCqIova _ _ _ => inferInstanceAs (Decidable (_ = true → _ = true))
  | .deleteCq _ _ | .freeCq _ _ | .reset | .freeCtx _ | .resetGraceful _ => .isTrue trivial

/-! ### Invariant -/

/-- How often `x` belongs on the list of `v`. -/
def State.listing (s : State) (v : Nat) (x : Ptr) : Nat :=
  match s.cqs x.qid with
  | none => 0
  | some c => if c.serial = x.serial ∧ c.vector = v then 1 else 0

/-- What holds of a CQ in a slot. -/
structure State.Fits (nr : Nat) (s : State) (qid : Nat) (c : Cq) : Prop where
  one : c.refcnt = 1
  serial : c.serial < s.next qid
  inside : qid < nr
  vector : c.vector < s.irqs.nr

structure State.Listed (nr : Nat) (s : State) : Prop where
  fits : ∀ qid c, s.cqs qid = some c → s.Fits nr qid c
  lists : ∀ v x, (s.irqs.reapers v).cqList.count x = s.listing v x
  held : ∀ v, (s.irqs.reapers v).cqList.length ≤ (s.irqs.reapers v).refcnt

theorem start_listed (nr nrIrqs : Nat) : (start nrIrqs).Listed nr where
  fits := fun _ _ there => nomatch there
  lists := fun _ _ => rfl
  held := fun _ => le_rfl

theorem State.Listed.live {nr : Nat} {s : State} (h : s.Listed nr) : s.ListsLive := by
  constructor
  · intro v x mem
    have counted := h.lists v x
    have listed := List.count_pos_iff.mpr mem
    unfold State.listing at counted
    split at counted
    · omega
    · rename_i c there
      split at counted
      · rename_i agrees
        exact ⟨c, there, agrees⟩
      · omega
  · intro qid c there _ irq
    have agrees : c.vector = (c.vector.toNat : Int) := (Int.toNat_of_nonneg irq).symm
    rw [h.lists, State.listing, there]
    exact if_pos ⟨rfl, agrees⟩

section Steps

variable {nr : Nat} {s s' : State}

/-- Only what the lists depend on matters. -/
def Cq.key (c : Cq) : Nat × Nat × Int := (c.serial, c.refcnt, c.vector)

theorem State.Listed.congr (h : s.Listed nr) (irqs : s'.irqs = s.irqs) (next : s'.next = s.next)
    (cqs : ∀ qid, (s'.cqs qid).map Cq.key = (s.cqs qid).map Cq.key) : s'.Listed nr := by
  refine ⟨?_, ?_, ?_⟩
  · intro qid c' there
    have key := cqs qid
    rw [there, Option.map_some] at key
    obtain ⟨c, before, same⟩ := Option.map_eq_some_iff.mp key.symm
    obtain ⟨serial, refcnt, vector⟩ : c.serial = c'.serial ∧ c.refcnt = c'.refcnt ∧
        c.vector = c'.vector := by simpa [Cq.key] using same
    have fits := h.fits qid c before
    exact ⟨refcnt ▸ fits.one, next ▸ serial ▸ fits.serial, fits.inside, irqs ▸ vector ▸ fits.vector⟩
  · intro v x
    rw [irqs, h.lists]
    have key := cqs x.qid
    unfold State.listing
    cases before : s.cqs x.qid with
    | none =>
        rw [before, Option.map_none, Option.map_eq_none_iff] at key
        rw [key]
    | some c =>
        rw [before, Option.map_some] at key
        obtain ⟨c', there, same⟩ := Option.map_eq_some_iff.mp key
        obtain ⟨serial, -, vector⟩ : c'.serial = c.serial ∧ c'.refcnt = c.refcnt ∧
            c'.vector = c.vector := by simpa [Cq.key] using same
        rw [there]
        simp only [serial, vector]
  · intro v
    rw [irqs]
    exact h.held v

theorem State.Listed.modify (h : s.Listed nr) (qid : Nat) {f : Cq → Cq}
    (keep : ∀ c, (f c).key = c.key) : (s.modify qid f).Listed nr :=
  h.congr rfl rfl (s.modify_map qid Cq.key keep)

theorem State.Listed.setEnabled (h : s.Listed nr) (qid : Nat) (enabled : Bool) :
    (s.setEnabled qid enabled).Listed nr :=
  h.modify qid fun _ => rfl

theorem State.Listed.disableCqAll (h : s.Listed nr) : s.disableCqAll.Listed nr :=
  h.congr rfl rfl (s.disableCqAll_map Cq.key fun _ => rfl)

/-- The vectors change and the lists do not. -/
theorem State.Listed.setIrqs (h : s.Listed nr) {irqs : Irqs Ptr} (same : irqs.nr = s.irqs.nr)
    (lists : ∀ v, (irqs.reapers v).cqList = (s.irqs.reapers v).cqList)
    (held : ∀ v, (s.irqs.reapers v).cqList.length ≤ (irqs.reapers v).refcnt) :
    State.Listed nr { s with irqs := irqs } := by
  refine ⟨?_, ?_, ?_⟩
  · intro qid c there
    have fits := h.fits qid c there
    exact ⟨fits.one, fits.serial, fits.inside, same ▸ fits.vector⟩
  · intro v x
    rw [lists]
    exact h.lists v x
  · intro v
    change (irqs.reapers v).cqList.length ≤ _
    rw [lists]
    exact held v

/-- A vector that is taken has room for one more entry. -/
theorem State.Listed.takeIrq (h : s.Listed nr) (vector : Int) (o : InitOutcome) :
    (s.takeIrq vector o).2.Listed nr ∧ ((s.takeIrq vector o).1 = true → 0 ≤ vector →
      vector < s.irqs.nr ∧ ((s.takeIrq vector o).2.irqs.reapers vector.toNat).cqList.length <
        ((s.takeIrq vector o).2.irqs.reapers vector.toNat).refcnt) := by
  unfold State.takeIrq
  split
  · rename_i masked
    exact ⟨h, fun _ irq => absurd irq (not_le.mpr masked)⟩
  · obtain ⟨counted, list, grown⟩ := s.irqs.initIrq_self vector.toNat o
    have held := h.held vector.toNat
    -- A list that starts again was empty before.
    have kept : ((s.irqs.initIrq vector.toNat o).2.reapers vector.toNat).cqList =
        (s.irqs.reapers vector.toNat).cqList := by
      rcases list with same | ⟨empty, unused⟩
      · exact same
      · rw [empty]
        exact (List.length_eq_zero_iff.mp (by omega)).symm
    constructor
    · refine h.setIrqs (Irqs.initIrq_nr ..) ?_ ?_
      · intro v
        by_cases same : v = vector.toNat
        · rw [same]
          exact kept
        · rw [Irqs.initIrq_other _ _ same]
      · intro v
        by_cases same : v = vector.toNat
        · rw [same]
          exact held.trans grown
        · rw [Irqs.initIrq_other _ _ same]
          exact h.held v
    · intro taken irq
      refine ⟨s.takeIrq_known (o := o) (by rwa [State.takeIrq, if_neg (not_lt.mpr irq)]), ?_⟩
      · change ((s.irqs.initIrq vector.toNat o).2.reapers vector.toNat).cqList.length <
          ((s.irqs.initIrq vector.toNat o).2.reapers vector.toNat).refcnt
        rw [kept, counted taken]
        omega

/-- One slot changes, together with the entries for it. -/
theorem State.Listed.slot (h : s.Listed nr) (qid : Nat) (cqs : ∀ k ≠ qid, s'.cqs k = s.cqs k)
    (next : ∀ k, s.next k ≤ s'.next k) (irqs : s'.irqs.nr = s.irqs.nr)
    (fits : ∀ c, s'.cqs qid = some c → s'.Fits nr qid c)
    (others : ∀ v x, x.qid ≠ qid →
      (s'.irqs.reapers v).cqList.count x = (s.irqs.reapers v).cqList.count x)
    (here : ∀ v x, x.qid = qid → (s'.irqs.reapers v).cqList.count x = s'.listing v x)
    (held : ∀ v, (s'.irqs.reapers v).cqList.length ≤ (s'.irqs.reapers v).refcnt) :
    s'.Listed nr := by
  refine ⟨?_, ?_, held⟩
  · intro k c there
    by_cases same : k = qid
    · subst same
      exact fits c there
    · have before := h.fits k c (cqs k same ▸ there)
      exact ⟨before.one, before.serial.trans_le (next k), before.inside, irqs ▸ before.vector⟩
  · intro v x
    by_cases same : x.qid = qid
    · exact here v x same
    · rw [others v x same, h.lists, State.listing, State.listing, cqs _ same]

/-- A slot without a CQ is on no list. -/
theorem State.Listed.free (h : s.Listed nr) {x : Ptr} (free : s.cqs x.qid = none) (v : Nat) :
    (s.irqs.reapers v).cqList.count x = 0 := by
  rw [h.lists, State.listing, free]

theorem publish_next (s : State) (qid : Nat) (vector : Int) (k : Nat) :
    s.next k ≤ (s.publish qid vector).next k := by
  change s.next k ≤ Function.update s.next qid (s.next qid + 1) k
  by_cases same : k = qid
  · subst same
    rw [Function.update_self]
    omega
  · rw [Function.update_of_ne same]

/-- A new CQ without an interrupt is on no list. -/
theorem State.Listed.register_masked (h : s.Listed nr) {qid : Nat} (free : s.cqs qid = none)
    (inside : qid < nr) {vector : Int} (masked : vector < 0) (entry : Bool) :
    ∃ s', (s.publish qid vector).register qid vector entry = some s' ∧ s'.Listed nr := by
  refine ⟨(s.publish qid vector).modify qid fun c => { c with vector := -1 }, ?_, ?_⟩
  · simp [State.register, State.publish, masked]
  · refine h.slot qid ?_ (publish_next s qid vector) rfl ?_ (fun _ _ _ => rfl) ?_ h.held
    · intro k other
      simp [State.modify, State.publish, State.setCq, other]
    · intro c there
      simp only [State.modify, State.setCq_self, State.publish, Option.map_some,
        Option.some.injEq] at there
      subst there
      refine ⟨rfl, ?_, inside, ?_⟩
      · change s.next qid < Function.update s.next qid (s.next qid + 1) qid
        rw [Function.update_self]
        omega
      · change (-1 : Int) < s.irqs.nr
        omega
    · intro v x same
      have masks : ¬ (-1 : Int) = v := by omega
      refine (h.free (same ▸ free) v).trans ?_
      simp [State.listing, same, State.modify, State.publish, masks]

/-- A new CQ goes on the list of the vector it took. -/
theorem State.Listed.register (h : s.Listed nr) {qid : Nat} (free : s.cqs qid = none)
    (inside : qid < nr) {vector : Int} (irq : 0 ≤ vector) (known : vector < s.irqs.nr)
    (room : (s.irqs.reapers vector.toNat).cqList.length < (s.irqs.reapers vector.toNat).refcnt) :
    ∃ s', (s.publish qid vector).register qid vector true = some s' ∧ s'.Listed nr := by
  have taken : (s.irqs.reapers vector.toNat).refcnt ≠ 0 := by omega
  have bounds : ¬ (vector < 0 ∨ s.irqs.nr ≤ vector.toNat) := by omega
  have there : (s.publish qid vector).cqs qid = some { serial := s.next qid, vector := vector } :=
    State.setCq_self ..
  refine ⟨{ s.publish qid vector with
    irqs := s.irqs.set vector.toNat { s.irqs.reapers vector.toNat with
      cqList := (s.irqs.reapers vector.toNat).cqList ++ [⟨qid, s.next qid⟩] } }, ?_, ?_⟩
  · have same : (s.publish qid vector).irqs = s.irqs := rfl
    have added := s.irqs.reaperAddCq_taken ⟨qid, s.next qid⟩ bounds taken true
    simp only [State.register, there, if_neg (not_lt.mpr irq), same, added, if_true]
  · refine h.slot qid ?_ (publish_next s qid vector) rfl ?_ ?_ ?_ ?_
    · intro k other
      exact State.setCq_other _ _ other _
    · intro c here
      cases Option.some.inj (there.symm.trans here)
      refine ⟨rfl, ?_, inside, known⟩
      change s.next qid < Function.update s.next qid (s.next qid + 1) qid
      rw [Function.update_self]
      omega
    · intro v x other
      by_cases same : v = vector.toNat
      · subst same
        have ne : (⟨qid, s.next qid⟩ : Ptr) ≠ x := fun eq => other (eq ▸ rfl)
        simp [List.count_append, ne]
      · simp only [Irqs.set_other _ _ same]
    · intro v x same
      obtain ⟨k, serial⟩ := x
      subst same
      have absent := h.free (x := ⟨k, serial⟩) free
      simp only [State.listing, there]
      by_cases at_ : v = vector.toNat
      · subst at_
        have named : vector = (vector.toNat : Int) := (Int.toNat_of_nonneg irq).symm
        simp [List.count_append, absent, List.count_singleton, ← named]
      · have away : ¬ vector = (v : Int) := by omega
        simp only [Irqs.set_other _ _ at_, absent, away, and_false, if_false]
    · intro v
      by_cases same : v = vector.toNat
      · subst same
        simp only [Irqs.set_self, List.length_append, List.length_singleton]
        omega
      · simp only [Irqs.set_other _ _ same]
        exact h.held v

/-- The entries of the CQ in a slot. -/
theorem State.Listed.count (h : s.Listed nr) {qid : Nat} {c : Cq} (there : s.cqs qid = some c)
    (v serial : Nat) : (s.irqs.reapers v).cqList.count ⟨qid, serial⟩ =
      if c.serial = serial ∧ c.vector = v then 1 else 0 := by
  rw [h.lists, State.listing, there]

/-- A slot is emptied, and no list names it any more. -/
theorem State.Listed.vacate (h : s.Listed nr) {qid : Nat} {irqs : Irqs Ptr}
    (same : irqs.nr = s.irqs.nr)
    (others : ∀ v x, x.qid ≠ qid →
      (irqs.reapers v).cqList.count x = (s.irqs.reapers v).cqList.count x)
    (here : ∀ v serial, (irqs.reapers v).cqList.count ⟨qid, serial⟩ = 0)
    (held : ∀ v, (irqs.reapers v).cqList.length ≤ (irqs.reapers v).refcnt) :
    State.Listed nr { s.setCq qid none with irqs := irqs } := by
  refine h.slot qid (fun k other => State.setCq_other _ _ other _) (fun _ => le_rfl) same
    ?_ others ?_ held
  · intro c there
    exact absurd ((State.setCq_self ..).symm.trans there) nofun
  · intro v x at_
    obtain ⟨k, serial⟩ := x
    subst at_
    refine (here v serial).trans ?_
    simp [State.listing]

/-- A CQ leaves its list and its slot; its vector now counts more than the list holds. -/
theorem State.Listed.deleteOne (h : s.Listed nr) {qid : Nat} {c : Cq} (there : s.cqs qid = some c) :
    (s.deleteOne qid).Listed nr ∧ (s.deleteOne qid).cqs qid = none ∧ (0 ≤ c.vector →
      ((s.deleteOne qid).irqs.reapers c.vector.toNat).cqList.length <
        ((s.deleteOne qid).irqs.reapers c.vector.toNat).refcnt) := by
  have fits := h.fits qid c there
  rw [s.deleteOne_eq there fits.one]
  by_cases irq : 0 ≤ c.vector
  · have bounds : ¬ (c.vector < 0 ∨ s.irqs.nr ≤ c.vector.toNat) := by
      have known := fits.vector
      omega
    have named : c.vector = (c.vector.toNat : Int) := (Int.toNat_of_nonneg irq).symm
    have self := s.irqs.reaperDelCq_self ⟨qid, c.serial⟩ bounds
    have listed : (⟨qid, c.serial⟩ : Ptr) ∈ (s.irqs.reapers c.vector.toNat).cqList := by
      rw [← List.count_pos_iff, h.count there, if_pos ⟨rfl, named⟩]
      exact Nat.one_pos
    have held := h.held c.vector.toNat
    have shorter := List.length_erase_of_mem listed
    have nonempty := List.length_pos_of_mem listed
    have room :
        ((s.irqs.reaperDelCq ⟨qid, c.serial⟩ c.vector).reapers c.vector.toNat).cqList.length <
          ((s.irqs.reaperDelCq ⟨qid, c.serial⟩ c.vector).reapers c.vector.toNat).refcnt := by
      rw [self]
      change (List.erase _ _).length < (s.irqs.reapers c.vector.toNat).refcnt
      omega
    refine ⟨h.vacate (Irqs.reaperDelCq_nr ..) ?_ ?_ ?_, State.setCq_self .., fun _ => room⟩
    · intro v x other
      by_cases same : v = c.vector.toNat
      · subst same
        have ne : x ≠ ⟨qid, c.serial⟩ := fun eq => other (eq ▸ rfl)
        rw [self]
        exact List.count_erase_of_ne ne
      · rw [Irqs.reaperDelCq_other _ _ same]
    · intro v serial
      by_cases same : v = c.vector.toNat
      · subst same
        rw [self]
        change List.count _ (List.erase _ _) = 0
        rw [List.count_erase, h.count there]
        by_cases mine : c.serial = serial
        · simp [mine, ← named]
        · simp [mine]
      · have away : ¬ c.vector = (v : Int) := by omega
        rw [Irqs.reaperDelCq_other _ _ same, h.count there, if_neg (fun both => away both.2)]
    · intro v
      by_cases same : v = c.vector.toNat
      · subst same
        exact room.le
      · rw [Irqs.reaperDelCq_other _ _ same]
        exact h.held v
  · rw [Irqs.reaperDelCq_masked _ _ (not_le.mp irq)]
    refine ⟨h.vacate rfl (fun _ _ _ => rfl) ?_ h.held, State.setCq_self .., fun le => absurd le irq⟩
    intro v serial
    have away : ¬ c.vector = (v : Int) := by omega
    rw [h.count there, if_neg (fun both => away both.2)]

/-- One user leaves a vector that counts more than its list holds. -/
theorem State.Listed.freeIrq (h : s.Listed nr) {v : Nat}
    (room : (s.irqs.reapers v).cqList.length < (s.irqs.reapers v).refcnt) (vfio : Bool) :
    State.Listed nr { s with irqs := s.irqs.freeIrq v vfio } := by
  refine h.setIrqs (Irqs.freeIrq_nr ..) ?_ ?_
  · intro k
    by_cases same : k = v
    · subst same
      rcases s.irqs.freeIrq_cqList k vfio with kept | ⟨empty, last⟩
      · exact kept
      · rw [empty]
        exact (List.length_eq_zero_iff.mp (by omega)).symm
    · rw [Irqs.freeIrq_other _ _ same]
  · intro k
    by_cases same : k = v
    · subst same
      rw [(s.irqs.freeIrq_self k vfio).1]
      omega
    · rw [Irqs.freeIrq_other _ _ same]
      exact h.held k

theorem State.Listed.delete (h : s.Listed nr) (qid : Nat) (vfio : Bool) :
    (s.delete qid vfio).Listed nr := by
  cases there : s.cqs qid with
  | none =>
      rw [State.delete, there]
      exact h
  | some c =>
      obtain ⟨kept, -, room⟩ := h.deleteOne there
      rw [s.delete_eq there]
      split
      · rename_i irq
        exact kept.freeIrq (room irq) vfio
      · exact kept

theorem freeIrqLast_empty {q : Irqs Ptr} (none : ∀ v, (q.reapers v).cqList = []) (vfio : Nat → Bool)
    (vector v : Nat) : ((q.freeIrqLast vfio vector).reapers v).cqList = [] := by
  by_cases same : v = vector
  · subst same
    rcases Irqs.freeIrq_cqList (q.set v { q.reapers v with
      refcnt := min (q.reapers v).refcnt 1 }) v (vfio v) with list | ⟨list, -⟩
    · rw [Irqs.freeIrqLast, list, Irqs.set_self]
      exact none v
    · exact list
  · rw [Irqs.freeIrqLast_other _ _ same]
    exact none v

/-- With no CQ left, all lists are empty, and stay so when the reapers go. -/
theorem State.Listed.freeCtx (h : s.Listed nr) (vfio : Nat → Bool) :
    (s.freeCtx nr vfio).Listed nr := by
  obtain ⟨kept, gone⟩ := State.deleteAll_rule (P := State.Listed nr) (s := s) (fun s qid h => by
    cases there : s.cqs qid with
    | none => rw [s.deleteOne_none there]; exact ⟨h, there⟩
    | some c => exact ⟨(h.deleteOne there).1, (h.deleteOne there).2.1⟩) h nr
  unfold State.freeCtx
  generalize (List.range nr).foldl State.deleteOne s = t at kept gone
  have free (qid : Nat) : t.cqs qid = none := by
    cases there : t.cqs qid with
    | none => rfl
    | some c => exact absurd ((gone qid (kept.fits qid c there).inside).symm.trans there) nofun
  have empty (v : Nat) : (t.irqs.reapers v).cqList = [] := by
    refine List.eq_nil_iff_forall_not_mem.mpr fun x mem => ?_
    have absent := kept.free (free x.qid) v
    exact absurd (List.count_pos_iff.mpr mem) (by omega)
  obtain ⟨still, -, -⟩ := Irqs.freeIrqAll_rule (P := fun q => ∀ v, (q.reapers v).cqList = [])
    (Q := fun _ => True) (fun q vector none _ v => freeIrqLast_empty none vfio vector v)
    (fun _ _ => trivial) empty
  refine kept.setIrqs (Irqs.freeIrqAll_nr ..) ?_ ?_
  · intro v
    rw [still, empty]
  · intro v
    rw [empty]
    exact Nat.zero_le _

/-- What becomes of a CQ that may be listed. -/
theorem State.Listed.setUp (h : s.Listed nr) {qid : Nat} {vector : Int} {o : Outcome} {pass : Bool}
    (inside : pass = true → qid < nr) (ok : s.listable qid vector o pass = true) :
    match s.setUp qid vector o pass with
    | .stopped s' => s'.Listed nr
    | .refused s' => s'.Listed nr
    | .unlisted _ => False
    | .done s' => s'.Listed nr ∧ s.First qid vector o pass := by
  obtain ⟨kept, room⟩ := h.takeIrq vector o.irq
  have ready := s.takeIrq_fst vector o.irq
  have same := s.takeIrq_cqs vector o.irq
  have nrs := s.takeIrq_nr vector o.irq
  unfold State.setUp
  generalize s.takeIrq vector o.irq = taken at kept room ready same nrs
  obtain ⟨taken, t⟩ := taken
  simp only at kept room ready same nrs
  cases taken with
  | false => exact kept
  | true =>
      cases pass with
      | false => exact kept
      | true =>
          simp only [State.listable, ← ready, Bool.and_self, Bool.not_true, Bool.false_or] at ok
          simp only [Bool.not_true, Bool.false_eq_true, if_false]
          cases there : s.cqs qid with
          | some c =>
              rw [there] at ok
              rw [t.initUcq_enabled (same ▸ there) ok]
              exact kept
          | none =>
              have free : t.cqs qid = none := same ▸ there
              rw [t.initUcq_free free]
              cases allocated : o.allocated with
              | false => exact kept
              | true =>
                  simp only [there, allocated, Bool.not_true, Bool.false_or, Bool.or_eq_true,
                    decide_eq_true_eq] at ok
                  have listed : ∃ s', (t.publish qid vector).register qid vector o.entry = some s' ∧
                      s'.Listed nr := by
                    by_cases masked : vector < 0
                    · exact kept.register_masked free (inside rfl) masked _
                    · obtain ⟨known, more⟩ := room rfl (not_lt.mp masked)
                      rw [ok.resolve_left masked]
                      exact kept.register free (inside rfl) (not_lt.mp masked) (nrs ▸ known) more
                  obtain ⟨s', registered, done⟩ := listed
                  simp only [if_true, registered]
                  exact ⟨done, ready.symm, rfl, there, allocated, ok⟩

theorem State.Listed.createCq (h : s.Listed nr) {qid : Nat} {vector : Int} {o : Outcome}
    (ok : s.listable qid vector o (o.creates nr qid) = true) :
    (s.createCq nr qid vector o).Listed nr := by
  have done := h.setUp o.creates_inside ok
  unfold State.createCq
  cases far : s.setUp qid vector o (o.creates nr qid) with
  | stopped s' => simpa only [far] using done
  | refused s' => simpa only [far] using done
  | unlisted s' =>
      rw [far] at done
      exact done.elim
  | done s' =>
      rw [far] at done
      exact done.1.modify qid fun _ => rfl

/-- When it succeeds, it is the first to set the CQ up. -/
theorem State.Listed.initCq (h : s.Listed nr) {qid : Nat} {vector : Int} {o : Outcome}
    (ok : s.listable qid vector o (o.accepts nr qid) = true) :
    (s.initCq nr qid vector o).2.Listed nr ∧
      ((s.initCq nr qid vector o).1 = true → s.First qid vector o (o.accepts nr qid)) := by
  have done := h.setUp o.accepts_inside ok
  unfold State.initCq
  cases far : s.setUp qid vector o (o.accepts nr qid) with
  | stopped s' =>
      rw [far] at done
      exact ⟨done, nofun⟩
  | refused s' =>
      rw [far] at done
      exact ⟨done.modify qid fun _ => rfl, nofun⟩
  | unlisted s' =>
      rw [far] at done
      exact done.elim
  | done s' =>
      rw [far] at done
      exact ⟨done.1, fun _ => done.2⟩

theorem State.Listed.step {a : Act} (h : s.Listed nr) (ok : Listable nr s a)
    (hstep : step nr s a = some s') : s'.Listed nr := by
  refine step_rule h (fun _ qid enabled h => h.setEnabled qid enabled) (fun _ h => h.disableCqAll)
    (fun _ qid vfio h => h.delete qid vfio) (fun vfio h => h.freeCtx vfio) ?_ ?_ ?_ hstep
  · rintro irq o rfl
    exact State.createAdminq_rule h (fun disabled => h.initCq (ok.1 disabled))
      (fun _ h => (h.setEnabled 0 false).delete 0 o.vfio) ok.2
  · rintro qid vector o rfl
    exact h.createCq ok
  · rintro qid vector o (rfl | ⟨rfl, mapped⟩)
    · exact (h.initCq ok).1
    · exact (h.initCq (ok mapped)).1

end Steps

/-- **Reaper lists.** In every state of every run whose calls meet the condition, the lists
name live CQs with their vector, and every live CQ with an interrupt vector is on its list
once. -/
theorem lists_live {nr nrIrqs : Nat} {as : List Act} {t : State}
    (ok : Guarded (step nr) (Listable nr) (start nrIrqs) as)
    (reached : run (step nr) (start nrIrqs) as = some t) : t.ListsLive :=
  (run_inv (fun _ _ _ h => h.step) (start_listed nr nrIrqs) ok reached).live

/-- Two CQs share a vector, one of them goes, a creation fails, and the controller is reset
both ways. -/
def sharedVector : List Act :=
  [.createAdminq true {}, .createCq 1 1 {}, .createCq 2 1 {}, .createCq 3 (-1) {},
    .createCq 2 1 {}, .createCq 4 1 { cqeOk := false }, .deleteCq 1 {},
    .resetGraceful fun _ => {}, .createAdminq true {}, .initCq 1 0 {}, .reset,
    .freeCtx fun _ => false, .createAdminq true {}, .createCq 1 0 {}]

def sharedVectorEnd : State := (run (step 6) (start 2) sharedVector).get (by decide)

theorem sharedVector_live : Guarded (step 6) (Listable 6) (start 2) sharedVector ∧
    (sharedVectorEnd.irqs.reapers 0).cqList = [⟨0, 2⟩, ⟨1, 2⟩] ∧ sharedVectorEnd.ListsLive :=
  have ok : Guarded (step 6) (Listable 6) (start 2) sharedVector := by decide
  ⟨ok, by decide, lists_live ok (Option.some_get _).symm⟩

/-- The admin CQ is listed for vector 0, loses its vector, and is freed by a graceful reset:
the list still names it. -/
theorem adminq_entry_dangles : ∃ t,
    run (step 4) (start 2) [.createAdminq false {}, .resetGraceful fun _ => {}] = some t ∧
      (t.irqs.reapers 0).cqList = [⟨0, 0⟩] ∧ t.cqs 0 = none ∧ ¬ t.ListsLive := by
  refine ⟨_, rfl, rfl, rfl, ?_⟩
  rintro ⟨named, -⟩
  obtain ⟨c, there, -⟩ := named 0 ⟨0, 0⟩ (by decide)
  cases there

end Unvmed.Vectors
