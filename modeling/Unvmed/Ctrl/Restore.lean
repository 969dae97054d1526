import Unvmed.Ctrl.Context

/-!
What a context restores.

The context is taken from the slots and the registers, and a slot also holds what is not
live: a deleted queue that somebody still holds, or one that was initialised and never
created. `roundTrip_view` says what a restored controller looks like and `roundTrip_isSome`
when there is one; `roundTrips_iff` compares it with the controller that was saved.
-/

namespace Unvmed.Context

open Lib
open Ctrl (CtrlState)

/-! ### The round trip -/

/-- The live I/O queues of a table. -/
def Table.live {α : Type} (t : Table α) (qid : Nat) : Option α :=
  if qid = 0 then none else ((t qid).filter Slot.live).map Slot.args

/-- What a round trip is to keep. -/
structure View where
  cqs : Nat → Option CqArgs
  sqs : Nat → Option SqArgs
  nsids : List Nat
  /-- The sizes of the admin SQ and CQ. -/
  adminSizes : Option (Nat × Nat)
  /-- The admin CQ has an interrupt. -/
  adminIrq : Option Bool
  mps : Nat
  ams : Nat
  css : Nat
  iosqes : Nat
  iocqes : Nat
  timeout : Int

def State.view (u : State) : View where
  cqs := u.cqs.live
  sqs := u.sqs.live
  nsids := u.nsids
  adminSizes := (u.sqs 0).bind fun asq => (u.cqs 0).map fun acq => (asq.args.qsize, acq.args.qsize)
  adminIrq := (u.cqs 0).map fun acq => decide (0 ≤ acq.args.vector)
  mps := ccMps u.cc
  ams := ccAms u.cc
  css := ccCss u.cc
  iosqes := ccIosqes u.cc
  iocqes := ccIocqes u.cc
  timeout := u.timeout

/-- The round trip succeeds and keeps the controller. -/
def State.RoundTrips (nrCqs nrSqs : Nat) (u : State) : Prop :=
  ∃ u', u.roundTrip nrCqs nrSqs = some u' ∧ u'.view = u.view

/-- The instances in the slots are held, and their arguments are ones that creation takes. -/
def Table.Fits {α : Type} (t : Table α) (fits : Nat → α → Prop) : Prop :=
  ∀ qid s, t qid = some s → 0 < s.refcnt ∧ fits qid s.args

/-- What libvfn and the vectors allow. -/
def CqArgs.Fits (nrCqs nrIrqs qid : Nat) (a : CqArgs) : Prop :=
  accepts nrCqs qid a.qsize = true ∧ -1 ≤ a.vector ∧ a.vector < nrIrqs

def SqArgs.Fits (nrSqs qid : Nat) (a : SqArgs) : Prop := accepts nrSqs qid a.qsize = true

instance (nrCqs nrIrqs qid : Nat) (a : CqArgs) : Decidable (a.Fits nrCqs nrIrqs qid) :=
  inferInstanceAs (Decidable (_ ∧ _ ∧ _))

instance (nrSqs qid : Nat) (a : SqArgs) : Decidable (a.Fits nrSqs qid) :=
  inferInstanceAs (Decidable (_ = true))

/-- An enabled controller: its queues fit, and its admin queue is configured. Nothing is said
about who else holds a queue, or about whether it is live. -/
structure State.Enabled (nrCqs nrSqs : Nat) (u : State) : Prop where
  state : u.state = .enabled
  admin : ∃ asq acq, u.sqs 0 = some asq ∧ u.cqs 0 = some acq ∧
    u.aqa = aqaOf asq.args.qsize acq.args.qsize
  cqs : u.cqs.Fits (CqArgs.Fits nrCqs u.nrIrqs)
  sqs : u.sqs.Fits (SqArgs.Fits nrSqs)

/-- The controllers that a context restores. -/
structure State.Restorable (u : State) : Prop where
  irqs : 0 < u.nrIrqs
  cqs : ∀ qid s, qid ≠ 0 → u.cqs qid = some s → s.live = true
  sqs : ∀ qid s, qid ≠ 0 → u.sqs qid = some s → s.live = true
  attached : ∀ qid s, qid ≠ 0 → u.sqs qid = some s → (u.cqs s.args.cqid).isSome = true
  css : ccCss u.cc = 0
  sqSize : ∀ asq, u.sqs 0 = some asq → asq.args.qsize ≤ 4096
  cqSize : ∀ acq, u.cqs 0 = some acq → acq.args.qsize ≤ 4096
  vector : ∀ acq, u.cqs 0 = some acq → acq.args.vector ≤ 0

/-! ### Slots -/

section Slots

variable {α : Type} {t : Table α} {nr : Nat}

theorem Table.deleteAll_apply (t : Table α) (nr qid : Nat) :
    t.deleteAll nr qid = if qid < nr then t.deleteOne qid qid else t qid := by
  unfold Table.deleteAll
  induction nr with
  | zero => rfl
  | succ nr ih =>
      simp only [List.range_succ, List.foldl_append, List.foldl_cons, List.foldl_nil]
      by_cases same : qid = nr
      · subst same
        rw [if_neg (Nat.lt_irrefl qid)] at ih
        rw [if_pos (Nat.lt_succ_self qid), Table.deleteOne, Table.deleteOne, Function.update_self,
          Function.update_self, ih]
      · rw [Table.deleteOne, Function.update_of_ne same, ih]
        by_cases before : qid < nr
        · rw [if_pos before, if_pos (by omega)]
        · rw [if_neg before, if_neg (by omega)]

/-- After a reset nothing in a slot is live, and the slots hold nothing new. -/
theorem Table.reset_idle (inside : ∀ qid s, t qid = some s → qid < nr) {qid : Nat} {s : Slot α}
    (there : t.disableAll.deleteAll nr qid = some s) :
    s.enabled = false ∧ s.live = false ∧ (t qid).isSome = true := by
  cases before : t qid with
  | none =>
      have gone : t.disableAll qid = none := by rw [Table.disableAll, before, Option.map_none]
      rw [Table.deleteAll_apply, Table.deleteOne, Function.update_self, gone, Option.bind_none,
        ite_self] at there
      cases there
  | some s₀ =>
      have disabled : t.disableAll qid = some { s₀ with enabled := false } := by
        rw [Table.disableAll, before, Option.map_some]
      rw [Table.deleteAll_apply, if_pos (inside qid s₀ before), Table.deleteOne,
        Function.update_self, disabled, Option.bind_some] at there
      split at there
      · cases there
      · cases there
        exact ⟨rfl, rfl, rfl⟩

/-- A slot whose instance is not enabled takes a new queue. -/
theorem Table.init_idle {qid : Nat} (idle : ∀ s, t qid = some s → s.enabled = false) (args : α) :
    ∃ n, t.init qid args = some (Function.update t qid (some ⟨n, false, true, args⟩)) := by
  unfold Table.init
  cases there : t qid with
  | none => exact ⟨1, rfl⟩
  | some s =>
      have off := idle s there
      obtain ⟨n, e, q, a⟩ := s
      cases off
      exact ⟨n + 1, rfl⟩

theorem Table.modify_update (t : Table α) (qid : Nat) (s : Slot α) (f : Slot α → Slot α) :
    Table.modify (Function.update t qid (some s)) qid f = Function.update t qid (some (f s)) := by
  rw [Table.modify, Function.update_self, Option.map_some, Function.update_idem]

theorem Table.init_other {t' : Table α} {qid k : Nat} {args : α} (done : t.init qid args = some t')
    (other : k ≠ qid) : t' k = t k := by
  unfold Table.init at done
  split at done
  · cases done
    exact Function.update_of_ne other _ _
  · split at done
    · cases done
    · cases done
      exact Function.update_of_ne other _ _

/-- The queues that a context names for a table. -/
def Table.entries (t : Table α) (nr : Nat) : List (Nat × α) :=
  (List.range' 1 (nr - 1)).filterMap fun qid => (t qid).map fun s => (qid, s.args)

theorem Table.saved_eq (t : Table α) (entry : Nat → α → Ctx) (nr : Nat) :
    t.saved entry nr = (t.entries nr).map fun e => entry e.1 e.2 := by
  rw [Table.saved, Table.entries, List.map_filterMap]
  congr 1
  funext qid
  rw [Option.map_map]
  rfl

theorem Table.mem_entries {nr : Nat} {e : Nat × α} : e ∈ t.entries nr ↔
    e.1 ≠ 0 ∧ e.1 < nr ∧ ∃ s, t e.1 = some s ∧ s.args = e.2 := by
  simp only [Table.entries, List.mem_filterMap, List.mem_range'_1, Option.map_eq_some_iff]
  constructor
  · rintro ⟨qid, bounds, s, there, rfl⟩
    exact ⟨by omega, by omega, s, there, rfl⟩
  · rintro ⟨io, inside, s, there, args⟩
    exact ⟨e.1, by omega, s, there, by rw [args]⟩

theorem Table.entries_nodup (t : Table α) (nr : Nat) : ((t.entries nr).map Prod.fst).Nodup := by
  rw [Table.entries, List.map_filterMap]
  refine List.Nodup.filterMap ?_ List.nodup_range'
  intro qid qid' k mem mem'
  simp only [Option.map_map, Option.mem_def, Option.map_eq_some_iff,
    Function.comp_apply] at mem mem'
  obtain ⟨-, -, rfl⟩ := mem
  obtain ⟨-, -, same⟩ := mem'
  exact same.symm

/-- The queues of a list are created one after another, where `may` lets them. -/
def Table.restore (may : Nat → α → Bool) : Table α → List (Nat × α) → Option (Table α)
  | t, [] => some t
  | t, e :: es =>
      if may e.1 e.2 then
        ((t.init e.1 e.2).map fun t => t.enable e.1).bind fun t => t.restore may es
      else none

/-- **A restored table.** Where all the queues may be created they are, and the other slots
stay. -/
theorem Table.restore_spec (may : Nat → α → Bool) {es : List (Nat × α)}
    (nodup : (es.map Prod.fst).Nodup)
    (idle : ∀ e ∈ es, ∀ s, t e.1 = some s → s.enabled = false) :
    ∃ t', t.restore may es = (if es.all fun e => may e.1 e.2 then some t' else none) ∧
      (∀ e ∈ es, ∃ n, t' e.1 = some ⟨n, true, true, e.2⟩) ∧ ∀ k ∉ es.map Prod.fst, t' k = t k := by
  induction es generalizing t with
  | nil => exact ⟨t, rfl, nofun, fun _ _ => rfl⟩
  | cons e es ih =>
      obtain ⟨n, created⟩ := Table.init_idle (idle e List.mem_cons_self) e.2
      obtain ⟨fresh, nodup⟩ := List.nodup_cons.mp nodup
      have others (e' : Nat × α) (mem : e' ∈ es) : e'.1 ≠ e.1 :=
        fun same => fresh (List.mem_map.mpr ⟨e', mem, same⟩)
      obtain ⟨t', restored, there, rest⟩ := ih nodup
        (t := Function.update t e.1 (some ⟨n, true, true, e.2⟩)) (by
          intro e' mem s
          rw [Function.update_of_ne (others e' mem)]
          exact idle e' (List.mem_cons_of_mem _ mem) s)
      refine ⟨t', ?_, ?_, ?_⟩
      · rw [Table.restore, created, Option.map_some, Table.enable, Table.modify_update,
          Option.bind_some, restored, List.all_cons]
        cases may e.1 e.2 <;> rfl
      · rintro e' mem
        rcases List.mem_cons.mp mem with rfl | mem
        · exact ⟨n, (rest e'.1 fresh).trans (Function.update_self ..)⟩
        · exact there e' mem
      · intro k away
        simp only [List.map_cons, List.mem_cons, not_or] at away
        rw [rest k away.2, Function.update_of_ne away.1]

/-- A table after the restore: the admin queue is new, and every queue that was there is live. -/
structure Table.Restored (t t' : Table α) (admin : α) : Prop where
  admin : ∃ n, t' 0 = some ⟨n, true, true, admin⟩
  io : ∀ k ≠ 0, ∀ s, t k = some s → ∃ n, t' k = some ⟨n, true, true, s.args⟩
  none : ∀ k ≠ 0, t k = none → t' k = none

theorem Table.Restored.live {t' : Table α} {admin : α} (h : t.Restored t' admin) :
    t'.live = fun k => if k = 0 then .none else (t k).map Slot.args := by
  funext k
  unfold Table.live
  by_cases zero : k = 0
  · rw [if_pos zero, if_pos zero]
  · rw [if_neg zero, if_neg zero]
    cases there : t k with
    | none => rw [h.none k zero there]; rfl
    | some s =>
        obtain ⟨n, restored⟩ := h.io k zero s there
        rw [restored]
        rfl

theorem Table.Restored.isSome {t' : Table α} {admin : α} (h : t.Restored t' admin)
    (admin : (t 0).isSome = true) (k : Nat) : (t' k).isSome = (t k).isSome := by
  by_cases zero : k = 0
  · subst zero
    obtain ⟨n, restored⟩ := h.admin
    rw [admin, restored]
    rfl
  · cases there : t k with
    | none => rw [h.none k zero there]
    | some s =>
        obtain ⟨n, restored⟩ := h.io k zero s there
        rw [restored]
        rfl

/-- After a reset and a new admin queue, the entries of a table restore it. -/
theorem Table.restore_reset (may : Nat → α → Bool) (inside : ∀ qid s, t qid = some s → qid < nr)
    (n : Nat) (admin : α) : ∃ t', t.Restored t' admin ∧
      Table.restore may
        (Function.update (t.disableAll.deleteAll nr) 0 (some ⟨n, true, true, admin⟩))
        (t.entries nr) = if (t.entries nr).all fun e => may e.1 e.2 then some t' else .none := by
  have io (e : Nat × α) (mem : e ∈ t.entries nr) : e.1 ≠ 0 := (Table.mem_entries.mp mem).1
  obtain ⟨t', restored, there, rest⟩ := Table.restore_spec may (t.entries_nodup nr)
    (t := Function.update (t.disableAll.deleteAll nr) 0 (some ⟨n, true, true, admin⟩)) (by
      intro e mem s here
      rw [Function.update_of_ne (io e mem)] at here
      exact (Table.reset_idle inside here).1)
  refine ⟨t', ⟨⟨n, ?_⟩, ?_, ?_⟩, restored⟩
  · have away : 0 ∉ (t.entries nr).map Prod.fst := by
      intro mem
      obtain ⟨e, mem, zero⟩ := List.mem_map.mp mem
      exact io e mem zero
    exact (rest 0 away).trans (Function.update_self ..)
  · intro k other s here
    exact there (k, s.args) (Table.mem_entries.mpr ⟨other, inside k s here, s, here, rfl⟩)
  · intro k other gone
    have away : k ∉ (t.entries nr).map Prod.fst := by
      intro mem
      obtain ⟨e, listed, rfl⟩ := List.mem_map.mp mem
      obtain ⟨-, -, s, here, -⟩ := Table.mem_entries.mp listed
      exact absurd (gone.symm.trans here) nofun
    rw [rest k away, Function.update_of_ne other]
    cases here : t.disableAll.deleteAll nr k with
    | none => rfl
    | some s =>
        have was := (Table.reset_idle inside here).2.2
        rw [gone] at was
        cases was

end Slots

/-! ### Restoring -/

section Restoring

variable {nrCqs nrSqs : Nat} {u u' : State}

theorem State.ctxRestore_append (ctxs ctxs' : List Ctx) : u.ctxRestore nrCqs nrSqs (ctxs ++ ctxs') =
    (u.ctxRestore nrCqs nrSqs ctxs).bind fun u => u.ctxRestore nrCqs nrSqs ctxs' := by
  induction ctxs generalizing u with
  | nil => rfl
  | cons ctx ctxs ih =>
      rw [List.cons_append, State.ctxRestore, State.ctxRestore, Option.bind_assoc]
      congr 1
      funext u
      exact ih

/-- Namespaces stay where they are. -/
theorem State.restore_ns {nsids : List Nat} (known : ∀ nsid ∈ nsids, nsid ∈ u.nsids) :
    u.ctxRestore nrCqs nrSqs (nsids.map Ctx.ns) = some u := by
  induction nsids with
  | nil => rfl
  | cons nsid nsids ih =>
      have here := known nsid List.mem_cons_self
      rw [List.map_cons, State.ctxRestore, State.restoreOne, State.initNs, if_pos here,
        State.initMetaNs, if_pos here]
      exact ih fun nsid mem => known nsid (List.mem_cons_of_mem _ mem)

/-- What lets a CQ be created. -/
def State.mayCq (nrCqs : Nat) (u : State) (qid : Nat) (a : CqArgs) : Bool :=
  u.irqReady a.vector && accepts nrCqs qid a.qsize

/-- What lets an SQ be created. -/
def State.maySq (nrSqs : Nat) (u : State) (qid : Nat) (a : SqArgs) : Bool :=
  (u.cqs a.cqid).isSome && accepts nrSqs qid a.qsize

theorem State.restore_cqs {es : List (Nat × CqArgs)} (asq : (u.sqs 0).isSome = true)
    (masked : ∀ e ∈ es, e.2.masked = e.2) :
    u.ctxRestore nrCqs nrSqs (es.map fun e => Ctx.cq e.1 e.2) =
      (u.cqs.restore (u.mayCq nrCqs) es).map fun cqs => { u with cqs := cqs } := by
  induction es generalizing u with
  | nil => rfl
  | cons e es ih =>
      have later := fun (u : State) (asq : (u.sqs 0).isSome = true) =>
        ih (u := u) asq fun e mem => masked e (List.mem_cons_of_mem _ mem)
      have may : (u.irqReady e.2.vector && accepts nrCqs e.1 e.2.qsize) =
          u.mayCq nrCqs e.1 e.2 := rfl
      rw [List.map_cons, State.ctxRestore, State.restoreOne, State.createCq, asq, Bool.and_true,
        may, masked e List.mem_cons_self, Table.restore]
      by_cases may : u.mayCq nrCqs e.1 e.2 = true
      · rw [if_pos may, if_pos may]
        cases u.cqs.init e.1 e.2 with
        | none => rfl
        | some cqs => exact later { u with cqs := cqs.enable e.1 } asq
      · rw [if_neg may, if_neg may]
        rfl

theorem State.restore_sqs {es : List (Nat × SqArgs)} (enabled : u.state = .enabled)
    (asq : (u.sqs 0).isSome = true) (io : ∀ e ∈ es, e.1 ≠ 0) :
    u.ctxRestore nrCqs nrSqs (es.map fun e => Ctx.sq e.1 e.2) =
      (u.sqs.restore (u.maySq nrSqs) es).map fun sqs => { u with sqs := sqs } := by
  induction es generalizing u with
  | nil => rfl
  | cons e es ih =>
      rw [List.map_cons, State.ctxRestore, State.restoreOne, State.createSq, Table.restore]
      by_cases may : u.maySq nrSqs e.1 e.2 = true
      · have both := may
        simp only [State.maySq, Bool.and_eq_true] at both
        rw [if_pos may, if_pos ⟨enabled, asq, both⟩]
        cases created : u.sqs.init e.1 e.2 with
        | none => rfl
        | some sqs =>
            have kept : ((sqs.enable e.1) 0).isSome = true := by
              rw [Table.enable, Table.modify, Function.update_of_ne (io e List.mem_cons_self).symm,
                Table.init_other created (io e List.mem_cons_self).symm]
              exact asq
            exact ih (u := { u with sqs := sqs.enable e.1 }) enabled kept
              fun e mem => io e (List.mem_cons_of_mem _ mem)
      · have neither : ¬ (u.state = .enabled ∧ (u.sqs 0).isSome = true ∧
            (u.cqs e.2.cqid).isSome = true ∧ accepts nrSqs e.1 e.2.qsize = true) := by
          simp only [State.maySq, Bool.and_eq_true] at may
          exact fun all => may all.2.2
        rw [if_neg may, if_neg neither]
        rfl

/-- The admin queue of a controller that was reset. -/
theorem State.createAdminq_idle (nrCqs nrSqs : Nat) (disabled : u.state = .disabled)
    (acq : ∀ s, u.cqs 0 = some s → s.enabled = false)
    (asq : ∀ s, u.sqs 0 = some s → s.enabled = false) (sqSize cqSize : Nat) (adminIrq : Bool) :
    ∃ n m, u.createAdminq nrCqs nrSqs sqSize cqSize adminIrq =
      if 0 < u.nrIrqs ∧ accepts nrCqs 0 cqSize = true ∧ accepts nrSqs 0 sqSize = true then
        some { u with
          aqa := aqaOf sqSize cqSize
          cqs := Function.update u.cqs 0
            (some ⟨n, false, true, ⟨cqSize, if adminIrq then 0 else -1, 1⟩⟩)
          sqs := Function.update u.sqs 0 (some ⟨m, false, true, ⟨sqSize, 0, 0, 1, 0⟩⟩) }
      else none := by
  obtain ⟨n, initCq⟩ := Table.init_idle acq (⟨cqSize, 0, 1⟩ : CqArgs)
  obtain ⟨m, initSq⟩ := Table.init_idle asq (⟨sqSize, 0, 0, 1, 0⟩ : SqArgs)
  refine ⟨n, m, ?_⟩
  have unmasked : (⟨cqSize, 0, 1⟩ : CqArgs).masked = ⟨cqSize, 0, 1⟩ := rfl
  have ready : u.irqReady 0 = decide (0 < u.nrIrqs) := by
    simp [State.irqReady]
  rw [State.createAdminq, if_neg (not_not.mpr disabled), State.initCq, ready, unmasked, initCq]
  by_cases fits : 0 < u.nrIrqs ∧ accepts nrCqs 0 cqSize = true
  · obtain ⟨irqs, cqFits⟩ := fits
    rw [if_pos (by simp [irqs, cqFits]), Option.map_some, Option.bind_some, State.initSq]
    have there : ((Function.update u.cqs 0 (some ⟨n, false, true, ⟨cqSize, 0, 1⟩⟩) : Table CqArgs)
        0).isSome = true := by
      rw [Function.update_self]
      rfl
    simp only [there, Bool.true_and, initSq]
    by_cases sqFits : accepts nrSqs 0 sqSize = true
    · rw [if_pos sqFits, if_pos ⟨irqs, cqFits, sqFits⟩, Option.map_some, Option.map_some,
        State.configureAdminq]
      cases adminIrq with
      | true =>
          have kept : ¬ (!true || decide (u.nrIrqs = 0)) = true := by
            simp
            omega
          rw [if_neg kept]
          rfl
      | false =>
          have lost : (!false || decide (u.nrIrqs = 0)) = true := rfl
          rw [if_pos lost, Table.modify_update]
          rfl
    · rw [if_neg sqFits, if_neg fun all => sqFits all.2.2]
      rfl
  · have unfit : ¬ (decide (0 < u.nrIrqs) && accepts nrCqs 0 cqSize) = true := by
      rw [Bool.and_eq_true, decide_eq_true_eq]
      exact fits
    rw [if_neg unfit, if_neg fun all => fits ⟨all.1, all.2.1⟩]
    rfl

/-- The admin queue and the registers of a controller that was reset. -/
theorem State.restore_ctrl (nrCqs nrSqs : Nat) (disabled : u.state = .disabled)
    (off : ccEn u.cc ≠ 1)
    (acq : ∀ s, u.cqs 0 = some s → s.enabled = false)
    (asq : ∀ s, u.sqs 0 = some s → s.enabled = false)
    (iosqes iocqes mps ams sqSize cqSize : Nat) (timeout : Int) (css : Nat) (adminIrq : Bool) :
    ∃ n m, u.restoreOne nrCqs nrSqs
        (.ctrl iosqes iocqes mps ams sqSize cqSize timeout css adminIrq) =
      if 0 < u.nrIrqs ∧ accepts nrCqs 0 cqSize = true ∧ accepts nrSqs 0 sqSize = true then
        some { u with
          state := .enabled
          cc := ccOf iosqes iocqes mps ams
          aqa := aqaOf sqSize cqSize
          timeout := timeout
          cqs := Function.update u.cqs 0
            (some ⟨n, true, true, ⟨cqSize, if adminIrq then 0 else -1, 1⟩⟩)
          sqs := Function.update u.sqs 0 (some ⟨m, true, true, ⟨sqSize, 0, 0, 1, 0⟩⟩) }
      else none := by
  obtain ⟨n, m, created⟩ := State.createAdminq_idle nrCqs nrSqs disabled acq asq sqSize cqSize
    adminIrq
  refine ⟨n, m, ?_⟩
  rw [State.restoreOne, created]
  split
  · rw [Option.bind_some, State.enableCtrl, disabled]
    change (if ccEn u.cc = 1 then none else _) = _
    rw [if_neg off, Table.enable, Table.modify_update, Table.enable, Table.modify_update]
    rfl
  · rfl

/-- Everything there is to restore can be restored. -/
def State.restores (nrCqs nrSqs : Nat) (u : State) : Bool :=
  decide (0 < u.nrIrqs) && accepts nrCqs 0 (aqaAcqs u.aqa + 1) &&
    accepts nrSqs 0 (aqaAsqs u.aqa + 1) &&
    (u.sqs.entries nrSqs).all fun e => (u.cqs e.2.cqid).isSome

/-- The controller is off after a reset. -/
theorem ccEn_reset (cc : Nat) : ccEn (cc &&& 0xfffffffe) ≠ 1 := by
  have off : (ccEn (cc &&& 0xfffffffe)).testBit 0 = false := by
    rw [ccEn, testBit_field, Nat.testBit_and]
    simp
  intro on
  rw [on] at off
  cases off

theorem State.reset_eq (nrCqs nrSqs : Nat) (enabled : u.state = .enabled) :
    u.resetCtrl.freeCtx nrCqs nrSqs = { u with
      state := .disabled
      cc := u.cc &&& 0xfffffffe
      cqs := u.cqs.disableAll.deleteAll nrCqs
      sqs := u.sqs.disableAll.deleteAll nrSqs } := by
  rw [State.resetCtrl, enabled]
  rfl

theorem State.Enabled.insideCq (h : u.Enabled nrCqs nrSqs) {qid : Nat} {s : Slot CqArgs}
    (there : u.cqs qid = some s) : qid < nrCqs := by
  have fits := (h.cqs qid s there).2.1
  simp only [accepts, Bool.and_eq_true, decide_eq_true_eq] at fits
  exact fits.1

theorem State.Enabled.insideSq (h : u.Enabled nrCqs nrSqs) {qid : Nat} {s : Slot SqArgs}
    (there : u.sqs qid = some s) : qid < nrSqs := by
  have fits : accepts nrSqs qid s.args.qsize = true := (h.sqs qid s there).2
  simp only [accepts, Bool.and_eq_true, decide_eq_true_eq] at fits
  exact fits.1

/-- The saved CQs may be created again. -/
theorem State.Enabled.mayCqs (h : u.Enabled nrCqs nrSqs) :
    ((u.cqs.entries nrCqs).all fun e => u.mayCq nrCqs e.1 e.2) = true := by
  rw [List.all_eq_true]
  intro e mem
  obtain ⟨-, -, s, there, args⟩ := Table.mem_entries.mp mem
  obtain ⟨-, fits, -, known⟩ := h.cqs e.1 s there
  rw [args] at fits known
  simp [State.mayCq, State.irqReady, fits, known]

/-- The saved vectors are the ones creation leaves. -/
theorem State.Enabled.masked (h : u.Enabled nrCqs nrSqs) (e : Nat × CqArgs)
    (mem : e ∈ u.cqs.entries nrCqs) : e.2.masked = e.2 := by
  obtain ⟨-, -, s, there, args⟩ := Table.mem_entries.mp mem
  obtain ⟨-, -, low, -⟩ := h.cqs e.1 s there
  rw [args] at low
  obtain ⟨qid, qsize, vector, pc⟩ := e
  unfold CqArgs.masked
  split
  · rename_i negative
    have same : vector = -1 := by
      change -1 ≤ vector at low
      change vector < 0 at negative
      omega
    rw [same]
  · rfl

/-- The entries after the controller's, from the state that the controller's entry leaves. -/
theorem State.Enabled.restore_queues (h : u.Enabled nrCqs nrSqs) (u' : State)
    (irqs : u'.nrIrqs = u.nrIrqs) (enabled : u'.state = .enabled) (nsids : u'.nsids = u.nsids)
    {n m : Nat} {acq : CqArgs} {asq : SqArgs}
    (cqs : u'.cqs =
      Function.update (u.cqs.disableAll.deleteAll nrCqs) 0 (some ⟨n, true, true, acq⟩))
    (sqs : u'.sqs =
      Function.update (u.sqs.disableAll.deleteAll nrSqs) 0 (some ⟨m, true, true, asq⟩)) :
    ∃ cqs sqs, u.cqs.Restored cqs acq ∧ u.sqs.Restored sqs asq ∧
      u'.ctxRestore nrCqs nrSqs (u.nsids.map Ctx.ns ++
        (u.cqs.saved Ctx.cq nrCqs ++ u.sqs.saved Ctx.sq nrSqs)) =
      if (u.sqs.entries nrSqs).all fun e => (u.cqs e.2.cqid).isSome then
        some { u' with cqs := cqs, sqs := sqs }
      else none := by
  have admin : (u.cqs 0).isSome = true := by
    obtain ⟨_, _, -, there, -⟩ := h.admin
    rw [there]
    rfl
  have asqThere : (u'.sqs 0).isSome = true := by
    rw [sqs, Function.update_self]
    rfl
  obtain ⟨cqs', restoredCqs, doneCqs⟩ := Table.restore_reset (u.mayCq nrCqs)
    (fun _ _ => h.insideCq) n acq
  obtain ⟨sqs', restoredSqs, doneSqs⟩ := Table.restore_reset
    (fun qid a => (cqs' a.cqid).isSome && accepts nrSqs qid a.qsize) (fun _ _ => h.insideSq) m asq
  have mayCq : u'.mayCq nrCqs = u.mayCq nrCqs := by
    funext qid a
    rw [State.mayCq, State.mayCq, State.irqReady, State.irqReady, irqs]
  have maySqs : ((u.sqs.entries nrSqs).all fun e =>
        (cqs' e.2.cqid).isSome && accepts nrSqs e.1 e.2.qsize) =
      (u.sqs.entries nrSqs).all fun e => (u.cqs e.2.cqid).isSome := by
    rw [Bool.eq_iff_iff, List.all_eq_true, List.all_eq_true]
    refine forall₂_congr fun e mem => ?_
    obtain ⟨-, -, s, there, args⟩ := Table.mem_entries.mp mem
    have fits := (h.sqs e.1 s there).2
    rw [args] at fits
    rw [restoredCqs.isSome admin, fits, Bool.and_true]
  rw [h.mayCqs, if_pos rfl] at doneCqs
  rw [maySqs] at doneSqs
  refine ⟨cqs', sqs', restoredCqs, restoredSqs, ?_⟩
  rw [State.ctxRestore_append, State.restore_ns (by rw [nsids]; exact fun _ mem => mem),
    Option.bind_some, State.ctxRestore_append, Table.saved_eq, Table.saved_eq,
    State.restore_cqs asqThere h.masked, mayCq, cqs, doneCqs, Option.map_some, Option.bind_some,
    State.restore_sqs (u := { u' with cqs := cqs' }) enabled asqThere
      fun e mem => (Table.mem_entries.mp mem).1]
  change Option.map _ (Table.restore
    (fun qid a => (cqs' a.cqid).isSome && accepts nrSqs qid a.qsize) u'.sqs
    (u.sqs.entries nrSqs)) = _
  rw [sqs, doneSqs]
  split <;> rfl

/-- **The round trip.** It succeeds where all may be restored, with every queue that had a slot. -/
theorem State.Enabled.roundTrip (h : u.Enabled nrCqs nrSqs) : ∃ cqs sqs,
    u.cqs.Restored cqs ⟨aqaAcqs u.aqa + 1, if u.adminIrq then 0 else -1, 1⟩ ∧
    u.sqs.Restored sqs ⟨aqaAsqs u.aqa + 1, 0, 0, 1, 0⟩ ∧
    u.roundTrip nrCqs nrSqs = if u.restores nrCqs nrSqs then some { u with
        state := .enabled
        cc := ccOf (ccIosqes u.cc) (ccIocqes u.cc) (ccMps u.cc) (ccAms u.cc)
        aqa := aqaOf (aqaAsqs u.aqa + 1) (aqaAcqs u.aqa + 1)
        cqs := cqs
        sqs := sqs } else none := by
  have reset := State.reset_eq nrCqs nrSqs h.state
  obtain ⟨n, m, ctrl⟩ := State.restore_ctrl nrCqs nrSqs (u := u.resetCtrl.freeCtx nrCqs nrSqs)
    (by rw [reset]) (by rw [reset]; exact ccEn_reset _)
    (by rw [reset]; exact fun s there => (Table.reset_idle (fun _ _ => h.insideCq) there).1)
    (by rw [reset]; exact fun s there => (Table.reset_idle (fun _ _ => h.insideSq) there).1)
    (ccIosqes u.cc) (ccIocqes u.cc) (ccMps u.cc) (ccAms u.cc) (aqaAsqs u.aqa + 1)
    (aqaAcqs u.aqa + 1) u.timeout (ccCss u.cc) u.adminIrq
  rw [reset] at ctrl
  obtain ⟨cqs, sqs, restoredCqs, restoredSqs, queues⟩ := h.restore_queues { u with
      state := .enabled
      cc := ccOf (ccIosqes u.cc) (ccIocqes u.cc) (ccMps u.cc) (ccAms u.cc)
      aqa := aqaOf (aqaAsqs u.aqa + 1) (aqaAcqs u.aqa + 1)
      cqs := Function.update (u.cqs.disableAll.deleteAll nrCqs) 0
        (some ⟨n, true, true, ⟨aqaAcqs u.aqa + 1, if u.adminIrq then 0 else -1, 1⟩⟩)
      sqs := Function.update (u.sqs.disableAll.deleteAll nrSqs) 0
        (some ⟨m, true, true, ⟨aqaAsqs u.aqa + 1, 0, 0, 1, 0⟩⟩) } rfl rfl rfl rfl rfl
  refine ⟨cqs, sqs, restoredCqs, restoredSqs, ?_⟩
  rw [State.roundTrip, State.ctxInit, State.ctxRestore, State.ctrlCtx, reset, ctrl, State.restores]
  by_cases admin : 0 < u.nrIrqs ∧ accepts nrCqs 0 (aqaAcqs u.aqa + 1) = true ∧
      accepts nrSqs 0 (aqaAsqs u.aqa + 1) = true
  · rw [if_pos admin, Option.bind_some, queues, admin.2.1, admin.2.2, decide_eq_true admin.1,
      Bool.and_self, Bool.and_self, Bool.true_and]
  · have refused : ¬ (decide (0 < u.nrIrqs) && accepts nrCqs 0 (aqaAcqs u.aqa + 1) &&
        accepts nrSqs 0 (aqaAsqs u.aqa + 1) &&
        (u.sqs.entries nrSqs).all fun e => (u.cqs e.2.cqid).isSome) = true := by
      simp only [Bool.and_eq_true, decide_eq_true_eq]
      exact fun all => admin ⟨all.1.1.1, all.1.1.2, all.1.2⟩
    rw [if_neg admin, if_neg refused]
    rfl

end Restoring

/-! ### Registers -/

/-- What `__unvmed_enable_ctrl` wrote is what `unvmed_ctx_init` reads. -/
theorem ccOf_fields {iosqes iocqes mps ams : Nat} (hiosqes : iosqes < 2 ^ 4)
    (hiocqes : iocqes < 2 ^ 4) (hmps : mps < 2 ^ 4) (hams : ams < 2 ^ 3) :
    ccMps (ccOf iosqes iocqes mps ams) = mps ∧ ccAms (ccOf iosqes iocqes mps ams) = ams ∧
      ccIosqes (ccOf iosqes iocqes mps ams) = iosqes ∧
      ccIocqes (ccOf iosqes iocqes mps ams) = iocqes ∧ ccCss (ccOf iosqes iocqes mps ams) = 0 := by
  have on : 1 < 2 ^ 1 := by decide
  unfold ccMps ccAms ccIosqes ccIocqes ccCss ccOf
  simp only [field_or]
  refine ⟨?_, ?_, ?_, ?_, ?_⟩
  · rw [field_own hmps, field_above (by decide), field_above (by decide), field_above (by decide),
      field_below on (by decide)]
    simp
  · rw [field_below hmps (by decide), field_own hams, field_above (by decide),
      field_above (by decide), field_below on (by decide)]
    simp
  · rw [field_below hmps (by decide), field_below hams (by decide), field_own hiosqes,
      field_above (by decide), field_below on (by decide)]
    simp
  · rw [field_below hmps (by decide), field_below hams (by decide), field_below hiosqes (by decide),
      field_own hiocqes, field_below on (by decide)]
    simp
  · rw [field_above (by decide), field_above (by decide), field_above (by decide),
      field_above (by decide), field_below on (by decide)]
    rfl

/-- The register holds twelve bits of a size. -/
theorem aqaOf_fields {sqSize cqSize : Nat} (sq : sqSize ≤ 4096) (cq : cqSize ≤ 4096) :
    aqaAsqs (aqaOf sqSize cqSize) = sqSize - 1 ∧ aqaAcqs (aqaOf sqSize cqSize) = cqSize - 1 := by
  have sqFits : sqSize - 1 < 2 ^ 12 := by omega
  have cqFits : cqSize - 1 < 2 ^ 12 := by omega
  have low : field ((sqSize - 1) <<< 0) 0 12 = sqSize - 1 := field_own sqFits
  have high : field ((sqSize - 1) <<< 0) 16 12 = 0 := field_below sqFits (by decide)
  rw [Nat.shiftLeft_zero] at low high
  unfold aqaAsqs aqaAcqs aqaOf
  constructor
  · rw [field_mod _ (by decide), field_or, low, field_above (by decide), Nat.or_zero]
  · rw [field_mod _ (by decide), field_or, high, field_own cqFits, Nat.zero_or]

theorem aqa_le (aqa : Nat) : aqaAsqs aqa + 1 ≤ 4096 ∧ aqaAcqs aqa + 1 ≤ 4096 :=
  ⟨field_lt aqa 0 12, field_lt aqa 16 12⟩

/-! ### Enabled controllers -/

section Keep

variable {α : Type} {t t' : Table α} {fits : Nat → α → Prop} {nrCqs nrSqs : Nat} {u u' : State}

theorem Table.Fits.update (h : t.Fits fits) {qid : Nat} {s : Slot α} (held : 0 < s.refcnt)
    (ok : fits qid s.args) : Table.Fits (Function.update t qid (some s)) fits := by
  intro k s' there
  by_cases same : k = qid
  · subst same
    rw [Function.update_self] at there
    cases there
    exact ⟨held, ok⟩
  · rw [Function.update_of_ne same] at there
    exact h k s' there

/-- `unvmed_init_usq` and `unvmed_init_ucq` leave one queue more, or other arguments. -/
theorem Table.Fits.init (h : t.Fits fits) {qid : Nat} {args : α} (ok : fits qid args)
    (done : t.init qid args = some t') : t'.Fits fits := by
  unfold Table.init at done
  split at done
  · cases done
    exact h.update Nat.one_pos ok
  · split at done
    · cases done
    · cases done
      exact h.update (Nat.succ_pos _) ok

theorem Table.Fits.enable (h : t.Fits fits) (qid : Nat) : (t.enable qid).Fits fits := by
  cases there : t qid with
  | none =>
      rw [Table.enable, Table.modify, there, Option.map_none, ← there, Function.update_eq_self]
      exact h
  | some s =>
      rw [Table.enable, Table.modify, there]
      exact h.update (h qid s there).1 (h qid s there).2

theorem Table.enable_other {qid k : Nat} (other : k ≠ qid) : t.enable qid k = t k :=
  Function.update_of_ne other _ _

/-- A vector that was taken is one that creation takes again. -/
theorem CqArgs.masked_fits {a : CqArgs} {qid : Nat} (ready : u.irqReady a.vector = true)
    (accepted : accepts nrCqs qid a.qsize = true) : a.masked.Fits nrCqs u.nrIrqs qid := by
  simp only [State.irqReady, Bool.or_eq_true, decide_eq_true_eq] at ready
  unfold CqArgs.masked
  split
  · rename_i negative
    refine ⟨accepted, le_rfl, ?_⟩
    change (-1 : Int) < u.nrIrqs
    omega
  · rename_i irq
    exact ⟨accepted, by omega, by omega⟩

/-- Creating an I/O CQ leaves an enabled controller. -/
theorem State.Enabled.createCq (h : u.Enabled nrCqs nrSqs) {qid : Nat} (io : qid ≠ 0) {a : CqArgs}
    (done : u.createCq nrCqs qid a = some u') : u'.Enabled nrCqs nrSqs := by
  unfold State.createCq at done
  split at done
  · rename_i may
    simp only [Bool.and_eq_true] at may
    obtain ⟨cqs, created, rfl⟩ := Option.map_eq_some_iff.mp done
    refine ⟨h.state, ?_, (h.cqs.init (CqArgs.masked_fits may.1.1 may.2) created).enable qid, h.sqs⟩
    obtain ⟨asq, acq, hasq, hacq, haqa⟩ := h.admin
    refine ⟨asq, acq, hasq, ?_, haqa⟩
    exact (Table.enable_other io.symm).trans ((Table.init_other created io.symm).trans hacq)
  · cases done

/-- Creating an I/O SQ leaves an enabled controller. -/
theorem State.Enabled.createSq (h : u.Enabled nrCqs nrSqs) {qid : Nat} (io : qid ≠ 0) {a : SqArgs}
    (done : u.createSq nrSqs qid a = some u') : u'.Enabled nrCqs nrSqs := by
  unfold State.createSq at done
  split at done
  · rename_i may
    obtain ⟨sqs, created, rfl⟩ := Option.map_eq_some_iff.mp done
    refine ⟨h.state, ?_, h.cqs, (h.sqs.init may.2.2.2 created).enable qid⟩
    obtain ⟨asq, acq, hasq, hacq, haqa⟩ := h.admin
    refine ⟨asq, acq, ?_, hacq, haqa⟩
    exact (Table.enable_other io.symm).trans ((Table.init_other created io.symm).trans hasq)
  · cases done

end Keep

/-! ### Main results -/

section Main

variable {nrCqs nrSqs : Nat} {u u' : State}

/-- What a restored controller looks like: every I/O queue that had a slot is live, the sizes of
the admin queue are what the register held, and the command set is 0. -/
theorem State.Enabled.roundTrip_view (h : u.Enabled nrCqs nrSqs)
    (done : u.roundTrip nrCqs nrSqs = some u') : u'.view = { u.view with
      cqs := fun qid => if qid = 0 then none else (u.cqs qid).map Slot.args
      sqs := fun qid => if qid = 0 then none else (u.sqs qid).map Slot.args
      adminSizes := some (aqaAsqs u.aqa + 1, aqaAcqs u.aqa + 1)
      adminIrq := some u.adminIrq
      css := 0 } := by
  obtain ⟨cqs, sqs, restoredCqs, restoredSqs, result⟩ := h.roundTrip
  rw [done] at result
  split at result
  · cases result
    obtain ⟨n, acq⟩ := restoredCqs.admin
    obtain ⟨m, asq⟩ := restoredSqs.admin
    obtain ⟨mps, ams, iosqes, iocqes, css⟩ := ccOf_fields (field_lt u.cc 16 4) (field_lt u.cc 20 4)
      (field_lt u.cc 7 4) (field_lt u.cc 11 3)
    have irq : decide ((0 : Int) ≤ if u.adminIrq then 0 else -1) = u.adminIrq := by
      cases u.adminIrq <;> rfl
    simp only [State.view, restoredCqs.live, restoredSqs.live, acq, asq, Option.bind_some,
      Option.map_some, irq, View.mk.injEq, true_and, and_true]
    exact ⟨mps, ams, css, iosqes, iocqes⟩
  · cases result

/-- When there is a restored controller at all. -/
theorem State.Enabled.roundTrip_isSome (h : u.Enabled nrCqs nrSqs) :
    (u.roundTrip nrCqs nrSqs).isSome = u.restores nrCqs nrSqs := by
  obtain ⟨cqs, sqs, -, -, result⟩ := h.roundTrip
  rw [result]
  cases u.restores nrCqs nrSqs <;> rfl

/-- The live queues of a table are all of them. -/
theorem Table.live_eq {α : Type} {t : Table α} :
    ((fun qid => if qid = 0 then none else (t qid).map Slot.args) = t.live) ↔
      ∀ qid s, qid ≠ 0 → t qid = some s → s.live = true := by
  constructor
  · intro same qid s io there
    have at_ := congrFun same qid
    simp only [if_neg io, there, Option.map_some, Table.live] at at_
    by_contra dead
    rw [Option.filter_some, if_neg dead] at at_
    cases at_
  · intro all
    funext qid
    unfold Table.live
    by_cases io : qid = 0
    · rw [if_pos io, if_pos io]
    · rw [if_neg io, if_neg io]
      cases there : t qid with
      | none => rfl
      | some s => rw [Option.filter_some, if_pos (all qid s io there)]

theorem State.Enabled.view_eq (h : u.Enabled nrCqs nrSqs) : ∃ asq acq, u.sqs 0 = some asq ∧
    u.cqs 0 = some acq ∧ u.aqa = aqaOf asq.args.qsize acq.args.qsize ∧
    u.adminIrq = decide (acq.args.vector = 0) ∧ u.view = { u.view with
      adminSizes := some (asq.args.qsize, acq.args.qsize)
      adminIrq := some (decide (0 ≤ acq.args.vector)) } := by
  obtain ⟨asq, acq, hasq, hacq, haqa⟩ := h.admin
  refine ⟨asq, acq, hasq, hacq, haqa, ?_, ?_⟩
  · simp only [State.adminIrq, hasq, hacq]
  · simp [State.view, hasq, hacq]

/-- A controller that the round trip keeps is one that a context restores. -/
theorem State.Enabled.restorable (h : u.Enabled nrCqs nrSqs) (kept : u.RoundTrips nrCqs nrSqs) :
    u.Restorable := by
  obtain ⟨asq, acq, hasq, hacq, -, irqs, view⟩ := h.view_eq
  obtain ⟨u', done, same⟩ := kept
  have found := h.roundTrip_isSome
  rw [done] at found
  simp only [State.restores, Option.isSome_some, eq_comm (a := true), Bool.and_eq_true,
    decide_eq_true_eq, List.all_eq_true] at found
  rw [h.roundTrip_view done, view] at same
  simp only [View.mk.injEq, Option.some.injEq, Prod.mk.injEq, irqs, true_and, and_true] at same
  obtain ⟨cqs, sqs, ⟨sqSize, cqSize⟩, irq, css⟩ := same
  have bounds := aqa_le u.aqa
  refine ⟨found.1.1.1, Table.live_eq.mp cqs, Table.live_eq.mp sqs, ?_, css.symm, ?_, ?_, ?_⟩
  · intro qid s io there
    exact found.2 (qid, s.args) (Table.mem_entries.mpr ⟨io, h.insideSq there, s, there, rfl⟩)
  · intro s there
    cases hasq.symm.trans there
    omega
  · intro s there
    cases hacq.symm.trans there
    omega
  · intro s there
    cases hacq.symm.trans there
    by_contra positive
    have nonzero : ¬ acq.args.vector = 0 := by omega
    have nonneg : 0 ≤ acq.args.vector := by omega
    simp [nonzero, nonneg] at irq

/-- The sizes of an admin queue that a context restores come back from the register. -/
theorem State.Enabled.adminSizes (h : u.Enabled nrCqs nrSqs) (ok : u.Restorable)
    {asq : Slot SqArgs} {acq : Slot CqArgs} (hasq : u.sqs 0 = some asq) (hacq : u.cqs 0 = some acq)
    (haqa : u.aqa = aqaOf asq.args.qsize acq.args.qsize) :
    aqaAsqs u.aqa + 1 = asq.args.qsize ∧ aqaAcqs u.aqa + 1 = acq.args.qsize := by
  obtain ⟨asqs, acqs⟩ := aqaOf_fields (ok.sqSize asq hasq) (ok.cqSize acq hacq)
  have sqFits : accepts nrSqs 0 asq.args.qsize = true := (h.sqs 0 asq hasq).2
  have cqFits := (h.cqs 0 acq hacq).2.1
  simp only [accepts, Bool.and_eq_true, decide_eq_true_eq] at sqFits cqFits
  rw [haqa, asqs, acqs]
  omega

/-- The round trip keeps a controller that a context restores. -/
theorem State.Enabled.roundTrips (h : u.Enabled nrCqs nrSqs) (ok : u.Restorable) :
    u.RoundTrips nrCqs nrSqs := by
  obtain ⟨asq, acq, hasq, hacq, haqa, irqs, view⟩ := h.view_eq
  obtain ⟨sqSize, cqSize⟩ := h.adminSizes ok hasq hacq haqa
  have all : u.restores nrCqs nrSqs = true := by
    simp only [State.restores, Bool.and_eq_true, decide_eq_true_eq, List.all_eq_true, sqSize,
      cqSize]
    refine ⟨⟨⟨ok.irqs, (h.cqs 0 acq hacq).2.1⟩, (h.sqs 0 asq hasq).2⟩, ?_⟩
    intro e mem
    obtain ⟨io, -, s, there, args⟩ := Table.mem_entries.mp mem
    exact args ▸ ok.attached e.1 s io there
  rw [← h.roundTrip_isSome, Option.isSome_iff_exists] at all
  obtain ⟨u', done⟩ := all
  refine ⟨u', done, ?_⟩
  rw [h.roundTrip_view done, view, sqSize, cqSize, irqs]
  simp only [View.mk.injEq, Option.some.injEq, true_and, and_true]
  refine ⟨Table.live_eq.mpr ok.cqs, Table.live_eq.mpr ok.sqs, ?_, ok.css.symm⟩
  have low := ok.vector acq hacq
  rw [decide_eq_decide]
  omega

/-- **Saving and restoring a context.** A round trip keeps an enabled controller if and only if
every I/O queue in a slot is live and every SQ's CQ is in its slot, the command set is 0, the
admin queues have no more than 4096 entries, and the admin CQ uses vector 0 or none of the
vectors, of which there is one. -/
theorem State.roundTrips_iff (h : u.Enabled nrCqs nrSqs) :
    u.RoundTrips nrCqs nrSqs ↔ u.Restorable :=
  ⟨h.restorable, h.roundTrips⟩

end Main

/-- An enabled controller with an SQ and two CQs, one of them with references held outside the
driver; `cq` is the CQ in slot 2. -/
def sample (cq : Slot CqArgs) : State where
  state := .enabled
  cc := 0x460001
  aqa := aqaOf 32 32
  timeout := 5
  nrIrqs := 2
  nsids := [1, 3]
  cqs := fun
    | 0 => some ⟨1, true, true, ⟨32, 0, 1⟩⟩
    | 1 => some ⟨3, true, true, ⟨64, 1, 1⟩⟩
    | 2 => some cq
    | _ => none
  sqs := fun
    | 0 => some ⟨1, true, true, ⟨32, 0, 0, 1, 0⟩⟩
    | 1 => some ⟨2, true, true, ⟨64, 1, 2, 1, 7⟩⟩
    | _ => none

theorem sample_enabled {cq : Slot CqArgs} (refcnt : 0 < cq.refcnt) (args : cq.args = ⟨16, -1, 1⟩) :
    (sample cq).Enabled 4 4 where
  state := rfl
  admin := ⟨_, _, rfl, rfl, rfl⟩
  cqs := by
    intro qid s there
    have irqs : (sample cq).nrIrqs = 2 := rfl
    rw [irqs]
    match qid with
    | 0 | 1 =>
        cases there
        decide
    | 2 =>
        cases there
        refine ⟨refcnt, ?_⟩
        rw [args]
        decide
    | _ + 3 => cases there
  sqs := by
    intro qid s there
    match qid with
    | 0 | 1 =>
        cases there
        decide
    | _ + 2 => cases there

theorem sample_roundTrips : (sample ⟨1, true, true, ⟨16, -1, 1⟩⟩).RoundTrips 4 4 := by
  refine (State.roundTrips_iff (sample_enabled (by decide) rfl)).mpr ?_
  refine ⟨by decide, ?_, ?_, ?_, by decide, ?_, ?_, ?_⟩
  · intro qid s io there
    match qid with
    | 0 => exact absurd rfl io
    | 1 | 2 =>
        cases there
        rfl
    | _ + 3 => cases there
  · intro qid s io there
    match qid with
    | 0 => exact absurd rfl io
    | 1 =>
        cases there
        rfl
    | _ + 2 => cases there
  · intro qid s io there
    match qid with
    | 0 => exact absurd rfl io
    | 1 =>
        cases there
        rfl
    | _ + 2 => cases there
  · rintro _ ⟨⟩
    decide
  · rintro _ ⟨⟩
    decide
  · rintro _ ⟨⟩
    decide

/-- A CQ that was deleted while somebody held it is live after the round trip. -/
theorem deleted_cq_restored : (sample ⟨1, true, false, ⟨16, -1, 1⟩⟩).Enabled 4 4 ∧
    (sample ⟨1, true, false, ⟨16, -1, 1⟩⟩).cqs.live 2 = none ∧
    ((sample ⟨1, true, false, ⟨16, -1, 1⟩⟩).roundTrip 4 4).map (fun u => u.cqs.live 2) =
      some (some ⟨16, -1, 1⟩) ∧
    ¬ (sample ⟨1, true, false, ⟨16, -1, 1⟩⟩).RoundTrips 4 4 := by
  have revived : ((sample ⟨1, true, false, ⟨16, -1, 1⟩⟩).roundTrip 4 4).map
      (fun u => u.cqs.live 2) = some (some ⟨16, -1, 1⟩) := by decide
  refine ⟨sample_enabled (by decide) rfl, rfl, revived, ?_⟩
  rintro ⟨u', done, same⟩
  rw [done, Option.map_some, Option.some.injEq] at revived
  have gone : u'.cqs.live 2 = none := congrFun (congrArg View.cqs same) 2
  rw [revived] at gone
  cases gone

end Unvmed.Context
