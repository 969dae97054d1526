import Unvmed.Queue.Lifetime

/-!
References of external holders across deletions and resets.

`refcnt` does not say who owns a reference. A deletion drops one without asking
whether the driver side still has one to drop.

* `second_delete_takes_reference`: a queue that an external caller holds and that is
  deleted twice is freed under its holder. The comment in `unvmed_free_ctx` describes
  the same defect for namespaces.
* `holders_kept_iff`: no external holder loses its reference in a run if and only if
  every deletion hits a queue that the driver side still has a reference to
  (`OwnReference`).
-/

namespace Unvmed.Queue

open Lib
open Registry (Kind Key Inst)

/-- Every reference of an external holder is counted, and what it refers to is not
freed. -/
structure State.HoldersKept (u : State) : Prop where
  counted : ∀ x, (u.ext.count x : Int) ≤ u.refcnt x
  live : ∀ x, x ∈ u.ext → x ∉ u.freed

/-- The instance in the slot, if there is one, was created more often than deleted. -/
def State.Backed (nr : Kind → Nat) (u : State) (key : Key) : Prop :=
  match u.find nr key with
  | none => True
  | some x => x ∈ u.drv

instance (nr : Kind → Nat) (u : State) (key : Key) : Decidable (u.Backed nr key) := by
  unfold State.Backed
  split <;> infer_instance

/-- The admin command of a deletion succeeds. -/
def State.Issued (nr : Kind → Nat) (u : State) (o : Outcome) : Prop :=
  u.find nr ⟨.sq, 0⟩ ≠ none ∧ o.cmd = true ∧ o.cqeOk = true

instance (nr : Kind → Nat) (u : State) (o : Outcome) : Decidable (u.Issued nr o) := by
  unfold State.Issued
  infer_instance

/-- A driver-side deletion drops a reference of the driver side. -/
def OwnReference (nr : Kind → Nat) (u : State) : Act → Prop
  | .deleteSq qid o => u.Issued nr o → u.Backed nr ⟨.sq, qid⟩
  | .deleteCq qid o => u.Issued nr o → u.Backed nr ⟨.cq, qid⟩
  | .freeSq qid | .delSq qid => u.Backed nr ⟨.sq, qid⟩
  | .freeCq qid => u.Backed nr ⟨.cq, qid⟩
  | .freeCtx => ∀ key ∈ keys nr .sq ++ keys nr .cq, u.Backed nr key
  | _ => True

instance (nr : Kind → Nat) (u : State) (a : Act) : Decidable (OwnReference nr u a) := by
  unfold OwnReference
  split <;> infer_instance

/-! ### Who owns the references -/

/-- A slot points to a referenced instance of its own id. -/
def State.Filed (u : State) : Prop := ∀ key x, u.slot key = some x → x.key = key ∧ 0 < u.refcnt x

/-- The count is the sum of the owners: external callers, the driver side, and the
call in progress, which holds `tmp`. -/
structure State.Owned (u : State) (tmp : List Inst) : Prop where
  counted : ∀ x, u.refcnt x = u.ext.count x + u.drv.count x + tmp.count x
  slots : u.Filed
  dead : ∀ x, x ∈ u.freed → u.refcnt x = 0
  unborn : ∀ x, u.next x.key ≤ x.serial → u.refcnt x = 0 ∧ x ∉ u.freed

theorem State.Owned.holdersKept {u : State} (h : u.Owned []) : u.HoldersKept := by
  constructor
  · intro x
    have := h.counted x
    omega
  · intro x held freed
    have := h.counted x
    have := h.dead x freed
    have := List.count_pos_iff.mpr held
    omega

theorem start_owned : start.Owned [] :=
  ⟨fun _ => rfl, fun _ _ found => (by cases found), fun _ freed => (by cases freed),
    fun _ _ => ⟨rfl, List.not_mem_nil⟩⟩

/-- Flags, sizes and the other fields of a queue own nothing. -/
theorem State.Owned.frame {u u' : State} {tmp : List Inst} (h : u.Owned tmp)
    (refcnt : u'.refcnt = u.refcnt) (slot : u'.slot = u.slot) (next : u'.next = u.next)
    (freed : u'.freed = u.freed) (ext : u'.ext = u.ext) (drv : u'.drv = u.drv) : u'.Owned tmp := by
  refine ⟨?_, ?_, ?_, ?_⟩
  · intro x
    rw [refcnt, ext, drv]
    exact h.counted x
  · intro key x at_
    rw [slot] at at_
    rw [refcnt]
    exact h.slots key x at_
  · intro x gone
    rw [freed] at gone
    rw [refcnt]
    exact h.dead x gone
  · intro x unborn
    rw [next] at unborn
    rw [refcnt, freed]
    exact h.unborn x unborn

/-- **Step lemma.** One count changes together with its owners. -/
theorem State.Owned.setRefcnt {u : State} {tmp tmp' : List Inst} (h : u.Owned tmp) {x : Inst}
    {n : Int} (live : 0 < n) (alive : 0 < u.refcnt x)
    (own : n + tmp.count x = u.refcnt x + tmp'.count x)
    (others : ∀ y, y ≠ x → tmp'.count y = tmp.count y) : (u.setRefcnt x n).Owned tmp' := by
  refine ⟨fun y => ?_, fun key y at_ => ?_, fun y freed => ?_, fun y unborn => ?_⟩
  all_goals
    simp only [State.setRefcnt] at *
    by_cases same : y = x
  · subst same
    rw [Function.update_self]
    have := h.counted y
    omega
  · rw [Function.update_of_ne same, others y same]
    exact h.counted y
  · subst same
    rw [Function.update_self]
    exact ⟨(h.slots key y at_).1, live⟩
  · rw [Function.update_of_ne same]
    exact h.slots key y at_
  · subst same
    have := h.dead y freed
    omega
  · rw [Function.update_of_ne same]
    exact h.dead y freed
  · subst same
    have := (h.unborn y unborn).1
    omega
  · rw [Function.update_of_ne same]
    exact h.unborn y unborn

/-- A get takes a reference to a live instance. -/
theorem State.Owned.get {nr : Kind → Nat} {u u' : State} {tmp : List Inst} (h : u.Owned tmp)
    {key : Key} {x : Inst} (got : u.get nr key = some (x, u')) : u'.Owned (x :: tmp) := by
  unfold State.get at got
  split at got
  · cases got
  · rename_i y found
    have live := (h.slots key y (State.find_slot found)).2
    rw [if_pos live] at got
    cases got
    refine h.setRefcnt (by omega) live ?_ ?_
    · rw [List.count_cons_self]
      omega
    · intro y other
      rw [List.count_cons_of_ne other.symm]

/-- The last reference is dropped: the instance leaves its slot and is freed. -/
theorem State.Owned.free {u : State} {x : Inst} {tmp : List Inst} (h : u.Owned (x :: tmp))
    (last : u.refcnt x - 1 = 0) : ((u.setRefcnt x (u.refcnt x - 1)).free x).Owned tmp := by
  have own := h.counted x
  rw [List.count_cons_self] at own
  refine ⟨fun y => ?_, fun key y at_ => ?_, fun y freed => ?_, fun y unborn => ?_⟩
  all_goals
    simp only [State.free, State.setRefcnt] at *
    by_cases same : y = x
  · subst same
    rw [Function.update_self]
    omega
  · have := h.counted y
    rw [List.count_cons_of_ne (Ne.symm same)] at this
    rw [Function.update_of_ne same]
    exact this
  · subst same
    by_cases here : key = y.key
    · subst here
      rw [Function.update_self] at at_
      cases at_
    · rw [Function.update_of_ne here] at at_
      exact absurd (h.slots key y at_).1.symm here
  · rw [Function.update_of_ne same]
    by_cases here : key = x.key
    · subst here
      rw [Function.update_self] at at_
      cases at_
    · rw [Function.update_of_ne here] at at_
      exact h.slots key y at_
  · subst same
    rw [Function.update_self]
    exact last
  · rw [Function.update_of_ne same]
    exact h.dead y ((List.mem_cons.mp freed).resolve_left same)
  · subst same
    have := (h.unborn y unborn).1
    omega
  · rw [Function.update_of_ne same]
    refine ⟨(h.unborn y unborn).1, ?_⟩
    intro freed
    exact (h.unborn y unborn).2 ((List.mem_cons.mp freed).resolve_left same)

/-- A put drops a reference of the call; the last one frees the instance. -/
theorem State.Owned.put {u : State} {x : Inst} {tmp : List Inst} (h : u.Owned (x :: tmp)) :
    (u.put x).Owned tmp := by
  have own := h.counted x
  rw [List.count_cons_self] at own
  unfold State.put
  split
  · exact h.free ‹_›
  · refine h.setRefcnt (by omega) (by omega) ?_ ?_
    · rw [List.count_cons_self]
      omega
    · intro y other
      rw [List.count_cons_of_ne other.symm]

/-- A new instance is published; its reference belongs to the call. -/
theorem State.Owned.publish {u : State} {tmp : List Inst} (h : u.Owned tmp) (key : Key) :
    (u.publish key).Owned (u.fresh key :: tmp) := by
  have unused := h.unborn (u.fresh key) (Nat.le_refl _)
  have none_owns := h.counted (u.fresh key)
  refine ⟨fun y => ?_, fun k y at_ => ?_, fun y freed => ?_, fun y unborn => ?_⟩
  all_goals
    simp only [State.publish, State.setRefcnt] at *
    by_cases same : y = u.fresh key
  · subst same
    rw [Function.update_self, List.count_cons_self]
    omega
  · rw [Function.update_of_ne same, List.count_cons_of_ne (Ne.symm same)]
    exact h.counted y
  · subst same
    rw [Function.update_self]
    by_cases here : k = key
    · exact ⟨here.symm, Int.one_pos⟩
    · rw [Function.update_of_ne here] at at_
      exact ⟨(h.slots k _ at_).1, Int.one_pos⟩
  · rw [Function.update_of_ne same]
    by_cases here : k = key
    · subst here
      rw [Function.update_self] at at_
      cases at_
      exact absurd rfl same
    · rw [Function.update_of_ne here] at at_
      exact h.slots k y at_
  · subst same
    exact absurd freed unused.2
  · rw [Function.update_of_ne same]
    exact h.dead y freed
  · subst same
    simp [State.fresh] at unborn
  · rw [Function.update_of_ne same]
    apply h.unborn y
    by_cases here : y.key = key
    · rw [here, Function.update_self] at unborn
      rw [here]
      omega
    · rwa [Function.update_of_ne here] at unborn

/-- The call hands its reference to the driver side. -/
theorem State.Owned.own {u : State} {x : Inst} {tmp : List Inst} (h : u.Owned (x :: tmp)) :
    (u.own x).Owned tmp := by
  refine ⟨?_, h.slots, h.dead, h.unborn⟩
  intro y
  have := h.counted y
  simp only [State.own, List.count_cons] at *
  omega

/-- The call takes a reference over from the driver side. -/
theorem State.Owned.disown {u : State} {x : Inst} {tmp : List Inst} (h : u.Owned tmp)
    (mem : x ∈ u.drv) : (u.disown x).Owned (x :: tmp) := by
  refine ⟨?_, h.slots, h.dead, h.unborn⟩
  intro y
  have pos := List.count_pos_iff.mpr mem
  have := h.counted y
  simp only [State.disown, List.count_cons, List.count_erase, beq_iff_eq] at *
  by_cases same : x = y
  · subst same
    simp only [if_true]
    omega
  · simp only [if_neg same]
    omega

/-! ### The calls -/

theorem State.Owned.discard {u : State} {tmp : List Inst} (h : u.Owned tmp) (key : Key) :
    (u.discard key).Owned tmp := by
  unfold State.discard
  split
  · exact h
  · exact h.frame rfl rfl rfl rfl rfl rfl

theorem State.Owned.setEnabled {u : State} {tmp : List Inst} (h : u.Owned tmp) (x : Inst)
    (enabled : Bool) : (u.setEnabled x enabled).Owned tmp :=
  h.frame rfl rfl rfl rfl rfl rfl

theorem State.Owned.maskIv {u : State} {tmp : List Inst} (h : u.Owned tmp) (x : Inst)
    (vector : Int) : (u.maskIv x vector).Owned tmp := by
  unfold State.maskIv
  split
  · exact h.frame rfl rfl rfl rfl rfl rfl
  · exact h

/-- The references after `claim`: a new or reused instance has one for the call. -/
def Claim.Owned (tmp : List Inst) : Claim → Prop
  | .failed u => u.Owned tmp
  | .reused x u | .created x u => u.Owned (x :: tmp)

theorem State.Owned.claim {u : State} {tmp : List Inst} (h : u.Owned tmp) (nr : Kind → Nat)
    (key : Key) (allocated : Bool) : (u.claim nr key allocated).Owned tmp := by
  unfold State.claim
  split
  · split
    · exact h.publish key
    · exact h
  · rename_i x u' got
    have taken := h.get got
    split
    · exact taken.put
    · exact taken

theorem State.Owned.fillSq {u : State} {x : Inst} {tmp : List Inst} (h : u.Owned (x :: tmp))
    (ucq : Inst) (a : SqArgs) : (u.fillSq x ucq a).Owned tmp :=
  State.Owned.own (h.frame rfl rfl rfl rfl rfl rfl)

theorem State.Owned.fillCq {u : State} {x : Inst} {tmp : List Inst} (h : u.Owned (x :: tmp))
    (a : CqArgs) : (u.fillCq x a).Owned tmp :=
  State.Owned.own (h.frame rfl rfl rfl rfl rfl rfl)

theorem State.Owned.initUsq {u : State} {tmp : List Inst} (h : u.Owned tmp) (nr : Kind → Nat)
    (a : SqArgs) (ucq : Inst) (o : Outcome) : (u.initUsq nr a ucq o).2.Owned tmp := by
  have claimed := h.claim nr ⟨.sq, a.qid⟩ o.allocated
  unfold State.initUsq
  cases hclaim : u.claim nr ⟨.sq, a.qid⟩ o.allocated with
  | failed u' =>
      rw [hclaim] at claimed
      exact claimed
  | reused x u' =>
      rw [hclaim] at claimed
      exact State.Owned.fillSq claimed ucq a
  | created x u' =>
      rw [hclaim] at claimed
      have sized : (u'.setSq x (newSq a.qsize o)).Owned (x :: tmp) :=
        State.Owned.frame claimed rfl rfl rfl rfl rfl rfl
      exact sized.fillSq ucq a

theorem State.Owned.initUcq {u : State} {tmp : List Inst} (h : u.Owned tmp) (nr : Kind → Nat)
    (a : CqArgs) (o : Outcome) : (u.initUcq nr a o).2.Owned tmp := by
  have claimed := h.claim nr ⟨.cq, a.qid⟩ o.allocated
  unfold State.initUcq
  cases hclaim : u.claim nr ⟨.cq, a.qid⟩ o.allocated with
  | failed u' =>
      rw [hclaim] at claimed
      exact claimed
  | reused x u' =>
      rw [hclaim] at claimed
      exact State.Owned.fillCq claimed a
  | created x u' =>
      rw [hclaim] at claimed
      have zeroed : (u'.setCq x {}).Owned (x :: tmp) :=
        State.Owned.frame claimed rfl rfl rfl rfl rfl rfl
      exact zeroed.fillCq a

theorem State.Owned.initSq {u : State} (h : u.Owned []) (nr : Kind → Nat) (a : SqArgs)
    (o : Outcome) : (u.initSq nr a o).Owned [] := by
  unfold State.initSq
  split
  · exact h
  · rename_i ucq _
    have called := h.initUsq nr a ucq o
    split
    · split
      · rename_i hinit
        rw [hinit] at called
        exact called.discard _
      · rename_i hinit
        rw [hinit] at called
        exact called
    · exact h

theorem State.Owned.createSq {u : State} (h : u.Owned []) (nr : Kind → Nat) (a : SqArgs)
    (o : Outcome) : (u.createSq nr a o).Owned [] := by
  unfold State.createSq
  split
  · exact h
  · split
    · exact h
    · rename_i asq u₁ gotAsq
      have admin := h.get gotAsq
      split
      · exact admin.put
      · rename_i ucq u₂ gotUcq
        have both := admin.get gotUcq
        have called := both.initUsq nr a ucq o
        split
        · split
          · rename_i hinit
            rw [hinit] at called
            exact called.put.put
          · rename_i x u₃ hinit
            rw [hinit] at called
            exact (called.setEnabled x true).put.put
        · exact both.put.put

theorem State.Owned.initCq {u : State} (h : u.Owned []) (nr : Kind → Nat) (a : CqArgs)
    (o : Outcome) : (u.initCq nr a o).Owned [] := by
  have called := h.initUcq nr a o
  unfold State.initCq
  split
  · exact h
  · split
    · split
      · rename_i hinit
        rw [hinit] at called
        exact called.discard _
      · rename_i hinit
        rw [hinit] at called
        exact called.maskIv _ _
    · exact h

theorem State.Owned.createCq {u : State} (h : u.Owned []) (nr : Kind → Nat) (a : CqArgs)
    (o : Outcome) : (u.createCq nr a o).Owned [] := by
  unfold State.createCq
  split
  · exact h
  · split
    · exact h
    · rename_i asq u₁ gotAsq
      have admin := h.get gotAsq
      have called := admin.initUcq nr a o
      split
      · split
        · rename_i hinit
          rw [hinit] at called
          exact called.put
        · rename_i x u₂ hinit
          rw [hinit] at called
          split
          · exact called.put
          · exact ((called.maskIv x a.vector).setEnabled x true).put
      · exact admin.put

theorem State.Owned.delete {u : State} {x : Inst} {tmp : List Inst} (h : u.Owned tmp)
    (mem : x ∈ u.drv) : (u.delete x).Owned tmp := by
  obtain ⟨q, hq⟩ := u.delete_eq x
  have moved : ({ u with q := q, drv := u.drv.erase x } : State).Owned (x :: tmp) :=
    (h.disown mem).frame rfl rfl rfl rfl rfl rfl
  rw [hq]
  exact moved.put

theorem State.backed_iff {nr : Kind → Nat} {u : State} {key : Key} :
    u.Backed nr key ↔ ∀ x, u.find nr key = some x → x ∈ u.drv := by
  unfold State.Backed
  cases u.find nr key <;> simp

theorem State.Owned.deleteFound {nr : Kind → Nat} {u : State} {tmp : List Inst} {key : Key}
    (h : u.Owned tmp) (backed : u.Backed nr key) : (u.deleteFound nr key).Owned tmp := by
  unfold State.deleteFound
  split
  · exact h
  · rename_i found
    exact h.delete (State.backed_iff.mp backed _ found)

theorem State.Owned.freeFound {nr : Kind → Nat} {u : State} {tmp : List Inst} {key : Key}
    (h : u.Owned tmp) (backed : u.Backed nr key) : (u.freeFound nr key).Owned tmp := by
  unfold State.freeFound
  split
  · exact h
  · rename_i x found
    exact (h.setEnabled x false).delete (State.backed_iff.mp backed _ found)

/-- With the slots in order, a slot in range is found as it is. -/
theorem State.Filed.find_eq {u : State} (h : u.Filed) (nr : Kind → Nat) (key : Key) :
    u.find nr key = if nr key.kind ≤ key.qid then none else u.slot key := by
  unfold State.find
  split
  · rfl
  · split
    · exact Eq.symm ‹_›
    · rename_i x at_
      have := (h key x at_).2
      rw [if_neg (by omega), at_]

/-- A reference of the call does not change what backs a slot. -/
theorem State.Backed.get {nr : Kind → Nat} {u u' : State} {tmp : List Inst} {key from_ : Key}
    {x : Inst} (h : u.Owned tmp) (backed : u.Backed nr key)
    (got : u.get nr from_ = some (x, u')) : u'.Backed nr key := by
  obtain ⟨-, slot, drv⟩ := State.get_fields got
  simpa only [State.Backed, h.slots.find_eq, (h.get got).slots.find_eq, slot, drv] using backed

theorem State.Owned.deleteSq {nr : Kind → Nat} {u : State} (h : u.Owned []) {qid : Nat}
    {o : Outcome} (backed : u.Issued nr o → u.Backed nr ⟨.sq, qid⟩) :
    (u.deleteSq nr qid o).Owned [] := by
  unfold State.deleteSq
  split
  · exact h
  · rename_i asq u' got
    have admin := h.get got
    split
    · rename_i ok
      have issued : u.Issued nr o := ⟨by simp [(State.get_fields got).1], by simpa using ok⟩
      exact (admin.deleteFound ((backed issued).get h got)).put
    · exact admin.put

theorem State.Owned.deleteCq {nr : Kind → Nat} {u : State} (h : u.Owned []) {qid : Nat}
    {o : Outcome} (backed : u.Issued nr o → u.Backed nr ⟨.cq, qid⟩) :
    (u.deleteCq nr qid o).Owned [] := by
  unfold State.deleteCq
  split
  · exact h
  · rename_i asq u' got
    have admin := h.get got
    split
    · exact admin.own
    · rename_i cmd
      split
      · rename_i ok
        have issued : u.Issued nr o := ⟨by simp [(State.get_fields got).1], by simpa using cmd, ok⟩
        exact (admin.deleteFound ((backed issued).get h got)).put
      · exact admin.put

/-! ### Loops over all queues -/

/-- On filed slots a get takes one reference and changes nothing else. -/
theorem State.Filed.get_eq {nr : Kind → Nat} {u u' : State} {key : Key} {x : Inst} (h : u.Filed)
    (got : u.get nr key = some (x, u')) : u' = u.setRefcnt x (u.refcnt x + 1) := by
  have live := (h key x (State.find_slot (State.get_fields got).1)).2
  unfold State.get at got
  split at got
  · cases got
  · split at got <;> cases got
    · rfl
    · exact absurd live ‹_›

/-- A get and its put cancel. -/
theorem State.Filed.put_get {nr : Kind → Nat} {u u' : State} {key : Key} {x : Inst} (h : u.Filed)
    (got : u.get nr key = some (x, u')) : u'.put x = u := by
  have live := (h key x (State.find_slot (State.get_fields got).1)).2
  have one := u.setRefcnt_self x (u.refcnt x + 1)
  rw [h.get_eq got, State.put, if_neg (by omega), one, State.setRefcnt_twice,
    show u.refcnt x + 1 - 1 = u.refcnt x by omega, State.setRefcnt_same]

theorem State.Filed.deleteOne_eq {u : State} (h : u.Filed) (nr : Kind → Nat) (key : Key) :
    u.deleteOne nr key = u.deleteFound nr key := by
  unfold State.deleteOne State.deleteFound
  cases got : u.get nr key with
  | none => rw [State.get_none.mp got]
  | some pair =>
      obtain ⟨x, u'⟩ := pair
      rw [(State.get_fields got).1]
      simp only
      rw [h.put_get got]

/-- Whoever drops a reference, the slots stay in order. -/
theorem State.Filed.put {u : State} (h : u.Filed) {x : Inst} (at_ : u.slot x.key = some x) :
    (u.put x).Filed := by
  have live := (h _ x at_).2
  intro key y found
  rw [State.put_refcnt]
  by_cases here : key = x.key
  · subst here
    by_cases last : u.refcnt x - 1 = 0
    · rw [State.put_slot_last _ _ last] at found
      cases found
    · rw [State.put, if_neg last] at found
      have same : some y = some x := found.symm.trans at_
      cases same
      rw [Function.update_self]
      exact ⟨rfl, by omega⟩
  · rw [State.put_slot_of_ne _ _ here] at found
    obtain ⟨own, pos⟩ := h key y found
    have other : y ≠ x := fun same => here (by rw [← own, same])
    rw [Function.update_of_ne other]
    exact ⟨own, pos⟩

/-- **Step lemma.** A deletion takes one reference off the instance it finds, whoever
owns it, and leaves the other slots and instances alone. -/
theorem State.Filed.deleteFound {u : State} (h : u.Filed) (nr : Kind → Nat) (key : Key) :
    (u.deleteFound nr key).Filed ∧ (u.deleteFound nr key).ext = u.ext ∧
      (∀ x, u.find nr key = some x → (u.deleteFound nr key).refcnt x = u.refcnt x - 1) ∧
      (∀ x, x.key ≠ key → (u.deleteFound nr key).refcnt x = u.refcnt x ∧
        (x ∈ u.drv → x ∈ (u.deleteFound nr key).drv)) ∧
      ∀ other, other ≠ key → (u.deleteFound nr key).slot other = u.slot other := by
  unfold State.deleteFound
  cases found : u.find nr key with
  | none => exact ⟨h, rfl, fun _ no => (by cases no), fun _ _ => ⟨rfl, id⟩, fun _ _ => rfl⟩
  | some x =>
      have at_ := State.find_slot found
      have own := (h key x at_).1
      subst own
      obtain ⟨q, hq⟩ := u.delete_eq x
      have filed : ({ u with q := q, drv := u.drv.erase x } : State).Filed := h
      simp only
      rw [hq]
      refine ⟨filed.put at_, State.put_ext _ x, ?_, ?_, ?_⟩
      · intro y same
        cases same
        rw [State.put_refcnt, Function.update_self]
      · intro y other
        have ne : y ≠ x := fun same => other (by rw [same])
        rw [State.put_refcnt, Function.update_of_ne ne, State.put_drv]
        exact ⟨rfl, (List.mem_erase_of_ne ne).mpr⟩
      · intro key ne
        rw [State.put_slot_of_ne _ _ ne]

/-- The deletion loops, by induction over the slots still to come, which stay backed. -/
theorem State.Owned.deleteAll {nr : Kind → Nat} {ks : List Key} (nodup : ks.Nodup) {u : State}
    (h : u.Owned []) (backed : ∀ key ∈ ks, u.Backed nr key) :
    (ks.foldl (State.deleteOne nr) u).Owned [] := by
  induction ks generalizing u with
  | nil => exact h
  | cons key ks ih =>
      obtain ⟨unseen, nodup⟩ := List.nodup_cons.mp nodup
      rw [List.foldl_cons, h.slots.deleteOne_eq]
      obtain ⟨filed, -, -, others, slot⟩ := h.slots.deleteFound nr key
      apply ih nodup (h.deleteFound (backed key List.mem_cons_self))
      intro other mem
      have before := State.backed_iff.mp (backed other (List.mem_cons_of_mem _ mem))
      have ne : other ≠ key := fun same => unseen (same ▸ mem)
      apply State.backed_iff.mpr
      intro y found
      have same : u.find nr other = some y := by
        rw [h.slots.find_eq, ← slot other ne, ← filed.find_eq]
        exact found
      have own := (h.slots other y (State.find_slot same)).1
      exact (others y (own ▸ ne)).2 (before y same)

/-- What the deletion loops take off the counts. -/
theorem State.Filed.deleteAll {nr : Kind → Nat} {ks : List Key} (nodup : ks.Nodup) {u : State}
    (h : u.Filed) :
    (ks.foldl (State.deleteOne nr) u).ext = u.ext ∧
      (∀ x, x.key ∉ ks → (ks.foldl (State.deleteOne nr) u).refcnt x = u.refcnt x) ∧
      ∀ key x, key ∈ ks → u.find nr key = some x →
        (ks.foldl (State.deleteOne nr) u).refcnt x = u.refcnt x - 1 := by
  induction ks generalizing u with
  | nil => exact ⟨rfl, fun _ _ => rfl, fun _ _ mem => (by cases mem)⟩
  | cons key ks ih =>
      obtain ⟨unseen, nodup⟩ := List.nodup_cons.mp nodup
      rw [List.foldl_cons, h.deleteOne_eq]
      obtain ⟨filed, ext, own, others, slot⟩ := h.deleteFound nr key
      obtain ⟨ext', spared, taken⟩ := ih nodup filed
      refine ⟨ext'.trans ext, ?_, ?_⟩
      · intro x outside
        have ne : x.key ≠ key := fun same => outside (same ▸ List.mem_cons_self)
        rw [spared x fun mem => outside (List.mem_cons_of_mem _ mem), (others x ne).1]
      · intro k x mem found
        have same := (h k x (State.find_slot found)).1
        rcases List.mem_cons.mp mem with rfl | mem
        · rw [spared x (same ▸ unseen), own x found]
        · have ne : k ≠ key := fun same => unseen (same ▸ mem)
          rw [taken k x mem ?_, (others x (same ▸ ne)).1]
          rw [filed.find_eq, slot k ne, ← h.find_eq]
          exact found

theorem keys_nodup (nr : Kind → Nat) : (keys nr .sq ++ keys nr .cq).Nodup := by
  have each : ∀ kind, (keys nr kind).Nodup := fun kind =>
    List.nodup_range.map fun _ _ same => congrArg Key.qid same
  refine List.nodup_append.mpr ⟨each .sq, each .cq, ?_⟩
  intro key sq other cq
  obtain ⟨_, _, rfl⟩ := List.mem_map.mp sq
  obtain ⟨_, _, rfl⟩ := List.mem_map.mp cq
  simp

theorem State.Owned.disableAll {nr : Kind → Nat} {ks : List Key} {u : State} (h : u.Owned []) :
    (ks.foldl (State.disableOne nr) u).Owned [] := by
  induction ks generalizing u with
  | nil => exact h
  | cons key ks ih =>
      apply ih
      unfold State.disableOne
      split
      · exact h
      · rename_i x u' got
        exact ((h.get got).setEnabled x false).put

/-! ### Runs -/

theorem step_owned {nr : Kind → Nat} {u u' : State} {a : Act} (h : u.Owned [])
    (guard : OwnReference nr u a) (hstep : step nr u a = some u') : u'.Owned [] := by
  cases a with
  | createSq a o =>
      cases hstep
      exact h.createSq nr a o
  | createCq a o =>
      cases hstep
      exact h.createCq nr a o
  | initSq a o =>
      cases hstep
      exact h.initSq nr a o
  | initCq a o =>
      cases hstep
      exact h.initCq nr a o
  | enable key enabled =>
      simp only [step] at hstep
      split at hstep <;> cases hstep
      · exact h
      · exact h.setEnabled _ enabled
  | deleteSq qid o =>
      cases hstep
      exact h.deleteSq guard
  | deleteCq qid o =>
      cases hstep
      exact h.deleteCq guard
  | freeSq qid =>
      cases hstep
      exact h.freeFound guard
  | freeCq qid =>
      cases hstep
      exact h.freeFound guard
  | delSq qid =>
      cases hstep
      exact h.deleteFound guard
  | freeCtx =>
      cases hstep
      exact h.deleteAll (keys_nodup nr) guard
  | disableCtx =>
      cases hstep
      exact h.disableAll
  | get key =>
      simp only [step] at hstep
      split at hstep <;> cases hstep
      · exact h
      · rename_i x u' got
        have taken := h.get got
        refine ⟨?_, taken.slots, taken.dead, taken.unborn⟩
        intro y
        have := taken.counted y
        simp only [List.count_cons, List.count_nil] at *
        omega
  | put x =>
      simp only [step] at hstep
      split at hstep <;> cases hstep
      rename_i held
      refine State.Owned.put ⟨?_, h.slots, h.dead, h.unborn⟩
      intro y
      have pos := List.count_pos_iff.mpr held
      have := h.counted y
      simp only [List.count_cons, List.count_nil, List.count_erase, beq_iff_eq] at *
      by_cases same : x = y
      · subst same
        simp only [if_true]
        omega
      · simp only [if_neg same]
        omega

/-- A reference that was dropped without harm to the holders was one of the driver
side. -/
theorem State.Owned.mem_of_dropped {u u' : State} (h : u.Owned []) {x : Inst}
    (ext : u'.ext = u.ext) (refcnt : u'.refcnt x = u.refcnt x - 1) (kept : u'.HoldersKept) :
    x ∈ u.drv := by
  have before := h.counted x
  have after := kept.counted x
  rw [ext, refcnt] at after
  rw [List.count_nil] at before
  exact List.count_pos_iff.mp (by omega)

theorem State.Owned.backed_of_deleteFound {nr : Kind → Nat} {u : State} (h : u.Owned [])
    {key : Key} (kept : (u.deleteFound nr key).HoldersKept) : u.Backed nr key := by
  obtain ⟨-, ext, own, -⟩ := h.slots.deleteFound nr key
  exact State.backed_iff.mpr fun x found => h.mem_of_dropped ext (own x found) kept

theorem State.Owned.backed_of_freeFound {nr : Kind → Nat} {u : State} (h : u.Owned [])
    {key : Key} (kept : (u.freeFound nr key).HoldersKept) : u.Backed nr key := by
  apply State.backed_iff.mpr
  intro x found
  simp only [State.freeFound, found] at kept
  obtain ⟨q, hq⟩ := (u.setEnabled x false).delete_eq x
  refine h.mem_of_dropped ?_ ?_ kept
  · rw [hq, State.put_ext]
    rfl
  · rw [hq, State.put_refcnt, Function.update_self]
    rfl

/-- The reference to the admin SQ that the call takes and puts back makes no
difference. -/
theorem State.Owned.backed_of_admin {nr : Kind → Nat} {u u₁ : State} (h : u.Owned [])
    {asq : Inst} (got : u.get nr ⟨.sq, 0⟩ = some (asq, u₁)) {key : Key}
    (kept : ((u₁.deleteFound nr key).put asq).HoldersKept) : u.Backed nr key := by
  have admin := h.get got
  have taken := h.slots.get_eq got
  obtain ⟨-, ext, own, -⟩ := admin.slots.deleteFound nr key
  apply State.backed_iff.mpr
  intro x found
  have found₁ : u₁.find nr key = some x := by
    rw [admin.slots.find_eq, (State.get_fields got).2.1, ← h.slots.find_eq]
    exact found
  refine h.mem_of_dropped (by rw [State.put_ext, ext, taken]; rfl) ?_ kept
  rw [State.put_refcnt]
  by_cases same : x = asq
  · subst same
    rw [Function.update_self, own x found₁, taken, State.setRefcnt_self]
    omega
  · have other : u₁.refcnt x = u.refcnt x := by
      rw [taken]
      exact Function.update_of_ne same _ _
    rw [Function.update_of_ne same, own x found₁, other]

/-- A call that leaves the holders their references met the condition. -/
theorem ownReference_of_kept {nr : Kind → Nat} {u u' : State} {a : Act} (h : u.Owned [])
    (hstep : step nr u a = some u') (kept : u'.HoldersKept) : OwnReference nr u a := by
  cases a with
  | deleteSq qid o =>
      cases hstep
      rintro ⟨there, cmd, ok⟩
      cases got : u.get nr ⟨.sq, 0⟩ with
      | none => exact absurd (State.get_none.mp got) there
      | some pair =>
          simp only [State.deleteSq, got, cmd, ok, Bool.and_self, if_true] at kept
          exact h.backed_of_admin got kept
  | deleteCq qid o =>
      cases hstep
      rintro ⟨there, cmd, ok⟩
      cases got : u.get nr ⟨.sq, 0⟩ with
      | none => exact absurd (State.get_none.mp got) there
      | some pair =>
          simp only [State.deleteCq, got, cmd, ok, Bool.not_true, Bool.false_eq_true, if_false,
            if_true] at kept
          exact h.backed_of_admin got kept
  | freeSq qid =>
      cases hstep
      exact h.backed_of_freeFound kept
  | freeCq qid =>
      cases hstep
      exact h.backed_of_freeFound kept
  | delSq qid =>
      cases hstep
      exact h.backed_of_deleteFound kept
  | freeCtx =>
      cases hstep
      intro key mem
      obtain ⟨ext, -, taken⟩ := h.slots.deleteAll (keys_nodup nr)
      exact State.backed_iff.mpr fun x found => h.mem_of_dropped ext (taken key x mem found) kept
  | _ => trivial

/-- **Holders keep their references.** In a run of creations, deletions, resets and
external gets and puts, the count of every SQ and CQ instance covers its external
holders in every state, if and only if every deletion of the run hits a queue that the
driver side created more often than it deleted. -/
theorem holders_kept_iff {nr : Kind → Nat} {as : List Act} :
    Guarded (step nr) (OwnReference nr) start as ↔
      ∀ bs u, bs <+: as → run (step nr) start bs = some u → u.HoldersKept := by
  refine guarded_iff (I := fun u => u.Owned []) (fun _ h => h.holdersKept)
    (fun _ _ _ h g hs => step_owned h g hs) (fun _ _ _ h hs kept => ownReference_of_kept h hs kept)
    (fun u a blocked => ?_) start_owned
  cases a <;> first | cases blocked | trivial

/-- SQ 1 is held over two resets, and created again between them. -/
def twoResetsRun : List Act :=
  [.initCq { qid := 1, qsize := 4 } {}, .initSq { qid := 1, qsize := 4, cqid := 1 } {},
    .get ⟨.sq, 1⟩, .disableCtx, .freeCtx, .initCq { qid := 1, qsize := 4 } {},
    .initSq { qid := 1, qsize := 4, cqid := 1 } {}, .disableCtx, .freeCtx]

example : Guarded (step fun _ => 2) (OwnReference fun _ => 2) start twoResetsRun := by decide

/-- SQ 1 is held and deleted twice. -/
def deletedTwiceRun : List Act :=
  [.initCq { qid := 1, qsize := 4 } {}, .initSq { qid := 1, qsize := 4, cqid := 1 } {},
    .get ⟨.sq, 1⟩, .delSq 1, .delSq 1]

/-- The second deletion drops the holder's reference. -/
theorem second_delete_takes_reference :
    ¬ ∀ (as : List Act) (u : State), run (step fun _ => 2) start as = some u → u.HoldersKept := by
  intro all
  have bad := all deletedTwiceRun _ rfl
  exact absurd (bad.counted ⟨⟨.sq, 1⟩, 0⟩) (by decide)

end Unvmed.Queue
