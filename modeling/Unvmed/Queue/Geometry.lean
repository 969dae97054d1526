import Unvmed.Queue.Lifetime

/-!
The sizes of an SQ: `qsize`, the array `cmds` and the bitmap `cids`.

`unvmed_init_usq` sizes `cmds` and `cids` for a new instance only, and writes `qsize`
every time.

* `recreate_outgrows_cmds`: an SQ that is held, deleted and created again with a larger
  size has commands past the end of `cmds`.
* `geometry_iff_same_size`: the sizes fit in every state of a run if and only if every
  creation that reuses an instance asks for the size the instance has, and the
  unchecked allocation of `cmds` succeeds for new ones (`SameSize`).
-/

namespace Unvmed.Queue

open Lib
open Registry (Kind Key Inst)

/-- The sizes of an SQ agree. The loops of `unvmed_timer_handler` and `unvmed_cancel_sq`
visit the ids below `qsize - 1`. -/
structure Sq.Fits (usq : Sq) : Prop where
  cmds : usq.qsize ≤ usq.cmds.length
  cids : usq.cids.size = usq.qsize - 1
  loops : ∀ cid ∈ List.range (usq.qsize - 1), cid < usq.cmds.length

/-- Every SQ with `q != NULL` fits. The `sq` fields of a CQ are empty. -/
def State.Geometry (u : State) : Prop := ∀ x, u.q x = true → (u.sq x).Fits

/-- The call gets as far as `unvmed_init_usq`. -/
def State.creating (nr : Kind → Nat) (u : State) : Act → Option (SqArgs × Outcome)
  | .createSq a o =>
      if o.ctrlEnabled ∧ u.find nr ⟨.sq, 0⟩ ≠ none ∧ u.find nr ⟨.cq, a.cqid⟩ ≠ none ∧
        o.accepts (nr .sq) a.qid a.qsize && o.cmd && o.cqeOk then some (a, o) else none
  | .initSq a o =>
      if u.find nr ⟨.cq, a.cqid⟩ ≠ none ∧ o.accepts (nr .sq) a.qid a.qsize then some (a, o)
      else none
  | _ => none

/-- A reused instance is created with the size it has, and `cmds` of a new one is
allocated. -/
def SameSize (nr : Kind → Nat) (u : State) (act : Act) : Prop :=
  match u.creating nr act with
  | none => True
  | some (a, o) => match u.find nr ⟨.sq, a.qid⟩ with
      | none => o.allocated → o.cmdsAllocated
      | some x => u.enabled x = false → a.qsize = (u.sq x).qsize

instance (nr : Kind → Nat) (u : State) (act : Act) : Decidable (SameSize nr u act) := by
  unfold SameSize
  split
  · infer_instance
  · split <;> infer_instance

/-! ### What a call does to the sizes -/

/-- Puts, gets and flags leave the fields alone that the sizes depend on. -/
structure State.SameFields (u u' : State) : Prop where
  sq : u'.sq = u.sq
  q : u'.q = u.q
  next : u'.next = u.next
  enabled : u'.enabled = u.enabled
  find : ∀ nr key, u'.find nr key = u.find nr key

theorem State.SameFields.trans {u u₁ u₂ : State} (h : u.SameFields u₁) (h' : u₁.SameFields u₂) :
    u.SameFields u₂ :=
  ⟨h'.sq.trans h.sq, h'.q.trans h.q, h'.next.trans h.next, h'.enabled.trans h.enabled,
    fun nr key => (h'.find nr key).trans (h.find nr key)⟩

/-- What is found depends on the slots and on which counts are 0. -/
theorem State.find_congr {u u' : State} (slot : u'.slot = u.slot)
    (zero : ∀ x, u'.refcnt x = 0 ↔ u.refcnt x = 0) (nr : Kind → Nat) (key : Key) :
    u'.find nr key = u.find nr key := by
  simp only [State.find, slot, zero]

/-- A get raises a count that is positive, so it hides no instance and shows none. -/
theorem State.get_sameFields {nr : Kind → Nat} {u u' : State} {key : Key} {x : Inst}
    (got : u.get nr key = some (x, u')) : u.SameFields u' := by
  unfold State.get at got
  split at got
  · cases got
  · split at got <;> cases got
    · rename_i live
      refine ⟨rfl, rfl, rfl, rfl, State.find_congr rfl ?_⟩
      intro y
      simp only [State.setRefcnt]
      by_cases same : y = x
      · subst same
        rw [Function.update_self]
        omega
      · rw [Function.update_of_ne same]
    · exact ⟨rfl, rfl, rfl, rfl, fun _ _ => rfl⟩

/-- What `unvmed_init_usq` does to the sizes, and what it returns. -/
inductive InitUsq (nr : Kind → Nat) (u : State) (a : SqArgs) (o : Outcome) (u' : State) :
    Option Inst → Prop
  | failed (sq : u'.sq = u.sq)
      (busy : ∀ x, u.find nr ⟨.sq, a.qid⟩ = some x → u.enabled x = true)
      (unallocated : u.find nr ⟨.sq, a.qid⟩ = none → o.allocated = false) :
      InitUsq nr u a o u' none
  | reused {x : Inst} (ucq : Inst) (found : u.find nr ⟨.sq, a.qid⟩ = some x)
      (idle : u.enabled x = false)
      (sq : u'.sq = Function.update u.sq x ((u.sq x).fill ucq a)) (q : u'.q x = true) :
      InitUsq nr u a o u' (some x)
  | created {x : Inst} (ucq : Inst) (missing : u.find nr ⟨.sq, a.qid⟩ = none)
      (allocated : o.allocated = true)
      (sq : u'.sq = Function.update u.sq x ((newSq a.qsize o).fill ucq a)) (q : u'.q x = true) :
      InitUsq nr u a o u' (some x)

theorem State.initUsq_cases (nr : Kind → Nat) (u : State) (a : SqArgs) (ucq : Inst)
    (o : Outcome) : InitUsq nr u a o (u.initUsq nr a ucq o).2 (u.initUsq nr a ucq o).1 := by
  unfold State.initUsq State.claim
  cases got : u.get nr ⟨.sq, a.qid⟩ with
  | none =>
      have missing := State.get_none.mp got
      cases allocated : o.allocated with
      | false =>
          refine .failed rfl ?_ fun _ => allocated
          intro x found
          rw [missing] at found
          cases found
      | true =>
          refine .created ucq missing allocated ?_ (Function.update_self ..)
          simp only [if_true, State.fillSq, State.own, State.setCq, State.setSq, State.setQ]
          rw [Function.update_self, Function.update_idem]
          rfl
  | some pair =>
      obtain ⟨x, u₁⟩ := pair
      have same := State.get_sameFields got
      have found := (State.get_fields got).1
      cases enabled : u.enabled x with
      | true =>
          simp only [same.enabled, enabled, if_true]
          refine .failed ?_ ?_ ?_
          · rw [(u₁.put_sq x).1, same.sq]
          · intro y at_
            rw [found] at at_
            cases at_
            exact enabled
          · intro missing
            rw [found] at missing
            cases missing
      | false =>
          simp only [same.enabled, enabled, Bool.false_eq_true, if_false]
          refine .reused ucq found enabled ?_ (Function.update_self ..)
          rw [← same.sq]
          rfl

/-- The rest of the call keeps the sizes, and `q` of a queue it made. -/
theorem InitUsq.rest {nr : Kind → Nat} {u u' u'' : State} {a : SqArgs} {o : Outcome}
    {res : Option Inst} (h : InitUsq nr u a o u' res) (sq : u''.sq = u'.sq)
    (q : res ≠ none → u''.q = u'.q) : InitUsq nr u a o u'' res := by
  cases h with
  | failed same busy unallocated => exact .failed (sq.trans same) busy unallocated
  | reused ucq found idle same own =>
      exact .reused ucq found idle (sq.trans same) (by rw [q (by simp), own])
  | created ucq missing allocated same own =>
      exact .created ucq missing allocated (sq.trans same) (by rw [q (by simp), own])

/-- References taken before the call to `unvmed_init_usq` do not change its course. -/
theorem InitUsq.before {nr : Kind → Nat} {u u₁ u' : State} {a : SqArgs} {o : Outcome}
    {res : Option Inst} (same : u.SameFields u₁) (h : InitUsq nr u₁ a o u' res) :
    InitUsq nr u a o u' res := by
  cases h with
  | failed sq busy unallocated =>
      rw [same.find] at unallocated
      simp only [same.find, same.enabled] at busy
      exact .failed (sq.trans same.sq) busy unallocated
  | reused ucq found idle sq own =>
      rw [same.find] at found
      rw [same.enabled] at idle
      rw [same.sq] at sq
      exact .reused ucq found idle sq own
  | created ucq missing allocated sq own =>
      rw [same.find] at missing
      rw [same.sq] at sq
      exact .created ucq missing allocated sq own

/-! ### Calls that create no SQ -/

theorem State.discard_sq (u : State) (key : Key) : (u.discard key).sq = u.sq := by
  obtain ⟨q, hq⟩ := u.discard_eq key
  rw [hq]

theorem State.initUcq_sq (nr : Kind → Nat) (u : State) (a : CqArgs) (o : Outcome) :
    (u.initUcq nr a o).2.sq = u.sq := by
  unfold State.initUcq State.claim
  cases got : u.get nr ⟨.cq, a.qid⟩ with
  | none => cases o.allocated <;> rfl
  | some pair =>
      obtain ⟨x, u₁⟩ := pair
      have same := (State.get_sameFields got).sq
      cases enabled : u₁.enabled x with
      | true =>
          simp only [enabled, if_true]
          rw [(u₁.put_sq x).1, same]
      | false =>
          simp only [enabled, Bool.false_eq_true, if_false]
          exact same

theorem State.maskIv_sq (u : State) (x : Inst) (vector : Int) : (u.maskIv x vector).sq = u.sq := by
  unfold State.maskIv
  split <;> rfl

theorem State.initCq_sq (nr : Kind → Nat) (u : State) (a : CqArgs) (o : Outcome) :
    (u.initCq nr a o).sq = u.sq := by
  have called := u.initUcq_sq nr a o
  unfold State.initCq
  split
  · rfl
  · split
    · split
      · rename_i hinit
        rw [hinit] at called
        rw [State.discard_sq, called]
      · rename_i hinit
        rw [hinit] at called
        rw [State.maskIv_sq, called]
    · rfl

theorem State.createCq_sq (nr : Kind → Nat) (u : State) (a : CqArgs) (o : Outcome) :
    (u.createCq nr a o).sq = u.sq := by
  unfold State.createCq
  split
  · rfl
  · split
    · rfl
    · rename_i asq u₁ got
      have same := (State.get_sameFields got).sq
      have called := u₁.initUcq_sq nr a o
      split
      · split
        · rename_i hinit
          rw [hinit] at called
          rw [(State.put_sq _ asq).1, called, same]
        · rename_i x u₂ hinit
          rw [hinit] at called
          have kept : ((u₂.maskIv x a.vector).setEnabled x true).sq = u₂.sq := u₂.maskIv_sq x a.vector
          split
          · rw [(State.put_sq _ asq).1, called, same]
          · rw [(State.put_sq _ asq).1, kept, called, same]
      · rw [(State.put_sq _ asq).1, same]

theorem State.delete_sq (u : State) (x : Inst) : (u.delete x).sq = u.sq := by
  obtain ⟨q, hq⟩ := u.delete_eq x
  rw [hq, (State.put_sq _ x).1]

theorem State.deleteFound_sq (nr : Kind → Nat) (u : State) (key : Key) :
    (u.deleteFound nr key).sq = u.sq := by
  unfold State.deleteFound
  split
  · rfl
  · exact u.delete_sq _

theorem State.freeFound_sq (nr : Kind → Nat) (u : State) (key : Key) :
    (u.freeFound nr key).sq = u.sq := by
  unfold State.freeFound
  split
  · rfl
  · exact State.delete_sq _ _

theorem State.deleteSq_sq (nr : Kind → Nat) (u : State) (qid : Nat) (o : Outcome) :
    (u.deleteSq nr qid o).sq = u.sq := by
  unfold State.deleteSq
  split
  · rfl
  · rename_i asq u₁ got
    have same := (State.get_sameFields got).sq
    split
    · rw [(State.put_sq _ asq).1, State.deleteFound_sq, same]
    · rw [(State.put_sq _ asq).1, same]

theorem State.deleteCq_sq (nr : Kind → Nat) (u : State) (qid : Nat) (o : Outcome) :
    (u.deleteCq nr qid o).sq = u.sq := by
  unfold State.deleteCq
  split
  · rfl
  · rename_i asq u₁ got
    have same := (State.get_sameFields got).sq
    split
    · exact same
    · split
      · rw [(State.put_sq _ asq).1, State.deleteFound_sq, same]
      · rw [(State.put_sq _ asq).1, same]

theorem State.deleteOne_sq (nr : Kind → Nat) (u : State) (key : Key) :
    (u.deleteOne nr key).sq = u.sq := by
  unfold State.deleteOne
  split
  · rfl
  · rename_i x u₁ got
    rw [State.delete_sq, (u₁.put_sq x).1, (State.get_sameFields got).sq]

theorem State.disableOne_sq (nr : Kind → Nat) (u : State) (key : Key) :
    (u.disableOne nr key).sq = u.sq := by
  unfold State.disableOne
  split
  · rfl
  · rename_i x u₁ got
    rw [(State.put_sq _ x).1]
    exact (State.get_sameFields got).sq

theorem foldl_sq {f : State → Key → State} (h : ∀ u key, (f u key).sq = u.sq) (ks : List Key)
    (u : State) : (ks.foldl f u).sq = u.sq := by
  induction ks generalizing u with
  | nil => rfl
  | cons key ks ih => rw [List.foldl_cons, ih, h]

/-! ### Every call -/

theorem State.initSq_cases (nr : Kind → Nat) (u : State) (a : SqArgs) (o : Outcome) :
    (u.creating nr (.initSq a o) = none ∧ (u.initSq nr a o).sq = u.sq) ∨
      u.creating nr (.initSq a o) = some (a, o) ∧ ∃ res, InitUsq nr u a o (u.initSq nr a o) res := by
  unfold State.initSq
  cases found : u.find nr ⟨.cq, a.cqid⟩ with
  | none => exact Or.inl ⟨by simp [State.creating, found], rfl⟩
  | some ucq =>
      cases accepts : o.accepts (nr .sq) a.qid a.qsize with
      | false => exact Or.inl ⟨by simp [State.creating, accepts], rfl⟩
      | true =>
          refine Or.inr ⟨by simp [State.creating, found, accepts], ?_⟩
          have called := u.initUsq_cases nr a ucq o
          simp only [if_true]
          generalize u.initUsq nr a ucq o = out at called
          obtain ⟨res, u'⟩ := out
          cases res with
          | none => exact ⟨none, called.rest (u'.discard_sq _) fun made => absurd rfl made⟩
          | some x => exact ⟨some x, called⟩

theorem State.createSq_cases (nr : Kind → Nat) (u : State) (a : SqArgs) (o : Outcome) :
    (u.creating nr (.createSq a o) = none ∧ (u.createSq nr a o).sq = u.sq) ∨
      u.creating nr (.createSq a o) = some (a, o) ∧
        ∃ res, InitUsq nr u a o (u.createSq nr a o) res := by
  have puts : ∀ (v : State) (x y : Inst), ((v.put x).put y).sq = v.sq ∧
      ((v.put x).put y).q = v.q := fun v x y => by
    rw [((v.put x).put_sq y).1, ((v.put x).put_sq y).2]
    exact v.put_sq x
  unfold State.createSq
  cases enabled : o.ctrlEnabled with
  | false => exact Or.inl ⟨by simp [State.creating, enabled], rfl⟩
  | true =>
      cases gotAsq : u.get nr ⟨.sq, 0⟩ with
      | none => exact Or.inl ⟨by simp [State.creating, State.get_none.mp gotAsq], rfl⟩
      | some pair =>
          obtain ⟨asq, u₁⟩ := pair
          have first := State.get_sameFields gotAsq
          have admin := (State.get_fields gotAsq).1
          cases gotUcq : u₁.get nr ⟨.cq, a.cqid⟩ with
          | none =>
              have missing := State.get_none.mp gotUcq
              rw [first.find] at missing
              refine Or.inl ⟨by simp [State.creating, missing], ?_⟩
              simp only [gotUcq, Bool.not_true, Bool.false_eq_true, if_false]
              rw [(u₁.put_sq asq).1, first.sq]
          | some pair =>
              obtain ⟨ucq, u₂⟩ := pair
              have both := first.trans (State.get_sameFields gotUcq)
              have found := (State.get_fields gotUcq).1
              rw [first.find] at found
              cases issued : o.accepts (nr .sq) a.qid a.qsize && o.cmd && o.cqeOk with
              | false =>
                  refine Or.inl ⟨by rw [State.creating, issued]; simp, ?_⟩
                  simp only [gotUcq, Bool.not_true, Bool.false_eq_true, if_false]
                  rw [(puts u₂ ucq asq).1, both.sq]
              | true =>
                  refine Or.inr ⟨by rw [State.creating, issued]; simp [enabled, admin, found], ?_⟩
                  have called := u₂.initUsq_cases nr a ucq o
                  simp only [gotUcq, Bool.not_true, Bool.false_eq_true, if_false, if_true]
                  generalize u₂.initUsq nr a ucq o = out at called
                  obtain ⟨res, u₃⟩ := out
                  cases res with
                  | none =>
                      exact ⟨none, (called.rest (puts u₃ ucq asq).1
                        fun made => absurd rfl made).before both⟩
                  | some x =>
                      exact ⟨some x, (called.rest (puts (u₃.setEnabled x true) ucq asq).1
                        fun _ => (puts (u₃.setEnabled x true) ucq asq).2).before both⟩

/-- **Inversion.** A call leaves the sizes alone or runs `unvmed_init_usq`. -/
theorem step_creating {nr : Kind → Nat} {u u' : State} {act : Act}
    (hstep : step nr u act = some u') :
    (u.creating nr act = none ∧ u'.sq = u.sq) ∨
      ∃ a o res, u.creating nr act = some (a, o) ∧ InitUsq nr u a o u' res := by
  cases act with
  | createSq a o =>
      cases hstep
      rcases u.createSq_cases nr a o with kept | ⟨call, res, init⟩
      · exact Or.inl kept
      · exact Or.inr ⟨a, o, res, call, init⟩
  | initSq a o =>
      cases hstep
      rcases u.initSq_cases nr a o with kept | ⟨call, res, init⟩
      · exact Or.inl kept
      · exact Or.inr ⟨a, o, res, call, init⟩
  | createCq a o =>
      cases hstep
      exact Or.inl ⟨rfl, u.createCq_sq nr a o⟩
  | initCq a o =>
      cases hstep
      exact Or.inl ⟨rfl, u.initCq_sq nr a o⟩
  | enable key enabled =>
      simp only [step] at hstep
      split at hstep <;> cases hstep <;> exact Or.inl ⟨rfl, rfl⟩
  | deleteSq qid o =>
      cases hstep
      exact Or.inl ⟨rfl, u.deleteSq_sq nr qid o⟩
  | deleteCq qid o =>
      cases hstep
      exact Or.inl ⟨rfl, u.deleteCq_sq nr qid o⟩
  | freeSq qid =>
      cases hstep
      exact Or.inl ⟨rfl, u.freeFound_sq nr _⟩
  | freeCq qid =>
      cases hstep
      exact Or.inl ⟨rfl, u.freeFound_sq nr _⟩
  | delSq qid =>
      cases hstep
      exact Or.inl ⟨rfl, u.deleteFound_sq nr _⟩
  | freeCtx =>
      cases hstep
      exact Or.inl ⟨rfl, foldl_sq (State.deleteOne_sq nr) _ u⟩
  | disableCtx =>
      cases hstep
      exact Or.inl ⟨rfl, foldl_sq (State.disableOne_sq nr) _ u⟩
  | get key =>
      simp only [step] at hstep
      split at hstep <;> cases hstep
      · exact Or.inl ⟨rfl, rfl⟩
      · rename_i got
        exact Or.inl ⟨rfl, (State.get_sameFields got).sq⟩
  | put x =>
      simp only [step] at hstep
      split at hstep <;> cases hstep
      exact Or.inl ⟨rfl, (State.put_sq _ x).1⟩

/-- libvfn accepts sizes from 2 on. -/
theorem State.creating_size {nr : Kind → Nat} {u : State} {act : Act} {a : SqArgs} {o : Outcome}
    (call : u.creating nr act = some (a, o)) : 2 ≤ a.qsize := by
  unfold State.creating at call
  split at call
  · split at call <;> cases call
    rename_i reached
    simp only [Outcome.accepts, Bool.and_eq_true, decide_eq_true_eq] at reached
    exact reached.2.2.2.1.1.2
  · split at call <;> cases call
    rename_i reached
    simp only [Outcome.accepts, Bool.and_eq_true, decide_eq_true_eq] at reached
    exact reached.2.2
  · cases call

theorem Sq.Fits.of_sizes {usq : Sq} (cmds : usq.qsize ≤ usq.cmds.length)
    (cids : usq.cids.size = usq.qsize - 1) : usq.Fits := by
  refine ⟨cmds, cids, ?_⟩
  intro cid visited
  have := List.mem_range.mp visited
  omega

/-- Reuse fits if and only if the size stays. -/
theorem Sq.Fits.fill_iff {usq : Sq} (h : usq.Fits) (ucq : Inst) {a : SqArgs} (two : 2 ≤ a.qsize) :
    (usq.fill ucq a).Fits ↔ a.qsize = usq.qsize := by
  constructor
  · intro fits
    have before := h.cids
    have after : usq.cids.size = a.qsize - 1 := fits.cids
    omega
  · intro same
    refine .of_sizes ?_ ?_
    · show a.qsize ≤ usq.cmds.length
      rw [same]
      exact h.cmds
    · show usq.cids.size = a.qsize - 1
      rw [same]
      exact h.cids

/-- A new SQ fits if and only if its commands were allocated. -/
theorem newSq_fits_iff (ucq : Inst) {a : SqArgs} {o : Outcome} (two : 2 ≤ a.qsize) :
    ((newSq a.qsize o).fill ucq a).Fits ↔ o.cmdsAllocated = true := by
  constructor
  · intro fits
    have room : a.qsize ≤ (newSq a.qsize o).cmds.length := fits.cmds
    cases allocated : o.cmdsAllocated with
    | true => rfl
    | false =>
        simp [newSq, allocated] at room
        omega
  · intro allocated
    refine .of_sizes ?_ rfl
    simp [Sq.fill, newSq, allocated]

/-- Sizes fit in every instance, with or without its libvfn queue. -/
def State.AllFit (u : State) : Prop := ∀ x, (u.sq x).Fits

theorem start_allFit : start.AllFit := fun _ => .of_sizes (Nat.le_refl _) rfl

theorem State.AllFit.update {u u' : State} (h : u.AllFit) {x : Inst} {usq : Sq}
    (sq : u'.sq = Function.update u.sq x usq) (fits : usq.Fits) : u'.AllFit := by
  intro y
  rw [sq]
  by_cases same : y = x
  · subst same
    rw [Function.update_self]
    exact fits
  · rw [Function.update_of_ne same]
    exact h y

theorem step_allFit {nr : Kind → Nat} {u u' : State} {act : Act} (h : u.AllFit)
    (guard : SameSize nr u act) (hstep : step nr u act = some u') : u'.AllFit := by
  rcases step_creating hstep with ⟨-, sq⟩ | ⟨a, o, res, call, init⟩
  · intro x
    rw [sq]
    exact h x
  · have two := State.creating_size call
    simp only [SameSize, call] at guard
    cases init with
    | failed sq _ _ =>
        intro x
        rw [sq]
        exact h x
    | @reused x ucq found idle sq _ =>
        rw [found] at guard
        exact h.update sq (((h x).fill_iff ucq two).mpr (guard idle))
    | created ucq missing allocated sq _ =>
        rw [missing] at guard
        exact h.update sq ((newSq_fits_iff ucq two).mpr (guard allocated))

/-- A call that ends with every configured SQ in shape met the condition. -/
theorem sameSize_of_geometry {nr : Kind → Nat} {u u' : State} {act : Act} (h : u.AllFit)
    (hstep : step nr u act = some u') (after : u'.Geometry) : SameSize nr u act := by
  unfold SameSize
  rcases step_creating hstep with ⟨none, -⟩ | ⟨a, o, res, call, init⟩
  · rw [none]
    trivial
  · have two := State.creating_size call
    simp only [call]
    cases init with
    | failed sq busy unallocated =>
        cases found : u.find nr ⟨.sq, a.qid⟩ with
        | none =>
            intro allocated
            rw [unallocated found] at allocated
            cases allocated
        | some x =>
            intro idle
            rw [busy x found] at idle
            cases idle
    | @reused x ucq found idle sq q =>
        have fits := after x q
        rw [sq, Function.update_self] at fits
        simp only [found]
        exact fun _ => ((h x).fill_iff ucq two).mp fits
    | @created x ucq missing allocated sq q =>
        have fits := after x q
        rw [sq, Function.update_self] at fits
        simp only [missing]
        exact fun _ => (newSq_fits_iff ucq two).mp fits

/-- **SQ geometry.** Every configured SQ has as many command slots as entries and one
id less, in every state of a run, if and only if no call of the run gives a reused
instance another size or misses an allocation of `cmds`. -/
theorem geometry_iff_same_size {nr : Kind → Nat} {as : List Act} :
    Guarded (step nr) (SameSize nr) start as ↔
      ∀ bs u, bs <+: as → run (step nr) start bs = some u → u.Geometry := by
  refine guarded_iff (I := State.AllFit) (fun u h x _ => h x)
    (fun _ _ _ h g hs => step_allFit h g hs) (fun _ _ _ h hs after => sameSize_of_geometry h hs after)
    (fun u act blocked => ?_) start_allFit
  cases act <;> first | cases blocked | trivial

/-- SQ 1 is held, deleted, and created again with twice the size. -/
def regrownRun : List Act :=
  [.initCq { qid := 1, qsize := 8 } {}, .initSq { qid := 1, qsize := 4, cqid := 1 } {},
    .get ⟨.sq, 1⟩, .delSq 1, .initSq { qid := 1, qsize := 8, cqid := 1 } {}]

/-- The SQ created again has 8 entries and 4 command slots. -/
theorem recreate_outgrows_cmds :
    ¬ ∀ (as : List Act) (u : State), run (step fun _ => 2) start as = some u → u.Geometry := by
  intro all
  have bad := all regrownRun _ rfl
  exact absurd (bad ⟨⟨.sq, 1⟩, 0⟩ rfl).cmds (by decide)

end Unvmed.Queue
