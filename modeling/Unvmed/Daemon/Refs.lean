import Mathlib
import Unvmed.Lib.Run

/-!
References to a controller instance across daemon commands (`src/unvmed-cmds.c`,
`lib/libunvmed.c`).

`unvme_list` holds one instance for each device that was added. `unvmed_get` and
`unvmed_put` count its users, and the put that drops the last reference frees the
instance. The handlers of the daemon get the controller, work, and put it; a fio job
gets it in `libunvmed_init_data` and puts it in its cleanup. `β` is the type of device
addresses.

* `refs_balanced_iff`: the count is the number of holders and one for the
  registration, and `unvme del` of a device nobody holds frees its instance, in every
  step of a run if and only if the run has no such `unvme del` of a registered device
  and no fio job that fails after its get (`Balanced`).
* `del_keeps_instance`: `unvme del` puts the reference it got itself, so the instance
  of an idle device stays registered.
-/

namespace Unvmed.Refs

open Lib

variable {β : Type} [DecidableEq β]

/-- The part of `struct unvme` that the references concern. -/
structure Ctrl where
  refcnt : Int
  /-- The state is `UNVME_TEARDOWN`. -/
  teardown : Bool := false
  deriving DecidableEq, Repr

/-- `unvme_list`, and who holds a reference besides it. -/
structure State (β : Type) where
  list : β → Option Ctrl
  /-- Commands and jobs that got the controller and did not put it yet. -/
  holders : List β
  /-- Calls of `unvmed_free_ctrl`. -/
  freed : List β

def State.setCtrl (s : State β) (bdf : β) (u : Option Ctrl) : State β :=
  { s with list := Function.update s.list bdf u }

/-- `unvmed_get`. -/
def State.get (s : State β) (bdf : β) : Option (State β) :=
  match s.list bdf with
  | none => none
  | some u => some (s.setCtrl bdf (some { u with refcnt := u.refcnt + 1 }))

/-- `unvmed_free_ctrl`, as far as the list is concerned. -/
def State.freeCtrl (s : State β) (bdf : β) : State β :=
  { s.setCtrl bdf none with freed := bdf :: s.freed }

/-- `unvmed_put`. -/
def State.put (s : State β) (bdf : β) : State β :=
  match s.list bdf with
  | none => s
  | some u =>
      if u.refcnt - 1 = 0 then s.freeCtrl bdf
      else s.setCtrl bdf (some { u with refcnt := u.refcnt - 1 })

/-- What `unvme_add` meets outside this code. -/
structure AddOutcome where
  /-- `--nr-ioqs=` is positive, the device has an IOMMU group and is bound to vfio-pci. -/
  bound : Bool := true
  /-- `nvme_ctrl_init`, `unvmed_alloc_irqs` and the callbacks of a re-initialisation succeed. -/
  init : Bool := true
  /-- `pci_is_vf`. -/
  vf : Bool := false
  deriving Repr

/-- `__unvmed_reinit_ctrl`: the reference of the caller's get is handed on, or put. -/
def State.reinitCtrl (s : State β) (bdf : β) (o : AddOutcome) : State β :=
  if o.vf && o.init then
    s.setCtrl bdf ((s.list bdf).map fun u => { u with teardown := false })
  else s.put bdf

/-- `unvmed_init_ctrl`. A new instance is listed with one reference. -/
def State.initCtrl (s : State β) (bdf : β) (o : AddOutcome) : State β :=
  match s.list bdf, s.get bdf with
  | some u, some s => if u.teardown then s.reinitCtrl bdf o else s
  | _, _ => if o.init then s.setCtrl bdf (some ⟨1, false⟩) else s

/-- `unvme_add`. What fails after `unvmed_init_ctrl` leaves the instance listed. -/
def State.add (s : State β) (bdf : β) (o : AddOutcome) : State β :=
  match s.get bdf with
  | some s => s.put bdf
  | none => if o.bound then s.initCtrl bdf o else s

/-- `unvme_del`. -/
def State.del (s : State β) (bdf : β) : State β :=
  match s.get bdf with
  | some s => s.put bdf
  | none => s

inductive Act (β : Type) where
  | add (bdf : β) (o : AddOutcome)
  | del (bdf : β)
  /-- The get of any other command, or of a fio job in `libunvmed_init_data`. -/
  | get (bdf : β)
  /-- The put at the end of the command, or of `fio_libunvmed_cleanup`. -/
  | put (bdf : β)
  /-- `libunvmed_init_data` fails behind its `unvmed_get`, and returns. -/
  | fioFails (bdf : β)
  /-- `unvmed_free_vf_ctrl`. -/
  | teardown (bdf : β)
  deriving Repr

def step (s : State β) : Act β → Option (State β)
  | .add bdf o => some (s.add bdf o)
  | .del bdf => some (s.del bdf)
  | .get bdf => match s.get bdf with
      | none => some s
      | some s => some { s with holders := bdf :: s.holders }
  | .put bdf =>
      if bdf ∈ s.holders then some ({ s with holders := s.holders.erase bdf }.put bdf) else none
  | .fioFails bdf => match s.get bdf with
      | none => some s
      | some s => some s
  | .teardown bdf =>
      some (s.setCtrl bdf ((s.list bdf).map fun u => { u with teardown := true }))

/-- No device is added. -/
def start : State β := ⟨fun _ => none, [], []⟩

/-! ### Counting the holders -/

/-- Every listed instance is counted once for each holder and once for the list. -/
def State.Counted (s : State β) : Prop :=
  ∀ bdf u, s.list bdf = some u → u.refcnt = s.holders.count bdf + 1

/-- The references are balanced after the step, and the deletion of a device that nobody
holds has freed its instance. -/
def BalancedStep (s : State β) (a : Act β) (s' : State β) : Prop :=
  s'.Counted ∧ match a with
    | .del bdf => s.holders.count bdf = 0 →
        s'.list bdf = none ∧ (s.list bdf ≠ none → s'.freed = bdf :: s.freed)
    | _ => True

/-- A registered device is deleted only while it is held, and no fio job fails behind
its get. -/
def Balanced (s : State β) : Act β → Prop
  | .del bdf => s.list bdf = none ∨ bdf ∈ s.holders
  | .fioFails bdf => s.list bdf = none
  | _ => True

instance (s : State β) : DecidablePred (Balanced s)
  | .del _ => inferInstanceAs (Decidable (_ ∨ _))
  | .fioFails _ => inferInstanceAs (Decidable (_ = _))
  | .add .. | .get _ | .put _ | .teardown _ => .isTrue trivial

/-! ### One step -/

/-- The holders hold listed instances, and the counts are right. -/
structure State.Inv (s : State β) : Prop where
  counted : s.Counted
  listed : ∀ bdf ∈ s.holders, s.list bdf ≠ none

theorem start_inv : (start : State β).Inv := by
  constructor
  · intro _ _ found
    cases found
  · intro _ held
    exact absurd held List.not_mem_nil

section Fields

variable (s : State β) (bdf : β)

@[simp] theorem State.setCtrl_same (u : Option Ctrl) : (s.setCtrl bdf u).list bdf = u :=
  Function.update_self ..

@[simp] theorem State.setCtrl_holders (u : Option Ctrl) : (s.setCtrl bdf u).holders = s.holders := rfl

end Fields

/-- Taking a reference and dropping it again changes nothing while the count is positive. -/
theorem State.get_put {s s₁ : State β} {bdf : β} (counted : s.Counted)
    (got : s.get bdf = some s₁) : s₁.put bdf = s := by
  unfold State.get at got
  split at got
  · cases got
  · rename_i u listed
    cases got
    have count := counted bdf u listed
    have back : u.refcnt + 1 - 1 = u.refcnt := by omega
    simp only [State.put, State.setCtrl_same, back]
    rw [if_neg (by omega)]
    simp only [State.setCtrl, Function.update_idem]
    rw [← listed, Function.update_eq_self]

theorem State.get_none {s : State β} {bdf : β} : s.get bdf = none ↔ s.list bdf = none := by
  unfold State.get
  split <;> simp [*]

/-- One entry of the list changes together with its holders. -/
theorem State.Inv.setCtrl {s s' : State β} (h : s.Inv) {bdf : β} {u : Option Ctrl}
    (list : s'.list = Function.update s.list bdf u)
    (counted : ∀ v, u = some v → v.refcnt = s'.holders.count bdf + 1)
    (listed : bdf ∈ s'.holders → u ≠ none)
    (others : ∀ b, b ≠ bdf → s'.holders.count b = s.holders.count b) : s'.Inv := by
  constructor
  · intro b v found
    rw [list] at found
    by_cases same : b = bdf
    · subst same
      rw [Function.update_self] at found
      exact counted v found
    · rw [Function.update_of_ne same] at found
      rw [others b same]
      exact h.counted b v found
  · intro b held
    rw [list]
    by_cases same : b = bdf
    · subst same
      rw [Function.update_self]
      exact listed held
    · rw [Function.update_of_ne same]
      apply h.listed b
      rw [← List.count_pos_iff, ← others b same]
      exact List.count_pos_iff.mpr held

theorem State.Inv.add {s : State β} (h : s.Inv) (bdf : β) (o : AddOutcome) : (s.add bdf o).Inv := by
  unfold State.add
  cases got : s.get bdf with
  | some s₁ =>
      simp only [State.get_put h.counted got]
      exact h
  | none =>
      have missing := State.get_none.mp got
      have idle : s.holders.count bdf = 0 := by
        rw [List.count_eq_zero]
        exact fun held => h.listed bdf held missing
      simp only [State.initCtrl, missing]
      split
      · split
        · refine h.setCtrl rfl ?_ (by simp) fun _ _ => rfl
          intro v same
          cases same
          simp [idle]
        · exact h
      · exact h

/-- `unvme_del` of a consistent daemon changes nothing. -/
theorem State.del_eq {s : State β} (counted : s.Counted) (bdf : β) : s.del bdf = s := by
  unfold State.del
  cases got : s.get bdf with
  | none => rfl
  | some s₁ => exact State.get_put counted got

/-- **Step lemma.** A guarded step keeps the counts. -/
theorem step_inv {s s' : State β} {a : Act β} (h : s.Inv) (guard : Balanced s a)
    (hstep : step s a = some s') : s'.Inv := by
  cases a with
  | add bdf o =>
      cases hstep
      exact h.add bdf o
  | del bdf =>
      cases hstep
      rw [State.del_eq h.counted]
      exact h
  | get bdf =>
      simp only [step, State.get] at hstep
      cases listed : s.list bdf with
      | none =>
          simp only [listed] at hstep
          cases hstep
          exact h
      | some u =>
          simp only [listed] at hstep
          cases hstep
          have count := h.counted bdf u listed
          refine h.setCtrl rfl ?_ (by simp) ?_
          · intro v same
            cases same
            simp only [State.setCtrl_holders, List.count_cons_self]
            push_cast
            omega
          · intro b other
            exact List.count_cons_of_ne (Ne.symm other)
  | put bdf =>
      simp only [step] at hstep
      split at hstep
      · rename_i held
        cases hstep
        obtain ⟨u, listed⟩ := Option.ne_none_iff_exists'.mp (h.listed bdf held)
        have count := h.counted bdf u listed
        have pos := List.count_pos_iff.mpr held
        simp only [State.put, listed]
        rw [if_neg (by omega)]
        refine h.setCtrl rfl ?_ (by simp) ?_
        · intro v same
          cases same
          simp only [State.setCtrl_holders, List.count_erase_self]
          omega
        · intro b other
          exact List.count_erase_of_ne other
      · cases hstep
  | fioFails bdf =>
      have missing : s.list bdf = none := guard
      simp only [step, State.get_none.mpr missing] at hstep
      cases hstep
      exact h
  | teardown bdf =>
      cases hstep
      refine h.setCtrl rfl ?_ ?_ fun _ _ => rfl
      · intro v same
        obtain ⟨u, listed, rfl⟩ := Option.map_eq_some_iff.mp same
        exact h.counted bdf u listed
      · intro held
        simpa using h.listed bdf held

/-- A step is balanced exactly when it is guarded. -/
theorem balancedStep_iff {s s' : State β} {a : Act β} (h : s.Inv) (hstep : step s a = some s') :
    BalancedStep s a s' ↔ Balanced s a := by
  constructor
  · rintro ⟨counted, freed⟩
    cases a with
    | del bdf =>
        cases hstep
        rw [State.del_eq h.counted] at freed
        by_cases held : bdf ∈ s.holders
        · exact .inr held
        · exact .inl (freed (List.count_eq_zero.mpr held)).1
    | fioFails bdf =>
        by_contra listed
        obtain ⟨u, listed⟩ := Option.ne_none_iff_exists'.mp listed
        simp only [step, State.get, listed] at hstep
        cases hstep
        -- The count went up, and nobody new holds the controller.
        have before := h.counted bdf u listed
        have after := counted bdf _ (State.setCtrl_same ..)
        simp only [State.setCtrl_holders] at after
        omega
    | add bdf o => trivial
    | get bdf => trivial
    | put bdf => trivial
    | teardown bdf => trivial
  · intro guard
    refine ⟨(step_inv h guard hstep).counted, ?_⟩
    cases a with
    | del bdf =>
        cases hstep
        intro idle
        rw [State.del_eq h.counted]
        rcases guard with missing | held
        · exact ⟨missing, fun listed => absurd missing listed⟩
        · exact absurd idle (List.count_pos_iff.mpr held).ne'
    | add bdf o => trivial
    | get bdf => trivial
    | put bdf => trivial
    | fioFails bdf => trivial
    | teardown bdf => trivial

/-! ### Runs -/

/-- **The references of a run are balanced exactly when it is guarded.** -/
theorem refs_balanced_iff (as : List (Act β)) :
    Steps step BalancedStep start as ↔ Guarded step Balanced start as := by
  refine (guarded_iff_steps (fun _ _ _ h g hs => step_inv h g hs)
    (fun _ _ _ h hs => balancedStep_iff h hs) ?_ start_inv).symm
  intro s a blocked
  cases a with
  | put bdf => trivial
  | add bdf o => trivial
  | get bdf => trivial
  | teardown bdf => trivial
  | del bdf => cases blocked
  | fioFails bdf =>
      simp only [step] at blocked
      split at blocked <;> cases blocked

/-- A device is added and deleted, and is still there. -/
theorem del_keeps_instance : ¬ ∀ as : List (Act Unit), Steps step BalancedStep start as := by
  intro all
  have bad := (all ([.add () {}] ++ [.del ()])).last rfl rfl
  exact absurd (bad.2 rfl).1 (by decide)

end Unvmed.Refs
