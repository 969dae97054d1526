import Mathlib
import Unvmed.Lib.Run
import Unvmed.Ctrl.State

/-!
The queue arrays across re-initialisations (`lib/libunvmed.c`).

`unvmed_init_ctrl` allocates `u->sqs` and `u->cqs` for a new controller. For a VF that was torn
down it runs `__unvmed_reinit_ctrl`, which sets `u->nr_sqs` and `u->nr_cqs` again and keeps the
arrays. Lookups, enumerations, creations and teardowns check a queue id against these numbers
only. All sizes have 32 bits; a lookup compares an id without a sign, a loop with one.

* `arrays_fit_iff`: the arrays have an entry for every id below the number, in every state of a
  run, if and only if they were allocated and no re-initialisation that opens the device asks for
  more queues than the first one (`Sized`).
* `reinit_outgrows_arrays`: one that does makes a lookup read behind the array.
-/

namespace Unvmed.Arrays

open Lib
open Ctrl (CtrlState)

/-- `u->sqs` with `u->nr_sqs`, or `u->cqs` with `u->nr_cqs`. An instance is its reference
count. -/
structure Table where
  nr : BitVec 32
  slots : List (Option Nat)
  deriving DecidableEq, Repr

/-- `__unvmed_find_and_get_sq`, `__unvmed_find_and_get_cq`: what is found, and the table; `none`
for a read outside the array. -/
def Table.find (t : Table) (qid : Nat) (get : Bool) : Option (Option Nat × Table) :=
  if t.nr.toNat ≤ qid then some (none, t)
  else (t.slots[qid]?).map fun
    | none => (none, t)
    | some refcnt =>
        if refcnt = 0 then (none, t)
        else if get then
          (some (refcnt + 1), { t with slots := t.slots.set qid (some (refcnt + 1)) })
        else (some refcnt, t)

/-- The loop of `unvmed_get_sqs`, `unvmed_get_cqs` and the other enumerations over the first `n`
ids. -/
def Table.enumerate (t : Table) (get : Bool) : Nat → Option Table
  | 0 => some t
  | n + 1 => (t.enumerate get n).bind fun t => (t.find n get).map Prod.snd

/-- `unvmed_init_usq`, `unvmed_init_ucq`: a new instance is published. libvfn has refused the ids
that the numbers exclude. -/
def Table.publish (t : Table) (qid : Nat) : Option Table :=
  if t.nr.toNat ≤ qid then some t
  else if qid < t.slots.length then some { t with slots := t.slots.set qid (some 1) }
  else none

/-- The loop of `unvmed_free_ctrl` over the first `n` ids. -/
def Table.free (t : Table) : Nat → Option Table
  | 0 => some t
  | n + 1 => (t.free n).bind fun t =>
      if n < t.slots.length then some { t with slots := t.slots.set n none } else none

/-- The accesses of a live controller. -/
inductive Access where
  | find (qid : Nat) (get : Bool)
  | enumerate (get : Bool)
  | publish (qid : Nat)
  | free
  deriving Repr

def Table.access (t : Table) : Access → Option Table
  | .find qid get => (t.find qid get).map Prod.snd
  | .enumerate get => t.enumerate get t.nr.toInt.toNat
  | .publish qid => t.publish qid
  | .free => t.free t.nr.toInt.toNat

structure State where
  /-- The controller is on `unvme_list`. -/
  made : Bool
  state : CtrlState
  sqs : Table
  cqs : Table
  /-- `max_nr_ioqs` of the initialisation that allocated the arrays. -/
  fresh : BitVec 32
  /-- An access was outside an array. -/
  fault : Bool
  deriving Repr

/-- What an initialisation meets. -/
structure InitReads where
  /-- `pci_is_vf` -/
  vf : Bool := true
  /-- `nvme_ctrl_init` -/
  opens : Bool := true
  /-- `unvmed_alloc_irqs` -/
  irqs : Bool := true
  /-- The two `calloc`s. -/
  sqs : Bool := true
  cqs : Bool := true
  /-- `__unvmed_reinit_invoke_callbacks` -/
  callbacks : Bool := true
  deriving Repr

/-- `calloc` of an array of pointers. -/
def calloc (n : BitVec 32) (ok : Bool) : List (Option Nat) :=
  if ok then List.replicate n.toNat none else []

/-- `opts.nsqr + 2` with `opts.nsqr = max_nr_ioqs - 1`. -/
def nrQueues (maxNrIoqs : BitVec 32) : BitVec 32 := maxNrIoqs - 1 + 2

/-- `__unvmed_reinit_ctrl` -/
def State.reinitCtrl (s : State) (maxNrIoqs : BitVec 32) (r : InitReads) : State :=
  if !r.vf then s
  else if !r.opens then s
  else
    let s := { s with
      sqs := { s.sqs with nr := nrQueues maxNrIoqs }
      cqs := { s.cqs with nr := nrQueues maxNrIoqs } }
    if !r.irqs then s
    else
      let s := { s with state := s.state.trySet .vfRecovering }
      if !r.callbacks then { s with state := s.state.trySet .teardown }
      else { s with state := s.state.trySet .vfRecovered }

/-- `unvmed_init_ctrl` -/
def State.initCtrl (s : State) (maxNrIoqs : BitVec 32) (r : InitReads) : State :=
  if s.made then if s.state = .teardown then s.reinitCtrl maxNrIoqs r else s
  else if !r.opens then s
  else if !r.irqs then s
  else { s with
    made := true
    state := .disabled
    sqs := ⟨nrQueues maxNrIoqs, calloc (maxNrIoqs + 1) r.sqs⟩
    cqs := ⟨nrQueues maxNrIoqs, calloc (maxNrIoqs + 1) r.cqs⟩
    fresh := maxNrIoqs }

/-- An access to an array of a controller. -/
def State.accessSqs (s : State) (a : Access) : State :=
  match s.sqs.access a with
  | none => { s with fault := true }
  | some sqs => { s with sqs := sqs }

def State.accessCqs (s : State) (a : Access) : State :=
  match s.cqs.access a with
  | none => { s with fault := true }
  | some cqs => { s with cqs := cqs }

inductive Act where
  | init (maxNrIoqs : BitVec 32) (r : InitReads)
  /-- `__unvmed_ctrl_set_state`, by enabling, reset, or the steps of a VF's life. -/
  | setState (new : CtrlState)
  /-- `unvmed_free_vf_ctrl` -/
  | freeVf
  | sqs (a : Access)
  | cqs (a : Access)
  /-- `unvmed_free_ctrl` -/
  | freeCtrl
  deriving Repr

def step (s : State) : Act → Option State
  | .init maxNrIoqs r => some (s.initCtrl maxNrIoqs r)
  | .setState new => if s.made then some { s with state := s.state.trySet new } else none
  | .freeVf => if s.made then some { s with state := s.state.trySet .teardown } else none
  | .sqs a => if s.made then some (s.accessSqs a) else none
  | .cqs a => if s.made then some (s.accessCqs a) else none
  | .freeCtrl =>
      if s.made then some { (s.accessSqs .free).accessCqs .free with made := false } else none

/-- No controller. -/
def start : State := ⟨false, .disabled, ⟨0, []⟩, ⟨0, []⟩, 0, false⟩

/-! ### Bounds -/

def Table.Fits (t : Table) : Prop := t.nr.toNat ≤ t.slots.length

/-- The arrays of a live controller have an entry for every id below the number, and no access was
outside. -/
def State.InBounds (s : State) : Prop :=
  (s.made = true → s.sqs.Fits ∧ s.cqs.Fits) ∧ s.fault = false

instance (t : Table) : Decidable t.Fits := inferInstanceAs (Decidable (_ ≤ _))

instance (s : State) : Decidable s.InBounds := inferInstanceAs (Decidable (_ ∧ _))

/-- A new controller gets its arrays, and a re-initialisation that opens the device asks for no
more queues than the first one. A controller for 2^32 - 1 queues has arrays of no entries. -/
def Sized (s : State) : Act → Prop
  | .init maxNrIoqs r =>
      if s.made then
        s.state = .teardown → r.vf = true → r.opens = true → maxNrIoqs + 1 ≤ s.fresh + 1
      else r.opens = true → r.irqs = true → maxNrIoqs + 1 ≠ 0 → r.sqs = true ∧ r.cqs = true
  | .setState _ | .freeVf | .sqs _ | .cqs _ | .freeCtrl => True

/-! ### Accesses -/

section Accesses

variable {t t' : Table}

/-- The same number, and an array of the same size. -/
structure Table.SameShape (t t' : Table) : Prop where
  nr : t'.nr = t.nr
  length : t'.slots.length = t.slots.length

theorem Table.SameShape.trans {t'' : Table} (h : t.SameShape t') (h' : t'.SameShape t'') :
    t.SameShape t'' := ⟨h'.nr.trans h.nr, h'.length.trans h.length⟩

theorem Table.SameShape.fits (h : t.SameShape t') : t'.Fits ↔ t.Fits := by
  rw [Table.Fits, Table.Fits, h.nr, h.length]

theorem Table.find_shape {qid : Nat} {get : Bool} {r : Option Nat × Table}
    (done : t.find qid get = some r) : t.SameShape r.2 := by
  unfold Table.find at done
  split at done
  · cases done
    exact ⟨rfl, rfl⟩
  · obtain ⟨slot, -, rfl⟩ := Option.map_eq_some_iff.mp done
    cases slot with
    | none => exact ⟨rfl, rfl⟩
    | some refcnt =>
        dsimp only
        split
        · exact ⟨rfl, rfl⟩
        · split
          · exact ⟨rfl, List.length_set ..⟩
          · exact ⟨rfl, rfl⟩

theorem Table.enumerate_shape {get : Bool} {n : Nat} (done : t.enumerate get n = some t') :
    t.SameShape t' := by
  induction n generalizing t' with
  | zero =>
      cases done
      exact ⟨rfl, rfl⟩
  | succ n ih =>
      obtain ⟨t₁, before, last⟩ := Option.bind_eq_some_iff.mp done
      obtain ⟨r, found, rfl⟩ := Option.map_eq_some_iff.mp last
      exact (ih before).trans (Table.find_shape found)

theorem Table.free_shape {n : Nat} (done : t.free n = some t') : t.SameShape t' := by
  induction n generalizing t' with
  | zero =>
      cases done
      exact ⟨rfl, rfl⟩
  | succ n ih =>
      obtain ⟨t₁, before, last⟩ := Option.bind_eq_some_iff.mp done
      split at last
      · cases last
        exact (ih before).trans ⟨rfl, List.length_set ..⟩
      · cases last

/-- An access changes neither the number nor the size of the array. -/
theorem Table.access_shape {a : Access} (done : t.access a = some t') : t.SameShape t' := by
  cases a with
  | find qid get =>
      obtain ⟨r, found, rfl⟩ := Option.map_eq_some_iff.mp done
      exact Table.find_shape found
  | enumerate get => exact Table.enumerate_shape done
  | publish qid =>
      simp only [Table.access, Table.publish] at done
      split at done
      · cases done
        exact ⟨rfl, rfl⟩
      · split at done
        · cases done
          exact ⟨rfl, List.length_set ..⟩
        · cases done
  | free => exact Table.free_shape done

theorem Table.Fits.find (h : t.Fits) (qid : Nat) (get : Bool) : (t.find qid get).isSome := by
  unfold Table.find
  split
  · rfl
  · rename_i below
    have inside : qid < t.slots.length := (Nat.not_le.mp below).trans_le h
    simp [inside]

theorem Table.Fits.enumerate (h : t.Fits) (get : Bool) (n : Nat) :
    (t.enumerate get n).isSome := by
  induction n with
  | zero => rfl
  | succ n ih =>
      obtain ⟨t₁, before⟩ := Option.isSome_iff_exists.mp ih
      have fits : t₁.Fits := (Table.enumerate_shape before).fits.mpr h
      rw [Table.enumerate, before, Option.bind_some, Option.isSome_map]
      exact fits.find n get

theorem Table.Fits.free (h : t.Fits) (n : Nat) (below : n ≤ t.nr.toNat) :
    (t.free n).isSome := by
  induction n with
  | zero => rfl
  | succ n ih =>
      obtain ⟨t₁, before⟩ := Option.isSome_iff_exists.mp (ih (by omega))
      have same := (Table.free_shape before).length
      have inside : n < t₁.slots.length := by
        rw [same]
        exact below.trans h
      rw [Table.free, before, Option.bind_some, if_pos inside]
      rfl

/-- A loop with a signed counter stays below the unsigned bound. -/
theorem toNat_toInt_le (nr : BitVec 32) : nr.toInt.toNat ≤ nr.toNat := by
  rw [BitVec.toInt_eq_toNat_cond]
  split <;> omega

/-- **Bounds.** All accesses that are guarded by the number are inside the array if and only if the
array has that many entries. -/
theorem Table.fits_iff : t.Fits ↔ ∀ a, (t.access a).isSome := by
  constructor
  · intro h a
    cases a with
    | find qid get => exact Option.isSome_map.trans (h.find qid get)
    | enumerate get => exact h.enumerate get _
    | publish qid =>
        simp only [Table.access, Table.publish]
        split
        · rfl
        · rename_i below
          rw [if_pos ((Nat.not_le.mp below).trans_le h)]
          rfl
    | free => exact h.free _ (toNat_toInt_le t.nr)
  · intro all
    by_contra outside
    have found := all (.find t.slots.length false)
    rw [Table.Fits, Nat.not_le] at outside
    simp [Table.access, Table.find, Nat.not_le.mpr outside] at found

end Accesses

/-! ### Runs -/

/-- The arrays keep the size of the first initialisation, and the numbers stay below it. -/
structure Inv (s : State) : Prop where
  sqs : s.made = true → s.sqs.slots.length = (s.fresh + 1).toNat ∧ s.sqs.Fits
  cqs : s.made = true → s.cqs.slots.length = (s.fresh + 1).toNat ∧ s.cqs.Fits
  fault : s.fault = false

theorem Inv.inBounds {s : State} (h : Inv s) : s.InBounds :=
  ⟨fun made => ⟨(h.sqs made).2, (h.cqs made).2⟩, h.fault⟩

theorem nrQueues_eq (maxNrIoqs : BitVec 32) : nrQueues maxNrIoqs = maxNrIoqs + 1 := by
  unfold nrQueues
  bv_omega

theorem calloc_length {n : BitVec 32} {ok : Bool} (h : n ≠ 0 → ok = true) :
    (calloc n ok).length = n.toNat := by
  unfold calloc
  split
  · exact List.length_replicate
  · rename_i failed
    have zero : n = 0 := by
      by_contra nonzero
      exact failed (h nonzero)
    subst zero
    rfl

/-- Where a number other than 0 of entries is promised, only an array that was allocated has
them. -/
theorem calloc_fits {n : BitVec 32} {ok : Bool} (fits : n.toNat ≤ (calloc n ok).length)
    (nonzero : n ≠ 0) : ok = true := by
  cases ok with
  | true => rfl
  | false =>
      simp only [calloc, Bool.false_eq_true, if_false, List.length_nil, Nat.le_zero] at fits
      exact absurd (BitVec.eq_of_toNat_eq fits) nonzero

section Steps

variable {s : State} {maxNrIoqs : BitVec 32} {r : InitReads}

/-- Where a re-initialisation opens the device it leaves the arrays and sets both numbers;
elsewhere it leaves all but the state. -/
theorem State.reinitCtrl_tables (s : State) (maxNrIoqs : BitVec 32) (r : InitReads) :
    (s.reinitCtrl maxNrIoqs r).made = s.made ∧ (s.reinitCtrl maxNrIoqs r).fresh = s.fresh ∧
      (s.reinitCtrl maxNrIoqs r).fault = s.fault ∧
      (s.reinitCtrl maxNrIoqs r).sqs =
        (if r.vf ∧ r.opens then { s.sqs with nr := nrQueues maxNrIoqs } else s.sqs) ∧
      (s.reinitCtrl maxNrIoqs r).cqs =
        (if r.vf ∧ r.opens then { s.cqs with nr := nrQueues maxNrIoqs } else s.cqs) := by
  obtain ⟨vf, opens, irqs, _, _, callbacks⟩ := r
  cases vf <;> cases opens <;> cases irqs <;> cases callbacks <;>
    exact ⟨rfl, rfl, rfl, rfl, rfl⟩

theorem Inv.reinitCtrl (h : Inv s) (made : s.made = true)
    (sized : r.vf = true → r.opens = true → maxNrIoqs + 1 ≤ s.fresh + 1) :
    Inv (s.reinitCtrl maxNrIoqs r) := by
  obtain ⟨eMade, eFresh, eFault, eSqs, eCqs⟩ := s.reinitCtrl_tables maxNrIoqs r
  obtain ⟨sqsLength, sqsFits⟩ := h.sqs made
  obtain ⟨cqsLength, cqsFits⟩ := h.cqs made
  refine ⟨fun _ => ?_, fun _ => ?_, eFault.trans h.fault⟩
  · rw [eSqs, eFresh]
    split
    · rename_i opened
      refine ⟨sqsLength, ?_⟩
      rw [Table.Fits, nrQueues_eq, sqsLength]
      exact sized opened.1 opened.2
    · exact ⟨sqsLength, sqsFits⟩
  · rw [eCqs, eFresh]
    split
    · rename_i opened
      refine ⟨cqsLength, ?_⟩
      rw [Table.Fits, nrQueues_eq, cqsLength]
      exact sized opened.1 opened.2
    · exact ⟨cqsLength, cqsFits⟩

theorem Inv.initCtrl (h : Inv s) (sized : Sized s (.init maxNrIoqs r)) :
    Inv (s.initCtrl maxNrIoqs r) := by
  simp only [Sized] at sized
  unfold State.initCtrl
  split
  · rename_i made
    rw [if_pos made] at sized
    split
    · rename_i down
      exact h.reinitCtrl made (sized down)
    · exact h
  · rename_i none
    rw [if_neg none] at sized
    split
    · exact h
    · rename_i opens
      split
      · exact h
      · rename_i irqs
        have both := sized (by simpa using opens) (by simpa using irqs)
        have sqsLength : (calloc (maxNrIoqs + 1) r.sqs).length = (maxNrIoqs + 1).toNat :=
          calloc_length fun nonzero => (both nonzero).1
        have cqsLength : (calloc (maxNrIoqs + 1) r.cqs).length = (maxNrIoqs + 1).toNat :=
          calloc_length fun nonzero => (both nonzero).2
        refine ⟨fun _ => ⟨sqsLength, ?_⟩, fun _ => ⟨cqsLength, ?_⟩, h.fault⟩
        · rw [Table.Fits, nrQueues_eq]
          exact sqsLength.ge
        · rw [Table.Fits, nrQueues_eq]
          exact cqsLength.ge

theorem Inv.accessSqs (h : Inv s) (made : s.made = true) (a : Access) :
    Inv (s.accessSqs a) ∧ (s.accessSqs a).made = true := by
  obtain ⟨sqsLength, sqsFits⟩ := h.sqs made
  obtain ⟨sqs, done⟩ := Option.isSome_iff_exists.mp (Table.fits_iff.mp sqsFits a)
  have shape := Table.access_shape done
  unfold State.accessSqs
  rw [done]
  exact ⟨⟨fun _ => ⟨shape.length.trans sqsLength, shape.fits.mpr sqsFits⟩, h.cqs, h.fault⟩, made⟩

theorem Inv.accessCqs (h : Inv s) (made : s.made = true) (a : Access) :
    Inv (s.accessCqs a) ∧ (s.accessCqs a).made = true := by
  obtain ⟨cqsLength, cqsFits⟩ := h.cqs made
  obtain ⟨cqs, done⟩ := Option.isSome_iff_exists.mp (Table.fits_iff.mp cqsFits a)
  have shape := Table.access_shape done
  unfold State.accessCqs
  rw [done]
  exact ⟨⟨h.sqs, fun _ => ⟨shape.length.trans cqsLength, shape.fits.mpr cqsFits⟩, h.fault⟩, made⟩

end Steps

/-- One step: the arrays stay large enough. -/
theorem inv_step (s : State) (a : Act) (s' : State) (h : Inv s) (sized : Sized s a)
    (hstep : step s a = some s') : Inv s' := by
  cases a with
  | init maxNrIoqs r =>
      cases hstep
      exact h.initCtrl sized
  | setState new =>
      obtain ⟨-, ⟨⟩⟩ := Option.ite_none_right_eq_some.mp hstep
      exact ⟨h.sqs, h.cqs, h.fault⟩
  | freeVf =>
      obtain ⟨-, ⟨⟩⟩ := Option.ite_none_right_eq_some.mp hstep
      exact ⟨h.sqs, h.cqs, h.fault⟩
  | sqs a =>
      obtain ⟨made, ⟨⟩⟩ := Option.ite_none_right_eq_some.mp hstep
      exact (h.accessSqs made a).1
  | cqs a =>
      obtain ⟨made, ⟨⟩⟩ := Option.ite_none_right_eq_some.mp hstep
      exact (h.accessCqs made a).1
  | freeCtrl =>
      obtain ⟨made, ⟨⟩⟩ := Option.ite_none_right_eq_some.mp hstep
      obtain ⟨h₁, made₁⟩ := h.accessSqs made .free
      have h₂ := (h₁.accessCqs made₁ .free).1
      exact ⟨fun gone => absurd gone Bool.false_ne_true,
        fun gone => absurd gone Bool.false_ne_true, h₂.fault⟩

/-- A step to arrays that are large enough met the condition. -/
theorem sized_of_inBounds (s : State) (a : Act) (s' : State) (h : Inv s)
    (hstep : step s a = some s') (good : s'.InBounds) : Sized s a := by
  cases a with
  | init maxNrIoqs r =>
      cases hstep
      simp only [Sized]
      split
      · rename_i made
        intro down vf opens
        have reinit : s.initCtrl maxNrIoqs r = s.reinitCtrl maxNrIoqs r := by
          rw [State.initCtrl, if_pos made, if_pos down]
        rw [reinit] at good
        obtain ⟨eMade, -, -, eSqs, -⟩ := s.reinitCtrl_tables maxNrIoqs r
        have fits := (good.1 (eMade.trans made)).1
        rw [eSqs, if_pos ⟨vf, opens⟩, Table.Fits, nrQueues_eq, (h.sqs made).1] at fits
        exact fits
      · rename_i none
        intro opens irqs nonzero
        unfold State.initCtrl at good
        rw [if_neg none, opens, irqs] at good
        obtain ⟨sqs, cqs⟩ := good.1 rfl
        rw [Table.Fits, nrQueues_eq] at sqs cqs
        exact ⟨calloc_fits sqs nonzero, calloc_fits cqs nonzero⟩
  | setState _ => trivial
  | freeVf => trivial
  | sqs _ => trivial
  | cqs _ => trivial
  | freeCtrl => trivial

theorem inv_start : Inv start := ⟨by decide, by decide, rfl⟩

theorem sized_of_blocked (s : State) (a : Act) (h : step s a = none) : Sized s a := by
  cases a with
  | init maxNrIoqs r => cases h
  | setState _ => trivial
  | freeVf => trivial
  | sqs _ => trivial
  | cqs _ => trivial
  | freeCtrl => trivial

/-- **Queue arrays.** In every run, the arrays have an entry for every id below the number and no
access is outside, in every state, if and only if all initialisations are `Sized`. -/
theorem arrays_fit_iff (as : List Act) :
    Guarded step Sized start as ↔
      ∀ bs t, bs <+: as → run step start bs = some t → t.InBounds :=
  guarded_iff (fun _ => Inv.inBounds) inv_step sized_of_inBounds sized_of_blocked inv_start

/-- A VF added for one queue is torn down and added again for two. The lookup of queue 2 reads
behind the array. -/
theorem reinit_outgrows_arrays :
    ∃ t, run step start [.init 1 {}, .freeVf, .init 2 {}] = some t ∧ ¬ t.InBounds ∧
      ∃ t', step t (.sqs (.find 2 true)) = some t' ∧ t'.fault = true := by
  refine ⟨_, rfl, by decide, _, rfl, rfl⟩

end Unvmed.Arrays
