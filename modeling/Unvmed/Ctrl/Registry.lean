import Unvmed.Lib.Run
import Unvmed.Lib.Tally
import Unvmed.Basic

/-!
The list of controller instances (`unvme_list` in `lib/libunvmed.c`).

The daemon runs one thread for every command. `unvmed_get` walks the list and increments the
count of the instance it found; `unvmed_put` decrements it, and the put that reaches 0 runs
`unvmed_free_ctrl`, which takes the instance off the list at its end; `unvmed_init_ctrl` gets the
instance of a device and makes a new one where there is none. No lock is held over two of these
steps, so each of them is an action of its own here. `β` is the type of device addresses.

* `registry_sound`: in every run without three kinds of overlap (`Apart`) a device has one live
  instance on the list, a count that reached 0 is not raised again, and each instance is freed
  once.
* `overlaps_break_registry`: each kind of overlap breaks one of these.
-/

namespace Unvmed.CtrlList

open Lib

variable {ι β : Type}

/-- A `struct unvme`. The serial number tells two instances of one device apart. -/
structure Inst (β : Type) where
  bdf : β
  serial : Nat
  deriving DecidableEq, Repr

/-- Where a thread is. `init` says that the get is the one of `unvmed_init_ctrl`. -/
inductive Pc (β : Type) where
  | idle
  /-- The instance is found; next is `atomic_inc(&u->refcnt)`. -/
  | inc (x : Inst β) (init : Bool)
  /-- The reference is taken; next is the return, or a re-initialisation before it. -/
  | found (x : Inst β) (init : Bool)
  /-- `unvmed_init_ctrl` found nothing; next are `zmalloc` and the set-up. -/
  | build (bdf : β)
  /-- Next are `u->refcnt = 1` and `list_add`. -/
  | insert (x : Inst β)
  /-- In `unvmed_put`; next is `atomic_dec_fetch(&u->refcnt)`. -/
  | dec (x : Inst β)
  /-- In `unvmed_free_ctrl`; next is `list_del`. -/
  | unlink (x : Inst β)
  /-- Next is `free(u)`. -/
  | free (x : Inst β)
  deriving DecidableEq, Repr

/-- `holders` lists the references given out and not yet put, `died` the instances whose count
has reached 0. -/
structure State (ι β : Type) where
  list : List (Inst β)
  refcnt : Inst β → Nat
  /-- How many instances were made for the device so far. -/
  next : β → Nat
  holders : List (Inst β)
  died : List (Inst β)
  freed : List (Inst β)
  pcs : ι → Pc β

inductive Act (ι β : Type) where
  /-- The lookup of `unvmed_get`, or of `unvmed_init_ctrl` with `init`. -/
  | get (t : ι) (bdf : β) (init : Bool)
  | put (t : ι) (x : Inst β)
  /-- The set-up or the re-initialisation fails. -/
  | fail (t : ι)
  | step (t : ι)
  deriving Repr

section Step

variable [DecidableEq ι] [DecidableEq β]

def State.goto (s : State ι β) (t : ι) (pc : Pc β) : State ι β :=
  { s with pcs := Function.update s.pcs t pc }

def State.setRefcnt (s : State ι β) (x : Inst β) (n : Nat) : State ι β :=
  { s with refcnt := Function.update s.refcnt x n }

/-- A reference is handed to the caller. -/
def State.hand (s : State ι β) (x : Inst β) : State ι β := { s with holders := x :: s.holders }

def State.fresh (s : State ι β) (bdf : β) : Inst β := ⟨bdf, s.next bdf⟩

def State.alloc (s : State ι β) (bdf : β) : State ι β :=
  { s with next := Function.update s.next bdf (s.next bdf + 1) }

/-- The next step of a thread inside a function. -/
def State.advance (s : State ι β) (t : ι) : Pc β → Option (State ι β)
  | .idle => none
  | .inc x init => some ((s.setRefcnt x (s.refcnt x + 1)).goto t (.found x init))
  | .found x _ => some ((s.hand x).goto t .idle)
  | .build bdf => some ((s.alloc bdf).goto t (.insert (s.fresh bdf)))
  | .insert x => some (({ s.setRefcnt x 1 with list := x :: s.list }.hand x).goto t .idle)
  | .dec x =>
      if s.refcnt x = 1 then
        some ({ s.setRefcnt x 0 with died := x :: s.died }.goto t (.unlink x))
      else some ((s.setRefcnt x (s.refcnt x - 1)).goto t .idle)
  | .unlink x => some ({ s with list := s.list.erase x }.goto t (.free x))
  | .free x => some ({ s with freed := x :: s.freed }.goto t .idle)

/-- One atomic step. -/
def step (s : State ι β) : Act ι β → Option (State ι β)
  | .get t bdf init =>
      if s.pcs t ≠ .idle then none
      else match s.list.find? (·.bdf = bdf) with
        | none => if init then some (s.goto t (.build bdf)) else some s
        | some x => some (s.goto t (.inc x init))
  | .put t x =>
      if s.pcs t = .idle ∧ x ∈ s.holders then
        some ({ s with holders := s.holders.erase x }.goto t (.dec x))
      else none
  | .fail t => match s.pcs t with
      -- `__unvmed_reinit_ctrl` puts the reference of the get.
      | .found x true => some (s.goto t (.dec x))
      | .build _ => some (s.goto t .idle)
      -- `__unvmed_bdf_to_int` fails; the instance was not listed.
      | .insert x => some (s.goto t (.unlink x))
      | _ => none
  | .step t => s.advance t (s.pcs t)

end Step

def start (ι β : Type) : State ι β where
  list := []
  refcnt _ := 0
  next _ := 0
  holders := []
  died := []
  freed := []
  pcs _ := .idle

/-! ### What the list is for -/

/-- The device a thread makes an instance for. -/
def Pc.builds : Pc β → Option β
  | .build bdf => some bdf
  | .insert x => some x.bdf
  | _ => none

section Weights

variable [DecidableEq β]

/-- The thread has found `x` and not yet raised its count. -/
def Pc.raises (x : Inst β) : Pc β → Bool
  | .inc y _ => y = x
  | _ => false

/-- The thread has dropped the last reference to an instance of the device, which is still
listed. -/
def Pc.removes (list : List (Inst β)) (bdf : β) : Pc β → Bool
  | .unlink x => x ∈ list ∧ x.bdf = bdf
  | _ => false

/-- 1 for a thread that holds a reference to `x` inside a function. -/
def Pc.holds (x : Inst β) : Pc β → Nat
  | .found y _ | .dec y => if y = x then 1 else 0
  | _ => 0

/-- 1 for a thread that is about to list `x` or to free it. -/
def Pc.pending (x : Inst β) : Pc β → Nat
  | .insert y | .unlink y | .free y => if y = x then 1 else 0
  | _ => 0

/-- 1 for an instance that was made. -/
def Inst.born (next : β → Nat) (x : Inst β) : Nat := if x.serial < next x.bdf then 1 else 0

variable [Fintype ι]

/-- The references to `x` that someone still has to put. -/
def State.refs (s : State ι β) (x : Inst β) : Nat :=
  s.holders.count x + tally (Pc.holds x) s.pcs

def State.pending (s : State ι β) (x : Inst β) : Nat := tally (Pc.pending x) s.pcs

/-- A device has one live instance on the list. A count that reached 0 stays there, and no get
returns its instance. The count is the number of references, and an instance that was made has
references, or one thread lists or frees it, or it was freed once. -/
structure State.Sound (s : State ι β) : Prop where
  listed_once : s.list.Nodup
  unique : ∀ x ∈ s.list, ∀ y ∈ s.list, 0 < s.refcnt x → 0 < s.refcnt y → x.bdf = y.bdf → x = y
  not_raised : ∀ x ∈ s.died, s.refcnt x = 0
  not_returned : ∀ x ∈ s.died, s.refs x = 0
  counted : ∀ x, s.refcnt x = s.refs x
  freed_once : ∀ x, x.serial < s.next x.bdf →
    min (s.refs x) 1 + s.pending x + s.freed.count x = 1

end Weights

/-- The overlaps of two threads that the code has no lock against: a lookup of a device between the
last put of its instance and `list_del`, the last put of an instance between another thread's
lookup and its increment, and a `list_add` while another thread makes an instance for the same
device. -/
def Apart [DecidableEq β] (s : State ι β) : Act ι β → Prop
  | .get _ bdf _ => ∀ t, (s.pcs t).removes s.list bdf = false
  | .put _ _ | .fail _ => True
  | .step t => match s.pcs t with
      | .insert x => ∀ t', t' ≠ t → (s.pcs t').builds ≠ some x.bdf
      | .dec x => s.refcnt x = 1 → ∀ t', (s.pcs t').raises x = false
      | _ => True

instance [DecidableEq β] [Fintype ι] [DecidableEq ι] (s : State ι β) (a : Act ι β) :
    Decidable (Apart s a) := by
  unfold Apart
  split
  · infer_instance
  · infer_instance
  · infer_instance
  · split <;> infer_instance

/-! ### What a step does -/

section Effect

variable [DecidableEq ι] [DecidableEq β]

/-- Everything a step can do. -/
inductive Effect (s : State ι β) : Act ι β → State ι β → Prop
  | stay {a : Act ι β} : Effect s a s
  | miss {t : ι} {bdf : β} {init : Bool} (idle : s.pcs t = .idle)
      (none : ∀ x ∈ s.list, x.bdf ≠ bdf) : Effect s (.get t bdf init) (s.goto t (.build bdf))
  | look {t : ι} {x : Inst β} {init : Bool} (idle : s.pcs t = .idle) (mem : x ∈ s.list) :
      Effect s (.get t x.bdf init) (s.goto t (.inc x init))
  | take {t : ι} {x : Inst β} {init : Bool} (at_ : s.pcs t = .inc x init) :
      Effect s (.step t) ((s.setRefcnt x (s.refcnt x + 1)).goto t (.found x init))
  | hand {t : ι} {x : Inst β} {init : Bool} (at_ : s.pcs t = .found x init) :
      Effect s (.step t) ((s.hand x).goto t .idle)
  | back {t : ι} {x : Inst β} {init : Bool} (at_ : s.pcs t = .found x init) :
      Effect s (.fail t) (s.goto t (.dec x))
  | alloc {t : ι} {bdf : β} (at_ : s.pcs t = .build bdf) :
      Effect s (.step t) ((s.alloc bdf).goto t (.insert (s.fresh bdf)))
  | quit {t : ι} {bdf : β} (at_ : s.pcs t = .build bdf) : Effect s (.fail t) (s.goto t .idle)
  | insert {t : ι} {x : Inst β} (at_ : s.pcs t = .insert x) :
      Effect s (.step t) (({ s.setRefcnt x 1 with list := x :: s.list }.hand x).goto t .idle)
  | reject {t : ι} {x : Inst β} (at_ : s.pcs t = .insert x) :
      Effect s (.fail t) (s.goto t (.unlink x))
  | drop {t : ι} {x : Inst β} (idle : s.pcs t = .idle) (held : x ∈ s.holders) :
      Effect s (.put t x) ({ s with holders := s.holders.erase x }.goto t (.dec x))
  | last {t : ι} {x : Inst β} (at_ : s.pcs t = .dec x) (one : s.refcnt x = 1) :
      Effect s (.step t) ({ s.setRefcnt x 0 with died := x :: s.died }.goto t (.unlink x))
  | dec {t : ι} {x : Inst β} (at_ : s.pcs t = .dec x) (more : s.refcnt x ≠ 1) :
      Effect s (.step t) ((s.setRefcnt x (s.refcnt x - 1)).goto t .idle)
  | unlink {t : ι} {x : Inst β} (at_ : s.pcs t = .unlink x) :
      Effect s (.step t) ({ s with list := s.list.erase x }.goto t (.free x))
  | free {t : ι} {x : Inst β} (at_ : s.pcs t = .free x) :
      Effect s (.step t) ({ s with freed := x :: s.freed }.goto t .idle)

theorem advance_effect {s s' : State ι β} {t : ι} (hstep : s.advance t (s.pcs t) = some s') :
    Effect s (.step t) s' := by
  cases hpc : s.pcs t with
  | idle => simp [State.advance, hpc] at hstep
  | dec x =>
      simp only [State.advance, hpc] at hstep
      split at hstep <;> cases hstep
      · exact .last hpc ‹_›
      · exact .dec hpc ‹_›
  | inc x init =>
      simp only [State.advance, hpc, Option.some.injEq] at hstep
      subst hstep
      exact .take hpc
  | found x init =>
      simp only [State.advance, hpc, Option.some.injEq] at hstep
      subst hstep
      exact .hand hpc
  | build bdf =>
      simp only [State.advance, hpc, Option.some.injEq] at hstep
      subst hstep
      exact .alloc hpc
  | insert x =>
      simp only [State.advance, hpc, Option.some.injEq] at hstep
      subst hstep
      exact .insert hpc
  | unlink x =>
      simp only [State.advance, hpc, Option.some.injEq] at hstep
      subst hstep
      exact .unlink hpc
  | free x =>
      simp only [State.advance, hpc, Option.some.injEq] at hstep
      subst hstep
      exact .free hpc

theorem step_effect {s s' : State ι β} {a : Act ι β} (hstep : step s a = some s') :
    Effect s a s' := by
  cases a with
  | get t bdf init =>
      simp only [step] at hstep
      split at hstep
      · cases hstep
      · rename_i idle
        have idle := not_not.mp idle
        split at hstep
        · rename_i missing
          have none : ∀ x ∈ s.list, x.bdf ≠ bdf := by simpa using missing
          split at hstep <;> cases hstep
          · exact .miss idle none
          · exact .stay
        · rename_i x found
          cases hstep
          have same : x.bdf = bdf := by simpa using List.find?_some found
          subst same
          exact .look idle (List.mem_of_find?_eq_some found)
  | put t x =>
      simp only [step] at hstep
      split at hstep <;> cases hstep
      rename_i held
      exact .drop held.1 held.2
  | fail t =>
      simp only [step] at hstep
      split at hstep <;> cases hstep
      · exact .back ‹_›
      · exact .quit ‹_›
      · exact .reject ‹_›
  | step t => exact advance_effect hstep

end Effect

/-! ### Reference counts -/

section Counted

variable [DecidableEq β] [Fintype ι]

/-- The count is the number of references, and an instance that was made is referenced, on its way
in or out, or freed, and one of these only. -/
structure State.Counted (s : State ι β) : Prop where
  refcnt : ∀ x, s.refcnt x = s.refs x
  once : ∀ x, min (s.refcnt x) 1 + s.pending x + s.freed.count x = x.born s.next

theorem start_counted : (start ι β).Counted := by
  have zero : ∀ w : Pc β → Nat, w .idle = 0 → tally w (start ι β).pcs = 0 :=
    fun w h => tally_eq_zero fun _ => h
  refine ⟨?_, ?_⟩
  · intro x
    have := zero (Pc.holds x) rfl
    simp only [State.refs, this]
    rfl
  · intro x
    have := zero (Pc.pending x) rfl
    simp only [State.pending, this]
    rfl

omit [DecidableEq β] [Fintype ι] in
theorem Inst.born_le (next : β → Nat) (x : Inst β) : x.born next ≤ 1 := by
  unfold Inst.born
  split <;> omega

omit [Fintype ι] in
theorem State.born_alloc (s : State ι β) (bdf : β) (x : Inst β) :
    x.born (s.alloc bdf).next = x.born s.next + if s.fresh bdf = x then 1 else 0 := by
  obtain ⟨b, n⟩ := x
  simp only [Inst.born, State.alloc, State.fresh, Inst.mk.injEq]
  by_cases own : b = bdf
  · subst own
    simp only [Function.update_self, true_and]
    split <;> split <;> split <;> omega
  · simp [own, Ne.symm own]

theorem State.Counted.dec_pos {s : State ι β} (h : s.Counted) {t : ι} {x : Inst β}
    (at_ : s.pcs t = .dec x) : 0 < s.refcnt x := by
  have own := le_tally (Pc.holds x) s.pcs t
  have count := h.refcnt x
  simp only [State.refs, at_, Pc.holds, if_true] at *
  omega

/-- An instance on its way in or out has no reference. -/
theorem State.Counted.pending_zero {s : State ι β} (h : s.Counted) {t : ι} {x : Inst β}
    (at_ : Pc.pending x (s.pcs t) = 1) :
    s.refcnt x = 0 ∧ s.pending x = 1 ∧ s.freed.count x = 0 := by
  have own := le_tally (Pc.pending x) s.pcs t
  have once := h.once x
  have := x.born_le s.next
  simp only [State.pending] at *
  omega

variable [DecidableEq ι]

/-- A thread moves while counts, references and frees change in balance with its own weights. -/
theorem State.Counted.goto {s s₁ : State ι β} (h : s.Counted) {t : ι} {pc : Pc β}
    (pcs : s₁.pcs = s.pcs)
    (refcnt : ∀ x, s₁.refcnt x + s.holders.count x + Pc.holds x (s.pcs t) =
      s.refcnt x + s₁.holders.count x + Pc.holds x pc)
    (once : ∀ x, min (s₁.refcnt x) 1 + s₁.freed.count x + Pc.pending x pc + x.born s.next =
      min (s.refcnt x) 1 + s.freed.count x + Pc.pending x (s.pcs t) + x.born s₁.next) :
    (s₁.goto t pc).Counted := by
  refine ⟨?_, ?_⟩
  · intro x
    have moved := tally_update (Pc.holds x) s.pcs t pc
    have before := h.refcnt x
    have balance := refcnt x
    simp only [State.refs, State.goto, pcs] at *
    omega
  · intro x
    have moved := tally_update (Pc.pending x) s.pcs t pc
    have before := h.once x
    have balance := once x
    simp only [State.pending, State.goto, pcs] at *
    omega

/-- A count is set, and the thread moves. -/
theorem State.Counted.setRefcnt {s s₁ : State ι β} (h : s.Counted) {t : ι} {pc : Pc β} {x : Inst β}
    {n : Nat} (same : s₁.pcs = s.pcs ∧ s₁.holders = s.holders ∧ s₁.freed = s.freed ∧
      s₁.next = s.next) (set_ : s₁.refcnt = Function.update s.refcnt x n)
    (refcnt : n + Pc.holds x (s.pcs t) = s.refcnt x + Pc.holds x pc)
    (once : min n 1 + Pc.pending x pc = min (s.refcnt x) 1 + Pc.pending x (s.pcs t))
    (others : ∀ y, y ≠ x → Pc.holds y pc = Pc.holds y (s.pcs t) ∧
      Pc.pending y pc = Pc.pending y (s.pcs t)) : (s₁.goto t pc).Counted := by
  obtain ⟨pcs, holders, freed, next⟩ := same
  refine h.goto pcs (fun y => ?_) fun y => ?_
  all_goals
    rw [set_]
    by_cases own : y = x
    · subst own
      rw [Function.update_self]
      simp only [holders, freed, next]
      omega
    · have := others y own
      rw [Function.update_of_ne own]
      simp only [holders, freed, next]
      omega

theorem step_counted {s s' : State ι β} {a : Act ι β} (h : s.Counted)
    (raising : ∀ t x init, s.pcs t = .inc x init → 0 < s.refcnt x) (effect : Effect s a s') :
    s'.Counted := by
  cases effect with
  | stay => exact h
  | miss idle _ =>
      refine h.goto rfl (fun y => ?_) fun y => ?_
      all_goals simp [idle, Pc.holds, Pc.pending]
  | look idle _ =>
      refine h.goto rfl (fun y => ?_) fun y => ?_
      all_goals simp [idle, Pc.holds, Pc.pending]
  | @take t x init at_ =>
      have pos := raising t x init at_
      refine h.setRefcnt ⟨rfl, rfl, rfl, rfl⟩ rfl ?_ ?_ ?_
      · simp [at_, Pc.holds]
      · simp only [at_, Pc.pending]
        omega
      · intro y other
        simp [at_, Pc.holds, Pc.pending, other.symm]
  | hand at_ =>
      refine h.goto rfl (fun y => ?_) fun y => ?_
      · simp only [at_, State.hand, Pc.holds, List.count_cons, beq_iff_eq]
        omega
      · simp [at_, State.hand, Pc.pending]
  | back at_ =>
      refine h.goto rfl (fun y => ?_) fun y => ?_
      all_goals simp [at_, Pc.holds, Pc.pending]
  | @alloc t bdf at_ =>
      refine h.goto rfl (fun y => ?_) fun y => ?_
      · simp [at_, Pc.holds, State.alloc]
      · have := s.born_alloc bdf y
        simp only [State.alloc, at_, Pc.pending] at *
        omega
  | quit at_ =>
      refine h.goto rfl (fun y => ?_) fun y => ?_
      all_goals simp [at_, Pc.holds, Pc.pending]
  | @insert t x at_ =>
      have zero := (h.pending_zero (t := t) (x := x) (by simp [at_, Pc.pending])).1
      refine h.goto rfl (fun y => ?_) fun y => ?_
      all_goals
        simp only [at_, State.hand, State.setRefcnt, Pc.holds, Pc.pending, List.count_cons,
          beq_iff_eq]
        by_cases own : y = x
        · subst own
          simp [zero, Nat.add_comm]
        · simp [own, Ne.symm own]
  | reject at_ =>
      refine h.goto rfl (fun y => ?_) fun y => ?_
      all_goals simp [at_, Pc.holds, Pc.pending]
  | @drop t x idle held =>
      refine h.goto rfl (fun y => ?_) fun y => ?_
      · have := List.count_pos_iff.mpr held
        simp only [idle, Pc.holds, List.count_erase, beq_iff_eq]
        by_cases own : x = y
        · subst own
          simp only [if_true]
          omega
        · simp only [if_neg own]
          omega
      · simp [idle, Pc.pending]
  | @last t x at_ one =>
      refine h.setRefcnt ⟨rfl, rfl, rfl, rfl⟩ rfl ?_ ?_ ?_
      · simp [at_, Pc.holds, one]
      · simp [at_, Pc.pending, one]
      · intro y other
        simp [at_, Pc.holds, Pc.pending, other.symm]
  | @dec t x at_ more =>
      have pos := h.dec_pos at_
      refine h.setRefcnt ⟨rfl, rfl, rfl, rfl⟩ rfl ?_ ?_ ?_
      · simp only [at_, Pc.holds, if_true]
        omega
      · simp only [at_, Pc.pending]
        omega
      · intro y other
        simp [at_, Pc.holds, Pc.pending, other.symm]
  | unlink at_ =>
      refine h.goto rfl (fun y => ?_) fun y => ?_
      all_goals simp [at_, Pc.holds, Pc.pending]
  | free at_ =>
      refine h.goto rfl (fun y => ?_) fun y => ?_
      · simp [at_, Pc.holds]
      · simp only [at_, Pc.pending, List.count_cons, beq_iff_eq]
        omega

end Counted

/-! ### The list -/

section Listed

/-- What a thread relies on. -/
def Pc.Ok (s : State ι β) : Pc β → Prop
  | .inc x _ => 0 < s.refcnt x
  | .build bdf => ∀ x ∈ s.list, x.bdf ≠ bdf
  | .insert y => y ∉ s.died ∧ ∀ x ∈ s.list, x.bdf ≠ y.bdf
  | .idle | .found _ _ | .dec _ | .unlink _ | .free _ => True

/-- What the list holds while no two threads overlap. -/
structure State.Listed (s : State ι β) : Prop where
  nodup : s.list.Nodup
  sole : ∀ x ∈ s.list, ∀ y ∈ s.list, x.bdf = y.bdf → x = y
  listed : ∀ x ∈ s.list, 0 < s.refcnt x ∨ ∃ t, s.pcs t = .unlink x
  died : ∀ x ∈ s.died, s.refcnt x = 0 ∧ x.serial < s.next x.bdf
  threads : ∀ t, (s.pcs t).Ok s

theorem start_listed : (start ι β).Listed := by
  refine ⟨List.nodup_nil, ?_, ?_, ?_, fun _ => trivial⟩
  all_goals simp [start]

variable [DecidableEq ι] {s : State ι β} {t : ι} {pc : Pc β}

/-- Every thread is where it should be after one of them moved. -/
theorem threads_goto (own : pc.Ok s) (others : ∀ u, u ≠ t → (s.pcs u).Ok s) (u : ι) :
    ((s.goto t pc).pcs u).Ok (s.goto t pc) := by
  have same : ∀ q : Pc β, q.Ok (s.goto t pc) ↔ q.Ok s := fun q => by cases q <;> rfl
  rw [same]
  simp only [State.goto]
  by_cases mine : u = t
  · subst mine
    rw [Function.update_self]
    exact own
  · rw [Function.update_of_ne mine]
    exact others u mine

/-- The thread that takes an instance off the list is another one than the one that moves. -/
theorem unlink_goto {x : Inst β} (stays : s.pcs t ≠ .unlink x)
    (leaving : ∃ u, s.pcs u = .unlink x) : ∃ u, (s.goto t pc).pcs u = .unlink x := by
  obtain ⟨u, at_⟩ := leaving
  have other : u ≠ t := by
    rintro rfl
    exact stays at_
  refine ⟨u, ?_⟩
  simp only [State.goto, Function.update_of_ne other, at_]

/-- A thread moves and leaves list and counts as they are. -/
theorem State.Listed.goto (h : s.Listed) (stays : ∀ x, s.pcs t ≠ .unlink x) (ok : pc.Ok s) :
    (s.goto t pc).Listed :=
  ⟨h.nodup, h.sole, fun x mem => (h.listed x mem).imp id (unlink_goto (stays x)), h.died,
    threads_goto ok fun u _ => h.threads u⟩

omit [DecidableEq ι] in
/-- Who holds references and what is freed does not matter to the list. -/
theorem State.Listed.holders (h : s.Listed) (holders freed : List (Inst β)) :
    { s with holders := holders, freed := freed }.Listed := by
  refine ⟨h.nodup, h.sole, h.listed, h.died, fun u => ?_⟩
  have ok := h.threads u
  dsimp only
  cases hpc : s.pcs u <;> rw [hpc] at ok <;> exact ok

omit [DecidableEq ι] in
/-- A thread relies on the same while the counts it raises stay positive and nothing is listed or
dies that concerns it. -/
theorem Pc.Ok.change {s₁ : State ι β} (h : pc.Ok s)
    (refcnt : ∀ x init, pc = .inc x init → 0 < s.refcnt x → 0 < s₁.refcnt x)
    (list : ∀ x ∈ s₁.list, x ∈ s.list ∨ pc.builds ≠ some x.bdf)
    (died : ∀ x ∈ s₁.died, x ∈ s.died ∨ pc ≠ .insert x) : pc.Ok s₁ := by
  have unlisted : ∀ bdf, pc.builds = some bdf → (∀ x ∈ s.list, x.bdf ≠ bdf) →
      ∀ x ∈ s₁.list, x.bdf ≠ bdf := by
    rintro bdf builds none x mem rfl
    rcases list x mem with old | other
    · exact none x old rfl
    · exact other builds
  cases pc with
  | inc x init => exact refcnt x init rfl h
  | build bdf => exact unlisted bdf rfl h
  | insert y =>
      refine ⟨fun mem => ?_, unlisted y.bdf rfl h.2⟩
      rcases died y mem with old | other
      · exact h.1 old
      · exact other rfl
  | idle => trivial
  | found x init => trivial
  | dec x => trivial
  | unlink x => trivial
  | free x => trivial

variable [DecidableEq β]

/-- A positive count is set to another positive one. -/
theorem State.Listed.setRefcnt (h : s.Listed) {x : Inst β} {n : Nat} (pos : 0 < s.refcnt x)
    (new : 0 < n) (stays : ∀ x, s.pcs t ≠ .unlink x) (ok : pc.Ok (s.setRefcnt x n)) :
    ((s.setRefcnt x n).goto t pc).Listed := by
  have positive : ∀ y, 0 < s.refcnt y → 0 < (s.setRefcnt x n).refcnt y := by
    intro y before
    simp only [State.setRefcnt, Function.update_apply]
    split <;> assumption
  have set_ : (s.setRefcnt x n).Listed := by
    refine ⟨h.nodup, h.sole, fun y mem => (h.listed y mem).imp (positive y) id, ?_, fun u => ?_⟩
    · intro y dead
      have other : y ≠ x := by
        rintro rfl
        exact absurd (h.died y dead).1 (by omega)
      simp only [State.setRefcnt, Function.update_of_ne other]
      exact h.died y dead
    · exact (h.threads u).change (fun y _ _ => positive y) (fun _ => .inl) fun _ => .inl
  exact set_.goto stays ok

omit [DecidableEq ι] in
/-- A new instance is neither listed nor dead. -/
theorem State.Listed.alloc (h : s.Listed) (bdf : β) : (s.alloc bdf).Listed := by
  refine ⟨h.nodup, h.sole, h.listed, ?_, fun u => ?_⟩
  · intro x dead
    have old := h.died x dead
    refine ⟨old.1, old.2.trans_le ?_⟩
    simp only [State.alloc, Function.update_apply]
    split
    · rename_i same
      rw [same]
      exact Nat.le_succ _
    · exact le_rfl
  · exact (h.threads u).change (fun _ _ _ => id) (fun _ => .inl) fun _ => .inl

/-- An instance is listed while nobody else makes one for its device. -/
theorem State.Listed.insert (h : s.Listed) {x : Inst β} (at_ : s.pcs t = .insert x)
    (alone : ∀ u, u ≠ t → (s.pcs u).builds ≠ some x.bdf) :
    (({ s.setRefcnt x 1 with list := x :: s.list }.hand x).goto t .idle).Listed := by
  obtain ⟨alive, none⟩ : x ∉ s.died ∧ ∀ y ∈ s.list, y.bdf ≠ x.bdf := by
    have ok := h.threads t
    rw [at_] at ok
    exact ok
  have unlisted : x ∉ s.list := fun mem => none x mem rfl
  have positive : ∀ y, 0 < s.refcnt y → 0 < Function.update s.refcnt x 1 y := by
    intro y before
    rw [Function.update_apply]
    split
    · exact Nat.one_pos
    · exact before
  refine ⟨List.nodup_cons.mpr ⟨unlisted, h.nodup⟩, ?_, ?_, ?_, ?_⟩
  · intro y my z mz same
    rcases List.mem_cons.mp my with hy | hy <;> rcases List.mem_cons.mp mz with hz | hz
    · exact hy.trans hz.symm
    · exact absurd (hy ▸ same.symm) (none z hz)
    · exact absurd (hz ▸ same) (none y hy)
    · exact h.sole y hy z hz same
  · intro y mem
    rcases List.mem_cons.mp mem with own | old
    · left
      rw [own]
      exact (Nat.one_pos).trans_eq (Function.update_self x 1 s.refcnt).symm
    · refine (h.listed y old).imp (positive y) (unlink_goto ?_)
      simp only [State.hand, State.setRefcnt, at_]
      simp
  · intro y dead
    have other : y ≠ x := by
      rintro rfl
      exact alive dead
    exact ⟨(Function.update_of_ne other ..).trans (h.died y dead).1, (h.died y dead).2⟩
  · refine threads_goto trivial fun u other => (h.threads u).change (fun y _ _ => positive y) ?_
      fun _ => .inl
    intro y mem
    rcases List.mem_cons.mp mem with own | old
    · exact .inr (own ▸ alone u other)
    · exact .inl old

/-- The instance leaves the list. -/
theorem State.Listed.unlink (h : s.Listed) {x : Inst β} (at_ : s.pcs t = .unlink x) :
    ({ s with list := s.list.erase x }.goto t (.free x)).Listed := by
  refine ⟨h.nodup.erase x, ?_, ?_, h.died, ?_⟩
  · intro y my z mz same
    exact h.sole y (List.mem_of_mem_erase my) z (List.mem_of_mem_erase mz) same
  · intro y mem
    obtain ⟨other, old⟩ := h.nodup.mem_erase_iff.mp mem
    refine (h.listed y old).imp id (unlink_goto ?_)
    rw [at_]
    rintro ⟨⟩
    exact other rfl
  · refine threads_goto trivial fun u _ => (h.threads u).change (fun _ _ _ => id) ?_
      fun _ => .inl
    exact fun y mem => .inl (List.mem_of_mem_erase mem)

variable [Fintype ι]

/-- The last reference is dropped while nobody is about to raise the count. -/
theorem State.Listed.last (h : s.Listed) (counted : s.Counted) {x : Inst β}
    (at_ : s.pcs t = .dec x) (one : s.refcnt x = 1) (away : ∀ u, (s.pcs u).raises x = false) :
    ({ s.setRefcnt x 0 with died := x :: s.died }.goto t (.unlink x)).Listed := by
  have born : x.serial < s.next x.bdf := by
    have once := counted.once x
    by_contra unborn
    simp [Inst.born, unborn, one] at once
  have set_ : ∀ y, y ≠ x → Function.update s.refcnt x 0 y = s.refcnt y :=
    fun y other => Function.update_of_ne other ..
  refine ⟨h.nodup, h.sole, ?_, ?_, ?_⟩
  · intro y mem
    by_cases own : y = x
    · rw [own]
      exact .inr ⟨t, Function.update_self ..⟩
    · refine (h.listed y mem).imp (fun pos => pos.trans_eq (set_ y own).symm) (unlink_goto ?_)
      simp only [State.setRefcnt, at_]
      simp
  · intro y dead
    by_cases own : y = x
    · rw [own]
      exact ⟨Function.update_self .., born⟩
    · have old := h.died y ((List.mem_cons.mp dead).resolve_left own)
      exact ⟨(set_ y own).trans old.1, old.2⟩
  · refine threads_goto trivial fun u _ => (h.threads u).change ?_ (fun _ => .inl) ?_
    · intro y init looking pos
      have other : y ≠ x := by
        rintro rfl
        simpa [looking, Pc.raises] using away u
      exact pos.trans_eq (set_ y other).symm
    · intro y dead
      rcases List.mem_cons.mp dead with own | old
      · -- An instance that is not listed yet has no count.
        refine .inr fun listing => ?_
        have zero := (counted.pending_zero (t := u) (x := y) (by simp [listing, Pc.pending])).1
        rw [own] at zero
        omega
      · exact .inl old

/-- **Step lemma.** A step that overlaps no other thread's leaves the list in order. -/
theorem step_listed {s' : State ι β} {a : Act ι β} (h : s.Listed) (counted : s.Counted)
    (apart : Apart s a) (effect : Effect s a s') : s'.Listed := by
  cases effect with
  | stay => exact h
  | miss idle none => exact h.goto (by simp [idle]) none
  | @look t x init idle mem =>
      refine h.goto (by simp [idle]) ?_
      refine (h.listed x mem).resolve_right ?_
      rintro ⟨u, leaving⟩
      have away := apart u
      simp [leaving, Pc.removes, mem] at away
  | @take t x init at_ =>
      have pos : 0 < s.refcnt x := by
        have ok := h.threads t
        rw [at_] at ok
        exact ok
      exact h.setRefcnt pos (Nat.succ_pos _) (by simp [at_]) trivial
  | @hand t x init at_ => exact (h.holders (x :: s.holders) s.freed).goto (by simp [at_]) trivial
  | back at_ => exact h.goto (by simp [at_]) trivial
  | @alloc t bdf at_ =>
      have none : ∀ x ∈ s.list, x.bdf ≠ bdf := by
        have ok := h.threads t
        rw [at_] at ok
        exact ok
      have unborn : s.fresh bdf ∉ s.died := fun dead => absurd (h.died _ dead).2 (lt_irrefl _)
      exact (h.alloc bdf).goto (by simp [State.alloc, at_]) ⟨unborn, none⟩
  | quit at_ => exact h.goto (by simp [at_]) trivial
  | @insert t x at_ =>
      simp only [Apart, at_] at apart
      exact h.insert at_ apart
  | reject at_ => exact h.goto (by simp [at_]) trivial
  | @drop t x idle held =>
      exact (h.holders (s.holders.erase x) s.freed).goto (by simp [idle]) trivial
  | @last t x at_ one =>
      simp only [Apart, at_] at apart
      exact h.last counted at_ one (apart one)
  | @dec t x at_ more =>
      have pos := counted.dec_pos at_
      exact h.setRefcnt pos (by omega) (by simp [at_]) trivial
  | unlink at_ => exact h.unlink at_
  | @free t x at_ => exact (h.holders s.holders (x :: s.freed)).goto (by simp [at_]) trivial

end Listed

/-! ### Runs -/

section Runs

variable [DecidableEq ι] [DecidableEq β] [Fintype ι]

omit [DecidableEq ι] in
theorem State.Listed.sound {s : State ι β} (h : s.Listed) (counted : s.Counted) : s.Sound := by
  refine ⟨h.nodup, fun x mx y my _ _ => h.sole x mx y my, fun x dead => (h.died x dead).1, ?_,
    counted.refcnt, ?_⟩
  · intro x dead
    rw [← counted.refcnt]
    exact (h.died x dead).1
  · intro x born
    rw [← counted.refcnt]
    have once := counted.once x
    rwa [Inst.born, if_pos born] at once

/-- **Controller registry.** In every run without an overlap, a device has at most one live instance
on the list, no get raises or returns an instance whose count has reached 0, and each instance is
freed once. -/
theorem registry_sound {as : List (Act ι β)} {s : State ι β}
    (apart : Guarded step Apart (start ι β) as) (hrun : run step (start ι β) as = some s) :
    s.Sound := by
  have inv := run_inv (I := fun s : State ι β => s.Listed ∧ s.Counted)
    (fun s a s' h apart hstep => by
      have effect := step_effect hstep
      have raising : ∀ t x init, s.pcs t = .inc x init → 0 < s.refcnt x := fun t x init at_ => by
        have ok := h.1.threads t
        rw [at_] at ok
        exact ok
      exact ⟨step_listed h.1 h.2 apart effect, step_counted h.2 raising effect⟩)
    ⟨start_listed, start_counted⟩ apart hrun
  exact inv.1.sound inv.2

end Runs

/-- A device is added, used by another thread and deleted. -/
theorem add_use_delete_sound :
    ∃ s, run step (start Thread Nat)
      [.get .a 0 true, .step .a, .step .a, .get .b 0 false, .step .b, .step .b,
        .put .a ⟨0, 0⟩, .step .a, .put .b ⟨0, 0⟩, .step .b, .step .b, .step .b] = some s ∧
      s.freed = [⟨0, 0⟩] ∧ s.Sound :=
  ⟨_, rfl, rfl, @registry_sound Thread Nat _ _ _
    [.get .a 0 true, .step .a, .step .a, .get .b 0 false, .step .b, .step .b, .put .a ⟨0, 0⟩,
      .step .a, .put .b ⟨0, 0⟩, .step .b, .step .b, .step .b] _ (by decide) rfl⟩

/-- Two threads that add one device list two instances of it. A get between the last put and
`list_del`, or a last put between the lookup and the increment of a get, raises a count from 0, and
the put that follows frees the instance a second time. -/
theorem overlaps_break_registry :
    (∃ s, run step (start Thread Nat)
      [.get .a 0 true, .get .b 0 true, .step .a, .step .a, .step .b, .step .b] = some s ∧
      s.list = [⟨0, 1⟩, ⟨0, 0⟩] ∧ s.refcnt ⟨0, 0⟩ = 1 ∧ s.refcnt ⟨0, 1⟩ = 1 ∧ ¬ s.Sound) ∧
    (∃ s, run step (start Thread Nat)
      [.get .a 0 true, .step .a, .step .a, .put .a ⟨0, 0⟩, .step .a, .get .b 0 false, .step .b,
        .step .b] = some s ∧
      s.died = [⟨0, 0⟩] ∧ s.holders = [⟨0, 0⟩] ∧ s.refcnt ⟨0, 0⟩ = 1 ∧ ¬ s.Sound) ∧
    (∃ s, run step (start Thread Nat)
      [.get .a 0 true, .step .a, .step .a, .get .b 0 false, .put .a ⟨0, 0⟩, .step .a, .step .a,
        .step .a, .step .b, .step .b, .put .b ⟨0, 0⟩, .step .b, .step .b, .step .b] = some s ∧
      s.freed = [⟨0, 0⟩, ⟨0, 0⟩] ∧ ¬ s.Sound) := by
  refine ⟨⟨_, rfl, rfl, rfl, rfl, fun sound => ?_⟩, ⟨_, rfl, rfl, rfl, rfl, fun sound => ?_⟩,
    ⟨_, rfl, rfl, fun sound => ?_⟩⟩
  · exact absurd (sound.unique ⟨0, 1⟩ (by decide) ⟨0, 0⟩ (by decide) (by decide) (by decide) rfl)
      (by decide)
  · exact absurd (sound.not_raised ⟨0, 0⟩ (by decide)) (by decide)
  · exact absurd (sound.freed_once ⟨0, 0⟩ (by decide)) (by decide)

end Unvmed.CtrlList
