import Unvmed.Lib.Layout
import Unvmed.Lib.Run

/-!
Memory of fio jobs in the controller memory buffer (`src/app/fio/libunvmed-engine.c`).

One pointer, `__cmb_ptr`, serves all jobs and all controllers of the process. The first allocation
puts it at the start of the CMB of its controller, each allocation moves it on, and the end of any
job with its data in the CMB forgets it.

* `cmb_good_iff`: the allocations are right exactly as long as each finds the pointer in its own
  CMB, with nothing live behind it.
* `good_of_quiet`: jobs that wait for each other are safe.
* `cmb_shared_overlaps`: jobs that share the pointer get each other's memory.
-/

namespace Unvmed.Cmb

open Lib

/-! ### The calls -/

/-- The CMB of a controller and the page size; `size` is 0 without a CMB. -/
structure Region where
  base : ℕ
  size : ℕ
  /-- `unvmed_pagesize` -/
  page : ℕ
  mapped : 0 < base
  /-- The addresses of a process, and a page, are in the lower half. -/
  low : base + size ≤ 2 ^ 63
  page_pos : 0 < page
  page_low : page ≤ 2 ^ 63
  page_dvd : page ∣ 2 ^ 64

/-- Memory that a job has got. -/
structure Alloc (J : Type*) where
  job : J
  start : ℕ
  len : ℕ
  deriving DecidableEq, Repr

structure State (J : Type*) where
  /-- `__cmb_ptr`, 0 for `NULL` -/
  ptr : ℕ
  live : List (Alloc J)
  deriving DecidableEq

/-- Where the next allocation starts. -/
def Region.next (r : Region) (ptr : ℕ) : ℕ := if ptr = 0 then r.base else ptr

/-- The check of `libunvmed_cmb_alloc`. -/
def Region.accepts (r : Region) (ptr len : ℕ) : Prop :=
  r.size ≠ 0 ∧ (r.next ptr + roundUpWord r.page len) % 2 ^ 64 ≤ r.base + r.size

instance (r : Region) (ptr len : ℕ) : Decidable (r.accepts ptr len) :=
  inferInstanceAs (Decidable (_ ∧ _))

/-- `libunvmed_cmb_alloc`: the memory, and `__cmb_ptr`. -/
def cmbAlloc (r : Region) (len ptr : ℕ) : Option ℕ × ℕ :=
  if r.size = 0 then (none, ptr)
  else
    let ptr := r.next ptr
    let moved := (ptr + roundUpWord r.page len) % 2 ^ 64
    if r.base + r.size < moved then (none, ptr) else (some ptr, moved)

inductive Action (J : Type*) where
  /-- `libunvmed_cmb_alloc`, for the data or for the PRP lists. -/
  | alloc (j : J) (len : ℕ)
  /-- `fio_libunvmed_iomem_free` -/
  | iomemFree (j : J)
  deriving DecidableEq, Repr

variable {J : Type*} [DecidableEq J]

/-- The calls of the jobs, each on its controller; `cmbData` is `o->cmb_data`. -/
def step (dev : J → Region) (cmbData : J → Bool) (s : State J) : Action J → Option (State J)
  | .alloc j len =>
      let r := cmbAlloc (dev j) len s.ptr
      match r.1 with
      | none => some { s with ptr := r.2 }
      | some start => some { ptr := r.2, live := ⟨j, start, len⟩ :: s.live }
  | .iomemFree j =>
      some
        { ptr := if cmbData j then 0 else s.ptr
          live := s.live.filter fun a => a.job ≠ j }

/-! ### What is right -/

def Alloc.bytes (a : Alloc J) : Finset ℕ := Lib.bytes a.start a.len

/-- The live allocations are in the CMB of their own controller and do not overlap. -/
structure Good (dev : J → Region) (s : State J) : Prop where
  inside : ∀ a ∈ s.live, a.bytes ⊆ Lib.bytes (dev a.job).base (dev a.job).size
  apart : s.live.Pairwise fun a b => Disjoint a.bytes b.bytes

/-- The condition of a call: an allocation that is accepted starts in its own CMB, does not wrap,
and nothing that is live is behind the pointer. -/
def Meets (dev : J → Region) (s : State J) : Action J → Prop
  | .alloc j len =>
      (dev j).accepts s.ptr len → len = 0 ∨
        (dev j).base ≤ (dev j).next s.ptr ∧
          (dev j).next s.ptr + roundUp (dev j).page len < 2 ^ 64 ∧
          ∀ a ∈ s.live, Disjoint (Lib.bytes ((dev j).next s.ptr) len) a.bytes
  | .iomemFree _ => True

section Allocation

variable {r : Region} {ptr len : ℕ}

theorem cmbAlloc_of_accepts (h : r.accepts ptr len) :
    cmbAlloc r len ptr =
      (some (r.next ptr), (r.next ptr + roundUpWord r.page len) % 2 ^ 64) := by
  simp only [cmbAlloc, if_neg h.1, if_neg (not_lt.mpr h.2)]

/-- Also an allocation that fails sets the pointer. -/
theorem cmbAlloc_of_refused (h : ¬ r.accepts ptr len) :
    (cmbAlloc r len ptr).1 = none ∧
      ((cmbAlloc r len ptr).2 = ptr ∨ (cmbAlloc r len ptr).2 = r.next ptr) := by
  unfold cmbAlloc
  split
  case isTrue => exact ⟨rfl, .inl rfl⟩
  case isFalse there =>
    have past : r.base + r.size < (r.next ptr + roundUpWord r.page len) % 2 ^ 64 := by
      by_contra fits
      exact h ⟨there, not_lt.mp fits⟩
    simp only [if_pos past]
    exact ⟨trivial, .inr trivial⟩

/-- What is handed out is in the CMB exactly if it starts there and nothing wraps. -/
theorem inside_iff (h : r.accepts ptr len) :
    Lib.bytes (r.next ptr) len ⊆ Lib.bytes r.base r.size ↔
      len = 0 ∨ r.base ≤ r.next ptr ∧ r.next ptr + roundUp r.page len < 2 ^ 64 := by
  constructor
  · intro inside
    rcases Nat.eq_zero_or_pos len with zero | pos
    · exact .inl zero
    · have first := mem_bytes.mp (inside (mem_bytes.mpr ⟨le_rfl, Nat.lt_add_of_pos_right pos⟩))
      have last : r.next ptr + len - 1 ∈ Lib.bytes (r.next ptr) len := mem_bytes.mpr (by omega)
      have last := mem_bytes.mp (inside last)
      have rounded := roundUp_lt_add (x := len) r.page_pos
      have low := r.low
      have page := r.page_low
      exact .inr ⟨first.1, by omega⟩
  · rintro (rfl | ⟨above, noWrap⟩)
    · intro x mem
      rw [mem_bytes] at mem
      omega
    · have fits := h.2
      rw [roundUpWord_eq r.page_pos r.page_dvd (by omega), Nat.mod_eq_of_lt noWrap] at fits
      have rounded := le_roundUp (x := len) r.page_pos
      intro x mem
      rw [mem_bytes] at mem ⊢
      omega

end Allocation

/-! ### Runs -/

section Runs

variable {dev : J → Region} {cmbData : J → Bool} {s s' : State J}

omit [DecidableEq J] in
/-- What an accepted allocation adds. -/
theorem good_cons_iff {j : J} {ptr start len : ℕ} (good : Good dev s) :
    Good dev { ptr, live := ⟨j, start, len⟩ :: s.live } ↔
      Lib.bytes start len ⊆ Lib.bytes (dev j).base (dev j).size ∧
        ∀ a ∈ s.live, Disjoint (Lib.bytes start len) a.bytes := by
  constructor
  · intro h
    exact ⟨h.inside ⟨j, start, len⟩ List.mem_cons_self, (List.pairwise_cons.mp h.apart).1⟩
  · rintro ⟨inside, apart⟩
    constructor
    · intro a mem
      rcases List.mem_cons.mp mem with rfl | old
      · exact inside
      · exact good.inside a old
    · exact List.pairwise_cons.mpr ⟨apart, good.apart⟩

/-- One call: it keeps the allocations right exactly if it meets its condition. -/
theorem step_good_iff {a : Action J} (good : Good dev s)
    (hstep : step dev cmbData s a = some s') : Good dev s' ↔ Meets dev s a := by
  cases a with
  | alloc j len =>
      by_cases accepts : (dev j).accepts s.ptr len
      · simp only [step, cmbAlloc_of_accepts accepts] at hstep
        cases hstep
        rw [good_cons_iff good, inside_iff accepts, Meets]
        constructor
        · rintro ⟨zero | ⟨above, noWrap⟩, apart⟩ -
          · exact .inl zero
          · exact .inr ⟨above, noWrap, apart⟩
        · intro met
          rcases met accepts with rfl | ⟨above, noWrap, apart⟩
          · refine ⟨.inl rfl, fun a _ => ?_⟩
            have empty : Lib.bytes ((dev j).next s.ptr) 0 = ∅ := Finset.Ico_self _
            rw [empty]
            exact Finset.disjoint_empty_left _
          · exact ⟨.inr ⟨above, noWrap⟩, apart⟩
      · simp only [step, (cmbAlloc_of_refused accepts).1] at hstep
        cases hstep
        exact ⟨fun _ yes => absurd yes accepts, fun _ => ⟨good.inside, good.apart⟩⟩
  | iomemFree j =>
      cases hstep
      refine ⟨fun _ => trivial, fun _ => ⟨fun a mem => ?_, good.apart.filter _⟩⟩
      exact good.inside a (List.mem_filter.mp mem).1

/-- **The CMB of fio jobs.** In a run from the start of the process, every allocation that is live
is in the CMB of its own controller and apart from the others, in every state, if and only if each
call meets its condition. -/
theorem cmb_good_iff (dev : J → Region) (cmbData : J → Bool) (as : List (Action J)) :
    Guarded (step dev cmbData) (Meets dev) ⟨0, []⟩ as ↔
      ∀ bs t, bs <+: as → run (step dev cmbData) ⟨0, []⟩ bs = some t → Good dev t := by
  have start : Good dev ⟨0, []⟩ := ⟨fun _ mem => absurd mem List.not_mem_nil, .nil⟩
  refine guarded_iff (fun _ h => h) ?_ ?_ ?_ start
  · exact fun s a s' good met hstep => (step_good_iff good hstep).mpr met
  · exact fun s a s' good hstep good' => (step_good_iff good hstep).mp good'
  · intro s a blocked
    cases a with
    | alloc j len =>
        simp only [step] at blocked
        split at blocked <;> cases blocked
    | iomemFree j => cases blocked

/-- Jobs on one controller that wait for each other: no allocation wraps, and a job with its data in
the CMB ends when it is the only one there. -/
def Quiet (r : Region) (cmbData : J → Bool) (s : State J) : Action J → Prop
  | .alloc _ len => r.next s.ptr + roundUp r.page len < 2 ^ 64
  | .iomemFree j => cmbData j = true → ∀ a ∈ s.live, a.job = j

/-- Everything live is before the pointer. -/
structure Behind (r : Region) (s : State J) : Prop where
  good : Good (fun _ => r) s
  unset : s.ptr = 0 → s.live = []
  above : s.ptr ≠ 0 → r.base ≤ s.ptr
  before : ∀ a ∈ s.live, a.start + a.len ≤ s.ptr

theorem step_behind {r : Region} {a : Action J} (h : Behind r s) (quiet : Quiet r cmbData s a)
    (hstep : step (fun _ => r) cmbData s a = some s') : Behind r s' := by
  have mapped := r.mapped
  cases a with
  | alloc j len =>
      have noWrap : r.next s.ptr + roundUp r.page len < 2 ^ 64 := quiet
      have room := le_roundUp (x := len) r.page_pos
      have next : r.base ≤ r.next s.ptr ∧ ∀ a ∈ s.live, a.start + a.len ≤ r.next s.ptr := by
        unfold Region.next
        split
        case isTrue unset =>
          rw [h.unset unset]
          exact ⟨le_rfl, fun a mem => absurd mem List.not_mem_nil⟩
        case isFalse set => exact ⟨h.above set, h.before⟩
      have good : Good (fun _ => r) s' := by
        refine (step_good_iff h.good hstep).mpr fun _ => .inr ⟨next.1, noWrap, fun a mem => ?_⟩
        exact bytes_disjoint (.inr (next.2 a mem))
      by_cases accepts : r.accepts s.ptr len
      · simp only [step, cmbAlloc_of_accepts accepts] at hstep
        cases hstep
        rw [roundUpWord_eq r.page_pos r.page_dvd (by omega), Nat.mod_eq_of_lt noWrap] at good ⊢
        refine ⟨good, fun zero => ?_, fun _ => ?_, fun a mem => ?_⟩
        · simp only at zero
          omega
        · simp only
          omega
        · rcases List.mem_cons.mp mem with rfl | old
          · simp only
            omega
          · have earlier := next.2 a old
            simp only
            omega
      · obtain ⟨refused, ptr⟩ := cmbAlloc_of_refused accepts
        simp only [step, refused] at hstep
        cases hstep
        rcases ptr with same | set
        · rw [same]
          exact h
        · rw [set] at good ⊢
          refine ⟨good, fun zero => ?_, fun _ => next.1, next.2⟩
          simp only at zero
          omega
  | iomemFree j =>
      have good : Good (fun _ => r) s' := (step_good_iff h.good hstep).mpr trivial
      cases hstep
      cases data : cmbData j with
      | true =>
          have none : s.live.filter (fun a => a.job ≠ j) = [] := by
            rw [List.filter_eq_nil_iff]
            intro a mem
            rw [decide_eq_true_eq, not_not]
            exact quiet data a mem
          simp only [data] at good
          refine ⟨good, fun _ => none, fun set => absurd rfl set, fun a mem => ?_⟩
          simp only [none] at mem
          exact absurd mem List.not_mem_nil
      | false =>
          simp only [data] at good
          refine ⟨good, fun unset => ?_, h.above, fun a mem => ?_⟩
          · simp only [h.unset unset, List.filter_nil]
          · exact h.before a (List.mem_filter.mp mem).1

/-- Jobs that wait for each other get memory of their own. -/
theorem good_of_quiet (r : Region) (cmbData : J → Bool) {as : List (Action J)} {t : State J}
    (quiet : Guarded (step (fun _ => r) cmbData) (Quiet r cmbData) ⟨0, []⟩ as)
    (hrun : run (step (fun _ => r) cmbData) ⟨0, []⟩ as = some t) : Good (fun _ => r) t := by
  have start : Behind r (⟨0, []⟩ : State J) :=
    ⟨⟨fun _ mem => absurd mem List.not_mem_nil, .nil⟩, fun _ => rfl, fun set => absurd rfl set,
      fun _ mem => absurd mem List.not_mem_nil⟩
  exact (run_inv (fun _ _ _ h quiet hstep => step_behind h quiet hstep) start quiet hrun).good

/-- A CMB of four pages. -/
def fourPages (base : ℕ) (mapped : 0 < base) (low : base ≤ 2 ^ 62) : Region where
  base := base
  size := 4 * 4096
  page := 4096
  mapped := mapped
  low := by omega
  page_pos := by decide
  page_low := by decide
  page_dvd := by decide

/-- Job 0 ends, and job 2 gets the memory of job 1. And job 3, on another controller whose CMB is
further up, gets memory in the CMB of the first. -/
theorem cmb_shared_overlaps :
    (run (step (fun _ : ℕ => fourPages 0x10000 (by decide) (by decide)) fun _ => true) ⟨0, []⟩
        [.alloc 0 4096, .alloc 1 4096, .iomemFree 0, .alloc 2 8192] =
      some ⟨0x12000, [⟨2, 0x10000, 8192⟩, ⟨1, 0x11000, 4096⟩]⟩ ∧
      ¬ Good (fun _ : ℕ => fourPages 0x10000 (by decide) (by decide))
        ⟨0x12000, [⟨2, 0x10000, 8192⟩, ⟨1, 0x11000, 4096⟩]⟩) ∧
    run (step (fun j : ℕ => if j = 3 then fourPages 0x20000 (by decide) (by decide)
          else fourPages 0x10000 (by decide) (by decide)) fun _ => true) ⟨0, []⟩
        [.alloc 0 4096, .alloc 3 4096] =
      some ⟨0x12000, [⟨3, 0x11000, 4096⟩, ⟨0, 0x10000, 4096⟩]⟩ := by
  refine ⟨⟨by decide, fun good => ?_⟩, by decide⟩
  have apart := (List.pairwise_cons.mp good.apart).1 ⟨1, 0x11000, 4096⟩ (by decide)
  have left : 0x11000 ∈ Alloc.bytes (⟨2, 0x10000, 8192⟩ : Alloc ℕ) := mem_bytes.mpr (by decide)
  have right : 0x11000 ∈ Alloc.bytes (⟨1, 0x11000, 4096⟩ : Alloc ℕ) := mem_bytes.mpr (by decide)
  exact Finset.disjoint_left.mp apart left right

end Runs

end Unvmed.Cmb
