import Unvmed.Lib.Run
import Unvmed.Lib.Tally
import Unvmed.Basic

/-!
The namespace list of a controller (`u->ns_list`, `u->nr_ns` in `lib/libunvmed.c`).

`unvmed_init_ns` looks a namespace up in one section of `ns_list_lock` and adds it in another one,
and counts it in `u->nr_ns` after the second. `unvmed_get_nslist` sizes its array by `u->nr_ns`
before it takes the lock and checks its loop against `u->nr_ns` again. A section of the lock is one
step here, and so is every access to `u->nr_ns` outside the lock.

The reference of the creation stays with the list: it is put when the controller is freed.

* `nslist_sound`: in every run without three kinds of overlap (`Apart`) a namespace is listed once,
  and `unvmed_get_nslist` neither fails its assertion nor writes behind its array.
* `overlaps_break_nslist`: each kind of overlap breaks one of these.
-/

namespace Unvmed.Namespaces

open Lib

/-- A `struct __unvme_ns`. The serial number tells two instances of one id apart. -/
structure Ns where
  nsid : Nat
  serial : Nat
  deriving DecidableEq, Repr

/-- How the loop of `unvmed_get_nslist` goes wrong. -/
inductive Fault where
  /-- `assert(nr_ns < u->nr_ns)` -/
  | assertion
  /-- The `memcpy` is behind the array. -/
  | overrun
  deriving DecidableEq, Repr

/-- The loop of `unvmed_get_nslist`, with `cap` entries in the array. -/
def copyList (nrNs cap : Nat) : List Ns → Nat → Except Fault Nat
  | [], n => .ok n
  | _ :: rest, n =>
      if nrNs ≤ n then .error .assertion
      else if cap ≤ n then .error .overrun
      else copyList nrNs cap rest (n + 1)

/-- Where a thread is. -/
inductive Pc where
  | idle
  /-- `unvmed_init_ns` found the namespace; next is the section of `unvmed_ns_put`. -/
  | drop (x : Ns)
  /-- `unvmed_init_ns` found nothing; next are `zmalloc` and the section with `list_add_tail`. -/
  | add (nsid : Nat)
  /-- Next is `u->nr_ns++`. -/
  | count
  /-- `unvmed_get_nslist` saw `u->nr_ns` other than 0; next is `calloc`. -/
  | size
  /-- The array has `cap` entries; next is the section with the loop. -/
  | walk (cap : Nat)
  deriving DecidableEq, Repr

structure State (ι : Type) where
  list : List Ns
  nrNs : Nat
  refcnt : Ns → Nat
  /-- How many instances were made for the id so far. -/
  next : Nat → Nat
  holders : List Ns
  fault : Option Fault
  pcs : ι → Pc

inductive Act (ι : Type) where
  /-- The lookup of `unvmed_init_ns`. -/
  | init (t : ι) (nsid : Nat)
  /-- `unvmed_ns_get` -/
  | get (t : ι) (nsid : Nat)
  /-- `unvmed_ns_put` -/
  | put (t : ι) (x : Ns)
  /-- The first read of `unvmed_get_nslist`. -/
  | nslist (t : ι)
  /-- `zmalloc` or `calloc` fails. -/
  | fail (t : ι)
  | step (t : ι)
  deriving Repr

section Step

variable {ι : Type}

/-- `__unvmed_find_and_get_ns` with `get`. -/
def State.findAndGet (s : State ι) (nsid : Nat) : Option (Ns × State ι) :=
  (s.list.find? (·.nsid = nsid)).map fun x =>
    (x, { s with refcnt := Function.update s.refcnt x (s.refcnt x + 1) })

/-- `__unvmed_ns_put` -/
def State.nsPut (s : State ι) (x : Ns) : State ι :=
  if s.refcnt x = 1 then
    { s with refcnt := Function.update s.refcnt x 0, list := s.list.erase x }
  else { s with refcnt := Function.update s.refcnt x (s.refcnt x - 1) }

/-- `list_add_tail` of a new instance, with its reference. -/
def State.addTail (s : State ι) (nsid : Nat) : State ι :=
  let x : Ns := ⟨nsid, s.next nsid⟩
  { s with
    list := s.list ++ [x]
    refcnt := Function.update s.refcnt x 1
    next := Function.update s.next nsid (s.next nsid + 1) }

variable [DecidableEq ι]

def State.goto (s : State ι) (t : ι) (pc : Pc) : State ι :=
  { s with pcs := Function.update s.pcs t pc }

/-- The next step of a thread inside a function. -/
def State.advance (s : State ι) (t : ι) : Pc → Option (State ι)
  | .idle => none
  | .drop x => some ((s.nsPut x).goto t .idle)
  | .add nsid => some ((s.addTail nsid).goto t .count)
  | .count => some ({ s with nrNs := s.nrNs + 1 }.goto t .idle)
  | .size => some (s.goto t (.walk s.nrNs))
  | .walk cap => match copyList s.nrNs cap s.list 0 with
      | .ok _ => some (s.goto t .idle)
      | .error fault => some ({ s with fault := some fault }.goto t .idle)

def step (s : State ι) : Act ι → Option (State ι)
  | .init t nsid =>
      if s.pcs t ≠ .idle then none
      else match s.findAndGet nsid with
        | none => some (s.goto t (.add nsid))
        | some (x, s) => some (s.goto t (.drop x))
  | .get t nsid =>
      if s.pcs t ≠ .idle then none
      else match s.findAndGet nsid with
        | none => some s
        | some (x, s) => some { s with holders := x :: s.holders }
  | .put t x =>
      if s.pcs t = .idle ∧ x ∈ s.holders then
        some { s.nsPut x with holders := s.holders.erase x }
      else none
  | .nslist t =>
      if s.pcs t ≠ .idle then none else if s.nrNs = 0 then some s else some (s.goto t .size)
  | .fail t => match s.pcs t with
      | .add _ | .size => some (s.goto t .idle)
      | _ => none
  | .step t => s.advance t (s.pcs t)

/-- No namespace. -/
def start (ι : Type) : State ι where
  list := []
  nrNs := 0
  refcnt _ := 0
  next _ := 0
  holders := []
  fault := none
  pcs _ := .idle

end Step

/-! ### Overlaps -/

section Guard

variable {ι : Type}

/-- `unvmed_get_nslist` has its array and not yet the lock. -/
def Pc.walks : Pc → Bool
  | .walk _ => true
  | _ => false

/-- A namespace is listed once, and no loop of `unvmed_get_nslist` went wrong. -/
structure State.Sound (s : State ι) : Prop where
  unique : (s.list.map Ns.nsid).Nodup
  fault : s.fault = none

/-- The overlaps of two threads that the lock does not keep apart: an addition while another
`unvmed_init_ns` has looked the same id up and not found it, an addition while an
`unvmed_get_nslist` has its array and not yet the lock, and the `calloc` of an
`unvmed_get_nslist` while a namespace is listed and not counted. -/
def Apart (s : State ι) : Act ι → Prop
  | .step t => match s.pcs t with
      | .add nsid => ∀ t', (t' ≠ t → s.pcs t' ≠ .add nsid) ∧ (s.pcs t').walks = false
      | .size => ∀ t', s.pcs t' ≠ .count
      | _ => True
  | .init _ _ | .get _ _ | .put _ _ | .nslist _ | .fail _ => True

instance [Fintype ι] [DecidableEq ι] (s : State ι) (a : Act ι) : Decidable (Apart s a) := by
  unfold Apart
  split
  · split <;> infer_instance
  all_goals infer_instance

end Guard

/-! ### The list and its count -/

/-- The loop ends where the list is no longer than the count and the array. -/
theorem copyList_ok {nrNs cap n : Nat} {list : List Ns} (counted : n + list.length ≤ nrNs)
    (room : n + list.length ≤ cap) : copyList nrNs cap list n = .ok (n + list.length) := by
  induction list generalizing n with
  | nil => rfl
  | cons x rest ih =>
      rw [List.length_cons] at counted room
      have more : copyList nrNs cap rest (n + 1) = .ok (n + 1 + rest.length) :=
        ih (by omega) (by omega)
      rw [copyList, if_neg (by omega), if_neg (by omega), more, List.length_cons]
      congr 1
      omega

section Inv

variable {ι : Type} [Fintype ι]

/-- 1 for a thread that has listed a namespace and not counted it. -/
def Pc.uncounted : Pc → Nat
  | .count => 1
  | _ => 0

/-- What a thread relies on. -/
def Pc.Ok (list : List Ns) (nrNs : Nat) : Pc → Prop
  | .add nsid => ∀ x ∈ list, x.nsid ≠ nsid
  | .walk cap => list.length ≤ cap ∧ cap ≤ nrNs
  | .idle | .drop _ | .count | .size => True

/-- What holds while no two threads overlap. -/
structure State.Inv (s : State ι) : Prop where
  unique : (s.list.map Ns.nsid).Nodup
  counted : s.list.length ≤ s.nrNs + tally Pc.uncounted s.pcs
  threads : ∀ t, (s.pcs t).Ok s.list s.nrNs
  fault : s.fault = none

theorem start_inv : (start ι).Inv :=
  ⟨List.nodup_nil, Nat.zero_le _, fun _ => trivial, rfl⟩

omit [Fintype ι] in
/-- A shorter list and a larger count do no harm to a thread. -/
theorem Pc.Ok.mono {pc : Pc} {list list' : List Ns} {nrNs nrNs' : Nat} (h : pc.Ok list nrNs)
    (sub : list'.Sublist list) (le : nrNs ≤ nrNs') : pc.Ok list' nrNs' := by
  cases pc with
  | add nsid => exact fun x mem => h x (sub.subset mem)
  | walk cap => exact ⟨sub.length_le.trans h.1, h.2.trans le⟩
  | idle => trivial
  | drop x => trivial
  | count => trivial
  | size => trivial

/-- The list does not care who holds references. -/
theorem State.Inv.refs {s : State ι} (h : s.Inv) (refcnt : Ns → Nat) (holders : List Ns) :
    { s with refcnt := refcnt, holders := holders }.Inv := ⟨h.unique, h.counted, h.threads, h.fault⟩

theorem State.Inv.findAndGet {s s' : State ι} (h : s.Inv) {nsid : Nat} {x : Ns}
    (found : s.findAndGet nsid = some (x, s')) : s'.Inv ∧ s'.pcs = s.pcs := by
  obtain ⟨y, -, same⟩ := Option.map_eq_some_iff.mp found
  cases same
  exact ⟨h.refs _ _, rfl⟩

theorem State.Inv.nsPut {s : State ι} (h : s.Inv) (x : Ns) : (s.nsPut x).Inv := by
  unfold State.nsPut
  split
  · have sub := List.erase_sublist (a := x) (l := s.list)
    exact ⟨h.unique.sublist (sub.map _), sub.length_le.trans h.counted,
      fun t => (h.threads t).mono sub le_rfl, h.fault⟩
  · exact h.refs _ _

variable [DecidableEq ι]

omit [Fintype ι] in
/-- A thread moves; the others rely on what they did. -/
theorem threads_goto {s : State ι} {t : ι} {pc : Pc} {list : List Ns} {nrNs : Nat}
    (own : pc.Ok list nrNs) (others : ∀ u, u ≠ t → (s.pcs u).Ok list nrNs) (u : ι) :
    (Function.update s.pcs t pc u).Ok list nrNs := by
  by_cases mine : u = t
  · subst mine
    rw [Function.update_self]
    exact own
  · rw [Function.update_of_ne mine]
    exact others u mine

/-- A thread moves, and neither was nor is about to count a namespace. -/
theorem State.Inv.goto {s : State ι} (h : s.Inv) {t : ι} {pc : Pc} (old : (s.pcs t).uncounted = 0)
    (new : pc.uncounted = 0) (ok : pc.Ok s.list s.nrNs) : (s.goto t pc).Inv := by
  refine ⟨h.unique, ?_, threads_goto ok fun u _ => h.threads u, h.fault⟩
  have moved := tally_update Pc.uncounted s.pcs t pc
  have before := h.counted
  simp only [State.goto]
  omega

/-- An id that is not listed is added, and nobody else relies on that. -/
theorem State.Inv.addTail {s : State ι} (h : s.Inv) {t : ι} {nsid : Nat}
    (at_ : s.pcs t = .add nsid)
    (apart : ∀ t', (t' ≠ t → s.pcs t' ≠ .add nsid) ∧ (s.pcs t').walks = false) :
    ((s.addTail nsid).goto t .count).Inv := by
  have unlisted : ∀ x ∈ s.list, x.nsid ≠ nsid := by
    have ok := h.threads t
    rw [at_] at ok
    exact ok
  refine ⟨?_, ?_, threads_goto trivial fun u other => ?_, h.fault⟩
  · have absent : nsid ∉ s.list.map Ns.nsid := by
      intro mem
      obtain ⟨x, listed, same⟩ := List.mem_map.mp mem
      exact unlisted x listed same
    simp only [State.goto, State.addTail, List.map_append, List.map_cons, List.map_nil]
    exact List.nodup_append.mpr ⟨h.unique, List.nodup_singleton _, by
      rintro a mem b single rfl
      exact absent (List.mem_singleton.mp single ▸ mem)⟩
  · have moved := tally_update Pc.uncounted s.pcs t .count
    have before := h.counted
    simp only [State.goto, State.addTail, List.length_append, List.length_singleton, at_,
      Pc.uncounted] at *
    omega
  · have ok := h.threads u
    obtain ⟨alone, waits⟩ := apart u
    simp only [State.addTail]
    cases hpc : s.pcs u with
    | add other' =>
        rw [hpc] at ok
        intro x mem
        rcases List.mem_append.mp mem with old | new
        · exact ok x old
        · rw [List.mem_singleton.mp new]
          rintro rfl
          exact alone other hpc
    | walk cap =>
        rw [hpc] at waits
        cases waits
    | idle => trivial
    | drop x => trivial
    | count => trivial
    | size => trivial

/-- **Step lemma.** -/
theorem step_inv (s : State ι) (a : Act ι) (s' : State ι) (h : s.Inv) (apart : Apart s a)
    (hstep : step s a = some s') : s'.Inv := by
  cases a with
  | init t nsid =>
      simp only [step] at hstep
      split at hstep
      · cases hstep
      · rename_i idle
        have idle := not_not.mp idle
        split at hstep
        · rename_i missing
          cases hstep
          have unlisted : ∀ x ∈ s.list, x.nsid ≠ nsid := by
            simpa [State.findAndGet] using missing
          exact h.goto (by rw [idle]; rfl) rfl unlisted
        · rename_i x s₁ found
          cases hstep
          obtain ⟨h₁, same⟩ := h.findAndGet found
          exact h₁.goto (by rw [same, idle]; rfl) rfl trivial
  | get t nsid =>
      simp only [step] at hstep
      split at hstep
      · cases hstep
      · split at hstep
        · cases hstep
          exact h
        · rename_i x s₁ found
          cases hstep
          exact (h.findAndGet found).1.refs _ _
  | put t x =>
      simp only [step] at hstep
      split at hstep <;> cases hstep
      exact (h.nsPut x).refs _ _
  | nslist t =>
      simp only [step] at hstep
      split at hstep
      · cases hstep
      · rename_i idle
        have idle := not_not.mp idle
        split at hstep <;> cases hstep
        · exact h
        · exact h.goto (by rw [idle]; rfl) rfl trivial
  | fail t =>
      simp only [step] at hstep
      split at hstep <;> cases hstep
      · rename_i at_
        exact h.goto (by rw [at_]; rfl) rfl trivial
      · rename_i at_
        exact h.goto (by rw [at_]; rfl) rfl trivial
  | step t =>
      cases hpc : s.pcs t with
      | idle => simp [step, State.advance, hpc] at hstep
      | drop x =>
          simp only [step, State.advance, hpc, Option.some.injEq] at hstep
          subst hstep
          have same : (s.nsPut x).pcs t = .drop x := by
            unfold State.nsPut
            split <;> exact hpc
          exact (h.nsPut x).goto (by rw [same]; rfl) rfl trivial
      | add nsid =>
          simp only [step, State.advance, hpc, Option.some.injEq] at hstep
          subst hstep
          simp only [Apart, hpc] at apart
          exact h.addTail hpc apart
      | count =>
          simp only [step, State.advance, hpc, Option.some.injEq] at hstep
          subst hstep
          have moved := tally_update Pc.uncounted s.pcs t .idle
          have before := h.counted
          refine ⟨h.unique, ?_, threads_goto trivial fun u _ => ?_, h.fault⟩
          · simp only [State.goto, hpc, Pc.uncounted] at *
            omega
          · exact (h.threads u).mono (List.Sublist.refl _) (Nat.le_succ _)
      | size =>
          simp only [step, State.advance, hpc, Option.some.injEq] at hstep
          subst hstep
          simp only [Apart, hpc] at apart
          -- Everything listed is counted.
          have none : tally Pc.uncounted s.pcs = 0 := tally_eq_zero fun u => by
            cases at_ : s.pcs u with
            | count => exact absurd at_ (apart u)
            | idle => rfl
            | drop x => rfl
            | add nsid => rfl
            | size => rfl
            | walk cap => rfl
          have listed := h.counted
          rw [none] at listed
          exact h.goto (by rw [hpc]; rfl) rfl ⟨listed, le_rfl⟩
      | walk cap =>
          obtain ⟨room, counted⟩ : s.list.length ≤ cap ∧ cap ≤ s.nrNs := by
            have ok := h.threads t
            rw [hpc] at ok
            exact ok
          have copied : copyList s.nrNs cap s.list 0 = .ok (0 + s.list.length) :=
            copyList_ok (by omega) (by omega)
          simp only [step, State.advance, hpc, copied, Option.some.injEq] at hstep
          subst hstep
          exact h.goto (by rw [hpc]; rfl) rfl trivial

/-- **Namespace list.** In every run without an overlap, a namespace is listed once, and no
`unvmed_get_nslist` fails its assertion or writes behind its array. -/
theorem nslist_sound {as : List (Act ι)} {s : State ι} (apart : Guarded step Apart (start ι) as)
    (hrun : run step (start ι) as = some s) : s.Sound := by
  have inv := run_inv step_inv start_inv apart hrun
  exact ⟨inv.unique, inv.fault⟩

end Inv

/-- Two namespaces are added, one of them twice, and listed. -/
theorem two_namespaces_listed :
    ∃ s, run step (start Thread) [.init .a 1, .step .a, .step .a, .init .b 2, .step .b, .step .b,
        .init .a 2, .step .a, .nslist .b, .step .b, .step .b] = some s ∧
      s.list = [⟨1, 0⟩, ⟨2, 0⟩] ∧ s.Sound :=
  ⟨_, rfl, rfl, @nslist_sound Thread _ _
    [.init .a 1, .step .a, .step .a, .init .b 2, .step .b, .step .b, .init .a 2, .step .a,
      .nslist .b, .step .b, .step .b] _ (by decide) rfl⟩

/-- Two threads that add one namespace list it twice. A namespace that is listed and not counted
fails the assertion, and one that is added behind the `calloc` is written behind the array. -/
theorem overlaps_break_nslist :
    (∃ s, run step (start Thread) [.init .a 1, .init .b 1, .step .a, .step .b] = some s ∧
      s.list = [⟨1, 0⟩, ⟨1, 1⟩] ∧ ¬ s.Sound) ∧
    (∃ s, run step (start Thread) [.init .a 1, .step .a, .step .a, .init .b 2, .step .b,
        .nslist .a, .step .a, .step .a] = some s ∧
      s.fault = some .assertion ∧ ¬ s.Sound) ∧
    (∃ s, run step (start Thread) [.init .a 1, .step .a, .step .a, .nslist .a, .step .a,
        .init .b 2, .step .b, .step .b, .step .a] = some s ∧
      s.fault = some .overrun ∧ ¬ s.Sound) := by
  refine ⟨⟨_, rfl, rfl, fun sound => ?_⟩, ⟨_, rfl, rfl, fun sound => ?_⟩,
    ⟨_, rfl, rfl, fun sound => ?_⟩⟩
  · exact absurd sound.unique (by decide)
  · exact absurd sound.fault (by decide)
  · exact absurd sound.fault (by decide)

end Unvmed.Namespaces
