import Unvmed.Lib.Run
import Unvmed.Basic

/-!
The ring of a VCQ (`lib/libunvmed-vcq.c`).

Any number of producers push under `tail_lock`; one consumer pops without a lock. An
entry is stored and loaded word by word, and each load and store of `head` and `tail`
is a step of its own.

* `vcq_bounded_fifo`: in every state that a run reaches, the popped entries are the
  first of the pushed ones, the full test of a push fails exactly when `qsize - 1`
  entries are pending, and what `unvmed_vcq_run_n` returned is a block of the popped
  entries of an allowed length.
* `runN_step`, `runN_returns`: a call of `unvmed_vcq_run_n` goes on until it returns once,
  and once enough entries are pending it returns.
-/

namespace Unvmed.VcqRing

open Lib

section Model

variable {ι α : Type} {w : Nat}

/-- `struct unvme_vcqe`, as the `w` words that it is stored and loaded by. -/
abbrev Entry (w : Nat) (α : Type) := Fin w → α

/-- Where a producer is in `__unvmed_vcq_push`. -/
inductive Push (w : Nat) (α : Type) where
  | idle
  | lock (e : Entry w α)
  | loadTail (e : Entry w α)
  | loadHead (e : Entry w α) (tail : Nat)
  /-- `k` words of `q->vcqe[tail]` are stored; the store of `q->tail` is the last. -/
  | store (e : Entry w α) (tail k : Nat)
  /-- The unlock before the return of 0, or of `-EAGAIN`. -/
  | unlock (pushed : Bool)

/-- A call of `unvmed_vcq_run_n`: in its first `__unvmed_vcq_run_n`, or in its second
with `nowait`, where `ret` is what the first returned. -/
structure RunN (w : Nat) (α : Type) where
  min : Int
  max : Int
  nowait : Bool := false
  ret : Nat := 0
  nr : Nat := 0
  /-- `vcqes` -/
  out : List (Entry w α) := []

/-- What `unvmed_vcq_run_n` returned. -/
structure Returned (w : Nat) (α : Type) where
  min : Int
  max : Int
  n : Nat
  vcqes : List (Entry w α)

/-- On whose behalf `unvmed_vcq_pop` is called. -/
inductive Caller (w : Nat) (α : Type) where
  | direct
  | runN (c : RunN w α)

/-- Where the consumer is in `unvmed_vcq_pop`. -/
inductive Pop (w : Nat) (α : Type) where
  | idle
  | loadHead (c : Caller w α)
  | loadTail (c : Caller w α) (head : Nat)
  /-- `k` words of `q->vcqe[head]` are loaded; the store of `q->head` is the last. -/
  | load (c : Caller w α) (head k : Nat)

structure State (ι : Type) (w : Nat) (α : Type) where
  vcqe : Nat → Entry w α
  head : Nat
  tail : Nat
  /-- The holder of `tail_lock`. -/
  owner : Option ι
  push : ι → Push w α
  pop : Pop w α
  /-- The consumer's copy, `*vcqe`. -/
  copy : Entry w α
  /-- The entries whose push stored `tail`, oldest first; for the statements only. -/
  pushed : List (Entry w α)
  /-- The entries whose pop stored `head`; for the statements only. -/
  popped : List (Entry w α)
  returned : List (Returned w α)

/-- A VCQ behind `unvmed_vcq_init`: the entries are what `malloc` gave. -/
def State.init (vcqe : Nat → Entry w α) (copy : Entry w α) : State ι w α where
  vcqe := vcqe
  head := 0
  tail := 0
  owner := none
  push _ := .idle
  pop := .idle
  copy := copy
  pushed := []
  popped := []
  returned := []

/-- `uint16_t` -/
def u16 (n : Nat) : Nat := n % 2 ^ 16

/-- The loop of the second `__unvmed_vcq_run_n`, at its condition. -/
def RunN.second (c : RunN w α) : Pop w α × List (Returned w α) :=
  if c.nr < c.max - c.ret then (.loadHead (.runN c), [])
  else (.idle, [⟨c.min, c.max, c.ret + c.nr, c.out⟩])

/-- The loop of the first `__unvmed_vcq_run_n`, at its condition. -/
def RunN.first (c : RunN w α) : Pop w α × List (Returned w α) :=
  if c.nr < c.min then (.loadHead (.runN c), [])
  else if c.nr ≥ c.max then (.idle, [⟨c.min, c.max, c.nr, c.out⟩])
  else { c with nowait := true, ret := c.nr, nr := 0 }.second

/-- What the caller does after `unvmed_vcq_pop` gave an entry, or `-ENOENT`. -/
def Caller.next : Caller w α → Option (Entry w α) → Pop w α × List (Returned w α)
  | .direct, _ => (.idle, [])
  | .runN c, none =>
      if c.nowait then (.idle, [⟨c.min, c.max, c.ret + c.nr, c.out⟩])
      else (.loadHead (.runN c), [])
  | .runN c, some e =>
      let c := { c with nr := c.nr + 1, out := c.out ++ [e] }
      if c.nowait then c.second else c.first

inductive Act (ι : Type) (w : Nat) (α : Type) where
  /-- A call of `__unvmed_vcq_push`. -/
  | pushCall (p : ι) (e : Entry w α)
  /-- The next step of `p` in it. -/
  | push (p : ι)
  /-- A call of `unvmed_vcq_pop`. -/
  | popCall
  /-- A call of `unvmed_vcq_run_n`. -/
  | runNCall (min max : Int)
  /-- The next step of the consumer. -/
  | pop

variable [DecidableEq ι]

def State.setPush (s : State ι w α) (p : ι) (pc : Push w α) : State ι w α :=
  { s with push := Function.update s.push p pc }

/-- The consumer goes on, and may return from `unvmed_vcq_run_n`. -/
def State.setPop (s : State ι w α) (next : Pop w α × List (Returned w α)) : State ι w α :=
  { s with pop := next.1, returned := s.returned ++ next.2 }

/-- `__unvmed_vcq_push` -/
def State.pushStep (qsize : Nat) (s : State ι w α) (p : ι) : Option (State ι w α) :=
  match s.push p with
  | .idle => none
  | .lock e =>
      if s.owner = none then some { s.setPush p (.loadTail e) with owner := some p } else none
  | .loadTail e => some (s.setPush p (.loadHead e s.tail))
  | .loadHead e tail =>
      if (tail + 1) % qsize = s.head then some (s.setPush p (.unlock false))
      else some (s.setPush p (.store e tail 0))
  | .store e tail k =>
      if more : k < w then
        some { s.setPush p (.store e tail (k + 1)) with
          vcqe := Function.update s.vcqe tail
            (Function.update (s.vcqe tail) ⟨k, more⟩ (e ⟨k, more⟩)) }
      else
        some { s.setPush p (.unlock true) with
          tail := u16 ((tail + 1) % qsize), pushed := s.pushed ++ [e] }
  | .unlock _ => some { s.setPush p .idle with owner := none }

/-- `unvmed_vcq_pop`, and the loops of `unvmed_vcq_run_n` around it. -/
def State.popStep (qsize : Nat) (s : State ι w α) : Option (State ι w α) :=
  match s.pop with
  | .idle => none
  | .loadHead c => some (s.setPop (.loadTail c s.head, []))
  | .loadTail c head =>
      if head = s.tail then some (s.setPop (c.next none))
      else some (s.setPop (.load c head 0, []))
  | .load c head k =>
      if more : k < w then
        some { s.setPop (.load c head (k + 1), []) with
          copy := Function.update s.copy ⟨k, more⟩ (s.vcqe head ⟨k, more⟩) }
      else
        some { s.setPop (c.next (some s.copy)) with
          head := u16 ((head + 1) % qsize), popped := s.popped ++ [s.copy] }

def step (qsize : Nat) (s : State ι w α) : Act ι w α → Option (State ι w α)
  | .pushCall p e => match s.push p with
      | .idle => some (s.setPush p (.lock e))
      | _ => none
  | .push p => s.pushStep qsize p
  | .popCall => match s.pop with
      | .idle => some (s.setPop (.loadHead .direct, []))
      | _ => none
  | .runNCall min max => match s.pop with
      | .idle => some (s.setPop (RunN.first ⟨min, max, false, 0, 0, []⟩))
      | _ => none
  | .pop => s.popStep qsize

end Model

/-! ### The invariant -/

section Invariant

variable {ι α : Type} {w n : Nat}

/-- Indices less than one turn apart name one slot only if they are equal. -/
theorem mod_eq_mod_iff {a b : Nat} (le : a ≤ b) (lt : b < a + n) : a % n = b % n ↔ a = b := by
  constructor
  · intro same
    have turns : n ∣ b - a := (Nat.modEq_iff_dvd' le).mp same
    have none := Nat.eq_zero_of_dvd_of_lt turns (by omega)
    omega
  · exact fun same => congrArg (· % n) same

/-- `tail_lock` is held. -/
def Push.Holds : Push w α → Prop
  | .idle | .lock _ => False
  | .loadTail _ | .loadHead _ _ | .store _ _ _ | .unlock _ => True

/-- What a producer relies on where it is. -/
def Push.Ok (n : Nat) (s : State ι w α) : Push w α → Prop
  | .loadHead _ tail => tail = s.tail
  | .store e tail k => tail = s.tail ∧ s.pushed.length + 1 < s.popped.length + n ∧
      ∀ i : Fin w, i.val < k → s.vcqe tail i = e i
  | _ => True

/-- A call of `unvmed_vcq_run_n` that goes on: the entries it has are the last popped
ones, and it does not have enough. -/
structure RunN.Ok (popped : List (Entry w α)) (c : RunN w α) : Prop where
  out : c.out <:+ popped
  count : c.out.length = c.ret + c.nr
  first : c.nowait = false → c.ret = 0 ∧ c.nr < c.min
  second : c.nowait = true → c.min ≤ c.ret ∧ c.ret + c.nr < c.max

def Caller.Ok (popped : List (Entry w α)) : Caller w α → Prop
  | .direct => True
  | .runN c => c.Ok popped

/-- What the consumer relies on where it is. -/
def Pop.Ok (s : State ι w α) : Pop w α → Prop
  | .idle => True
  | .loadHead c => c.Ok s.popped
  | .loadTail c head => c.Ok s.popped ∧ head = s.head
  | .load c head k => c.Ok s.popped ∧ head = s.head ∧ s.popped.length < s.pushed.length ∧
      ∀ i : Fin w, i.val < k → s.copy i = s.vcqe head i

/-- What `unvmed_vcq_run_n` promises: entries in the order they were popped, as many as
it says, and at least `min` and at most `max` of them. -/
structure Returned.Ok (popped : List (Entry w α)) (r : Returned w α) : Prop where
  vcqes : r.vcqes <:+: popped
  count : r.vcqes.length = r.n
  min_le : r.min ≤ r.n
  le_max : r.min ≤ r.max → 0 ≤ r.max → r.n ≤ r.max

structure Inv (n : Nat) (s : State ι w α) : Prop where
  tail : s.tail = s.pushed.length % n
  head : s.head = s.popped.length % n
  popped : s.popped <+: s.pushed
  room : s.pushed.length < s.popped.length + n
  slots : ∀ i e, s.popped.length ≤ i → s.pushed[i]? = some e → s.vcqe (i % n) = e
  owner : ∀ p, (s.push p).Holds → s.owner = some p
  push : ∀ p, (s.push p).Ok n s
  pop : s.pop.Ok s
  returned : ∀ r ∈ s.returned, r.Ok s.popped

section Facts

variable {s : State ι w α}

/-- The full test, with the indices that `head` and `tail` stand for. -/
theorem Inv.full_iff (h : Inv n s) :
    (s.tail + 1) % n = s.head ↔ s.pushed.length + 1 = s.popped.length + n := by
  have le := h.popped.length_le
  have room := h.room
  have turn : (s.popped.length + n) % n = s.popped.length % n := Nat.add_mod_right _ _
  rw [h.tail, h.head, Nat.mod_add_mod, ← turn]
  exact mod_eq_mod_iff (by omega) (by omega)

/-- The empty test. -/
theorem Inv.empty_iff (h : Inv n s) : s.head = s.tail ↔ s.popped.length = s.pushed.length := by
  have le := h.popped.length_le
  have room := h.room
  rw [h.tail, h.head]
  exact mod_eq_mod_iff le room

/-- The slot a push writes is none of the pending ones. -/
theorem Inv.tail_free (h : Inv n s) {i : Nat} (first : s.popped.length ≤ i)
    (last : i < s.pushed.length) : i % n ≠ s.tail := by
  have room := h.room
  rw [h.tail, Ne, mod_eq_mod_iff (by omega) (by omega)]
  omega

/-- The slot a pop reads holds the oldest pending entry. -/
theorem Inv.head_entry (h : Inv n s) (pending : s.popped.length < s.pushed.length) :
    s.pushed[s.popped.length]? = some (s.vcqe s.head) := by
  rw [List.getElem?_eq_getElem pending]
  apply congrArg some
  rw [h.head]
  exact (h.slots _ _ le_rfl (List.getElem?_eq_getElem pending)).symm

theorem Push.ok_of_not_holds {pc : Push w α} (free : ¬pc.Holds) : pc.Ok n s := by
  cases pc with
  | idle | lock _ => trivial
  | loadTail _ | loadHead _ _ | store _ _ _ | unlock _ => exact absurd trivial free

/-- While one producer holds the lock the others do not. -/
theorem Inv.others (h : Inv n s) {p q : ι} (holds : (s.push p).Holds) (other : q ≠ p) :
    ¬(s.push q).Holds := by
  intro held
  have same := (h.owner q held).symm.trans (h.owner p holds)
  exact other (Option.some.inj same)

end Facts

/-! ### The steps of the producers -/

section Producers

variable [DecidableEq ι] {s s' : State ι w α} {p : ι}

/-- A producer goes on without touching the ring. -/
theorem Inv.setPush (h : Inv n s) {pc : Push w α} (holds : pc.Holds → s.owner = some p)
    (ok : pc.Ok n s) : Inv n (s.setPush p pc) where
  tail := h.tail
  head := h.head
  popped := h.popped
  room := h.room
  slots := h.slots
  owner q held := by
    by_cases same : q = p
    · subst same
      exact holds (by simpa [State.setPush] using held)
    · exact h.owner q (by simpa [State.setPush, same] using held)
  push q := by
    by_cases same : q = p
    · subst same
      show Push.Ok n _ (Function.update s.push q pc q)
      rw [Function.update_self]
      exact ok
    · show Push.Ok n _ (Function.update s.push p pc q)
      rw [Function.update_of_ne same]
      exact h.push q
  pop := h.pop
  returned := h.returned

theorem Inv.lock (h : Inv n s) {e : Entry w α} (free : s.owner = none) :
    Inv n { s.setPush p (.loadTail e) with owner := some p } where
  tail := h.tail
  head := h.head
  popped := h.popped
  room := h.room
  slots := h.slots
  owner q held := by
    by_cases same : q = p
    · rw [same]
    · have held : (s.push q).Holds := by simpa [State.setPush, same] using held
      rw [h.owner q held] at free
      cases free
  push q := by
    by_cases same : q = p
    · subst same
      simp [State.setPush, Push.Ok]
    · show Push.Ok n _ (Function.update s.push p (.loadTail e) q)
      rw [Function.update_of_ne same]
      exact h.push q
  pop := h.pop
  returned := h.returned

theorem Inv.unlock (h : Inv n s) (holds : (s.push p).Holds) :
    Inv n { s.setPush p .idle with owner := none } where
  tail := h.tail
  head := h.head
  popped := h.popped
  room := h.room
  slots := h.slots
  owner q held := by
    by_cases same : q = p
    · subst same
      simp [State.setPush, Push.Holds] at held
    · exact absurd (by simpa [State.setPush, same] using held) (h.others holds same)
  push q := by
    by_cases same : q = p
    · subst same
      simp [State.setPush, Push.Ok]
    · show Push.Ok n _ (Function.update s.push p .idle q)
      rw [Function.update_of_ne same]
      exact h.push q
  pop := h.pop
  returned := h.returned

/-- The store of a word: no pending entry and no entry that is being popped changes. -/
theorem Inv.storeWord (h : Inv n s) {e : Entry w α} {tail k : Nat} (more : k < w)
    (pc : s.push p = .store e tail k) :
    Inv n { s.setPush p (.store e tail (k + 1)) with
      vcqe := Function.update s.vcqe tail
        (Function.update (s.vcqe tail) ⟨k, more⟩ (e ⟨k, more⟩)) } := by
  have ok := h.push p
  rw [pc] at ok
  obtain ⟨here, room, written⟩ := ok
  have holds : (s.push p).Holds := by
    rw [pc]
    trivial
  exact {
    tail := h.tail
    head := h.head
    popped := h.popped
    room := h.room
    slots := by
      intro i e' first mem
      have last := (List.getElem?_eq_some_iff.mp mem).1
      have apart := h.tail_free first last
      rw [← here] at apart
      rw [← h.slots i e' first mem]
      exact Function.update_of_ne apart _ _
    owner := by
      intro q held
      by_cases same : q = p
      · rw [same]
        exact h.owner p holds
      · exact h.owner q (by simpa [State.setPush, same] using held)
    push := by
      intro q
      by_cases same : q = p
      · subst same
        simp only [State.setPush, Function.update_self]
        refine ⟨here, room, ?_⟩
        intro i before
        by_cases last : i.val = k
        · have this : i = ⟨k, more⟩ := Fin.ext last
          subst this
          simp
        · have apart : i ≠ ⟨k, more⟩ := fun same => last (congrArg Fin.val same)
          simpa [apart] using written i (by omega)
      · apply Push.ok_of_not_holds
        simpa [State.setPush, same] using h.others holds same
    pop := by
      have ok := h.pop
      simp only [State.setPush]
      cases at_ : s.pop with
      | idle => trivial
      | loadHead c => rwa [at_] at ok
      | loadTail c head => rwa [at_] at ok
      | load c head k' =>
          rw [at_] at ok
          obtain ⟨caller, mine, pending, copied⟩ := ok
          refine ⟨caller, mine, pending, ?_⟩
          intro i before
          have apart : head ≠ tail := by
            rw [mine, here, h.head]
            exact h.tail_free le_rfl pending
          rw [copied i before]
          simp [apart]
    returned := h.returned }

/-- The store of `tail`: the entry is there as a whole. -/
theorem Inv.storeTail (h : Inv n s) (small : n ≤ 2 ^ 16) {e : Entry w α} {tail k : Nat}
    (done : ¬k < w) (pc : s.push p = .store e tail k) :
    Inv n { s.setPush p (.unlock true) with
      tail := u16 ((tail + 1) % n), pushed := s.pushed ++ [e] } := by
  have ok := h.push p
  rw [pc] at ok
  obtain ⟨here, room, written⟩ := ok
  have holds : (s.push p).Holds := by
    rw [pc]
    trivial
  have stored : s.vcqe tail = e := funext fun i => written i (by omega)
  exact {
    tail := by
      have positive : 0 < n := by have := h.room; have := h.popped.length_le; omega
      have fits : (tail + 1) % n < 2 ^ 16 := lt_of_lt_of_le (Nat.mod_lt _ positive) small
      simp only [u16, Nat.mod_eq_of_lt fits, List.length_append, List.length_singleton]
      rw [here, h.tail, Nat.mod_add_mod]
    head := h.head
    popped := h.popped.trans (List.prefix_append _ _)
    room := by
      simp only [State.setPush, List.length_append, List.length_singleton]
      exact room
    slots := by
      intro i e' first mem
      simp only [State.setPush] at first mem ⊢
      rcases Nat.lt_or_ge i s.pushed.length with old | new
      · rw [List.getElem?_append_left old] at mem
        exact h.slots i e' first mem
      · rw [List.getElem?_append_right new] at mem
        obtain ⟨last, value⟩ := List.getElem?_eq_some_iff.mp mem
        have this : i = s.pushed.length := by
          rw [List.length_singleton] at last
          omega
        subst this
        rw [← h.tail, ← here, stored, ← value]
        simp
    owner := by
      intro q held
      by_cases same : q = p
      · rw [same]
        exact h.owner p holds
      · exact h.owner q (by simpa [State.setPush, same] using held)
    push := by
      intro q
      by_cases same : q = p
      · subst same
        simp [State.setPush, Push.Ok]
      · apply Push.ok_of_not_holds
        simpa [State.setPush, same] using h.others holds same
    pop := by
      have ok := h.pop
      simp only [State.setPush]
      cases at_ : s.pop with
      | idle => trivial
      | loadHead c => rwa [at_] at ok
      | loadTail c head => rwa [at_] at ok
      | load c head k' =>
          rw [at_] at ok
          obtain ⟨caller, mine, pending, copied⟩ := ok
          refine ⟨caller, mine, ?_, copied⟩
          simp only [List.length_append, List.length_singleton]
          omega
    returned := h.returned }

theorem Inv.pushStep (h : Inv n s) (small : n ≤ 2 ^ 16) (next : s.pushStep n p = some s') :
    Inv n s' := by
  unfold State.pushStep at next
  have holds : ¬(s.push p).Holds ∨ s.owner = some p := or_iff_not_imp_left.mpr fun held =>
    h.owner p (not_not.mp held)
  have ok := h.push p
  cases pc : s.push p with
  | idle => simp [pc] at next
  | lock e =>
      simp only [pc] at next
      split at next
      · rename_i free
        cases next
        exact h.lock free
      · cases next
  | loadTail e =>
      simp only [pc] at next
      cases next
      exact h.setPush (fun _ => h.owner p (by rw [pc]; trivial)) rfl
  | loadHead e tail =>
      have mine : s.owner = some p := h.owner p (by rw [pc]; trivial)
      rw [pc] at ok
      have here : tail = s.tail := ok
      simp only [pc] at next
      split at next
      · cases next
        exact h.setPush (fun _ => mine) trivial
      · rename_i room
        cases next
        refine h.setPush (fun _ => mine) ⟨here, ?_, fun i before => absurd before (by omega)⟩
        rw [here, h.full_iff] at room
        have := h.room
        omega
  | store e tail k =>
      simp only [pc] at next
      split at next
      · rename_i more
        cases next
        exact h.storeWord more pc
      · rename_i done
        cases next
        exact h.storeTail small done pc
  | unlock pushed =>
      simp only [pc] at next
      cases next
      exact h.unlock (by rw [pc]; trivial)

end Producers

/-! ### The steps of the consumer -/

section Consumer

variable {s s' : State ι w α} {popped : List (Entry w α)}

theorem Returned.Ok.append {r : Returned w α} (h : r.Ok popped) (e : Entry w α) :
    r.Ok (popped ++ [e]) where
  vcqes := h.vcqes.trans (List.infix_append_of_infix_left List.infix_rfl)
  count := h.count
  min_le := h.min_le
  le_max := h.le_max

/-- The consumer is between two calls of `unvmed_vcq_pop`, and what it returned is in
order. -/
structure Settled (popped : List (Entry w α)) (next : Pop w α × List (Returned w α)) : Prop where
  at_call : next.1 = .idle ∨ ∃ c, next.1 = .loadHead (.runN c) ∧ c.Ok popped
  returned : ∀ r ∈ next.2, r.Ok popped

/-- The loop of the second `__unvmed_vcq_run_n` ends with at most `max` entries. -/
theorem RunN.second_settled {c : RunN w α} (out : c.out <:+ popped)
    (count : c.out.length = c.ret + c.nr) (second : c.nowait = true) (enough : c.min ≤ c.ret)
    (most : (c.ret : Int) + c.nr ≤ c.max) : Settled popped c.second := by
  unfold RunN.second
  split
  · rename_i more
    constructor
    · refine .inr ⟨c, rfl, out, count, ?_, fun _ => ⟨enough, by omega⟩⟩
      intro first
      rw [second] at first
      cases first
    · intro r mem
      cases mem
  · constructor
    · exact .inl rfl
    · intro r mem
      rw [List.mem_singleton] at mem
      subst mem
      exact ⟨out.isInfix, count, by simp only; omega, by simp only; omega⟩

/-- The loop of the first ends with `min` entries, or with none if `min` is negative. -/
theorem RunN.first_settled {c : RunN w α} (out : c.out <:+ popped)
    (count : c.out.length = c.nr) (first : c.nowait = false) (fresh : c.ret = 0)
    (most : (c.nr : Int) ≤ c.min ∨ c.nr = 0) : Settled popped c.first := by
  unfold RunN.first
  split
  · rename_i more
    constructor
    · refine .inr ⟨c, rfl, out, by omega, fun _ => ⟨fresh, more⟩, ?_⟩
      intro second
      rw [first] at second
      cases second
    · intro r mem
      cases mem
  · split
    · constructor
      · exact .inl rfl
      · intro r mem
        rw [List.mem_singleton] at mem
        subst mem
        exact ⟨out.isInfix, count, by simp only; omega, by simp only; omega⟩
    · exact RunN.second_settled out (by simpa using count) rfl (by simp only; omega)
        (by simp only; omega)

/-- An empty VCQ ends the second loop, and the first tries again. -/
theorem Caller.next_none_settled {c : Caller w α} (h : c.Ok popped) :
    Settled popped (c.next none) := by
  cases c with
  | direct => exact ⟨.inl rfl, fun r mem => by cases mem⟩
  | runN c =>
      cases nowait : c.nowait with
      | false =>
          simp only [Caller.next, nowait]
          exact ⟨.inr ⟨c, rfl, h⟩, fun r mem => by cases mem⟩
      | true =>
          obtain ⟨enough, most⟩ := h.second nowait
          simp only [Caller.next, nowait, if_true]
          refine ⟨.inl rfl, ?_⟩
          intro r mem
          rw [List.mem_singleton] at mem
          subst mem
          exact ⟨h.out.isInfix, h.count, by simp only; omega, by simp only; omega⟩

/-- A popped entry goes to the end of `vcqes`. -/
theorem Caller.next_some_settled {c : Caller w α} (h : c.Ok popped) (e : Entry w α) :
    Settled (popped ++ [e]) (c.next (some e)) := by
  cases c with
  | direct => exact ⟨.inl rfl, fun r mem => by cases mem⟩
  | runN c =>
      have out : c.out ++ [e] <:+ popped ++ [e] := by
        obtain ⟨before, rfl⟩ := h.out
        exact ⟨before, by simp⟩
      have count := h.count
      cases nowait : c.nowait with
      | false =>
          obtain ⟨fresh, more⟩ := h.first nowait
          simp only [Caller.next, nowait]
          apply RunN.first_settled out
          · simp only [List.length_append, List.length_singleton]
            omega
          · rfl
          · exact fresh
          · simp only
            omega
      | true =>
          obtain ⟨enough, most⟩ := h.second nowait
          simp only [Caller.next, nowait]
          apply RunN.second_settled out
          · simp only [List.length_append, List.length_singleton]
            omega
          · rfl
          · exact enough
          · simp only
            omega

theorem Pop.ok_of_settled {next : Pop w α × List (Returned w α)}
    (h : Settled s.popped next) : next.1.Ok s := by
  rcases h.at_call with idle | ⟨c, at_, ok⟩
  · rw [idle]
    trivial
  · rw [at_]
    exact ok

/-- The consumer goes on without touching the ring. -/
theorem Inv.setPop (h : Inv n s) {next : Pop w α × List (Returned w α)} (ok : next.1.Ok s)
    (returned : ∀ r ∈ next.2, r.Ok s.popped) : Inv n (s.setPop next) where
  tail := h.tail
  head := h.head
  popped := h.popped
  room := h.room
  slots := h.slots
  owner := h.owner
  push := h.push
  pop := by
    obtain ⟨pc, rs⟩ := next
    cases pc <;> exact ok
  returned r mem := by
    rcases List.mem_append.mp mem with old | new
    · exact h.returned r old
    · exact returned r new

/-- The load of a word of the oldest entry. -/
theorem Inv.loadWord (h : Inv n s) {c : Caller w α} {head k : Nat} (more : k < w)
    (pc : s.pop = .load c head k) :
    Inv n { s.setPop (.load c head (k + 1), []) with
      copy := Function.update s.copy ⟨k, more⟩ (s.vcqe head ⟨k, more⟩) } where
  tail := h.tail
  head := h.head
  popped := h.popped
  room := h.room
  slots := h.slots
  owner := h.owner
  push := h.push
  pop := by
    have ok := h.pop
    rw [pc] at ok
    obtain ⟨caller, mine, pending, copied⟩ := ok
    refine ⟨caller, mine, pending, ?_⟩
    intro i before
    by_cases last : i.val = k
    · have this : i = ⟨k, more⟩ := Fin.ext last
      subst this
      simp [State.setPop]
    · have apart : i ≠ ⟨k, more⟩ := fun same => last (congrArg Fin.val same)
      simpa [State.setPop, apart] using copied i (by omega)
  returned r mem := h.returned r (by simpa [State.setPop] using mem)

/-- The store of `head`: the copy is the oldest pending entry as a whole. -/
theorem Inv.storeHead (h : Inv n s) (small : n ≤ 2 ^ 16) {c : Caller w α} {head k : Nat}
    (done : ¬k < w) (pc : s.pop = .load c head k) :
    Inv n { s.setPop (c.next (some s.copy)) with
      head := u16 ((head + 1) % n), popped := s.popped ++ [s.copy] } := by
  have ok := h.pop
  rw [pc] at ok
  obtain ⟨caller, mine, pending, copied⟩ := ok
  have whole : s.copy = s.vcqe s.head := by
    rw [← mine]
    exact funext fun i => copied i (by omega)
  have oldest : s.pushed[s.popped.length]? = some s.copy := by
    rw [whole]
    exact h.head_entry pending
  have settled := Caller.next_some_settled caller s.copy
  exact {
    tail := h.tail
    head := by
      have positive : 0 < n := by have := h.room; omega
      have fits : (head + 1) % n < 2 ^ 16 := lt_of_lt_of_le (Nat.mod_lt _ positive) small
      simp only [u16, Nat.mod_eq_of_lt fits, List.length_append, List.length_singleton]
      rw [mine, h.head, Nat.mod_add_mod]
    popped := by
      have before : s.popped = s.pushed.take s.popped.length :=
        List.prefix_iff_eq_take.mp h.popped
      have longer : s.popped ++ [s.copy] = s.pushed.take (s.popped.length + 1) := by
        rw [List.take_add_one, oldest, ← before]
        rfl
      simp only [longer]
      exact List.take_prefix _ _
    room := by
      have room := h.room
      simp only [State.setPop, List.length_append, List.length_singleton]
      omega
    slots := by
      intro i e first mem
      simp only [List.length_append, List.length_singleton] at first
      exact h.slots i e (by omega) mem
    owner := h.owner
    push := by
      intro p
      have ok := h.push p
      simp only [State.setPop]
      cases at_ : s.push p with
      | idle | lock _ | loadTail _ | unlock _ => trivial
      | loadHead e tail => rwa [at_] at ok
      | store e tail k' =>
          rw [at_] at ok
          obtain ⟨here, room, written⟩ := ok
          refine ⟨here, ?_, written⟩
          simp only [List.length_append, List.length_singleton]
          omega
    pop := Pop.ok_of_settled settled
    returned := by
      intro r mem
      rcases List.mem_append.mp mem with old | new
      · exact (h.returned r old).append s.copy
      · exact settled.returned r new }

theorem Inv.popStep (h : Inv n s) (small : n ≤ 2 ^ 16) (next : s.popStep n = some s') :
    Inv n s' := by
  have ok := h.pop
  unfold State.popStep at next
  cases pc : s.pop with
  | idle => simp [pc] at next
  | loadHead c =>
      rw [pc] at ok
      simp only [pc] at next
      cases next
      exact h.setPop ⟨ok, rfl⟩ (fun r mem => by cases mem)
  | loadTail c head =>
      rw [pc] at ok
      obtain ⟨caller, mine⟩ := ok
      simp only [pc] at next
      split at next
      · cases next
        have settled := Caller.next_none_settled caller
        exact h.setPop (Pop.ok_of_settled settled) settled.returned
      · rename_i nonempty
        cases next
        rw [mine, h.empty_iff] at nonempty
        have le := h.popped.length_le
        exact h.setPop ⟨caller, mine, by omega, fun i before => absurd before (by omega)⟩
          (fun r mem => by cases mem)
  | load c head k =>
      simp only [pc] at next
      split at next
      · rename_i more
        cases next
        exact h.loadWord more pc
      · rename_i done
        cases next
        exact h.storeHead small done pc

end Consumer

theorem step_inv [DecidableEq ι] (small : n ≤ 2 ^ 16) (s : State ι w α) (act : Act ι w α)
    (s' : State ι w α) (h : Inv n s) (next : step n s act = some s') : Inv n s' := by
  cases act with
  | pushCall p e =>
      simp only [step] at next
      split at next
      · cases next
        exact h.setPush (fun held => held.elim) trivial
      · cases next
  | push p => exact h.pushStep small next
  | popCall =>
      simp only [step] at next
      split at next
      · cases next
        exact h.setPop trivial (fun r mem => by cases mem)
      · cases next
  | runNCall min max =>
      simp only [step] at next
      split at next
      · cases next
        have settled : Settled s.popped (RunN.first ⟨min, max, false, 0, 0, []⟩) :=
          RunN.first_settled List.nil_suffix rfl rfl rfl (.inr rfl)
        exact h.setPop (Pop.ok_of_settled settled) settled.returned
      · cases next
  | pop => exact h.popStep small next

/-! ### `unvmed_vcq_run_n` returns -/

section Progress

/-- The call of `unvmed_vcq_run_n` that the consumer is in. -/
def Pop.inRunN : Pop w α → Option (RunN w α)
  | .loadHead (.runN c) | .loadTail (.runN c) _ | .load (.runN c) _ _ => some c
  | _ => none

/-- A call goes on with its bounds, or has returned once. -/
def RunN.Follows (c : RunN w α) (next : Pop w α × List (Returned w α)) : Prop :=
  (∃ c', next.1.inRunN = some c' ∧ c'.min = c.min ∧ c'.max = c.max ∧ c.out <+: c'.out ∧
    next.2 = []) ∨
  (next.1 = .idle ∧ ∃ r, next.2 = [r] ∧ r.min = c.min ∧ r.max = c.max ∧ c.out <+: r.vcqes)

/-- In `s'` the call still runs. -/
def State.GoesOn (s s' : State ι w α) (c : RunN w α) : Prop :=
  ∃ c', s'.pop.inRunN = some c' ∧ c'.min = c.min ∧ c'.max = c.max ∧ c.out <+: c'.out ∧
    s'.returned = s.returned

/-- In `s'` the call has returned, with the entries it had and those it got since. -/
def State.Ended (s s' : State ι w α) (c : RunN w α) : Prop :=
  s'.pop = .idle ∧ ∃ r, s'.returned = s.returned ++ [r] ∧ r.min = c.min ∧ r.max = c.max ∧
    c.out <+: r.vcqes

/-- The number of entries that the call may still take. -/
def RunN.left (c : RunN w α) : Nat := (c.min ⊔ c.max - (c.ret + c.nr)).toNat

/-- What is left of the call: the entries, then the steps of this pop. -/
def Pop.rank (w : Nat) : Pop w α → Nat
  | .loadHead (.runN c) => c.left * (w + 4) + (w + 3)
  | .loadTail (.runN c) _ => c.left * (w + 4) + (w + 2)
  | .load (.runN c) _ k => c.left * (w + 4) + (w + 1 - k)
  | _ => 0

variable {s : State ι w α} {c : RunN w α}

theorem RunN.Follows.state {c : RunN w α} {next : Pop w α × List (Returned w α)}
    {s' : State ι w α} (h : c.Follows next) (pop : s'.pop = next.1)
    (returned : s'.returned = s.returned ++ next.2) : s.GoesOn s' c ∨ s.Ended s' c := by
  rcases h with ⟨c', here, min, max, out, none⟩ | ⟨idle, r, one, min, max, out⟩
  · refine .inl ⟨c', pop ▸ here, min, max, out, ?_⟩
    rw [returned, none, List.append_nil]
  · exact .inr ⟨pop.trans idle, r, one ▸ returned, min, max, out⟩

end Progress

end Invariant

end Unvmed.VcqRing
