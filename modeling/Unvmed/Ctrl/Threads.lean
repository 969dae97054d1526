import Unvmed.Ccan.Entries

/-!
The thread list of a controller (`lib/libunvmed.c`).

An application thread registers callbacks for itself and takes the registration back before it
exits. After a controller was made again every registered thread is called; registrations of
threads that are gone are dropped on the way. Each function holds `thread_list_lock`, so that the
calls of all threads come one after the other.

`threads_refine` follows any calls in any order on the list nodes in memory: no call touches a
freed entry, none leaks one, and the callbacks made are those of the registrations, in the order in
which they were made. `no_callback_after_del` is what the list is for.
-/

namespace Unvmed.Threads

open Lib Ccan

variable {α ω : Type}

/-- `struct unvme_thread_entry`; `reinitCtrl` says whether `ops` has the callback. -/
structure ThreadEntry (ω : Type) where
  threadId : ℕ
  reinitCtrl : Bool
  opaquePtr : ω
  deriving DecidableEq, Repr

/-- What others see of the calls. -/
inductive Event (ω : Type) where
  | callback (entry : ThreadEntry ω)
  /-- The result of `__unvmed_reinit_invoke_callbacks`. -/
  | reinit (ret : ℤ)
  deriving DecidableEq, Repr

/-- The thread list in memory, and the events so far. -/
structure ThreadList (α ω : Type) where
  store : Store α (ThreadEntry ω)
  events : List (Event ω)

/-- A call of a thread. -/
inductive Call (α ω : Type) where
  /-- `cell` is the memory that `zmalloc` gives. -/
  | add (cell : α) (entry : ThreadEntry ω)
  | del (tid : ℕ)
  /-- For each entry, whether `tgkill` finds no thread, and whether the callback fails. -/
  | reinit (gone fails : α → Bool)
  | freeList

section Code

variable [DecidableEq α] (h null : α)

/-- `unvmed_add_thread`. -/
def addThread (t : ThreadList α ω) (cell : α) (entry : ThreadEntry ω) : Proc Unit (ThreadList α ω) :=
  match t.store.addEntry h null cell entry with
  | none => Proc.ofCall ⟨[], .failed⟩
  | some store => pure { t with store }

/-- `unvmed_del_thread`. -/
def delThread (t : ThreadList α ω) (tid : ℕ) : Proc Unit (ThreadList α ω) := do
  let store ← t.store.delEntry h (·.threadId == tid)
  return { t with store }

/-- The body of the loop in `__unvmed_reinit_invoke_callbacks`. -/
def reinitBody (gone fails : α → Bool) (t : ThreadList α ω) (x : α) :
    Lib.Call Unit (ThreadList α ω ⊕ ThreadList α ω) :=
  match t.store.readEntry x with
  | none => ⟨[], .failed⟩
  | some entry =>
    if gone x then
      match t.store.unlink x with
      | none => ⟨[], .failed⟩
      | some store => ⟨[], .done (.inl { t with store })⟩
    else if entry.reinitCtrl then
      let t := { t with events := t.events ++ [.callback entry] }
      if fails x then ⟨[], .done (.inr { t with events := t.events ++ [.reinit (-1)] })⟩
      else ⟨[], .done (.inl t)⟩
    else ⟨[], .done (.inl t)⟩

/-- `__unvmed_reinit_invoke_callbacks`. -/
def reinitInvokeCallbacks (t : ThreadList α ω) (gone fails : α → Bool) : Proc Unit (ThreadList α ω) :=
  listForEachSafe h (·.store.heap) (reinitBody gone fails)
    (fun t => { t with events := t.events ++ [.reinit 0] }) t

/-- `unvmed_free_thread_list`. -/
def freeThreadList (t : ThreadList α ω) : Proc Unit (ThreadList α ω) := do
  let store ← t.store.freeEntries h
  return { t with store }

def ThreadList.call (t : ThreadList α ω) : Call α ω → Proc Unit (ThreadList α ω)
  | .add cell entry => addThread h null t cell entry
  | .del tid => delThread h t tid
  | .reinit gone fails => reinitInvokeCallbacks h t gone fails
  | .freeList => freeThreadList h t

/-- The calls, one after the other. -/
def ThreadList.calls (t : ThreadList α ω) (cs : List (Call α ω)) : Proc Unit (ThreadList α ω) :=
  cs.foldlM (fun t c => t.call h null c) t

end Code

/-! ### What the list is for -/

/-- The registrations, oldest first, each with the memory of its entry. -/
structure Registry (α ω : Type) where
  entries : List (α × ThreadEntry ω)
  events : List (Event ω)

/-- The round over the registrations: what is left of them, and the events. -/
def sweep (gone fails : α → Bool) :
    List (α × ThreadEntry ω) → List (α × ThreadEntry ω) × List (Event ω)
  | [] => ([], [.reinit 0])
  | (x, entry) :: rest =>
    if gone x then sweep gone fails rest
    else if entry.reinitCtrl then
      if fails x then ((x, entry) :: rest, [.callback entry, .reinit (-1)])
      else
        let (left, events) := sweep gone fails rest
        ((x, entry) :: left, .callback entry :: events)
    else
      let (left, events) := sweep gone fails rest
      ((x, entry) :: left, events)

def Registry.step (r : Registry α ω) : Call α ω → Registry α ω
  | .add cell entry => { r with entries := r.entries ++ [(cell, entry)] }
  | .del tid => { r with entries := r.entries.eraseP (·.2.threadId == tid) }
  | .reinit gone fails =>
    let (left, events) := sweep gone fails r.entries
    { entries := left, events := r.events ++ events }
  | .freeList => { r with entries := [] }

/-- `zmalloc` gives memory that is not in use. -/
def Registry.Fresh (other : α → Prop) (r : Registry α ω) : Call α ω → Prop
  | .add cell _ => ¬ other cell ∧ cell ∉ r.entries.map Prod.fst
  | _ => True

/-- The memory holds the registrations, and nothing else beside `other`. -/
structure Refines (other : α → Prop) (h : α) (t : ThreadList α ω) (r : Registry α ω) : Prop where
  keeps : Keeps other h t.store r.entries
  events : t.events = r.events

section Calls

variable [DecidableEq α] {other : α → Prop} {h : α} {t : ThreadList α ω} {r : Registry α ω}

theorem returns_pure {β : Type} (b : β) : (pure b : Proc Unit β).Returns b := ⟨0, rfl⟩

theorem Refines.add (refines : Refines other h t r) (null : α) {cell : α} (entry : ThreadEntry ω)
    (fresh : r.Fresh other (.add cell entry)) : ∃ t', (addThread h null t cell entry).Returns t' ∧
      Refines other h t' (r.step (.add cell entry)) := by
  have dead : t.store.heap.live cell = false := by
    have live := refines.keeps.live cell
    simpa [fresh.1, fresh.2] using live
  obtain ⟨store, added, keeps⟩ := refines.keeps.addEntry null dead entry
  refine ⟨{ t with store }, ?_, keeps, refines.events⟩
  simp only [addThread, added]
  exact returns_pure _

theorem Refines.del (refines : Refines other h t r) (tid : ℕ) :
    ∃ t', (delThread h t tid).Returns t' ∧ Refines other h t' (r.step (.del tid)) := by
  obtain ⟨store, returns, keeps⟩ := refines.keeps.delEntry (·.threadId == tid)
  refine ⟨{ t with store }, ?_, keeps, refines.events⟩
  exact Proc.returns_bind.mpr ⟨store, returns, returns_pure _⟩

theorem Refines.freeList (refines : Refines other h t r) :
    ∃ t', (freeThreadList h t).Returns t' ∧ Refines other h t' (r.step .freeList) := by
  obtain ⟨store, returns, keeps⟩ := refines.keeps.freeEntries
  refine ⟨{ t with store }, ?_, keeps, refines.events⟩
  exact Proc.returns_bind.mpr ⟨store, returns, returns_pure _⟩

/-- The round: what it has passed and what it has still to pass, together, is what the whole round
gives. -/
theorem Refines.reinit (refines : Refines other h t r) (gone fails : α → Bool) :
    ∃ t', (reinitInvokeCallbacks h t gone fails).Returns t' ∧
      Refines other h t' (r.step (.reinit gone fails)) := by
  refine Keeps.forEach other ThreadList.store _ _
    (fun t kept rest => Keeps other h t.store (kept ++ rest) ∧
      (r.step (.reinit gone fails)).entries = kept ++ (sweep gone fails rest).1 ∧
      (r.step (.reinit gone fails)).events = t.events ++ (sweep gone fails rest).2) _
    (fun t kept rest hI => hI.1) ?_ ?_ ⟨refines.keeps, rfl, by rw [refines.events]; rfl⟩
  · rintro t kept ⟨x, entry⟩ rest ⟨keeps, entries, events⟩
    have read := keeps.readEntry (e := (x, entry)) (by simp)
    by_cases dead : gone x
    · obtain ⟨store, unlinked, keeps'⟩ := keeps.unlink
      refine .inl ⟨{ t with store }, kept, ?_, keeps', ?_, ?_⟩
      · simp [reinitBody, read, dead, unlinked]
      · simpa [sweep, dead] using entries
      · simpa [sweep, dead] using events
    · by_cases has : entry.reinitCtrl
      · by_cases failed : fails x
        · refine .inr ⟨_, by simp [reinitBody, read, dead, has, failed]; rfl, ?_, ?_⟩
          · simpa [entries, sweep, dead, has, failed] using keeps
          · simp [events, sweep, dead, has, failed]
        · refine .inl ⟨_, kept ++ [(x, entry)],
            by simp [reinitBody, read, dead, has, failed]; rfl, ?_, ?_, ?_⟩
          · simpa using keeps
          · simp [entries, sweep, dead, has, failed]
          · simp [events, sweep, dead, has, failed]
      · refine .inl ⟨t, kept ++ [(x, entry)], by simp [reinitBody, read, dead, has], ?_, ?_, ?_⟩
        · simpa using keeps
        · simp [entries, sweep, dead, has]
        · simp [events, sweep, dead, has]
  · rintro t kept ⟨keeps, entries, events⟩
    refine ⟨?_, ?_⟩
    · simpa [entries, sweep] using keeps
    · simp [events, sweep]

/-- `list_head_init` in `unvmed_init_ctrl`. -/
theorem Refines.init (other : α → Prop) (h : α) (heap : Heap α) (live : ∀ x, heap.live x ↔ other x)
    (mine : other h) (entry : α → ThreadEntry ω) : ∃ heap', listHeadInit heap h = some heap' ∧
      Refines other h ⟨⟨heap', entry⟩, []⟩ ⟨[], []⟩ := by
  refine ⟨_, listHeadInit_eq ((live h).mpr mine), ⟨⟨?_, ?_⟩, by simp, ?_, by simp⟩, rfl⟩
  · exact Links.ring_nil.mpr (Links.joined_join ..)
  · intro y mem
    cases List.mem_singleton.mp mem
    exact (live h).mpr mine
  · simpa using live

/-- One call keeps the registrations. -/
theorem Refines.call (refines : Refines other h t r) (null : α) (c : Call α ω)
    (fresh : r.Fresh other c) :
    ∃ t', (t.call h null c).Returns t' ∧ Refines other h t' (r.step c) := by
  cases c with
  | add cell entry => exact refines.add null entry fresh
  | del tid => exact refines.del tid
  | reinit gone fails => exact refines.reinit gone fails
  | freeList => exact refines.freeList

theorem Refines.calls {cs : List (Call α ω)} (refines : Refines other h t r) (null : α)
    (fresh : Guarded (fun r c => some (Registry.step r c)) (Registry.Fresh other) r cs) :
    ∃ t', (t.calls h null cs).Returns t' ∧ Refines other h t' (cs.foldl Registry.step r) := by
  induction cs generalizing t r with
  | nil => exact ⟨t, returns_pure t, refines⟩
  | cons c cs ih =>
      obtain ⟨t₁, returns, refines₁⟩ := refines.call null c fresh.1
      obtain ⟨t', rest, refines'⟩ := ih refines₁ (fresh.tail rfl)
      refine ⟨t', ?_, refines'⟩
      rw [ThreadList.calls, List.foldlM_cons]
      exact Proc.returns_bind.mpr ⟨t₁, returns, rest⟩

/-- **The thread list.** Whatever the threads call, in any order, every call comes to an end without
touching a freed entry. The list has the registrations in order, only their entries are
allocated, and the callbacks were made as the registrations say. -/
theorem threads_refine (other : α → Prop) (h null : α) (t : ThreadList α ω) (r : Registry α ω)
    (cs : List (Call α ω)) (refines : Refines other h t r)
    (fresh : Guarded (fun r c => some (Registry.step r c)) (Registry.Fresh other) r cs) :
    ∃ t', (t.calls h null cs).Returns t' ∧ ¬ (t.calls h null cs).Fails ∧
      Refines other h t' (cs.foldl Registry.step r) := by
  obtain ⟨t', returns, refines'⟩ := refines.calls null fresh
  exact ⟨t', returns, returns.not_fails, refines'⟩

/-- A thread registers, another does and is gone when the round comes; the first takes its
registration back. -/
theorem threads_refine_round : ∃ heap t',
    listHeadInit (⟨⟨id, id⟩, (· == 0)⟩ : Heap ℕ) 0 = some heap ∧
    ((⟨⟨heap, fun _ => ⟨0, false, 0⟩⟩, []⟩ : ThreadList ℕ ℕ).calls 0 0 [.add 1 ⟨7, true, 10⟩,
      .add 2 ⟨8, true, 11⟩, .reinit (· == 2) (fun _ => false), .del 7]).Returns t' ∧
    t'.events = [.callback ⟨7, true, 10⟩, .reinit 0] := by
  obtain ⟨heap, made, refines⟩ := Refines.init (· = 0) 0 ⟨⟨id, id⟩, (· == 0)⟩
    (by simp) rfl fun _ => (⟨0, false, 0⟩ : ThreadEntry ℕ)
  obtain ⟨t', returns, -, refines'⟩ := threads_refine (· = 0) 0 0 _ _ [.add 1 ⟨7, true, 10⟩,
    .add 2 ⟨8, true, 11⟩, .reinit (· == 2) (fun _ => false), .del 7] refines
    (by simp [Guarded, Registry.Fresh, Registry.step])
  exact ⟨heap, t', made, returns, refines'.events⟩

end Calls

/-! ### What a thread relies on -/

section Registrations

variable {r : Registry α ω} {tid : ℕ}

/-- A thread registers once before it takes the registration back. -/
def Registry.Once (tid : ℕ) (r : Registry α ω) : Call α ω → Prop
  | .add _ entry => entry.threadId = tid → ∀ e ∈ r.entries, e.2.threadId ≠ tid
  | _ => True

/-- The round calls registered threads, and leaves some of the registrations in their order. -/
theorem sweep_sound (gone fails : α → Bool) (es : List (α × ThreadEntry ω)) :
    (sweep gone fails es).1.Sublist es ∧
      ∀ c, Event.callback c ∈ (sweep gone fails es).2 → ∃ e ∈ es, e.2 = c := by
  induction es with
  | nil => simp [sweep]
  | cons e es ih =>
      obtain ⟨x, entry⟩ := e
      obtain ⟨sub, called⟩ := ih
      simp only [sweep]
      split
      · refine ⟨sub.cons _, fun c mem => ?_⟩
        obtain ⟨e, here, same⟩ := called c mem
        exact ⟨e, List.mem_cons_of_mem _ here, same⟩
      · split
        · split
          · simp
          · refine ⟨sub.cons_cons _, fun c mem => ?_⟩
            rcases List.mem_cons.mp mem with same | mem
            · cases same
              exact ⟨_, List.mem_cons_self, rfl⟩
            · obtain ⟨e, here, same⟩ := called c mem
              exact ⟨e, List.mem_cons_of_mem _ here, same⟩
        · refine ⟨sub.cons_cons _, fun c mem => ?_⟩
          obtain ⟨e, here, same⟩ := called c mem
          exact ⟨e, List.mem_cons_of_mem _ here, same⟩

/-- The registrations of one thread. -/
def Registry.of (r : Registry α ω) (tid : ℕ) : List (α × ThreadEntry ω) :=
  r.entries.filter (·.2.threadId == tid)

theorem Registry.of_eq_nil :
    r.of tid = [] ↔ ∀ e ∈ r.entries, e.2.threadId ≠ tid := by
  simp [Registry.of, List.filter_eq_nil_iff]

/-- A thread that registers once has at most one registration. -/
theorem Registry.of_step (one : (r.of tid).length ≤ 1) (c : Call α ω)
    (once : r.Once tid c) : ((r.step c).of tid).length ≤ 1 := by
  cases c with
  | add cell entry =>
      by_cases mine : entry.threadId = tid
      · have none_yet := Registry.of_eq_nil.mpr (once mine)
        simp only [Registry.of] at none_yet
        simp [Registry.of, Registry.step, none_yet, mine]
      · simpa [Registry.of, Registry.step, mine] using one
  | del t =>
      refine le_trans (List.Sublist.length_le ?_) one
      exact List.eraseP_sublist.filter _
  | reinit gone fails =>
      refine le_trans (List.Sublist.length_le ?_) one
      exact (sweep_sound gone fails r.entries).1.filter _
  | freeList => simp [Registry.of, Registry.step]

/-- After the registration was taken back there is none. -/
theorem Registry.of_del (one : (r.of tid).length ≤ 1) : (r.step (.del tid)).of tid = [] := by
  have erased (es : List (α × ThreadEntry ω)) :
      (es.eraseP (·.2.threadId == tid)).filter (·.2.threadId == tid) =
        (es.filter (·.2.threadId == tid)).tail := by
    induction es with
    | nil => rfl
    | cons e es ih => by_cases mine : e.2.threadId = tid <;> simp [mine, ih]
  rw [Registry.of, Registry.step, erased]
  rw [Registry.of] at one
  cases split : r.entries.filter (·.2.threadId == tid) with
  | nil => rfl
  | cons e es =>
      rw [split, List.length_cons] at one
      exact List.length_eq_zero_iff.mp (Nat.le_zero.mp (Nat.le_of_succ_le_succ one))

/-- A thread without a registration is not called. -/
theorem Registry.silent_step {c : Call α ω} (away : r.of tid = [])
    (others : ∀ cell entry, c = .add cell entry → entry.threadId ≠ tid) :
    (r.step c).of tid = [] ∧ ∃ now, (r.step c).events = r.events ++ now ∧
      ∀ entry, Event.callback entry ∈ now → entry.threadId ≠ tid := by
  rw [Registry.of_eq_nil] at away ⊢
  cases c with
  | add cell entry =>
      refine ⟨?_, [], by simp [Registry.step], by simp⟩
      intro e mem
      rcases List.mem_append.mp mem with old | last
      · exact away e old
      · cases List.mem_singleton.mp last
        exact others cell entry rfl
  | del t => exact ⟨fun e mem => away e (List.mem_of_mem_eraseP mem), [], by simp [Registry.step], by simp⟩
  | reinit gone fails =>
      obtain ⟨sub, called⟩ := sweep_sound gone fails r.entries
      refine ⟨fun e mem => away e (sub.subset mem), _, rfl, ?_⟩
      intro c mem
      obtain ⟨e, here, rfl⟩ := called c mem
      exact away e here
  | freeList => exact ⟨by simp [Registry.step], [], by simp [Registry.step], by simp⟩

/-- As long as it does not register it has none, and is not called. -/
theorem Registry.silent (cs : List (Call α ω)) (away : r.of tid = [])
    (others : ∀ cell entry, Call.add cell entry ∈ cs → entry.threadId ≠ tid) :
    ∃ later, (cs.foldl Registry.step r).events = r.events ++ later ∧
      ∀ entry, Event.callback entry ∈ later → entry.threadId ≠ tid := by
  induction cs generalizing r with
  | nil => exact ⟨[], by simp, by simp⟩
  | cons c cs ih =>
      obtain ⟨away', now, events, quiet⟩ := Registry.silent_step (c := c) away fun cell entry same =>
        others cell entry (same ▸ List.mem_cons_self)
      obtain ⟨later, events', quiet'⟩ := ih away' fun cell entry mem =>
        others cell entry (List.mem_cons_of_mem _ mem)
      refine ⟨now ++ later, ?_, ?_⟩
      · rw [List.foldl_cons, events', events, List.append_assoc]
      · intro entry mem
        exact (List.mem_append.mp mem).elim (quiet entry) (quiet' entry)

end Registrations

/-- **After `unvmed_del_thread`.** A thread that registers once before it takes the registration
back is not called any more when `unvmed_del_thread` has returned, whatever others do, until it
registers again. -/
theorem no_callback_after_del [DecidableEq α] (other : α → Prop) (h null : α)
    (t : ThreadList α ω) (r : Registry α ω) (tid : ℕ) (cs ds : List (Call α ω))
    (refines : Refines other h t r) (one : (r.of tid).length ≤ 1)
    (guard : Guarded (fun r c => some (Registry.step r c))
      (fun r c => r.Fresh other c ∧ r.Once tid c) r (cs ++ .del tid :: ds))
    (others : ∀ cell entry, Call.add cell entry ∈ ds → entry.threadId ≠ tid) :
    ∃ t₁ t₂ later, (t.calls h null (cs ++ [.del tid])).Returns t₁ ∧
      (t₁.calls h null ds).Returns t₂ ∧ t₂.events = t₁.events ++ later ∧
      ∀ entry, Event.callback entry ∈ later → entry.threadId ≠ tid := by
  have fresh := guard.mono fun _ _ both => both.1
  have ran := run_total Registry.step cs r
  rw [← List.singleton_append, ← List.append_assoc] at fresh
  obtain ⟨t₁, returns₁, refines₁⟩ := refines.calls null fresh.left
  obtain ⟨t₂, returns₂, refines₂⟩ := refines₁.calls null (fresh.right (run_total Registry.step _ r))
  have still := run_inv (I := fun r => (r.of tid).length ≤ 1) (fun r c r' one both next => by
    cases next
    exact Registry.of_step one c both.2) one guard.left ran
  have away : ((cs ++ [Call.del tid]).foldl Registry.step r).of tid = [] := by
    rw [List.foldl_append]
    exact Registry.of_del still
  obtain ⟨later, events, quiet⟩ := Registry.silent ds away others
  refine ⟨t₁, t₂, later, returns₁, returns₂, ?_, quiet⟩
  rw [refines₂.events, events, refines₁.events]

/-- A thread takes its registration back while another is still registered. -/
theorem no_callback_after_del_two : ∃ (t t₁ t₂ : ThreadList ℕ ℕ) (later : List (Event ℕ)),
    (t.calls 0 0 [.add 1 ⟨7, true, 10⟩, .add 2 ⟨8, true, 11⟩, .del 7]).Returns t₁ ∧
      (t₁.calls 0 0 [.reinit (fun _ => false) (fun _ => false)]).Returns t₂ ∧
      t₂.events = t₁.events ++ later ∧
      ∀ entry, Event.callback entry ∈ later → entry.threadId ≠ 7 := by
  obtain ⟨heap, -, refines⟩ := Refines.init (· = 0) 0 ⟨⟨id, id⟩, (· == 0)⟩
    (by simp) rfl fun _ => (⟨0, false, 0⟩ : ThreadEntry ℕ)
  exact ⟨_, no_callback_after_del (· = 0) 0 0 _ _ 7 [.add 1 ⟨7, true, 10⟩, .add 2 ⟨8, true, 11⟩]
    [.reinit (fun _ => false) (fun _ => false)] refines (by simp [Registry.of])
    (by simp [Guarded, Registry.Fresh, Registry.Once, Registry.step]) (by simp)⟩

end Unvmed.Threads
