import Unvmed.Ccan.List

/-!
Lists of entries that the program allocates and frees (`list_add_tail` after `zmalloc`, `list_del`
before `free`).

The thread list and the lists of the reapers are used in the same three ways: an entry is
appended, the first entry that matches is taken out, all entries are taken out. `Keeps` says that
the list has some entries and that no other memory was allocated or freed.

* `Keeps.addEntry`, `Keeps.unlink`: one entry.
* `Keeps.delEntry`, `Keeps.freeEntries`: the loops over the list.
-/

namespace Unvmed.Ccan

open Lib

variable {α ε : Type}

/-- The list nodes in memory, and the entry that each is a member of. -/
structure Store (α ε : Type) where
  heap : Heap α
  entry : α → ε

section Code

variable [DecidableEq α]

def Store.readEntry (s : Store α ε) (x : α) : Option ε :=
  if s.heap.live x then some (s.entry x) else none

/-- Allocate an entry at `cell`, cleared to `null`, fill it and append it. -/
def Store.addEntry (h null cell : α) (e : ε) (s : Store α ε) : Option (Store α ε) := do
  let heap ← s.heap.step (.malloc cell null null)
  let heap ← listAddTail heap h cell
  return { heap, entry := Function.update s.entry cell e }

/-- `list_del` and `free`. -/
def Store.unlink (s : Store α ε) (x : α) : Option (Store α ε) := do
  let heap ← listDel s.heap x
  let heap ← heap.step (.free x)
  return { s with heap }

/-- Take out the first entry that matches. -/
def Store.delEntry (h : α) (p : ε → Bool) (s : Store α ε) : Proc Unit (Store α ε) :=
  listForEachSafe h Store.heap (fun s x =>
    match s.readEntry x with
    | none => ⟨[], .failed⟩
    | some e =>
      if p e then match s.unlink x with
        | none => ⟨[], .failed⟩
        | some s => ⟨[], .done (.inr s)⟩
      else ⟨[], .done (.inl s)⟩) id s

/-- Take out all entries. -/
def Store.freeEntries (h : α) (s : Store α ε) : Proc Unit (Store α ε) :=
  listForEachSafe h Store.heap (fun s x =>
    match s.unlink x with
    | none => ⟨[], .failed⟩
    | some s => ⟨[], .done (.inl s)⟩) id s

end Code

/-- The list of `h` has the entries `es`, each with its node, and beside them only the nodes of
`other` are allocated. -/
structure Keeps (other : α → Prop) (h : α) (s : Store α ε) (es : List (α × ε)) : Prop where
  hangs : Hangs s.heap h (es.map Prod.fst)
  entry : ∀ e ∈ es, s.entry e.1 = e.2
  live : ∀ x, s.heap.live x ↔ other x ∨ x ∈ es.map Prod.fst
  apart : ∀ x ∈ es.map Prod.fst, ¬ other x

section Calls

variable [DecidableEq α] {other : α → Prop} {h cell : α} {s : Store α ε} {e : α × ε}
  {es before after : List (α × ε)}

/-- The memory, seen as one list. -/
def oneList (live : α → Bool) (h : α) (xs : List α) : Lists α where
  live := live
  list := Function.update (fun _ => none) h (some xs)

theorem oneList_own {live : α → Bool} {h h' : α} {xs xs' : List α}
    (own : (oneList live h xs).list h' = some xs') : h' = h ∧ xs' = xs := by
  rcases eq_or_ne h' h with rfl | ne
  · simp only [oneList, Function.update_self] at own
    exact ⟨rfl, (Option.some.inj own).symm⟩
  · simp only [oneList, Function.update_of_ne ne] at own
    cases own

theorem holds_oneList {m : Heap α} {xs : List α} (hangs : Hangs m h xs) :
    Holds m (oneList m.live h xs) := by
  refine ⟨⟨?_, ?_⟩, rfl, ?_⟩
  · intro h' xs' own
    obtain ⟨rfl, rfl⟩ := oneList_own own
    exact hangs.ring
  · intro h₁ h₂ xs₁ xs₂ own own' ne
    exact absurd ((oneList_own own).1.trans (oneList_own own').1.symm) ne
  · intro h' xs' own
    obtain ⟨rfl, rfl⟩ := oneList_own own
    exact hangs.live

theorem Keeps.addEntry (keeps : Keeps other h s es) (null : α) (fresh : s.heap.live cell = false) (c : ε) :
    ∃ s', s.addEntry h null cell c = some s' ∧ Keeps other h s' (es ++ [(cell, c)]) := by
  have new : cell ∉ h :: es.map Prod.fst := by
    intro mem
    have live := keeps.hangs.live cell mem
    rw [fresh] at live
    cases live
  obtain ⟨off, away⟩ : cell ≠ h ∧ cell ∉ es.map Prod.fst := by rwa [List.mem_cons, not_or] at new
  obtain ⟨m, made, holds⟩ := (holds_oneList keeps.hangs).malloc fresh null null
  have addable : ((oneList s.heap.live h (es.map Prod.fst)).step
      (.malloc cell null null)).Addable h cell := by
    refine ⟨by simp [Lists.step, oneList], by simp [Lists.step], ?_, off⟩
    intro h' xs own
    obtain ⟨rfl, rfl⟩ := oneList_own own
    exact away
  obtain ⟨m', added, holds⟩ := holds.addTail addable
  have done : listAddTail m h cell = some m' := added
  refine ⟨_, by simp only [Store.addEntry, made, Option.bind_eq_bind, Option.bind_some, done]; rfl,
    ?_, ?_, ?_, ?_⟩
  · rw [List.map_append]
    exact holds.hangs (by simp [Lists.step, Lists.put, oneList])
  · intro e mem
    rcases List.mem_append.mp mem with old | last
    · have ne : e.1 ≠ cell := ne_of_mem_of_not_mem (List.mem_map_of_mem old) away
      simpa [Function.update_of_ne ne] using keeps.entry e old
    · cases List.mem_singleton.mp last
      exact Function.update_self ..
  · intro x
    have same : m'.live = Function.update s.heap.live cell true := holds.same
    simp only [same, List.map_append, List.mem_append, Function.update_apply]
    split
    · simp [*]
    · rename_i ne
      simpa [ne] using keeps.live x
  · intro x mem
    rw [List.map_append, List.mem_append] at mem
    rcases mem with old | last
    · exact keeps.apart x old
    · cases List.mem_singleton.mp last
      intro mine
      have live := (keeps.live cell).mpr (.inl mine)
      rw [fresh] at live
      cases live

theorem Keeps.unlink (keeps : Keeps other h s (before ++ e :: after)) :
    ∃ s', s.unlink e.1 = some s' ∧ Keeps other h s' (before ++ after) := by
  have hangs := keeps.hangs
  have nodup := hangs.ring.nodup
  rw [List.map_append, List.map_cons] at hangs nodup
  have gone : e.1 ∉ h :: (before.map Prod.fst ++ after.map Prod.fst) := by
    rw [← List.cons_append, List.nodup_middle, List.cons_append] at nodup
    exact (List.nodup_cons.mp nodup).1
  obtain ⟨off, away⟩ : e.1 ≠ h ∧ e.1 ∉ before.map Prod.fst ++ after.map Prod.fst := by
    rwa [List.mem_cons, not_or] at gone
  have holds := holds_oneList hangs
  have own : (oneList s.heap.live h (before.map Prod.fst ++ e.1 :: after.map Prod.fst)).list h =
      some (before.map Prod.fst ++ e.1 :: after.map Prod.fst) := by
    simp [oneList]
  have rest : (oneList s.heap.live h (before.map Prod.fst ++ e.1 :: after.map Prod.fst)).step
      (.del e.1) = oneList s.heap.live h (before.map Prod.fst ++ after.map Prod.fst) := by
    have list := holds.erase own
    simp only [Lists.step, oneList, Function.update_idem] at list ⊢
    rw [list]
  obtain ⟨m, deleted, holds⟩ := holds.del (n := e.1) (.inl ⟨h, _, own, by simp⟩)
  rw [rest] at holds
  obtain ⟨m', freed, holds⟩ := holds.free (x := e.1) (by
    refine ⟨hangs.live e.1 (by simp), ?_⟩
    intro h' xs own'
    obtain ⟨rfl, rfl⟩ := oneList_own own'
    exact away)
  have done : listDel s.heap e.1 = some m := deleted
  refine ⟨{ s with heap := m' }, by simp [Store.unlink, done, freed], ?_, ?_, ?_, ?_⟩
  · rw [List.map_append]
    exact holds.hangs (by simp [Lists.step, oneList, off.symm])
  · intro d mem
    apply keeps.entry
    simp only [List.mem_append, List.mem_cons] at mem ⊢
    tauto
  · intro x
    have same : m'.live = Function.update s.heap.live e.1 false := holds.same
    have live := keeps.live x
    simp only [List.map_append, List.map_cons, List.mem_append, List.mem_cons] at live away ⊢
    rw [same, Function.update_apply]
    split
    · rename_i here
      subst here
      have mine := keeps.apart e.1 (by simp)
      simpa [mine] using away
    · rename_i ne
      simpa [ne] using live
  · intro x mem
    apply keeps.apart
    simp only [List.map_append, List.map_cons, List.mem_append, List.mem_cons] at mem ⊢
    tauto

omit [DecidableEq α] in
theorem Keeps.readEntry (keeps : Keeps other h s es) (mem : e ∈ es) :
    s.readEntry e.1 = some e.2 := by
  have live : s.heap.live e.1 := keeps.hangs.live e.1 (List.mem_cons_of_mem _ (List.mem_map_of_mem mem))
  simp [Store.readEntry, live, keeps.entry e mem]

/-- A loop over the entries, by what is kept of those it has passed. `I` also says what the loop
has done so far. -/
theorem Keeps.forEach {σ β : Type} (other : α → Prop) (store : σ → Store α ε)
    (body : σ → α → Call Unit (σ ⊕ β)) (stop : σ → β)
    (I : σ → List (α × ε) → List (α × ε) → Prop) (Q : β → Prop)
    (keeps : ∀ t kept rest, I t kept rest → Keeps other h (store t) (kept ++ rest))
    (turn : ∀ t kept e rest, I t kept (e :: rest) →
      (∃ t' kept', (body t e.1).out = .done (.inl t') ∧ I t' kept' rest) ∨
        ∃ b, (body t e.1).out = .done (.inr b) ∧ Q b)
    (finish : ∀ t kept, I t kept [] → Q (stop t)) {t : σ} (start : I t [] es) :
    ∃ b, (listForEachSafe h (fun t => (store t).heap) body stop t).Returns b ∧ Q b := by
  refine listForEachSafe_returns _ body stop
    (fun t xs => ∃ kept rest, xs = rest.map Prod.fst ∧ I t kept rest) Q ?_ ?_ ?_
    (keeps t [] es start).hangs ⟨[], es, rfl, start⟩
  · rintro t xs ⟨kept, rest, rfl, hI⟩
    refine ⟨kept.map Prod.fst, ?_⟩
    rw [← List.map_append]
    exact (keeps t kept rest hI).hangs
  · rintro t x xs ⟨kept, rest, split, hI⟩
    cases rest with
    | nil => cases split
    | cons e rest =>
        obtain ⟨rfl, rfl⟩ := List.cons.inj split
        rcases turn t kept e rest hI with ⟨t', kept', went, hI'⟩ | left
        · exact .inl ⟨t', went, kept', rest, rfl, hI'⟩
        · exact .inr left
  · rintro t ⟨kept, rest, split, hI⟩
    cases List.map_eq_nil_iff.mp split.symm
    exact finish t kept hI

theorem Keeps.delEntry (keeps : Keeps other h s es) (p : ε → Bool) :
    ∃ s', (s.delEntry h p).Returns s' ∧ Keeps other h s' (es.eraseP (p ·.2)) := by
  refine Keeps.forEach other id _ _
    (fun s kept rest => Keeps other h s (kept ++ rest) ∧
      es.eraseP (p ·.2) = kept ++ rest.eraseP (p ·.2)) _
    (fun s kept rest hI => hI.1) ?_ ?_ ⟨keeps, rfl⟩
  · rintro s kept e rest ⟨keeps, so_far⟩
    have read := keeps.readEntry (e := e) (by simp)
    by_cases matches_ : p e.2
    · obtain ⟨s', unlinked, keeps'⟩ := keeps.unlink
      refine .inr ⟨s', by simp [read, matches_, unlinked], ?_⟩
      have taken : (e :: rest).eraseP (p ·.2) = rest := by simp [matches_]
      rw [so_far, taken]
      exact keeps'
    · refine .inl ⟨s, kept ++ [e], by simp [read, matches_], by simpa using keeps, ?_⟩
      rw [so_far]
      simp [matches_]
  · rintro s kept ⟨keeps, all⟩
    rw [all]
    exact keeps

theorem Keeps.freeEntries (keeps : Keeps other h s es) :
    ∃ s', (s.freeEntries h).Returns s' ∧ Keeps other h s' [] := by
  refine Keeps.forEach other id _ _
    (fun s kept rest => Keeps other h s rest ∧ kept = []) _ ?_ ?_ ?_ ⟨keeps, rfl⟩
  · rintro s kept rest ⟨keeps, rfl⟩
    exact keeps
  · rintro s kept e rest ⟨keeps, rfl⟩
    have first : Keeps other h s ([] ++ e :: rest) := keeps
    obtain ⟨s', unlinked, keeps'⟩ := first.unlink
    exact .inl ⟨s', [], by simp [unlinked], keeps', rfl⟩
  · rintro s kept ⟨keeps, rfl⟩
    exact keeps

end Calls

end Unvmed.Ccan
