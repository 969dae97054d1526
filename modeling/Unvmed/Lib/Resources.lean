import Unvmed.Lib.Run
import Unvmed.Lib.Tally

/-!
Threads that get resources and give them back.

A thread runs a `Code`: it gets resources, which can fail, spins for locks, and leaves early where a
check fails. The threads share the counts of what is in use, and each step of one of them is an
action. A lock is taken only where nobody has it; whoever releases it, it is free then. Of some
resources there is a limited number only.

* `exact_iff`: no run releases what is not held or keeps what it should not, if and only if every
  code is as careful by itself: interleaving adds no leak and no fault.
* `Inv.alone`: a lock is with one thread at most.
* `Inv.finish`: where no code keeps anything and nobody tries in vain, all threads can come to
  their end from every state. `Inv.served` says when nobody does.
* `Inv.never_again`: a lock that a thread kept at its end is taken by nobody after that.
-/

namespace Lib

/-- What a thread still does. -/
inductive Code (ρ : Type*) where
  | done
  /-- Gets `r`, which cannot fail. -/
  | hold (r : ρ) (next : Code ρ)
  /-- Gets `r`, which can fail. -/
  | take (r : ρ) (fail next : Code ρ)
  /-- Gets `r`, and tries again while there is none left. It can fail for other reasons. -/
  | retry (r : ρ) (fail next : Code ρ)
  /-- Spins for `r`. -/
  | lock (r : ρ) (next : Code ρ)
  | release (r : ρ) (next : Code ρ)
  | check (fail next : Code ρ)
  deriving DecidableEq, Repr

namespace Code

variable {ρ : Type*}

/-- The labels at the end of a function: what each of them releases, in order. -/
def releaseAll (rs : List ρ) (next : Code ρ) : Code ρ := rs.foldr release next

/-- The steps that the code takes at most. -/
def size : Code ρ → Nat
  | done => 1
  | hold _ next => next.size + 1
  | take _ fail next => fail.size + next.size + 1
  | retry _ fail next => fail.size + next.size + 1
  | lock _ next => next.size + 1
  | release _ next => next.size + 1
  | check fail next => fail.size + next.size + 1

variable [DecidableEq ρ]

/-- The code takes a lock only while it holds none, and never as a resource. -/
def Flat (isLock : ρ → Bool) : List ρ → Code ρ → Prop
  | _, done => True
  | held, hold r next => isLock r = false ∧ Flat isLock (r :: held) next
  | held, take r fail next => isLock r = false ∧ Flat isLock held fail ∧
      Flat isLock (r :: held) next
  | held, retry r fail next => isLock r = false ∧ Flat isLock held fail ∧
      Flat isLock (r :: held) next
  | held, lock r next => isLock r = true ∧ (∀ x ∈ held, isLock x = false) ∧
      Flat isLock (r :: held) next
  | held, release r next => Flat isLock (held.erase r) next
  | held, check fail next => Flat isLock held fail ∧ Flat isLock held next

/-- The code releases a resource of its own only where it holds it, and what it still holds at its
end meets `P`. -/
def Ends (own : ρ → Prop) (P : List ρ → Prop) : List ρ → Code ρ → Prop
  | held, done => P held
  | held, hold r next => Ends own P (r :: held) next
  | held, take r fail next => Ends own P held fail ∧ Ends own P (r :: held) next
  | held, retry r fail next => Ends own P held fail ∧ Ends own P (r :: held) next
  | held, lock r next => Ends own P (r :: held) next
  | held, release r next => (own r → r ∈ held) ∧ Ends own P (held.erase r) next
  | held, check fail next => Ends own P held fail ∧ Ends own P held next

/-- What the code comes to, with what it holds there, meets `Q`. -/
def Always (Q : List ρ → Code ρ → Prop) : List ρ → Code ρ → Prop
  | held, done => Q held done
  | held, hold r next => Q held (hold r next) ∧ Always Q (r :: held) next
  | held, take r fail next =>
      Q held (take r fail next) ∧ Always Q held fail ∧ Always Q (r :: held) next
  | held, retry r fail next =>
      Q held (retry r fail next) ∧ Always Q held fail ∧ Always Q (r :: held) next
  | held, lock r next => Q held (lock r next) ∧ Always Q (r :: held) next
  | held, release r next => Q held (release r next) ∧ Always Q (held.erase r) next
  | held, check fail next => Q held (check fail next) ∧ Always Q held fail ∧ Always Q held next

/-- The code tries again only for `r`, once and inside the lock `l`, and has one `r` before. -/
def Nested (l r : ρ) : List ρ → Code ρ → Prop
  | held, retry x _ _ => x = r ∧ l ∈ held ∧ held.count r ≤ 1
  | held, _ => held.count r ≤ 1 + held.count l

/-- What the code gets there is not all in use, if nobody else has any of it. -/
def Fits (limit : ρ → Option Nat) : List ρ → Code ρ → Prop
  | held, take r _ _ => ∀ n, limit r = some n → held.count r < n
  | held, retry r _ _ => ∀ n, limit r = some n → held.count r < n
  | _, _ => True

variable {own own' : ρ → Prop} {P P' : List ρ → Prop} {Q : List ρ → Code ρ → Prop}

theorem Nested.le {l r : ρ} {c : Code ρ} {held : List ρ} (nested : c.Nested l r held) :
    held.count r ≤ 1 + held.count l := by
  cases c with
  | retry x fail next => exact nested.2.2.trans (Nat.le_add_right ..)
  | done | hold | take | lock | release | check => exact nested

theorem Always.here {c : Code ρ} {held : List ρ} (always : c.Always Q held) : Q held c := by
  cases c with
  | done => exact always
  | hold | take | retry | lock | release | check => exact always.1

theorem Ends.mono (fewer : ∀ r, own' r → own r) (weaker : ∀ held, P held → P' held) {c : Code ρ}
    {held : List ρ} (ends : c.Ends own P held) : c.Ends own' P' held := by
  induction c generalizing held with
  | done => exact weaker held ends
  | hold r next ih => exact ih ends
  | take r fail next ih_fail ih_next => exact ⟨ih_fail ends.1, ih_next ends.2⟩
  | retry r fail next ih_fail ih_next => exact ⟨ih_fail ends.1, ih_next ends.2⟩
  | lock r next ih => exact ih ends
  | release r next ih => exact ⟨fun mine => ends.1 (fewer r mine), ih ends.2⟩
  | check fail next ih_fail ih_next => exact ⟨ih_fail ends.1, ih_next ends.2⟩

/-- Labels that release all that is held, in any order. -/
theorem ends_releaseAll {rs held : List ρ} (all : held.Perm rs) (exit : P []) :
    (releaseAll rs done).Ends own P held := by
  induction rs generalizing held with
  | nil =>
      cases all.eq_nil
      exact exit
  | cons r rs ih =>
      have mem : r ∈ held := all.mem_iff.mpr List.mem_cons_self
      have rest : (held.erase r).Perm rs := by
        have erased := all.erase r
        rwa [List.erase_cons_head] at erased
      exact ⟨fun _ => mem, ih rest⟩

end Code

/-- A thread, and what it holds. -/
structure Thread (κ ρ : Type*) where
  name : κ
  code : Code ρ
  held : List ρ

structure Pool (ι κ ρ : Type*) where
  /-- What is in use. -/
  count : ρ → Nat := fun _ => 0
  threads : ι → Option (Thread κ ρ) := fun _ => none
  /-- The threads that have ended, and what each of them still held. -/
  ended : List (κ × List ρ) := []
  /-- What was released without being held. -/
  wrong : List (κ × ρ) := []

namespace Pool

variable {ι κ ρ : Type*}

inductive Act (ι κ : Type*) where
  | begin (i : ι) (k : κ)
  /-- The next access of a thread. What can fail does where `ok` is false. -/
  | step (i : ι) (ok : Bool)

section Step

variable [DecidableEq ι] [DecidableEq ρ] (limit : ρ → Option Nat)

/-- There is one more `r`. -/
def room (s : Pool ι κ ρ) (r : ρ) : Bool := (limit r).all fun n => s.count r < n

def goto (s : Pool ι κ ρ) (i : ι) (t : Thread κ ρ) : Pool ι κ ρ :=
  { s with threads := Function.update s.threads i (some t) }

def set (s : Pool ι κ ρ) (r : ρ) (n : Nat) : Pool ι κ ρ :=
  { s with count := Function.update s.count r n }

def advance (s : Pool ι κ ρ) (i : ι) (ok : Bool) (k : κ) (held : List ρ) :
    Code ρ → Option (Pool ι κ ρ)
  | .done => some { s with
      threads := Function.update s.threads i none, ended := (k, held) :: s.ended }
  | .hold r next => some ((s.set r (s.count r + 1)).goto i ⟨k, next, r :: held⟩)
  | .take r fail next => some <|
      if ok && s.room limit r then (s.set r (s.count r + 1)).goto i ⟨k, next, r :: held⟩
      else s.goto i ⟨k, fail, held⟩
  | .retry r fail next =>
      if s.room limit r then some <|
        if ok then (s.set r (s.count r + 1)).goto i ⟨k, next, r :: held⟩
        else s.goto i ⟨k, fail, held⟩
      else none
  | .lock r next => if s.count r = 0 then some ((s.set r 1).goto i ⟨k, next, r :: held⟩) else none
  | .release r next => some <| { s.set r (s.count r - 1) with
      wrong := if r ∈ held then s.wrong else (k, r) :: s.wrong }.goto i ⟨k, next, held.erase r⟩
  | .check fail next => some (s.goto i ⟨k, if ok then next else fail, held⟩)

/-- `code k` is what a thread runs that begins as `k`. -/
def step (code : κ → Code ρ) (s : Pool ι κ ρ) : Act ι κ → Option (Pool ι κ ρ)
  | .begin i k => match s.threads i with
      | some _ => none
      | none => some (s.goto i ⟨k, code k, []⟩)
  | .step i ok => match s.threads i with
      | some t => s.advance limit i ok t.name t.held t.code
      | none => none

end Step

/-- Nobody runs. -/
def Idle (s : Pool ι κ ρ) : Prop := ∀ i, s.threads i = none

/-- What a thread holds. -/
def heldBy (s : Pool ι κ ρ) (i : ι) : List ρ := (s.threads i).elim [] Thread.held

section Invariant

variable [DecidableEq ρ] {limit : ρ → Option Nat} {isLock : ρ → Bool} {own : ρ → Prop}
  {P : κ → List ρ → Prop} {code : κ → Code ρ} {s t : Pool ι κ ρ} {i j : ι} {r : ρ}

/-- The copies of `r` that the threads that ended have kept. -/
def kept (s : Pool ι κ ρ) (r : ρ) : Nat := (s.ended.map fun e => e.2.count r).sum

/-- The copies of `r` that a thread holds. -/
def weight (r : ρ) (t : Option (Thread κ ρ)) : Nat := (t.elim [] Thread.held).count r

variable [Fintype ι]

structure Inv (isLock : ρ → Bool) (own : ρ → Prop) (P : κ → List ρ → Prop) (s : Pool ι κ ρ) :
    Prop where
  counted : ∀ r, own r → s.count r = tally (weight r) s.threads + s.kept r
  flat : ∀ i t, s.threads i = some t → t.code.Flat isLock t.held
  ends : ∀ i t, s.threads i = some t → t.code.Ends own (P t.name) t.held
  kept : ∀ e ∈ s.ended, P e.1 e.2
  single : ∀ r, isLock r = true → s.count r ≤ 1
  wrong : ∀ e ∈ s.wrong, ¬ own e.2

variable [DecidableEq ι]

omit [Fintype ι] [DecidableEq ι] in
@[simp] theorem set_count (n : Nat) (x : ρ) :
    (s.set r n).count x = if x = r then n else s.count x := Function.update_apply ..

omit [DecidableEq ρ] [Fintype ι] in
/-- What holds of the threads holds after one of them has moved. -/
theorem forall_update {Q : Thread κ ρ → Prop} {f : ι → Option (Thread κ ρ)}
    {v : Option (Thread κ ρ)} (old : ∀ j u, f j = some u → Q u) (new : ∀ u, v = some u → Q u) :
    ∀ j u, Function.update f i v j = some u → Q u := by
  intro j u at_
  rcases eq_or_ne j i with rfl | ne
  · rw [Function.update_self] at at_
    exact new u at_
  · rw [Function.update_of_ne ne] at at_
    exact old j u at_

/-- A thread goes on or ends, and the counts with it. -/
theorem Inv.move (inv : Inv isLock own P s) {v : Option (Thread κ ρ)} {count : ρ → Nat}
    {ended : List (κ × List ρ)} {wrong : List (κ × ρ)}
    (balance : ∀ r, own r → count r + weight r (s.threads i) + s.kept r =
      s.count r + weight r v + (ended.map fun e => e.2.count r).sum)
    (flat : ∀ u, v = some u → u.code.Flat isLock u.held)
    (ends : ∀ u, v = some u → u.code.Ends own (P u.name) u.held) (kept : ∀ e ∈ ended, P e.1 e.2)
    (single : ∀ r, isLock r = true → count r ≤ 1) (strays : ∀ e ∈ wrong, ¬ own e.2) :
    Inv isLock own P ⟨count, Function.update s.threads i v, ended, wrong⟩ := by
  refine ⟨?_, forall_update inv.flat flat, forall_update inv.ends ends, kept, single, strays⟩
  intro r mine
  have moved := tally_update (weight r) s.threads i v
  have before := inv.counted r mine
  have after := balance r mine
  change count r = tally (weight r) (Function.update s.threads i v) +
    (ended.map fun e => e.2.count r).sum
  omega

/-- The counts stay with a thread that takes and releases nothing. -/
theorem Inv.still (inv : Inv isLock own P s) {u : Thread κ ρ} {c : Code ρ}
    (here : s.threads i = some u) (flat : c.Flat isLock u.held)
    (ends : c.Ends own (P u.name) u.held) : Inv isLock own P (s.goto i ⟨u.name, c, u.held⟩) := by
  refine inv.move (v := some ⟨u.name, c, u.held⟩) ?_ ?_ ?_ inv.kept inv.single inv.wrong
  · intro r _
    rw [here]
    rfl
  · rintro _ ⟨⟩
    exact flat
  · rintro _ ⟨⟩
    exact ends

/-- A thread gets one more resource. -/
theorem Inv.more (inv : Inv isLock own P s) {u : Thread κ ρ} {c : Code ρ}
    (here : s.threads i = some u) (flat : c.Flat isLock (r :: u.held))
    (ends : c.Ends own (P u.name) (r :: u.held)) (free : isLock r = true → s.count r = 0) :
    Inv isLock own P ((s.set r (s.count r + 1)).goto i ⟨u.name, c, r :: u.held⟩) := by
  refine inv.move (v := some ⟨u.name, c, r :: u.held⟩) ?_ ?_ ?_ inv.kept ?_ inv.wrong
  · intro x _
    have mine : weight x (s.threads i) = u.held.count x := by rw [here]; rfl
    have new : weight x (some ⟨u.name, c, r :: u.held⟩ : Option (Thread κ ρ)) =
        (r :: u.held).count x := rfl
    rw [mine, new, List.count_cons, set_count]
    rcases eq_or_ne x r with rfl | ne
    · simp only [if_true, beq_self_eq_true]
      change _ = _ + s.kept x
      omega
    · simp only [if_neg ne, beq_eq_false_iff_ne.mpr ne.symm, Bool.false_eq_true, if_false]
      rfl
  · rintro _ ⟨⟩
    exact flat
  · rintro _ ⟨⟩
    exact ends
  · intro x lock
    rw [set_count]
    split
    · rename_i same
      rw [free (same ▸ lock)]
    · exact inv.single x lock

omit [DecidableEq ι] in
/-- What a thread holds is in use. -/
theorem Inv.in_use (inv : Inv isLock own P s) (mine : own r) {u : Thread κ ρ}
    (here : s.threads i = some u) : u.held.count r + s.kept r ≤ s.count r := by
  have one := le_tally (weight r) s.threads i
  have all := inv.counted r mine
  rw [here] at one
  have own : weight r (some u) = u.held.count r := rfl
  omega

/-- A thread releases what it holds, or what is not its own. -/
theorem Inv.less (inv : Inv isLock own P s) {u : Thread κ ρ} {c : Code ρ} {wrong : List (κ × ρ)}
    (here : s.threads i = some u) (holds : own r → r ∈ u.held)
    (flat : c.Flat isLock (u.held.erase r)) (ends : c.Ends own (P u.name) (u.held.erase r))
    (strays : ∀ e ∈ wrong, ¬ own e.2) :
    Inv isLock own P ({ s.set r (s.count r - 1) with wrong }.goto i
      ⟨u.name, c, u.held.erase r⟩) := by
  refine inv.move (v := some ⟨u.name, c, u.held.erase r⟩) ?_ ?_ ?_ inv.kept ?_ strays
  · intro x mine
    have used := inv.in_use mine here
    have before : weight x (s.threads i) = u.held.count x := by rw [here]; rfl
    have new : weight x (some ⟨u.name, c, u.held.erase r⟩ : Option (Thread κ ρ)) =
        (u.held.erase r).count x := rfl
    rw [before, new, List.count_erase, set_count]
    rcases eq_or_ne x r with rfl | ne
    · have some_ := List.count_pos_iff.mpr (holds mine)
      simp only [if_true, beq_self_eq_true]
      change _ = _ + s.kept x
      omega
    · simp only [if_neg ne, beq_eq_false_iff_ne.mpr ne.symm, Bool.false_eq_true, if_false]
      rfl
  · rintro _ ⟨⟩
    exact flat
  · rintro _ ⟨⟩
    exact ends
  · intro x lock
    have le := inv.single x lock
    rw [set_count]
    split
    · rename_i same
      subst same
      omega
    · exact le

/-- One access of a thread. -/
theorem Inv.advance (inv : Inv isLock own P s) {ok : Bool} {u : Thread κ ρ}
    (here : s.threads i = some u) (went : s.advance limit i ok u.name u.held u.code = some t) :
    Inv isLock own P t := by
  have flat := inv.flat i u here
  have ends := inv.ends i u here
  cases at_ : u.code with
  | done =>
      rw [at_] at went ends
      cases went
      refine inv.move (v := none) ?_ nofun nofun ?_ inv.single inv.wrong
      · intro r _
        have mine : weight r (s.threads i) = u.held.count r := by rw [here]; rfl
        have gone : weight r (none : Option (Thread κ ρ)) = 0 := rfl
        rw [mine, gone, List.map_cons, List.sum_cons]
        change _ + s.kept r = _ + 0 + (u.held.count r + s.kept r)
        omega
      · intro e mem
        rcases List.mem_cons.mp mem with rfl | mem
        · exact ends
        · exact inv.kept e mem
  | hold r next =>
      rw [at_] at went flat ends
      cases went
      exact inv.more here flat.2 ends (by simp [flat.1])
  | take r fail next =>
      rw [at_] at went flat ends
      obtain ⟨plain, flat_fail, flat_next⟩ := flat
      simp only [Pool.advance] at went
      split at went <;> cases went
      · exact inv.more here flat_next ends.2 (by simp [plain])
      · exact inv.still here flat_fail ends.1
  | retry r fail next =>
      rw [at_] at went flat ends
      obtain ⟨plain, flat_fail, flat_next⟩ := flat
      simp only [Pool.advance] at went
      split at went
      · split at went <;> cases went
        · exact inv.more here flat_next ends.2 (by simp [plain])
        · exact inv.still here flat_fail ends.1
      · cases went
  | lock r next =>
      rw [at_] at went flat ends
      simp only [Pool.advance] at went
      split at went
      · rename_i free
        cases went
        have one : s.set r 1 = s.set r (s.count r + 1) := by rw [free]
        rw [one]
        exact inv.more here flat.2.2 ends fun _ => free
      · cases went
  | release r next =>
      rw [at_] at went flat ends
      obtain ⟨holds, ends⟩ := ends
      cases went
      refine inv.less here holds flat ends ?_
      intro e mem
      split at mem
      · exact inv.wrong e mem
      · rename_i off
        rcases List.mem_cons.mp mem with rfl | mem
        · exact fun mine => off (holds mine)
        · exact inv.wrong e mem
  | check fail next =>
      rw [at_] at went flat ends
      cases ok with
      | true =>
          cases went
          exact inv.still here flat.2 ends.2
      | false =>
          cases went
          exact inv.still here flat.1 ends.1

/-- One step. -/
theorem Inv.next (flat : ∀ k, (code k).Flat isLock []) (ends : ∀ k, (code k).Ends own (P k) [])
    (inv : Inv isLock own P s) {a : Act ι κ} (went : step limit code s a = some t) :
    Inv isLock own P t := by
  cases a with
  | begin i k =>
      simp only [Pool.step] at went
      split at went
      · cases went
      · rename_i off
        cases went
        refine inv.move (v := some ⟨k, code k, []⟩) ?_ ?_ ?_ inv.kept inv.single inv.wrong
        · intro r _
          rw [off]
          rfl
        · rintro _ ⟨⟩
          exact flat k
        · rintro _ ⟨⟩
          exact ends k
  | step i ok =>
      simp only [Pool.step] at went
      split at went
      · rename_i u here
        exact inv.advance here went
      · cases went

omit [DecidableEq ι] in
theorem inv_start : Inv isLock own P ({} : Pool ι κ ρ) :=
  ⟨fun _ _ => (tally_eq_zero fun _ => rfl).symm, nofun, nofun, nofun, fun _ _ => Nat.zero_le 1,
    nofun⟩

/-- **Runs.** -/
theorem inv_run (flat : ∀ k, (code k).Flat isLock []) (ends : ∀ k, (code k).Ends own (P k) [])
    (inv : Inv isLock own P s) {as : List (Act ι κ)} (ran : run (step limit code) s as = some t) :
    Inv isLock own P t :=
  run_inv_all (fun _ _ _ inv went => inv.next flat ends went) inv ran

omit [DecidableEq ι] in
/-- A lock is with one thread at most. -/
theorem Inv.alone (inv : Inv isLock own P s) (lock : isLock r = true) (counts : own r)
    (mine : r ∈ s.heldBy i) (yours : r ∈ s.heldBy j) : i = j := by
  classical
  by_contra ne
  have all := inv.counted r counts
  have one := inv.single r lock
  have some_ : 0 < weight r (s.threads i) := List.count_pos_iff.mpr mine
  have other : 0 < weight r (s.threads j) := List.count_pos_iff.mpr yours
  have le := le_tally (weight r) s.threads i
  have none := tally_sole (w := weight r) (f := s.threads) (i := i) (by omega) (by omega)
    (Ne.symm ne)
  omega

omit [DecidableEq ι] in
/-- A lock that was kept is with nobody. -/
theorem Inv.dead (inv : Inv isLock own P s) (lock : isLock r = true) (counts : own r)
    {e : κ × List ρ} (gone : e ∈ s.ended) (mem : r ∈ e.2) : r ∉ s.heldBy i := by
  intro mine
  have all := inv.counted r counts
  have one := inv.single r lock
  have holds : 0 < weight r (s.threads i) := List.count_pos_iff.mpr mine
  have le := le_tally (weight r) s.threads i
  have part : e.2.count r ≤ s.kept r :=
    List.single_le_sum (fun _ _ => Nat.zero_le _) _ (List.mem_map_of_mem gone)
  have some_ : 0 < e.2.count r := List.count_pos_iff.mpr mem
  omega

omit [Fintype ι] in
/-- An access ends the thread, or brings it on in its code. -/
theorem advance_cases {ok : Bool} {k : κ} {held : List ρ} {c : Code ρ}
    (went : s.advance limit i ok k held c = some t) :
    (t.threads = Function.update s.threads i none ∧ t.ended = (k, held) :: s.ended) ∨
    ∃ c' held', (∀ Q, c.Always Q held → c'.Always Q held') ∧ t.ended = s.ended ∧
      t.threads = Function.update s.threads i (some ⟨k, c', held'⟩) := by
  cases c with
  | done =>
      cases went
      exact .inl ⟨rfl, rfl⟩
  | hold r next =>
      cases went
      exact .inr ⟨_, _, fun _ always => always.2, rfl, rfl⟩
  | take r fail next =>
      simp only [advance] at went
      split at went <;> cases went
      · exact .inr ⟨_, _, fun _ always => always.2.2, rfl, rfl⟩
      · exact .inr ⟨_, _, fun _ always => always.2.1, rfl, rfl⟩
  | retry r fail next =>
      simp only [advance] at went
      split at went
      · split at went <;> cases went
        · exact .inr ⟨_, _, fun _ always => always.2.2, rfl, rfl⟩
        · exact .inr ⟨_, _, fun _ always => always.2.1, rfl, rfl⟩
      · cases went
  | lock r next =>
      simp only [advance] at went
      split at went <;> cases went
      exact .inr ⟨_, _, fun _ always => always.2, rfl, rfl⟩
  | release r next =>
      cases went
      exact .inr ⟨_, _, fun _ always => always.2, rfl, rfl⟩
  | check fail next =>
      cases ok with
      | true =>
          cases went
          exact .inr ⟨_, _, fun _ always => always.2.2, rfl, rfl⟩
      | false =>
          cases went
          exact .inr ⟨_, _, fun _ always => always.2.1, rfl, rfl⟩

omit [Fintype ι] in
/-- What a thread that ended has kept, it has kept for good. -/
theorem ended_run {as : List (Act ι κ)} (ran : run (step limit code) s as = some t)
    {e : κ × List ρ} (mem : e ∈ s.ended) : e ∈ t.ended := by
  refine run_inv_all (I := fun t : Pool ι κ ρ => e ∈ t.ended) ?_ mem ran
  intro u a v mem went
  cases a with
  | begin i k =>
      simp only [step] at went
      split at went <;> cases went
      exact mem
  | step i ok =>
      simp only [step] at went
      split at went
      · rcases advance_cases went with ⟨-, gone⟩ | ⟨-, -, -, same, -⟩
        · rw [gone]
          exact List.mem_cons_of_mem _ mem
        · rwa [same]
      · cases went

/-- A lock that a thread kept at its end is taken by nobody after that. -/
theorem Inv.never_again (flat : ∀ k, (code k).Flat isLock [])
    (ends : ∀ k, (code k).Ends own (P k) []) (inv : Inv isLock own P s) (lock : isLock r = true)
    (counts : own r) {e : κ × List ρ} (gone : e ∈ s.ended) (mem : r ∈ e.2) {as : List (Act ι κ)}
    (ran : run (step limit code) s as = some t) (i : ι) : r ∉ t.heldBy i :=
  (inv_run flat ends inv ran).dead lock counts (ended_run ran gone) mem

/-- Each thread is where `Q` holds, and comes to where it does. -/
def Always (Q : List ρ → Code ρ → Prop) (s : Pool ι κ ρ) : Prop :=
  ∀ i u, s.threads i = some u → u.code.Always Q u.held

omit [Fintype ι] in
theorem Always.next {Q : List ρ → Code ρ → Prop} (each : ∀ k, (code k).Always Q [])
    (always : s.Always Q) {a : Act ι κ} (went : step limit code s a = some t) : t.Always Q := by
  cases a with
  | begin i k =>
      simp only [step] at went
      split at went <;> cases went
      refine forall_update always ?_
      rintro _ ⟨⟩
      exact each k
  | step i ok =>
      simp only [step] at went
      split at went
      · rename_i u here
        unfold Always
        rcases advance_cases went with ⟨threads, -⟩ | ⟨c', held', moves, -, threads⟩
        · rw [threads]
          exact forall_update always nofun
        · rw [threads]
          refine forall_update always ?_
          rintro _ ⟨⟩
          exact moves Q (always i u here)
      · cases went

/-- The steps that the threads still take at most. -/
def work (s : Pool ι κ ρ) : Nat := tally (fun t => t.elim 0 fun t => t.code.size) s.threads

/-- A thread takes a step if it neither spins for a lock nor tries in vain. -/
theorem enabled (code : κ → Code ρ) {u : Thread κ ρ} (here : s.threads i = some u)
    (free : ∀ r next, u.code = .lock r next → s.count r = 0)
    (served : ∀ r fail next, u.code = .retry r fail next → s.room limit r = true) :
    ∃ t, step limit code s (.step i true) = some t ∧ t.work < s.work := by
  have less {count : ρ → Nat} {ended : List (κ × List ρ)} {wrong : List (κ × ρ)}
      {v : Option (Thread κ ρ)} (small : (v.elim 0 fun t => t.code.size) < u.code.size) :
      work ⟨count, Function.update s.threads i v, ended, wrong⟩ < s.work := by
    have moved := tally_update (fun t : Option (Thread κ ρ) => t.elim 0 fun t => t.code.size)
      s.threads i v
    rw [here] at moved
    change _ + u.code.size = s.work + _ at moved
    change tally _ (Function.update s.threads i v) < s.work
    omega
  simp only [step, here]
  cases at_ : u.code with
  | done => exact ⟨_, rfl, less (by rw [at_]; exact Nat.succ_pos _)⟩
  | hold r next => exact ⟨_, rfl, less (by rw [at_]; exact Nat.lt_succ_self _)⟩
  | take r fail next =>
      simp only [advance]
      split
      · exact ⟨_, rfl, less (by simp only [at_, Option.elim_some, Code.size]; omega)⟩
      · exact ⟨_, rfl, less (by simp only [at_, Option.elim_some, Code.size]; omega)⟩
  | retry r fail next =>
      simp only [advance, served r fail next at_, if_true]
      exact ⟨_, rfl, less (by simp only [at_, Option.elim_some, Code.size]; omega)⟩
  | lock r next =>
      simp only [advance, free r next at_, if_true]
      exact ⟨_, rfl, less (by simp only [at_, Option.elim_some, Code.size]; omega)⟩
  | release r next => exact ⟨_, rfl, less (by simp only [at_, Option.elim_some, Code.size]; omega)⟩
  | check fail next =>
      exact ⟨_, rfl, less (by simp only [at_, Option.elim_some, if_true, Code.size]; omega)⟩

omit [DecidableEq ι] in
theorem Inv.kept_eq_zero (inv : Inv isLock own (fun _ held => held = []) s) : s.kept r = 0 := by
  refine List.sum_eq_zero fun n mem => ?_
  obtain ⟨e, gone, rfl⟩ := List.mem_map.mp mem
  rw [inv.kept e gone, List.count_nil]

/-- Nobody tries in vain. -/
def Served (limit : ρ → Option Nat) (s : Pool ι κ ρ) : Prop :=
  ∀ i u r fail next, s.threads i = some u → u.code = .retry r fail next → s.room limit r = true

/-- Where nothing was kept and nobody tries in vain, somebody has a step to take. -/
theorem Inv.progress (code : κ → Code ρ)
    (inv : Inv isLock (fun _ => True) (fun _ held => held = []) s) (served : s.Served limit)
    (busy : ¬ s.Idle) : ∃ i t, step limit code s (.step i true) = some t ∧ t.work < s.work := by
  obtain ⟨i, running⟩ : ∃ i, s.threads i ≠ none := by simpa [Idle] using busy
  obtain ⟨u, here⟩ := Option.ne_none_iff_exists'.mp running
  by_cases spins : ∃ r next, u.code = .lock r next ∧ s.count r ≠ 0
  · obtain ⟨r, next, at_, taken⟩ := spins
    have lock : isLock r = true := by
      have flat := inv.flat i u here
      rw [at_] at flat
      exact flat.1
    have nothing := inv.kept_eq_zero (r := r)
    -- whoever has the lock does not spin
    obtain ⟨j, holds⟩ : ∃ j, weight r (s.threads j) ≠ 0 := by
      by_contra none
      have zero := tally_eq_zero (w := weight r) (f := s.threads) (by simpa using none)
      have all := inv.counted r trivial
      omega
    cases there : s.threads j with
    | none =>
        rw [there] at holds
        exact absurd rfl holds
    | some v =>
        rw [there] at holds
        have mem : r ∈ v.held := List.count_pos_iff.mp (Nat.pos_of_ne_zero holds)
        obtain ⟨t, went, less⟩ := enabled code there (by
          intro x next at_
          have flat := inv.flat j v there
          rw [at_] at flat
          cases lock.symm.trans (flat.2.1 r mem)) (served j v · · · there)
        exact ⟨j, t, went, less⟩
  · have free : ∀ r next, u.code = .lock r next → s.count r = 0 := by
      intro r next at_
      by_contra taken
      exact spins ⟨r, next, at_, taken⟩
    obtain ⟨t, went, less⟩ := enabled code here free (served i u · · · here)
    exact ⟨i, t, went, less⟩

omit [DecidableEq ι] in
/-- Where nothing was kept, nothing is in use when nobody runs. -/
theorem Inv.unused (inv : Inv isLock (fun _ => True) (fun _ held => held = []) s) (idle : s.Idle)
    (r : ρ) : s.count r = 0 := by
  rw [inv.counted r trivial, inv.kept_eq_zero, tally_eq_zero fun i => ?_]
  rw [idle i]
  rfl

/-- **The end.** Where no code keeps anything and nobody ever tries in vain, the threads come to
their end from every state: what they try succeeds, and somebody always has a step to take. -/
theorem Inv.finish {Q : List ρ → Code ρ → Prop} (flat : ∀ k, (code k).Flat isLock [])
    (ends : ∀ k, (code k).Ends (fun _ => True) (fun held => held = []) [])
    (each : ∀ k, (code k).Always Q [])
    (serves : ∀ s : Pool ι κ ρ, Inv isLock (fun _ => True) (fun _ held => held = []) s →
      s.Always Q → s.Served limit)
    (inv : Inv isLock (fun _ => True) (fun _ held => held = []) s) (always : s.Always Q) :
    ∃ as t, (∀ a ∈ as, ∃ i, a = .step i true) ∧ run (step limit code) s as = some t ∧ t.Idle := by
  induction left : s.work using Nat.strong_induction_on generalizing s with
  | _ n ih =>
      by_cases idle : s.Idle
      · exact ⟨[], s, nofun, rfl, idle⟩
      · obtain ⟨i, u, went, less⟩ := inv.progress code (serves s inv always) idle
        obtain ⟨as, t, steps, ran, idle⟩ := ih u.work (left ▸ less) (inv.next flat ends went)
          (always.next each went) rfl
        refine ⟨.step i true :: as, t, ?_, ?_, idle⟩
        · intro a mem
          rcases List.mem_cons.mp mem with rfl | mem
          · exact ⟨i, rfl⟩
          · exact steps a mem
        · rw [run, went]
          exact ran

omit [DecidableEq ι] in
/-- Whoever tries for one more `r` is inside the lock `l`, and outside of it nobody has two: where
there are more of them than threads, nobody tries in vain. -/
theorem Inv.served {l : ρ} {m : Nat} (inv : Inv isLock (fun _ => True) (fun _ held => held = []) s)
    (lock : isLock l = true) (limited : limit r = some m) (few : Fintype.card ι < m)
    (nested : s.Always (Code.Nested l r)) : s.Served limit := by
  intro i u x fail next here at_
  have nest := (nested i u here).here
  rw [at_] at nest
  obtain ⟨rfl, inside, one⟩ := nest
  have each (j : ι) : weight x (s.threads j) ≤ 1 := by
    cases there : s.threads j with
    | none => exact Nat.zero_le 1
    | some v =>
        rcases eq_or_ne i j with rfl | ne
        · cases here.symm.trans there
          exact one
        · have outside : l ∉ v.held := by
            intro mem
            refine ne (inv.alone lock trivial ?_ ?_)
            · simpa [heldBy, here] using inside
            · simpa [heldBy, there] using mem
          have le := (nested j v there).here.le
          rw [List.count_eq_zero_of_not_mem outside] at le
          exact le
  have all := inv.counted x trivial
  have total : tally (weight x) s.threads ≤ Fintype.card ι := by
    refine (Finset.sum_le_sum fun j _ => each j).trans ?_
    simp
  rw [inv.kept_eq_zero] at all
  simp only [room, limited, Option.all_some, decide_eq_true_eq]
  omega

/-! ### Exactness -/

omit [Fintype ι] in
/-- A thread that runs alone shows what its code does. -/
theorem solo (k : κ) (c : Code ρ) : ∀ (held : List ρ) (s : Pool ι κ ρ),
    s.threads = Function.update (fun _ => none) i (some ⟨k, c, held⟩) →
    (∀ r, s.count r = held.count r) → c.Flat isLock held → c.Always (Code.Fits limit) held →
    (∀ as t, run (step limit code) s as = some t →
      (∀ e ∈ t.wrong, ¬ own e.2) ∧ ∀ e ∈ t.ended, P e.1 e.2) →
    c.Ends own (P k) held := by
  have later {s s' : Pool ι κ ρ} {a : Act ι κ} (went : step limit code s a = some s')
      (sound : ∀ as t, run (step limit code) s as = some t →
        (∀ e ∈ t.wrong, ¬ own e.2) ∧ ∀ e ∈ t.ended, P e.1 e.2) :
      ∀ as t, run (step limit code) s' as = some t →
        (∀ e ∈ t.wrong, ¬ own e.2) ∧ ∀ e ∈ t.ended, P e.1 e.2 := by
    intro as t ran
    refine sound (a :: as) t ?_
    rw [run, went]
    exact ran
  have grown {held : List ρ} {s : Pool ι κ ρ} (counted : ∀ r, s.count r = held.count r) {r : ρ} :
      ∀ x, (s.set r (s.count r + 1)).count x = (r :: held).count x := by
    intro x
    rw [set_count, List.count_cons, counted, counted]
    rcases eq_or_ne x r with rfl | ne
    · simp
    · simp [ne, ne.symm]
  have fits {held : List ρ} {s : Pool ι κ ρ} (counted : ∀ r, s.count r = held.count r) {r : ρ}
      (room : ∀ n, limit r = some n → held.count r < n) : s.room limit r = true := by
    unfold Pool.room
    cases at_ : limit r with
    | none => rfl
    | some n => simpa [counted] using room n at_
  induction c with
  | done =>
      intro held s alone counted _ _ sound
      have here : s.threads i = some ⟨k, .done, held⟩ := by rw [alone, Function.update_self]
      have went : step limit code s (.step i true) = some { s with
          threads := Function.update s.threads i none, ended := (k, held) :: s.ended } := by
        simp only [step, here, advance]
      exact (later went sound [] _ rfl).2 (k, held) List.mem_cons_self
  | hold r next ih =>
      intro held s alone counted flat room sound
      have here : s.threads i = some ⟨k, .hold r next, held⟩ := by rw [alone, Function.update_self]
      refine ih (r :: held) ((s.set r (s.count r + 1)).goto i ⟨k, next, r :: held⟩) ?_ ?_ flat.2
        room.2 (later (a := .step i true) (by simp [step, here, advance]) sound)
      · simp [goto, set, alone]
      · exact grown counted
  | take r fail next ih_fail ih_next =>
      intro held s alone counted flat room sound
      have here : s.threads i = some ⟨k, .take r fail next, held⟩ := by
        rw [alone, Function.update_self]
      have more := fits counted room.1
      constructor
      · refine ih_fail held (s.goto i ⟨k, fail, held⟩) ?_ counted flat.2.1 room.2.1
          (later (a := .step i false) (by simp [step, here, advance]) sound)
        simp [goto, alone]
      · refine ih_next (r :: held) ((s.set r (s.count r + 1)).goto i ⟨k, next, r :: held⟩) ?_ ?_
          flat.2.2 room.2.2
          (later (a := .step i true) (by simp [step, here, advance, more]) sound)
        · simp [goto, set, alone]
        · exact grown counted
  | retry r fail next ih_fail ih_next =>
      intro held s alone counted flat room sound
      have here : s.threads i = some ⟨k, .retry r fail next, held⟩ := by
        rw [alone, Function.update_self]
      have more := fits counted room.1
      constructor
      · refine ih_fail held (s.goto i ⟨k, fail, held⟩) ?_ counted flat.2.1 room.2.1
          (later (a := .step i false) (by simp [step, here, advance, more]) sound)
        simp [goto, alone]
      · refine ih_next (r :: held) ((s.set r (s.count r + 1)).goto i ⟨k, next, r :: held⟩) ?_ ?_
          flat.2.2 room.2.2
          (later (a := .step i true) (by simp [step, here, advance, more]) sound)
        · simp [goto, set, alone]
        · exact grown counted
  | lock r next ih =>
      intro held s alone counted flat room sound
      have here : s.threads i = some ⟨k, .lock r next, held⟩ := by rw [alone, Function.update_self]
      have off : r ∉ held := by
        intro mem
        cases flat.1.symm.trans (flat.2.1 r mem)
      have free : s.count r = 0 := by rw [counted, List.count_eq_zero_of_not_mem off]
      refine ih (r :: held) ((s.set r 1).goto i ⟨k, next, r :: held⟩) ?_ ?_ flat.2.2 room.2
        (later (a := .step i true) (by simp [step, here, advance, free]) sound)
      · simp [goto, set, alone]
      · have one := grown counted (r := r)
        rw [free] at one
        exact one
  | release r next ih =>
      intro held s alone counted flat room sound
      have here : s.threads i = some ⟨k, .release r next, held⟩ := by
        rw [alone, Function.update_self]
      have went : step limit code s (.step i true) = some ({ s.set r (s.count r - 1) with
          wrong := if r ∈ held then s.wrong else (k, r) :: s.wrong }.goto i
            ⟨k, next, held.erase r⟩) := by simp [step, here, advance]
      have holds (mine : own r) : r ∈ held := by
        by_contra off
        refine (later went sound [] _ rfl).1 (k, r) ?_ mine
        simp [goto, off]
      refine ⟨holds, ih (held.erase r) _ ?_ ?_ flat room.2 (later went sound)⟩
      · simp [goto, set, alone]
      · intro x
        change (s.set r (s.count r - 1)).count x = (held.erase r).count x
        rw [set_count, List.count_erase, counted, counted]
        rcases eq_or_ne x r with rfl | ne
        · simp
        · simp [ne, ne.symm]
  | check fail next ih_fail ih_next =>
      intro held s alone counted flat room sound
      have here : s.threads i = some ⟨k, .check fail next, held⟩ := by
        rw [alone, Function.update_self]
      constructor
      · refine ih_fail held (s.goto i ⟨k, fail, held⟩) ?_ counted flat.1 room.2.1
          (later (a := .step i false) (by simp [step, here, advance]) sound)
        simp [goto, alone]
      · refine ih_next held (s.goto i ⟨k, next, held⟩) ?_ counted flat.2 room.2.2
          (later (a := .step i true) (by simp [step, here, advance]) sound)
        simp [goto, alone]

/-- **Exactness.** In no run of any number of threads is something of their own released that is not
held, and each thread that has ended has kept only what meets `P`, if and only if each code does so
by itself, whatever fails. A code that does not must find room when it is alone. -/
theorem exact_iff [Nonempty ι] (flat : ∀ k, (code k).Flat isLock [])
    (fits : ∀ k, ¬ (code k).Ends own (P k) [] → (code k).Always (Code.Fits limit) []) :
    (∀ as (s : Pool ι κ ρ), run (step limit code) {} as = some s →
      (∀ e ∈ s.wrong, ¬ own e.2) ∧ ∀ e ∈ s.ended, P e.1 e.2) ↔
        ∀ k, (code k).Ends own (P k) [] := by
  constructor
  · intro sound k
    by_contra bad
    obtain ⟨i⟩ := ‹Nonempty ι›
    refine bad (solo k (code k) [] (({} : Pool ι κ ρ).goto i ⟨k, code k, []⟩) rfl (fun _ => rfl)
      (flat k) (fits k bad) fun as t ran => sound (.begin i k :: as) t ran)
  · intro ends as s ran
    have inv := inv_run flat ends inv_start ran
    exact ⟨inv.wrong, inv.kept⟩

end Invariant

end Pool

end Lib
