import Mathlib.Data.List.Basic
import Mathlib.Data.List.Infix
import Mathlib.Data.Nat.Init
import Mathlib.Logic.Relation

/-!
Procedures that log what they access, may fail and may loop.

A procedure is run with a number of turns that each of its loops may take. More turns continue the
log, and change nothing once the procedure has ended.

* `returns_bind`, `fails_bind`, `sees_bind`: how one procedure follows another.
* `returns_iterate`, `fails_iterate`, `sees_iterate`: a loop, by the states it comes to.
* `carefulFrom_bind`: a procedure that is careful writes nothing after a bad access, and fails.
-/

namespace Lib

/-- How a procedure ends. -/
inductive Outcome (β : Type*) where
  | running
  | failed
  | done (b : β)
  deriving DecidableEq, Repr

/-- The accesses so far. -/
structure Call (α β : Type*) where
  log : List α
  out : Outcome β

namespace Call

variable {α β γ : Type*}

def bind (x : Call α β) (f : β → Call α γ) : Call α γ :=
  match x.out with
  | .running => ⟨x.log, .running⟩
  | .failed => ⟨x.log, .failed⟩
  | .done b => ⟨x.log ++ (f b).log, (f b).out⟩

variable {x : Call α β} {f : β → Call α γ} {b : β}

theorem bind_running (h : x.out = .running) : x.bind f = ⟨x.log, .running⟩ := by
  rw [bind, h]

theorem bind_failed (h : x.out = .failed) : x.bind f = ⟨x.log, .failed⟩ := by
  rw [bind, h]

theorem bind_done (h : x.out = .done b) : x.bind f = ⟨x.log ++ (f b).log, (f b).out⟩ := by
  rw [bind, h]

theorem log_bind_left : x.log <+: (x.bind f).log := by
  cases h : x.out with
  | running => rw [bind_running h]
  | failed => rw [bind_failed h]
  | done b =>
      rw [bind_done h]
      exact List.prefix_append _ _

end Call

/-- A procedure, by the number of turns for each loop. -/
structure Proc (α β : Type*) where
  run : ℕ → Call α β
  grows : ∀ n, (run n).log <+: (run (n + 1)).log
  settled : ∀ n, (run n).out ≠ .running → run (n + 1) = run n

namespace Proc

universe u v

section Basic

variable {α β γ σ : Type*}

/-- A procedure without loops. -/
def ofCall (x : Call α β) : Proc α β where
  run _ := x
  grows _ := List.prefix_refl _
  settled _ _ := rfl

protected def bind (x : Proc α β) (f : β → Proc α γ) : Proc α γ where
  run n := (x.run n).bind fun b => (f b).run n
  grows n := by
    cases h : (x.run n).out with
    | running =>
        rw [Call.bind_running h]
        exact (x.grows n).trans Call.log_bind_left
    | failed =>
        rw [x.settled n (by rw [h]; nofun), Call.bind_failed h, Call.bind_failed h]
    | done b =>
        rw [x.settled n (by rw [h]; nofun), Call.bind_done h, Call.bind_done h]
        exact (List.prefix_append_right_inj _).mpr ((f b).grows n)
  settled n ended := by
    cases h : (x.run n).out with
    | running =>
        rw [Call.bind_running h] at ended
        exact absurd rfl ended
    | failed =>
        rw [x.settled n (by rw [h]; nofun), Call.bind_failed h, Call.bind_failed h]
    | done b =>
        rw [Call.bind_done h] at ended
        rw [x.settled n (by rw [h]; nofun), Call.bind_done h, Call.bind_done h,
          (f b).settled n ended]

instance : Monad (Proc α) where
  pure b := ofCall ⟨[], .done b⟩
  bind := Proc.bind

@[ext]
theorem ext {x y : Proc α β} (h : x.run = y.run) : x = y := by
  cases x
  cases y
  cases h
  rfl

/-- Fail where `c` does not hold. -/
def check (c : Bool) : Proc α Unit := ofCall ⟨[], if c then .done () else .failed⟩

def access (a : α) : Proc α Unit := ofCall ⟨[a], .done ()⟩

/-- The turns of a loop; a turn goes on from a state or ends the loop. -/
def iterateRun (body : σ → Call α (σ ⊕ β)) : ℕ → σ → Call α β
  | 0, _ => ⟨[], .running⟩
  | n + 1, s => (body s).bind fun
      | .inl s => iterateRun body n s
      | .inr b => ⟨[], .done b⟩

/-- A loop. -/
def iterate (body : σ → Call α (σ ⊕ β)) (s : σ) : Proc α β where
  run n := iterateRun body n s
  grows n := by
    induction n generalizing s with
    | zero => exact List.nil_prefix
    | succ n ih =>
        rw [iterateRun, iterateRun]
        cases h : (body s).out with
        | running => rw [Call.bind_running h, Call.bind_running h]
        | failed => rw [Call.bind_failed h, Call.bind_failed h]
        | done r =>
            rw [Call.bind_done h, Call.bind_done h]
            cases r with
            | inl s => exact (List.prefix_append_right_inj _).mpr (ih s)
            | inr b => exact List.prefix_refl _
  settled n := by
    induction n generalizing s with
    | zero =>
        intro ended
        exact absurd rfl ended
    | succ n ih =>
        intro ended
        rw [iterateRun] at ended
        rw [iterateRun, iterateRun]
        cases h : (body s).out with
        | running => rw [Call.bind_running h, Call.bind_running h]
        | failed => rw [Call.bind_failed h, Call.bind_failed h]
        | done r =>
            rw [Call.bind_done h] at ended
            rw [Call.bind_done h, Call.bind_done h]
            cases r with
            | inl s => simp only [ih s ended]
            | inr b => rfl

/-! ### How a procedure ends -/

/-- The procedure returns `b`. -/
def Returns (x : Proc α β) (b : β) : Prop := ∃ n, (x.run n).out = .done b

def Fails (x : Proc α β) : Prop := ∃ n, (x.run n).out = .failed

/-- An access with `P` is made. -/
def Sees (P : α → Prop) (x : Proc α β) : Prop := ∃ n, ∃ a ∈ (x.run n).log, P a

end Basic

section Rules

variable {α : Type u} {β γ : Type v} {x : Proc α β} {f : β → Proc α γ} {P : α → Prop} {a : α}
  {b b' : β} {c : γ} {m n : ℕ}

theorem log_le (le : m ≤ n) : (x.run m).log <+: (x.run n).log := by
  induction n, le using Nat.le_induction with
  | base => exact List.prefix_refl _
  | succ n _ ih => exact ih.trans (x.grows n)

/-- Nothing changes once the procedure has ended. -/
theorem run_of_ended (ended : (x.run m).out ≠ .running) (le : m ≤ n) : x.run n = x.run m := by
  induction n, le using Nat.le_induction with
  | base => rfl
  | succ n _ ih =>
      rw [← ih] at ended ⊢
      exact x.settled n ended

/-- Two runs that have ended are the same. -/
theorem run_unique (hm : (x.run m).out ≠ .running) (hn : (x.run n).out ≠ .running) :
    x.run m = x.run n := by
  rcases Nat.le_total m n with le | le
  · exact (run_of_ended hm le).symm
  · exact run_of_ended hn le

/-- What has ended has made all its accesses. -/
theorem mem_log_of_ended (ended : (x.run m).out ≠ .running) (mem : a ∈ (x.run n).log) :
    a ∈ (x.run m).log := by
  rcases Nat.le_total n m with le | le
  · exact (log_le le).subset mem
  · rwa [run_of_ended ended le] at mem

theorem Returns.unique (h : x.Returns b) (h' : x.Returns b') : b = b' := by
  obtain ⟨m, hm⟩ := h
  obtain ⟨n, hn⟩ := h'
  have same := run_unique (by rw [hm]; nofun) (by rw [hn]; nofun) (x := x)
  rw [same, hn] at hm
  exact (Outcome.done.inj hm).symm

theorem Returns.not_fails (h : x.Returns b) : ¬ x.Fails := by
  rintro ⟨n, hn⟩
  obtain ⟨m, hm⟩ := h
  have same := run_unique (by rw [hm]; nofun) (by rw [hn]; nofun) (x := x)
  rw [same, hn] at hm
  cases hm

theorem run_bind : (x >>= f).run n = (x.run n).bind fun b => (f b).run n := rfl

/-- After `x` has returned, `f` runs. -/
theorem run_bind_of_done (h : (x.run m).out = .done b) (le : m ≤ n) :
    (x >>= f).run n = ⟨(x.run m).log ++ ((f b).run n).log, ((f b).run n).out⟩ := by
  have same := run_of_ended (by rw [h]; nofun) le (x := x)
  rw [run_bind, Call.bind_done (same ▸ h), same]

theorem pure_bind (b : β) : (pure b : Proc α β) >>= f = f b := by
  ext n
  rw [run_bind, Call.bind_done rfl]
  rfl

theorem bind_assoc {δ : Type v} {g : γ → Proc α δ} :
    (x >>= f) >>= g = x >>= fun b => f b >>= g := by
  ext n
  rw [run_bind, run_bind, run_bind]
  cases h : (x.run n).out with
  | running => simp [Call.bind, h]
  | failed => simp [Call.bind, h]
  | done b =>
      cases h' : ((f b).run n).out <;> simp [Call.bind, h, h', run_bind]

theorem returns_bind : (x >>= f).Returns c ↔ ∃ b, x.Returns b ∧ (f b).Returns c := by
  constructor
  · rintro ⟨n, hn⟩
    rw [run_bind] at hn
    cases h : (x.run n).out with
    | running => rw [Call.bind_running h] at hn; cases hn
    | failed => rw [Call.bind_failed h] at hn; cases hn
    | done b =>
        rw [Call.bind_done h] at hn
        exact ⟨b, ⟨n, h⟩, n, hn⟩
  · rintro ⟨b, ⟨m, hm⟩, n, hn⟩
    refine ⟨max m n, ?_⟩
    rw [run_bind_of_done hm (Nat.le_max_left m n),
      run_of_ended (by rw [hn]; nofun) (Nat.le_max_right m n), hn]

theorem fails_bind : (x >>= f).Fails ↔ x.Fails ∨ ∃ b, x.Returns b ∧ (f b).Fails := by
  constructor
  · rintro ⟨n, hn⟩
    rw [run_bind] at hn
    cases h : (x.run n).out with
    | running => rw [Call.bind_running h] at hn; cases hn
    | failed => exact .inl ⟨n, h⟩
    | done b =>
        rw [Call.bind_done h] at hn
        exact .inr ⟨b, ⟨n, h⟩, n, hn⟩
  · rintro (⟨n, hn⟩ | ⟨b, ⟨m, hm⟩, n, hn⟩)
    · exact ⟨n, by rw [run_bind, Call.bind_failed hn]⟩
    · refine ⟨max m n, ?_⟩
      rw [run_bind_of_done hm (Nat.le_max_left m n),
        run_of_ended (by rw [hn]; nofun) (Nat.le_max_right m n), hn]

theorem sees_bind : (x >>= f).Sees P ↔ x.Sees P ∨ ∃ b, x.Returns b ∧ (f b).Sees P := by
  constructor
  · rintro ⟨n, a, mem, ha⟩
    rw [run_bind] at mem
    cases h : (x.run n).out with
    | running => rw [Call.bind_running h] at mem; exact .inl ⟨n, a, mem, ha⟩
    | failed => rw [Call.bind_failed h] at mem; exact .inl ⟨n, a, mem, ha⟩
    | done b =>
        rw [Call.bind_done h] at mem
        rcases List.mem_append.mp mem with mem | mem
        · exact .inl ⟨n, a, mem, ha⟩
        · exact .inr ⟨b, ⟨n, h⟩, n, a, mem, ha⟩
  · rintro (⟨n, a, mem, ha⟩ | ⟨b, ⟨m, hm⟩, n, a, mem, ha⟩)
    · exact ⟨n, a, Call.log_bind_left.subset mem, ha⟩
    · refine ⟨max m n, a, ?_, ha⟩
      rw [run_bind_of_done hm (Nat.le_max_left m n)]
      exact List.mem_append_right _ ((log_le (Nat.le_max_right m n)).subset mem)

end Rules

section Loop

variable {α β σ : Type*} {body : σ → Call α (σ ⊕ β)} {s t : σ} {P : α → Prop} {b : β} {n : ℕ}

/-- A turn of the loop goes on from `t`. -/
def Turn (body : σ → Call α (σ ⊕ β)) (s t : σ) : Prop := (body s).out = .done (.inl t)

theorem run_iterate : (iterate body s).run (n + 1) = (body s).bind fun
      | .inl s => (iterate body s).run n
      | .inr b => ⟨[], .done b⟩ := rfl

/-- A loop begins with a turn. -/
theorem run_iterate_of_turn (turn : Turn body s t) :
    (iterate body s).run (n + 1) =
      ⟨(body s).log ++ ((iterate body t).run n).log, ((iterate body t).run n).out⟩ :=
  Call.bind_done turn

theorem returns_iterate :
    (iterate body s).Returns b ↔
      ∃ t, Relation.ReflTransGen (Turn body) s t ∧ (body t).out = .done (.inr b) := by
  constructor
  · rintro ⟨n, hn⟩
    induction n generalizing s with
    | zero => cases hn
    | succ n ih =>
        cases h : (body s).out with
        | running => rw [run_iterate, Call.bind_running h] at hn; cases hn
        | failed => rw [run_iterate, Call.bind_failed h] at hn; cases hn
        | done r =>
            cases r with
            | inl u =>
                rw [run_iterate_of_turn h] at hn
                obtain ⟨t, steps, last⟩ := ih hn
                exact ⟨t, .head h steps, last⟩
            | inr b' =>
                rw [run_iterate, Call.bind_done h] at hn
                exact ⟨s, .refl, Outcome.done.inj hn ▸ h⟩
  · rintro ⟨t, steps, last⟩
    induction steps using Relation.ReflTransGen.head_induction_on with
    | refl => exact ⟨1, by rw [run_iterate, Call.bind_done last]⟩
    | head turn _ ih =>
        obtain ⟨n, hn⟩ := ih
        exact ⟨n + 1, by rw [run_iterate_of_turn turn, hn]⟩

theorem fails_iterate :
    (iterate body s).Fails ↔
      ∃ t, Relation.ReflTransGen (Turn body) s t ∧ (body t).out = .failed := by
  constructor
  · rintro ⟨n, hn⟩
    induction n generalizing s with
    | zero => cases hn
    | succ n ih =>
        cases h : (body s).out with
        | running => rw [run_iterate, Call.bind_running h] at hn; cases hn
        | failed => exact ⟨s, .refl, h⟩
        | done r =>
            cases r with
            | inl u =>
                rw [run_iterate_of_turn h] at hn
                obtain ⟨t, steps, last⟩ := ih hn
                exact ⟨t, .head h steps, last⟩
            | inr b' => rw [run_iterate, Call.bind_done h] at hn; cases hn
  · rintro ⟨t, steps, last⟩
    induction steps using Relation.ReflTransGen.head_induction_on with
    | refl => exact ⟨1, by rw [run_iterate, Call.bind_failed last]⟩
    | head turn _ ih =>
        obtain ⟨n, hn⟩ := ih
        exact ⟨n + 1, by rw [run_iterate_of_turn turn, hn]⟩

theorem sees_iterate :
    (iterate body s).Sees P ↔
      ∃ t, Relation.ReflTransGen (Turn body) s t ∧ ∃ a ∈ (body t).log, P a := by
  constructor
  · rintro ⟨n, a, mem, ha⟩
    induction n generalizing s with
    | zero => cases mem
    | succ n ih =>
        cases h : (body s).out with
        | running =>
            rw [run_iterate, Call.bind_running h] at mem
            exact ⟨s, .refl, a, mem, ha⟩
        | failed =>
            rw [run_iterate, Call.bind_failed h] at mem
            exact ⟨s, .refl, a, mem, ha⟩
        | done r =>
            cases r with
            | inl u =>
                rw [run_iterate_of_turn h] at mem
                rcases List.mem_append.mp mem with mem | mem
                · exact ⟨s, .refl, a, mem, ha⟩
                · obtain ⟨t, steps, last⟩ := ih mem
                  exact ⟨t, .head h steps, last⟩
            | inr b =>
                rw [run_iterate, Call.bind_done h, List.append_nil] at mem
                exact ⟨s, .refl, a, mem, ha⟩
  · rintro ⟨t, steps, a, mem, ha⟩
    induction steps using Relation.ReflTransGen.head_induction_on with
    | refl => exact ⟨1, a, Call.log_bind_left.subset mem, ha⟩
    | head turn _ ih =>
        obtain ⟨n, a, mem, ha⟩ := ih
        refine ⟨n + 1, a, ?_, ha⟩
        rw [run_iterate_of_turn turn]
        exact List.mem_append_right _ mem

/-- A loop that never fails at a turn never fails. -/
theorem not_fails_iterate (h : ∀ s, (body s).out ≠ .failed) : ¬ (iterate body s).Fails := by
  rw [fails_iterate]
  rintro ⟨t, -, failed⟩
  exact h t failed

theorem returns_iterate_of_turn (turn : Turn body s t) :
    (iterate body s).Returns b ↔ (iterate body t).Returns b := by
  rw [returns_iterate, returns_iterate]
  constructor
  · rintro ⟨u, steps, last⟩
    rcases Relation.ReflTransGen.cases_head steps with rfl | ⟨v, first, steps⟩
    · rw [turn] at last
      cases last
    · rw [Turn, turn] at first
      cases first
      exact ⟨u, steps, last⟩
  · rintro ⟨u, steps, last⟩
    exact ⟨u, .head turn steps, last⟩

theorem sees_iterate_of_turn (turn : Turn body s t) :
    (iterate body s).Sees P ↔ (∃ a ∈ (body s).log, P a) ∨ (iterate body t).Sees P := by
  rw [sees_iterate, sees_iterate]
  constructor
  · rintro ⟨u, steps, sees⟩
    rcases Relation.ReflTransGen.cases_head steps with rfl | ⟨v, first, steps⟩
    · exact .inl sees
    · rw [Turn, turn] at first
      cases first
      exact .inr ⟨u, steps, sees⟩
  · rintro (sees | ⟨u, steps, sees⟩)
    · exact ⟨s, .refl, sees⟩
    · exact ⟨u, .head turn steps, sees⟩

/-- A loop of one turn makes the accesses of that turn. -/
theorem sees_iterate_of_last (last : (body s).out = .done (.inr b)) :
    (iterate body s).Sees P ↔ ∃ a ∈ (body s).log, P a := by
  rw [sees_iterate]
  constructor
  · rintro ⟨u, steps, sees⟩
    rcases Relation.ReflTransGen.cases_head steps with rfl | ⟨v, first, -⟩
    · exact sees
    · rw [Turn, last] at first
      cases first
  · exact fun sees => ⟨s, .refl, sees⟩

end Loop

/-! ### Care -/

section Care

variable {α : Type u} {β γ : Type v} {bad write : α → Prop} {d : Prop} {x : Proc α β}
  {f : β → Proc α γ} {b : β} {m n : ℕ}

/-- No write comes after a bad access. -/
def Ordered (bad write : α → Prop) (x : Proc α β) : Prop :=
  ∀ n, (x.run n).log.Pairwise fun a b => bad a → ¬ write b

/-- After a bad access nothing is written, and the procedure fails. -/
structure Careful (bad write : α → Prop) (x : Proc α β) : Prop where
  ordered : x.Ordered bad write
  fails : x.Sees bad → x.Fails

/-- A careful procedure, where `d` says that there was a bad access before. -/
structure CarefulFrom (bad write : α → Prop) (d : Prop) (x : Proc α β) : Prop where
  careful : x.Careful bad write
  stops : d → ¬ x.Sees write ∧ x.Fails

theorem carefulFrom_false : x.CarefulFrom bad write False ↔ x.Careful bad write :=
  ⟨fun h => h.careful, fun h => ⟨h, False.elim⟩⟩

/-- The order of what does not write. -/
theorem Ordered.of_quiet (quiet : ¬ x.Sees write) : x.Ordered bad write := by
  intro n
  refine List.pairwise_of_forall_mem_list ?_
  intro a _ b mem _ wb
  exact quiet ⟨n, b, mem, wb⟩

/-- The order of what has no bad access. -/
theorem Ordered.of_clean (clean : ¬ x.Sees bad) : x.Ordered bad write := by
  intro n
  refine List.pairwise_of_forall_mem_list ?_
  intro a mem b _ ba
  exact absurd ⟨n, a, mem, ba⟩ clean

theorem Ordered.bind_left (h : (x >>= f).Ordered bad write) : x.Ordered bad write := fun n =>
  (h n).sublist Call.log_bind_left.sublist

theorem ordered_bind (h : x.Returns b) :
    (x >>= f).Ordered bad write ↔ x.Ordered bad write ∧ (f b).Ordered bad write ∧
      (x.Sees bad → ¬ (f b).Sees write) := by
  obtain ⟨m, hm⟩ := h
  constructor
  · intro ordered
    have both (n : ℕ) := ordered (max m n)
    simp only [run_bind_of_done hm (Nat.le_max_left m _), List.pairwise_append] at both
    refine ⟨ordered.bind_left, ?_, ?_⟩
    · intro n
      exact (both n).2.1.sublist (log_le (Nat.le_max_right m n)).sublist
    · rintro ⟨k, a, mem, ba⟩ ⟨n, c, memc, wc⟩
      refine (both n).2.2 a (mem_log_of_ended (by rw [hm]; nofun) mem) c ?_ ba wc
      exact (log_le (Nat.le_max_right m n)).subset memc
  · rintro ⟨first, second, across⟩ n
    have whole : ((x >>= f).run (max m n)).log.Pairwise fun a b => bad a → ¬ write b := by
      rw [run_bind_of_done hm (Nat.le_max_left m n), List.pairwise_append]
      refine ⟨first m, second _, ?_⟩
      intro a mema c memc ba wc
      exact across ⟨m, a, mema, ba⟩ ⟨_, c, memc, wc⟩
    exact whole.sublist (log_le (Nat.le_max_right m n)).sublist

theorem sees_bind_of_returns {P : α → Prop} (h : x.Returns b) :
    (x >>= f).Sees P ↔ x.Sees P ∨ (f b).Sees P := by
  rw [sees_bind]
  constructor
  · rintro (sees | ⟨b', returns, sees⟩)
    · exact .inl sees
    · exact .inr (h.unique returns ▸ sees)
  · rintro (sees | sees)
    · exact .inl sees
    · exact .inr ⟨b, h, sees⟩

theorem fails_bind_of_returns (h : x.Returns b) : (x >>= f).Fails ↔ (f b).Fails := by
  rw [fails_bind]
  constructor
  · rintro (fails | ⟨b', returns, fails⟩)
    · exact absurd fails h.not_fails
    · exact h.unique returns ▸ fails
  · intro fails
    exact .inr ⟨b, h, fails⟩

/-- What does not get past `x` makes the accesses of `x`. -/
theorem sees_bind_of_not_returns {P : α → Prop} (h : ∀ b, ¬ x.Returns b) :
    (x >>= f).Sees P ↔ x.Sees P := by
  rw [sees_bind]
  constructor
  · rintro (sees | ⟨b, returns, -⟩)
    · exact sees
    · exact absurd returns (h b)
  · exact .inl

/-- A failing part that does not write. -/
theorem carefulFrom_bind_of_fails (quiet : ¬ x.Sees write) (h : x.Fails) :
    (x >>= f).CarefulFrom bad write d := by
  have stuck (b : β) : ¬ x.Returns b := fun returns => returns.not_fails h
  have still : ¬ (x >>= f).Sees write := by rwa [sees_bind_of_not_returns stuck]
  have fails : (x >>= f).Fails := fails_bind.mpr (.inl h)
  exact ⟨⟨.of_quiet still, fun _ => fails⟩, fun _ => ⟨still, fails⟩⟩

/-- A part that does not write, and then the rest. -/
theorem carefulFrom_bind_of_returns (quiet : ¬ x.Sees write) (h : x.Returns b) :
    (x >>= f).CarefulFrom bad write d ↔ (f b).CarefulFrom bad write (d ∨ x.Sees bad) := by
  constructor
  · rintro ⟨⟨ordered, fails⟩, stops⟩
    rw [ordered_bind h] at ordered
    rw [sees_bind_of_returns h, fails_bind_of_returns h] at fails stops
    refine ⟨⟨ordered.2.1, fun sees => fails (.inr sees)⟩, ?_⟩
    rintro (before | sees)
    · obtain ⟨still, ends⟩ := stops before
      exact ⟨fun sees => still (.inr sees), ends⟩
    · exact ⟨ordered.2.2 sees, fails (.inl sees)⟩
  · rintro ⟨⟨ordered, fails⟩, stops⟩
    refine ⟨⟨?_, ?_⟩, ?_⟩
    · rw [ordered_bind h]
      exact ⟨.of_quiet quiet, ordered, fun sees => (stops (.inr sees)).1⟩
    · rw [sees_bind_of_returns h, fails_bind_of_returns h]
      rintro (sees | sees)
      · exact (stops (.inr sees)).2
      · exact fails sees
    · intro before
      obtain ⟨still, ends⟩ := stops (.inl before)
      rw [sees_bind_of_returns h, fails_bind_of_returns h]
      exact ⟨not_or.mpr ⟨quiet, still⟩, ends⟩

/-- A part that loops for ever. -/
theorem carefulFrom_bind_of_hangs (quiet : ¬ x.Sees write) (h : ∀ b, ¬ x.Returns b)
    (endless : ¬ x.Fails) :
    (x >>= f).CarefulFrom bad write d ↔ ¬ (d ∨ x.Sees bad) := by
  have still : ¬ (x >>= f).Sees write := by rwa [sees_bind_of_not_returns h]
  have never : ¬ (x >>= f).Fails := by
    rw [fails_bind]
    rintro (fails | ⟨b, returns, -⟩)
    · exact endless fails
    · exact h b returns
  constructor
  · rintro ⟨⟨-, fails⟩, stops⟩ (before | sees)
    · exact never (stops before).2
    · exact never (fails ((sees_bind_of_not_returns h).mpr sees))
  · intro clean
    refine ⟨⟨.of_quiet still, ?_⟩, ?_⟩
    · rw [sees_bind_of_not_returns h]
      exact fun sees => absurd (.inr sees) clean
    · exact fun before => absurd (.inl before) clean

end Care

/-! ### Steps without loops -/

section Steps

variable {α : Type u} {β γ : Type} {bad write P : α → Prop} {d : Prop} {call : Call α β} {b : β}
  {c ok : Bool} {a : α} {f : β → Proc α γ} {g : Unit → Proc α γ}

@[simp]
theorem returns_ofCall : (ofCall call).Returns b ↔ call.out = .done b :=
  ⟨fun ⟨_, h⟩ => h, fun h => ⟨0, h⟩⟩

@[simp]
theorem fails_ofCall : (ofCall call).Fails ↔ call.out = .failed :=
  ⟨fun ⟨_, h⟩ => h, fun h => ⟨0, h⟩⟩

@[simp]
theorem sees_ofCall : (ofCall call).Sees P ↔ ∃ a ∈ call.log, P a :=
  ⟨fun ⟨_, h⟩ => h, fun h => ⟨0, h⟩⟩

theorem returns_pure {b' : β} : (pure b : Proc α β).Returns b' ↔ b = b' :=
  returns_ofCall.trans ⟨Outcome.done.inj, congrArg Outcome.done⟩

theorem not_fails_pure : ¬ (pure b : Proc α β).Fails := by
  rintro ⟨n, fails⟩
  cases fails

theorem not_sees_pure : ¬ (pure b : Proc α β).Sees P := by
  rintro ⟨n, a, mem, -⟩
  cases mem

theorem returns_access_bind {r : γ} : (access a >>= g).Returns r ↔ (g ()).Returns r := by
  rw [returns_bind]
  constructor
  · rintro ⟨⟨⟩, -, returns⟩
    exact returns
  · exact fun returns => ⟨(), ⟨0, rfl⟩, returns⟩

theorem fails_access_bind : (access a >>= g).Fails ↔ (g ()).Fails :=
  fails_bind_of_returns ⟨0, rfl⟩

theorem sees_access_bind : (access a >>= g).Sees P ↔ P a ∨ (g ()).Sees P := by
  rw [sees_bind_of_returns (b := ()) ⟨0, rfl⟩, access, sees_ofCall]
  simp

/-- A step that does not write, and what follows it. -/
theorem carefulFrom_done_bind {log : List α} (quiet : ∀ a ∈ log, ¬ write a) :
    (ofCall ⟨log, .done b⟩ >>= f).CarefulFrom bad write d ↔
      (f b).CarefulFrom bad write (d ∨ ∃ a ∈ log, bad a) := by
  have still : ¬ (ofCall ⟨log, Outcome.done b⟩).Sees write := by
    rw [sees_ofCall]
    rintro ⟨a, mem, wa⟩
    exact quiet a mem wa
  rw [carefulFrom_bind_of_returns still (returns_ofCall.mpr rfl), sees_ofCall]

/-- A step that does not write and fails. -/
theorem carefulFrom_failed_bind {log : List α} (quiet : ∀ a ∈ log, ¬ write a) :
    (ofCall ⟨log, .failed⟩ >>= f).CarefulFrom bad write d := by
  have still : ¬ (ofCall ⟨log, (Outcome.failed : Outcome β)⟩).Sees write := by
    rw [sees_ofCall]
    rintro ⟨a, mem, wa⟩
    exact quiet a mem wa
  exact carefulFrom_bind_of_fails still (fails_ofCall.mpr rfl)

theorem carefulFrom_check :
    (check c >>= g).CarefulFrom bad write d ↔ (c = true → (g ()).CarefulFrom bad write d) := by
  cases c with
  | false => exact iff_of_true (carefulFrom_failed_bind nofun) nofun
  | true =>
      have nothing : (d ∨ ∃ a ∈ ([] : List α), bad a) = d := by simp
      exact (carefulFrom_done_bind nofun).trans (by rw [nothing]; simp)

/-- What has no access and may loop for ever. -/
theorem carefulFrom_silent {x : Proc α β} (silent : ∀ P : α → Prop, ¬ x.Sees P) :
    x.CarefulFrom bad write False :=
  carefulFrom_false.mpr ⟨.of_quiet (silent write), fun sees => absurd sees (silent bad)⟩

/-- A write, which may fail. -/
theorem carefulFrom_write (here : write a) (good : ¬ bad a) :
    (ofCall ⟨[a], if ok then .done () else .failed⟩ >>= g).CarefulFrom bad write d ↔
      ¬ d ∧ (ok = true → (g ()).CarefulFrom bad write False) := by
  set x : Proc α Unit := ofCall ⟨[a], if ok then .done () else .failed⟩ with hx
  have clean : ¬ x.Sees bad := by simpa [hx] using good
  have writes : x.Sees write := by simpa [hx] using here
  have whole : (x >>= g).Sees write := sees_bind.mpr (.inl writes)
  constructor
  · rintro ⟨⟨ordered, fails⟩, stops⟩
    refine ⟨fun before => (stops before).1 whole, ?_⟩
    rintro rfl
    have returns : x.Returns () := by simp [hx]
    rw [ordered_bind returns] at ordered
    rw [sees_bind_of_returns returns, fails_bind_of_returns returns] at fails
    exact carefulFrom_false.mpr ⟨ordered.2.1, fun sees => fails (.inr sees)⟩
  · rintro ⟨before, rest⟩
    refine ⟨⟨?_, ?_⟩, fun now => absurd now before⟩
    · cases ok with
      | false =>
          refine .of_clean ?_
          rw [sees_bind_of_not_returns (by simp [hx])]
          exact clean
      | true =>
          rw [ordered_bind (b := ()) (by simp [hx])]
          exact ⟨.of_clean clean, (rest rfl).careful.ordered, fun sees => absurd sees clean⟩
    · cases ok with
      | false => exact fun _ => fails_bind.mpr (.inl (by simp [hx]))
      | true =>
          have returns : x.Returns () := by simp [hx]
          rw [sees_bind_of_returns returns, fails_bind_of_returns returns]
          rintro (sees | sees)
          · exact absurd sees clean
          · exact (rest rfl).careful.fails sees

end Steps

end Proc

end Lib
