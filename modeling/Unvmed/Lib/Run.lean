import Mathlib.Tactic.TypeStar

/-!
Runs of an executable transition function.

A system is a partial step function `step : σ → α → Option σ`; an action that is
not enabled steps to `none`. A run is a list of actions, so an interleaving of
several agents is a run whose actions carry the agent's name. `Guarded` asks a
condition of the state before every action, `Steps` a relation of every step
taken, and each has one induction rule (`run_inv`, `steps_of_guarded`). A run is
carried down to a system below it by `run_sim`.
-/

namespace Lib

variable {σ α : Type*}

/-- Take the actions in order; `none` as soon as one of them is not enabled. -/
def run (step : σ → α → Option σ) : σ → List α → Option σ
  | s, [] => some s
  | s, a :: as => (step s a).bind fun s' => run step s' as

/-- Every action of the run meets `P` in the state it is taken from. -/
def Guarded (step : σ → α → Option σ) (P : σ → α → Prop) : σ → List α → Prop
  | _, [] => True
  | s, a :: as => P s a ∧ match step s a with
      | none => True
      | some s' => Guarded step P s' as

/-- Every step the run takes is related by `Q`. -/
def Steps (step : σ → α → Option σ) (Q : σ → α → σ → Prop) : σ → List α → Prop
  | _, [] => True
  | s, a :: as => match step s a with
      | none => True
      | some s' => Q s a s' ∧ Steps step Q s' as

instance decidableGuarded (step : σ → α → Option σ) (P : σ → α → Prop) [∀ s a, Decidable (P s a)] :
    ∀ (s : σ) (as : List α), Decidable (Guarded step P s as)
  | _, [] => .isTrue trivial
  | s, a :: as => @instDecidableAnd _ _ inferInstance <|
      match step s a with
      | none => .isTrue trivial
      | some s' => decidableGuarded step P s' as

section Rules

variable {step : σ → α → Option σ} {P : σ → α → Prop} {Q : σ → α → σ → Prop} {I : σ → Prop}

theorem run_cons_some {s t : σ} {a : α} {as : List α} (h : run step s (a :: as) = some t) :
    ∃ s', step s a = some s' ∧ run step s' as = some t := by
  simpa [run, Option.bind_eq_some_iff] using h

theorem Guarded.tail {s s' : σ} {a : α} {as : List α} (h : Guarded step P s (a :: as))
    (hstep : step s a = some s') : Guarded step P s' as := by
  simpa [Guarded, hstep] using h.2

/-- A prefix of a guarded run is guarded. -/
theorem Guarded.left {as bs : List α} {s : σ} (h : Guarded step P s (as ++ bs)) :
    Guarded step P s as := by
  induction as generalizing s with
  | nil => trivial
  | cons a as ih =>
      refine ⟨h.1, ?_⟩
      cases hstep : step s a with
      | none => trivial
      | some s' =>
          have rest : Guarded step P s' (as ++ bs) := h.tail hstep
          exact ih rest

/-- What comes after a prefix of a guarded run is guarded. -/
theorem Guarded.right {as bs : List α} {s t : σ} (h : Guarded step P s (as ++ bs))
    (hrun : run step s as = some t) : Guarded step P t bs := by
  induction as generalizing s with
  | nil =>
      cases hrun
      exact h
  | cons a as ih =>
      obtain ⟨s', hstep, hrest⟩ := run_cons_some hrun
      exact ih (h.tail hstep) hrest

theorem Guarded.mono {P' : σ → α → Prop} (weaker : ∀ s a, P s a → P' s a) {as : List α} {s : σ}
    (h : Guarded step P s as) : Guarded step P' s as := by
  induction as generalizing s with
  | nil => trivial
  | cons a as ih =>
      refine ⟨weaker s a h.1, ?_⟩
      cases hstep : step s a with
      | none => trivial
      | some s' => exact ih (h.tail hstep)

/-- A system whose actions are always enabled. -/
theorem run_total (f : σ → α → σ) (as : List α) (s : σ) :
    run (fun s a => some (f s a)) s as = some (as.foldl f s) := by
  induction as generalizing s with
  | nil => rfl
  | cons a as ih => exact ih (f s a)

/-- A run that asks nothing of its steps is guarded. -/
theorem Guarded.of_forall (h : ∀ s a, P s a) (as : List α) (s : σ) : Guarded step P s as := by
  induction as generalizing s with
  | nil => trivial
  | cons a as ih =>
      refine ⟨h s a, ?_⟩
      cases step s a with
      | none => trivial
      | some s' => exact ih s'

/-- A guard on the actions alone joins a guard on the states. -/
theorem Guarded.of_mem {p : α → Prop} {as : List α} {s : σ} (all : ∀ a ∈ as, p a)
    (h : Guarded step P s as) : Guarded step (fun s a => p a ∧ P s a) s as := by
  induction as generalizing s with
  | nil => trivial
  | cons a as ih =>
      refine ⟨⟨all a List.mem_cons_self, h.1⟩, ?_⟩
      cases hstep : step s a with
      | none => trivial
      | some s' =>
          apply ih
          · intro b hb
            exact all b (List.mem_cons_of_mem _ hb)
          · exact h.tail hstep

/-- **Invariant rule.** What holds at the start and is kept by every guarded
step holds at the end of every guarded run. A prefix of a guarded run is a
guarded run, so it holds in every state the run goes through. -/
theorem run_inv (keep : ∀ s a s', I s → P s a → step s a = some s' → I s')
    {as : List α} {s t : σ} (hI : I s) (hguard : Guarded step P s as)
    (hrun : run step s as = some t) : I t := by
  induction as generalizing s with
  | nil =>
      cases hrun
      exact hI
  | cons a as ih =>
      obtain ⟨s', hstep, hrest⟩ := run_cons_some hrun
      exact ih (keep s a s' hI hguard.1 hstep) (hguard.tail hstep) hrest

/-- The invariant rule for runs that are not guarded. -/
theorem run_inv_all (keep : ∀ s a s', I s → step s a = some s' → I s')
    {as : List α} {s t : σ} (hI : I s) (hrun : run step s as = some t) : I t :=
  run_inv (P := fun _ _ => True) (fun s a s' h _ => keep s a s' h) hI
    (Guarded.of_forall (fun _ _ => trivial) as s) hrun

/-- **Exact guard.** If a guarded step keeps the invariant, and a step that leads
to a good state was guarded, then a run is guarded if and only if every state it goes
through is good. -/
theorem guarded_iff {Good : σ → Prop} (good : ∀ s, I s → Good s)
    (keep : ∀ s a s', I s → P s a → step s a = some s' → I s')
    (needed : ∀ s a s', I s → step s a = some s' → Good s' → P s a)
    (blocked : ∀ s a, step s a = none → P s a) {as : List α} {s : σ} (hI : I s) :
    Guarded step P s as ↔ ∀ bs t, bs <+: as → run step s bs = some t → Good t := by
  constructor
  · intro guard bs t before hrun
    obtain ⟨rest, rfl⟩ := before
    exact good t (run_inv keep hI guard.left hrun)
  · intro all
    induction as generalizing s with
    | nil => trivial
    | cons a as ih =>
        cases hstep : step s a with
        | none => exact ⟨blocked s a hstep, by rw [hstep]; trivial⟩
        | some s' =>
            have next : Good s' := by
              refine all [a] s' ⟨as, rfl⟩ ?_
              simp [run, hstep]
            have met := needed s a s' hI hstep next
            refine ⟨met, ?_⟩
            rw [hstep]
            apply ih (keep s a s' hI met hstep)
            intro bs t before hrun
            obtain ⟨rest, rfl⟩ := before
            refine all (a :: bs) t ⟨rest, rfl⟩ ?_
            simpa [run, hstep] using hrun

/-- **Step rule.** If the guard and an invariant it keeps give `Q` for one
step, every step of a guarded run is related by `Q`. -/
theorem steps_of_guarded (keep : ∀ s a s', I s → P s a → step s a = some s' → I s')
    (one : ∀ s a s', I s → P s a → step s a = some s' → Q s a s')
    {as : List α} {s : σ} (hI : I s) (hguard : Guarded step P s as) : Steps step Q s as := by
  induction as generalizing s with
  | nil => trivial
  | cons a as ih =>
      unfold Steps
      cases hstep : step s a with
      | none => trivial
      | some s' =>
          constructor
          · exact one s a s' hI hguard.1 hstep
          · exact ih (keep s a s' hI hguard.1 hstep) (hguard.tail hstep)

/-- **Exact step rule.** If, under an invariant, a step is related by `Q` exactly when
it is guarded, a run is guarded if and only if all its steps are related. -/
theorem guarded_iff_steps (keep : ∀ s a s', I s → P s a → step s a = some s' → I s')
    (exact_ : ∀ s a s', I s → step s a = some s' → (Q s a s' ↔ P s a))
    (blocked : ∀ s a, step s a = none → P s a) {as : List α} {s : σ} (hI : I s) :
    Guarded step P s as ↔ Steps step Q s as := by
  induction as generalizing s with
  | nil => exact Iff.rfl
  | cons a as ih =>
      unfold Guarded Steps
      cases hstep : step s a with
      | none => exact ⟨fun _ => trivial, fun _ => ⟨blocked s a hstep, trivial⟩⟩
      | some s' =>
          have one := exact_ s a s' hI hstep
          have later (met : P s a) : Guarded step P s' as ↔ Steps step Q s' as :=
            ih (keep s a s' hI met hstep)
          constructor
          · rintro ⟨met, rest⟩
            exact ⟨one.mpr met, (later met).mp rest⟩
          · rintro ⟨related, rest⟩
            have met := one.mp related
            exact ⟨met, (later met).mpr rest⟩

/-- **Forward simulation.** If every guarded step of a system is matched by one of the system
below, so is every guarded run. -/
theorem run_sim {τ : Type*} {low : τ → α → Option τ} {R : τ → σ → Prop}
    (match_ : ∀ c s a s', R c s → P s a → step s a = some s' → ∃ c', low c a = some c' ∧ R c' s')
    {as : List α} {c : τ} {s t : σ} (hR : R c s) (hguard : Guarded step P s as)
    (hrun : run step s as = some t) : ∃ d, run low c as = some d ∧ R d t := by
  induction as generalizing c s with
  | nil =>
      cases hrun
      exact ⟨c, rfl, hR⟩
  | cons a as ih =>
      obtain ⟨s', hstep, hrest⟩ := run_cons_some hrun
      obtain ⟨c', hlow, hR'⟩ := match_ c s a s' hR hguard.1 hstep
      obtain ⟨d, hd, hRd⟩ := ih hR' (hguard.tail hstep) hrest
      refine ⟨d, ?_, hRd⟩
      rw [run, hlow]
      exact hd

/-- The step after a prefix of the run. -/
theorem Steps.last {as : List α} {s s₁ s₂ : σ} {a : α} (h : Steps step Q s (as ++ [a]))
    (hrun : run step s as = some s₁) (hstep : step s₁ a = some s₂) : Q s₁ a s₂ := by
  induction as generalizing s with
  | nil =>
      cases hrun
      simp only [List.nil_append, Steps, hstep] at h
      exact h.1
  | cons b as ih =>
      obtain ⟨s', first, rest⟩ := run_cons_some hrun
      simp only [List.cons_append, Steps, first] at h
      exact ih h.2 rest

end Rules

end Lib
