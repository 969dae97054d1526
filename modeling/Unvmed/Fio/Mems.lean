import Mathlib.Data.Finset.Basic

/-!
The DMA buffers of a fio job (`src/app/fio/libunvmed-engine.c`).

A job owns up to five buffers. `libunvmed_map_mems` maps the first three for the controller, and
after the controller is created again `libunvmed_remap_mems_cb` maps all of them. Both undo what
they have mapped when a later mapping fails.

* `remap_allOrNothing`: the callback maps all buffers and takes over the epoch if no mapping that it
  needs fails, and changes nothing otherwise.
-/

namespace Unvmed.Mems

/-- The buffers of a job. -/
inductive Buffer where
  /-- `td->orig_buffer` -/
  | orig
  /-- `ld->prp_iomem` -/
  | prp
  /-- `ld->prp_list_iomem` -/
  | prpList
  /-- `ld->meta_iomem` -/
  | metadata
  /-- `ld->trim_iomem` -/
  | trim
  deriving DecidableEq, Repr

/-- The fields of a job that the mappings depend on, for addresses in `A`. -/
structure Job (A : Type*) where
  /-- `none` is `NULL`. -/
  ptr : Buffer → Option A
  origBufferSize : ℕ
  cmbData : Bool

/-- What the code should not do: unmap a buffer that is not mapped, or release its pages while it
is. -/
inductive Fault where
  | unmap (b : Buffer)
  | release (b : Buffer)
  deriving DecidableEq, Repr

/-- The IOMMU mappings of a controller. -/
structure Dma (A : Type*) where
  maps : Finset A
  faults : List Fault := []

variable {A : Type*} [DecidableEq A]

/-- `unvmed_map_vaddr` -/
def Dma.map (d : Dma A) (t : Job A) (fails : Buffer → Bool) (b : Buffer) : Option (Dma A) :=
  match t.ptr b with
  | none => none
  | some a => if fails b then none else some { d with maps := insert a d.maps }

/-- `unvmed_unmap_vaddr`, which fails for a buffer that is not mapped. -/
def Dma.unmap (d : Dma A) (t : Job A) (b : Buffer) : Dma A :=
  match t.ptr b with
  | none => { d with faults := d.faults ++ [.unmap b] }
  | some a =>
      if a ∈ d.maps then { d with maps := d.maps.erase a }
      else { d with faults := d.faults ++ [.unmap b] }

def Dma.mapIf (d : Dma A) (t : Job A) (fails : Buffer → Bool) (c : Bool) (b : Buffer) :
    Option (Dma A) :=
  if c then d.map t fails b else some d

def Dma.unmapIf (d : Dma A) (t : Job A) (c : Bool) (b : Buffer) : Dma A :=
  if c then d.unmap t b else d

/-- Whether a buffer is mapped: an I/O buffer in the CMB has its address already. -/
def Job.mapped (t : Job A) : Buffer → Bool
  | .orig => t.origBufferSize != 0 && !t.cmbData
  | b => (t.ptr b).isSome

/-- Every buffer that is to be mapped can be. -/
def Job.Mappable (t : Job A) (fails : Buffer → Bool) : Prop :=
  ∀ b, t.mapped b = true → (t.ptr b).isSome = true ∧ fails b = false

/-- `libunvmed_map_mems` -/
def mapMems (t : Job A) (fails : Buffer → Bool) (d : Dma A) : ℤ × Dma A :=
  match d.mapIf t fails (t.mapped .orig) .orig with
  | none => (-1, d)
  | some d₁ =>
      match d₁.mapIf t fails (t.mapped .prp) .prp with
      | none => (-1, d₁.unmapIf t (t.mapped .orig) .orig)
      | some d₂ =>
          match d₂.mapIf t fails (t.mapped .prpList) .prpList with
          | none =>
              (-1, (d₂.unmapIf t (t.mapped .prp) .prp).unmapIf t (t.mapped .orig) .orig)
          | some d₃ => (0, d₃)

/-- `-EFAULT` -/
def efault : ℤ := -14

/-- The end of `libunvmed_remap_mems_cb` after an error. -/
def rollback (t : Job A) (metaMapped : Bool) (d : Dma A) : Dma A :=
  (((d.unmapIf t metaMapped .metadata).unmapIf t (t.mapped .prpList) .prpList).unmapIf t
    (t.mapped .prp) .prp).unmapIf t ((t.ptr .orig).isSome && t.mapped .orig) .orig

/-- `libunvmed_remap_mems_cb`: its result, the mappings and `ld->epoch`. -/
def remapMemsCb (t : Job A) (fails : Buffer → Bool) (epoch ldEpoch : BitVec 32) (d : Dma A) :
    ℤ × Dma A × BitVec 32 :=
  let r := mapMems t fails d
  if r.1 ≠ 0 then (efault, r.2, ldEpoch)
  else
    let d₃ := r.2
    match d₃.mapIf t fails (t.mapped .metadata) .metadata with
    | none => (efault, rollback t false d₃, ldEpoch)
    | some d₄ =>
        match d₄.mapIf t fails (t.mapped .trim) .trim with
        | none => (efault, rollback t (t.mapped .metadata) d₄, ldEpoch)
        | some d₅ => (0, d₅, epoch)

section Steps

variable {t : Job A} {fails : Buffer → Bool} {d d' : Dma A} {c : Bool} {b b' : Buffer} {x : A}

/-- The buffer is not mapped. -/
def Free (t : Job A) (d : Dma A) (b : Buffer) : Prop := ∀ a, t.ptr b = some a → a ∉ d.maps

/-- No two buffers have one address. -/
def Distinct (t : Job A) : Prop := ∀ b b' a, t.ptr b = some a → t.ptr b' = some a → b = b'

theorem mapIf_some (h : d.mapIf t fails c b = some d') :
    d'.faults = d.faults ∧ ∀ x, x ∈ d'.maps ↔ x ∈ d.maps ∨ c = true ∧ t.ptr b = some x := by
  cases c with
  | false =>
      cases h
      simp
  | true =>
      rw [Dma.mapIf, if_pos rfl, Dma.map] at h
      cases ptr : t.ptr b with
      | none =>
          rw [ptr] at h
          cases h
      | some a =>
          simp only [ptr] at h
          split at h
          · cases h
          · cases h
            refine ⟨rfl, fun x => ?_⟩
            rw [Finset.mem_insert, Option.some.injEq]
            constructor
            · rintro (rfl | old)
              · exact .inr ⟨rfl, rfl⟩
              · exact .inl old
            · rintro (old | ⟨-, rfl⟩)
              · exact .inr old
              · exact .inl rfl

/-- Mapping fails only where it is wanted, for want of an address or of the IOMMU. -/
theorem mapIf_eq_none :
    d.mapIf t fails c b = none ↔ c = true ∧ (t.ptr b = none ∨ fails b = true) := by
  cases c with
  | false => simp [Dma.mapIf]
  | true =>
      rw [Dma.mapIf, if_pos rfl, Dma.map]
      cases ptr : t.ptr b <;> simp

theorem mapIf_works (h : d.mapIf t fails c b = some d') (wanted : c = true) :
    (t.ptr b).isSome = true ∧ fails b = false := by
  have works : ¬ (t.ptr b = none ∨ fails b = true) := by
    intro bad
    rw [mapIf_eq_none.mpr ⟨wanted, bad⟩] at h
    cases h
  rw [not_or, ← ne_eq, ← Option.isSome_iff_ne_none, Bool.not_eq_true] at works
  exact works

theorem not_mappable (h : d.mapIf t fails (t.mapped b) b = none) : ¬ t.Mappable fails := by
  intro mappable
  obtain ⟨wanted, bad⟩ := mapIf_eq_none.mp h
  obtain ⟨there, works⟩ := mappable b wanted
  rcases bad with none | fail
  · rw [none] at there
    cases there
  · cases works.symm.trans fail

/-- Unmapping undoes a mapping. -/
theorem unmapIf_mapIf (free : Free t d b) (h : d.mapIf t fails c b = some d') :
    d'.unmapIf t c b = d := by
  cases c with
  | false =>
      cases h
      rfl
  | true =>
      rw [Dma.mapIf, if_pos rfl, Dma.map] at h
      cases ptr : t.ptr b with
      | none =>
          rw [ptr] at h
          cases h
      | some a =>
          simp only [ptr] at h
          split at h
          · cases h
          · cases h
            simp only [Dma.unmapIf, if_true, Dma.unmap, ptr, Finset.mem_insert_self,
              Finset.erase_insert (free a ptr)]

/-- A mapping leaves the other buffers as they are. -/
theorem free_mapIf (distinct : Distinct t) (free : Free t d b') (other : b' ≠ b)
    (h : d.mapIf t fails c b = some d') : Free t d' b' := by
  intro a ptr mem
  rcases ((mapIf_some h).2 a).mp mem with old | ⟨-, same⟩
  · exact free a ptr old
  · exact other (distinct b' b a ptr same)

end Steps

section Calls

variable {t : Job A} {fails : Buffer → Bool} {epoch ldEpoch : BitVec 32} {d d' : Dma A}

/-- `libunvmed_map_mems` maps its three buffers in turn, or changes nothing. -/
theorem mapMems_cases (fails : Buffer → Bool) (distinct : Distinct t)
    (origFree : Free t d .orig) (prpFree : Free t d .prp) :
    (∃ d₁ d₂ d₃, d.mapIf t fails (t.mapped .orig) .orig = some d₁ ∧
      d₁.mapIf t fails (t.mapped .prp) .prp = some d₂ ∧
      d₂.mapIf t fails (t.mapped .prpList) .prpList = some d₃ ∧ mapMems t fails d = (0, d₃)) ∨
      ¬ t.Mappable fails ∧ mapMems t fails d = (-1, d) := by
  unfold mapMems
  cases orig : d.mapIf t fails (t.mapped .orig) .orig with
  | none => exact .inr ⟨not_mappable orig, rfl⟩
  | some d₁ =>
      have prpFree := free_mapIf distinct prpFree (by decide) orig
      cases prp : d₁.mapIf t fails (t.mapped .prp) .prp with
      | none =>
          right
          exact ⟨not_mappable prp, by simp only [prp, unmapIf_mapIf origFree orig]⟩
      | some d₂ =>
          cases list : d₂.mapIf t fails (t.mapped .prpList) .prpList with
          | none =>
              right
              refine ⟨not_mappable list, ?_⟩
              simp only [prp, list, unmapIf_mapIf prpFree prp, unmapIf_mapIf origFree orig]
          | some d₃ =>
              left
              exact ⟨d₁, d₂, d₃, rfl, prp, list, by simp only [prp, list]⟩

/-- What the callback undoes are the three buffers of `libunvmed_map_mems`. -/
theorem rollback_eq {d₁ d₂ d₃ d₄ : Dma A} {c : Bool} (distinct : Distinct t)
    (free : ∀ b, Free t d b) (orig : d.mapIf t fails (t.mapped .orig) .orig = some d₁)
    (prp : d₁.mapIf t fails (t.mapped .prp) .prp = some d₂)
    (list : d₂.mapIf t fails (t.mapped .prpList) .prpList = some d₃)
    (undo : d₄.unmapIf t c .metadata = d₃) : rollback t c d₄ = d := by
  have prpFree := free_mapIf distinct (free .prp) (by decide) orig
  have listFree := free_mapIf distinct (free_mapIf distinct (free .prpList) (by decide) orig)
    (by decide) prp
  have there : ((t.ptr .orig).isSome && t.mapped .orig) = t.mapped .orig := by
    cases isMapped : t.mapped .orig with
    | false => exact Bool.and_false _
    | true =>
        rw [Bool.and_true]
        exact (mapIf_works orig isMapped).1
  rw [rollback, undo, unmapIf_mapIf listFree list, unmapIf_mapIf prpFree prp, there,
    unmapIf_mapIf (free .orig) orig]

/-- The callback maps all buffers, or undoes what it has mapped. -/
theorem remap_cases (epoch ldEpoch : BitVec 32) (fails : Buffer → Bool) (distinct : Distinct t)
    (free : ∀ b, Free t d b) :
    (t.Mappable fails ∧ ∃ d', remapMemsCb t fails epoch ldEpoch d = (0, d', epoch) ∧
      d'.faults = d.faults ∧
      ∀ x, x ∈ d'.maps ↔ x ∈ d.maps ∨ ∃ b, t.mapped b = true ∧ t.ptr b = some x) ∨
      ¬ t.Mappable fails ∧ remapMemsCb t fails epoch ldEpoch d = (efault, d, ldEpoch) := by
  rcases mapMems_cases fails distinct (free .orig) (free .prp) with
    ⟨d₁, d₂, d₃, orig, prp, list, done⟩ | ⟨blocked, failed⟩
  · have free₃ {b : Buffer} (notOrig : b ≠ .orig) (notPrp : b ≠ .prp) (notList : b ≠ .prpList) :
        Free t d₃ b :=
      free_mapIf distinct (free_mapIf distinct (free_mapIf distinct (free b) notOrig orig) notPrp
        prp) notList list
    simp only [remapMemsCb, done, ne_eq, not_true_eq_false, if_false]
    cases metadata : d₃.mapIf t fails (t.mapped .metadata) .metadata with
    | none =>
        right
        refine ⟨not_mappable metadata, ?_⟩
        simp only [rollback_eq distinct free orig prp list (rfl : d₃.unmapIf t false _ = d₃)]
    | some d₄ =>
        have undo := unmapIf_mapIf (free₃ (by decide) (by decide) (by decide)) metadata
        cases trim : d₄.mapIf t fails (t.mapped .trim) .trim with
        | none =>
            right
            refine ⟨not_mappable trim, ?_⟩
            simp only [trim, rollback_eq distinct free orig prp list undo]
        | some d₅ =>
            left
            have mappable : t.Mappable fails := fun b wanted => by
              cases b with
              | orig => exact mapIf_works orig wanted
              | prp => exact mapIf_works prp wanted
              | prpList => exact mapIf_works list wanted
              | metadata => exact mapIf_works metadata wanted
              | trim => exact mapIf_works trim wanted
            obtain ⟨faults₁, maps₁⟩ := mapIf_some orig
            obtain ⟨faults₂, maps₂⟩ := mapIf_some prp
            obtain ⟨faults₃, maps₃⟩ := mapIf_some list
            obtain ⟨faults₄, maps₄⟩ := mapIf_some metadata
            obtain ⟨faults₅, maps₅⟩ := mapIf_some trim
            refine ⟨mappable, d₅, by simp only [trim], ?_, ?_⟩
            · rw [faults₅, faults₄, faults₃, faults₂, faults₁]
            · intro x
              rw [maps₅, maps₄, maps₃, maps₂, maps₁]
              constructor
              · rintro (((((old | new) | new) | new) | new) | new)
                · exact .inl old
                all_goals exact .inr ⟨_, new⟩
              · rintro (old | ⟨b, new⟩)
                · exact .inl (.inl (.inl (.inl (.inl old))))
                · cases b with
                  | orig => exact .inl (.inl (.inl (.inl (.inr new))))
                  | prp => exact .inl (.inl (.inl (.inr new)))
                  | prpList => exact .inl (.inl (.inr new))
                  | metadata => exact .inl (.inr new)
                  | trim => exact .inr new
  · right
    refine ⟨blocked, ?_⟩
    rw [remapMemsCb, failed]
    rfl

/-- **All or nothing.** For all buffers and all failing calls: if no call that the job needs fails,
the callback returns 0 with exactly the buffers of the job mapped and the epoch of the controller,
and otherwise an error with the mappings and the epoch as they were. -/
theorem remap_allOrNothing (fails : Buffer → Bool) (distinct : Distinct t)
    (free : ∀ b, Free t d b) :
    (t.Mappable fails → ∃ d', remapMemsCb t fails epoch ldEpoch d = (0, d', epoch) ∧
      d'.faults = d.faults ∧
      ∀ x, x ∈ d'.maps ↔ x ∈ d.maps ∨ ∃ b, t.mapped b = true ∧ t.ptr b = some x) ∧
      (¬ t.Mappable fails → remapMemsCb t fails epoch ldEpoch d = (efault, d, ldEpoch)) := by
  rcases remap_cases epoch ldEpoch fails distinct free with
    ⟨mappable, maps⟩ | ⟨blocked, undone⟩
  · exact ⟨fun _ => maps, fun blocked => absurd mappable blocked⟩
  · exact ⟨fun mappable => absurd mappable blocked, fun _ => undone⟩

/-- A job with all five buffers. -/
def fiveBuffers : Job Buffer := ⟨some, 4096, false⟩

theorem fiveBuffers_distinct : Distinct fiveBuffers :=
  fun _ _ _ h h' => (Option.some.inj h).trans (Option.some.inj h').symm

/-- The trim buffer cannot be mapped: the other four are not mapped either. Without the failure all
five are. -/
theorem trim_failure_undone :
    remapMemsCb fiveBuffers (· == .trim) 2 1 ⟨∅, []⟩ = (efault, ⟨∅, []⟩, 1) ∧
      ∃ d', remapMemsCb fiveBuffers (fun _ => false) 2 1 ⟨∅, []⟩ = (0, d', 2) ∧
        ∀ b, b ∈ d'.maps := by
  have free (b : Buffer) : Free fiveBuffers ⟨∅, []⟩ b := fun a _ => Finset.notMem_empty a
  constructor
  · refine (remap_allOrNothing (· == .trim) fiveBuffers_distinct free).2 fun mappable => ?_
    cases (mappable .trim rfl).2
  · have all : fiveBuffers.Mappable fun _ => false := fun b _ => ⟨rfl, rfl⟩
    obtain ⟨d', done, -, maps⟩ :=
      (remap_allOrNothing (fun _ => false) fiveBuffers_distinct free).1 all
    refine ⟨d', done, fun b => (maps b).mpr (.inr ⟨b, ?_, rfl⟩)⟩
    cases b <;> rfl

end Calls

end Unvmed.Mems
