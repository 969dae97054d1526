import Unvmed.Cmd.CidProofs

/-!
The command id allocator over whole runs.

`Alone t` is a run of one thread without interference. A hinted byte or, after
it, a byte of the scan with a clear bit gives a free id (`scan_finds`), so an
auto-allocation that runs alone succeeds while an id is free (`alloc_finds`).
`cid_allocator` puts this together with the invariant.
-/

namespace Unvmed.Cid

open Lib

/-! ### The initial bitmap -/

theorem testBit_replicate (n c : Nat) : testBit (List.replicate n 0#8) c = false := by
  unfold testBit
  by_cases inside : c / 8 < n
  · rw [List.getD_eq_getElem _ _ (by simpa using inside)]
    simp
  · rw [List.getD_eq_default _ _ (by simpa using inside)]
    simp

/-- After `unvmed_cid_init` exactly the padding bits are set. -/
theorem testBit_cidInit (size c : Nat) :
    testBit (cidInit size).bits c = true ↔ (cidInit size).Padding c := by
  simp only [cidInit, Bitmap.Padding]
  by_cases whole : size % 8 = 0
  · simp only [whole, ne_eq, not_true_eq_false, if_false, testBit_replicate, Bool.false_eq_true,
      false_iff]
    omega
  · have ones : 0xff#8 = BitVec.allOnes 8 := by decide
    have low : c % 8 < 8 := Nat.mod_lt _ (by decide)
    simp only [ne_eq, whole, not_false_eq_true, if_true]
    rw [testBit_set (by simp; omega)]
    split
    · rw [ones, BitVec.getLsbD_shiftLeft, BitVec.getLsbD_allOnes]
      simp only [low, decide_true, Bool.true_and, Bool.and_eq_true, Bool.not_eq_true',
        decide_eq_false_iff_not, decide_eq_true_eq]
      omega
    · rw [testBit_replicate]
      simp only [Bool.false_eq_true, false_iff]
      omega

section Runs

variable {ι : Type} [Fintype ι]

theorem start_inv {size : Nat} (pos : 0 < size) (small : size ≤ 2 ^ 16) (rqs : List Nat) :
    (start ι size rqs).Inv := by
  refine ⟨rfl, small, ?_, ?_, fun c => ?_, ?_, ?_, fun _ mem => absurd mem List.not_mem_nil,
    fun _ => trivial⟩
  · simp only [start, cidInit]
    split <;> simp
  · simp only [start, cidInit]
    omega
  · have initial : (testBit (cidInit size).bits c).toNat = padding (cidInit size) c := by
      have set_iff := testBit_cidInit size c
      unfold padding
      split
      · rw [set_iff.mpr ‹_›]
        rfl
      · simpa using mt set_iff.mp ‹_›
    have idle : tally (Pc.owns c) (start ι size rqs).pcs = 0 := tally_eq_zero fun _ => rfl
    rw [idle]
    exact initial
  · have idle : tally Pc.holdsConflict (start ι size rqs).pcs = 0 := tally_eq_zero fun _ => rfl
    rw [idle]
    rfl
  · have idle : tally Pc.counted (start ι size rqs).pcs = 0 := tally_eq_zero fun _ => rfl
    rw [idle]
    rfl

variable [DecidableEq ι]

/-- No step for a conflict command changes a bit. -/
theorem conflict_keeps_bits {s s' : State ι} {t : ι} (h : s.Inv) (work : (s.pcs t).forConflict)
    (hstep : step s (.step t) = some s') : s'.cids = s.cids := by
  have known := h.pcs t
  cases hpc : s.pcs t <;> simp only [hpc, Pc.forConflict] at work <;>
    simp only [step, threadStep, hpc, Option.some.injEq] at hstep <;>
    simp only [hpc, PcOk] at known
  case conflictCas => split at hstep <;> cases hstep <;> rfl
  case conflictRq => split at hstep <;> cases hstep <;> rfl
  case cidFreeCas =>
      subst work
      simp at known
  all_goals subst hstep; rfl

/-! ### An allocation that runs alone -/

/-- Thread `t` takes some steps and nobody else does. -/
def Alone (t : ι) (s s' : State ι) : Prop := ∃ n, run step s (List.replicate n (.step t)) = some s'

omit [Fintype ι] in
theorem Alone.refl (t : ι) (s : State ι) : Alone t s s := ⟨0, rfl⟩

omit [Fintype ι] in
theorem Alone.head {t : ι} {s u s' : State ι} (hstep : threadStep s t = some u)
    (rest : Alone t u s') : Alone t s s' := by
  obtain ⟨n, hrun⟩ := rest
  exact ⟨n + 1, by simpa [List.replicate_succ, run, step, hstep] using hrun⟩

omit [Fintype ι] in
theorem Alone.trans {t : ι} {s s₁ s₂ : State ι} (first : Alone t s s₁) (rest : Alone t s₁ s₂) :
    Alone t s s₂ := by
  obtain ⟨n, hrun⟩ := first
  induction n generalizing s with
  | zero =>
      cases hrun
      exact rest
  | succ n ih =>
      obtain ⟨s', hstep, hrest⟩ := run_cons_some hrun
      exact Alone.head hstep (ih hrest)

/-- From `s` thread `t` has come to `s'`, where it owns `cid`, free in `s`. -/
structure Found (s s' : State ι) (t : ι) (cid : Nat) : Prop where
  pc : s'.pcs t = .rqAcquire cid
  in_range : cid < s.cids.size
  was_clear : testBit s.cids.bits cid = false
  now_set : testBit s'.cids.bits cid = true
  rqs : s'.rqs = s.rqs
  live : s'.live = s.live

theorem found_of_clear {s : State ι} (h : s.Inv) {t : ι} {i pos : Nat} (top : Nat)
    (hi : i < s.cids.nrBytes) (found : findFirstZero (s.cids.load i) = some pos) :
    Found s ({ s with cids := { s.cids.store i (s.cids.load i ||| 1#8 <<< pos) with top := top } }.goto
      t (.rqAcquire (cidOf i pos))) t (cidOf i pos) := by
  obtain ⟨hpos, clear⟩ := findFirstZero_some found
  have hcid := h.cidOf_eq hi hpos clear rfl
  have unset : testBit s.cids.bits (i * 8 + pos) = false := by
    rw [testBit_of_byte hpos]
    exact clear
  refine ⟨by simp [State.goto], ?_, ?_, ?_, rfl, rfl⟩
  · rw [hcid]
    exact h.lt_size (by omega) unset
  · rw [hcid, unset]
  · simp only [State.goto, Bitmap.store]
    rw [testBit_set_or (by rw [h.length]; exact hi) hpos
      (show s.cids.bits.getD i 0 = s.cids.load i from rfl), hcid]
    simp

/-- The scan finds a free id at or after the byte it looks at. -/
theorem scan_finds (k : Nat) : ∀ {s : State ι} {t : ι} {i : Nat}, s.Inv → s.pcs t = .scanLoad i →
    i + k = s.cids.nrBytes →
    (∃ c, i ≤ c / 8 ∧ c < s.cids.size ∧ testBit s.cids.bits c = false) →
    ∃ cid s', Alone t s s' ∧ Found s s' t cid := by
  induction k with
  | zero =>
      rintro s t i h hpc done ⟨c, low, inSize, -⟩
      have := h.bytes
      omega
  | succ k ih =>
      rintro s t i h hpc todo ⟨c, low, inSize, clear⟩
      have hi : i < s.cids.nrBytes := by omega
      -- A byte without a clear bit is not the byte of `c`.
      have skip : (∀ c', c' / 8 = i → testBit s.cids.bits c' = true) →
          threadStep s t = some (s.goto t (scanEntry s.cids (i + 1))) →
          ∃ cid s', Alone t s s' ∧ Found s s' t cid := by
        intro full hstep
        have ne : c / 8 ≠ i := fun same => by simp [full c same] at clear
        have := h.bytes
        have entry : scanEntry s.cids (i + 1) = .scanLoad (i + 1) := by
          rw [scanEntry, if_pos (by omega)]
        rw [entry] at hstep
        obtain ⟨cid, s', rest, found⟩ := ih (t := t) (i := i + 1) (threadStep_inv h hstep)
          (by simp [State.goto]) (by show i + 1 + k = s.cids.nrBytes; omega)
          ⟨c, by omega, inSize, clear⟩
        exact ⟨cid, s', rest.head hstep, ⟨found.pc, found.in_range, found.was_clear,
          found.now_set, found.rqs, found.live⟩⟩
      by_cases ff : s.cids.load i = 0xFF#8
      · refine skip ?_ (by simp [threadStep, hpc, ff])
        intro c' same
        subst same
        exact testBit_of_full ff
      · cases hfind : findFirstZero (s.cids.load i) with
        | none =>
            refine skip ?_ (by simp [threadStep, hpc, ff, hfind])
            intro c' same
            subst same
            exact findFirstZero_none hfind (Nat.mod_lt _ (by decide))
        | some pos =>
            refine ⟨cidOf i pos, _, Alone.head (u := s.goto t (.scanCas i (s.cids.load i) pos))
              ?_ (Alone.head (u := { s with
                cids := s.cids.store i (s.cids.load i ||| 1#8 <<< pos) }.goto t
                (.topStore i (cidOf i pos))) ?_ (Alone.head (u := _) ?_ (Alone.refl _ _))),
              found_of_clear h i hi hfind⟩
            · simp [threadStep, hpc, ff, hfind]
            · simp [threadStep, State.goto]
            · simp [threadStep, State.goto]

/-- An auto-allocation that runs alone finds a free id, whatever the hint. -/
theorem alloc_finds {s : State ι} (h : s.Inv) {t : ι} (hpc : s.pcs t = .topLoad)
    (free : ∃ c, c < s.cids.size ∧ testBit s.cids.bits c = false) :
    ∃ cid s', Alone t s s' ∧ Found s s' t cid := by
  have first : threadStep s t = some (s.goto t (.hintLoad s.cids.top)) := by
    simp [threadStep, hpc]
  -- The hinted byte has no clear bit: the scan starts from byte 0.
  have fallback : threadStep (s.goto t (.hintLoad s.cids.top)) t =
      some (s.goto t (scanEntry s.cids 0)) → ∃ cid s', Alone t s s' ∧ Found s s' t cid := by
    intro hstep
    obtain ⟨c, inSize, clear⟩ := free
    have entry : scanEntry s.cids 0 = .scanLoad 0 := by
      rw [scanEntry, if_pos (Nat.zero_lt_of_lt h.top)]
    rw [entry] at hstep
    obtain ⟨cid, s', rest, found⟩ := scan_finds s.cids.nrBytes (t := t) (i := 0)
      (threadStep_inv (threadStep_inv h first) hstep) (by simp [State.goto])
      (Nat.zero_add _) ⟨c, Nat.zero_le _, inSize, clear⟩
    exact ⟨cid, s', (rest.head hstep).head first, ⟨found.pc, found.in_range, found.was_clear,
      found.now_set, found.rqs, found.live⟩⟩
  by_cases ff : s.cids.load s.cids.top = 0xFF#8
  · exact fallback (by simp [threadStep, State.goto, ff])
  · cases hfind : findFirstZero (s.cids.load s.cids.top) with
    | none => exact fallback (by simp [threadStep, State.goto, ff, hfind])
    | some pos =>
        refine ⟨cidOf s.cids.top pos, _, Alone.head first (Alone.head
          (u := s.goto t (.hintCas s.cids.top (s.cids.load s.cids.top) pos)) ?_
          (Alone.head (u := _) ?_ (Alone.refl _ _))),
          found_of_clear h s.cids.top h.top hfind⟩
        · simp [threadStep, State.goto, ff, hfind]
        · simp [threadStep, State.goto, Bitmap.store]

omit [Fintype ι] in
/-- With a request to spare, a found id becomes an outstanding command. -/
theorem Found.returns {s s' : State ι} {t : ι} {cid : Nat} (found : Found s s' t cid)
    (rq : s.rqs ≠ []) :
    ∃ s'', Alone t s' s'' ∧ s''.pcs t = .idle ∧ s''.live = .cmd cid :: s.live := by
  obtain ⟨rq, rqs, hrqs⟩ := List.exists_cons_of_ne_nil (found.rqs ▸ rq)
  refine ⟨_, Alone.head (u := { s' with rqs := rqs }.goto t (.nrInc cid rq)) ?_
    (Alone.head (u := { s' with rqs := rqs, nrCmds := s'.nrCmds + 1 }.goto t (.fill cid rq)) ?_
    (Alone.head (u := { s' with
      rqs := rqs, nrCmds := s'.nrCmds + 1,
      cmds := Function.update s'.cmds (.cmd cid) (newCmd cid rq (s'.vcqId t)),
      live := .cmd cid :: s'.live }.goto t .idle) ?_ (Alone.refl _ _))), ?_, ?_⟩
  · simp [threadStep, found.pc, hrqs]
  · simp [threadStep, State.goto]
  · simp [threadStep, State.goto]
  · simp [State.goto]
  · simp [State.goto, found.live]

/-- What the allocator promises in a state. -/
structure State.Allocator (s : State ι) : Prop where
  sound : s.Sound
  conflict_keeps_bits : ∀ t s', (s.pcs t).forConflict → step s (.step t) = some s' →
    s'.cids.bits = s.cids.bits
  alone_succeeds : ∀ t vcqId hint, s.pcs t = .idle → hint < s.cids.nrBytes →
    (∃ c, c < s.cids.size ∧ testBit s.cids.bits c = false) →
    ∃ s₁ s' cid, step { s with cids := { s.cids with top := hint } } (.cmdAlloc t none vcqId) = some s₁ ∧
      Alone t s₁ s' ∧ Found s s' t cid ∧
      (s.rqs ≠ [] → ∃ s'', Alone t s₁ s'' ∧ s''.pcs t = .idle ∧ s''.live = .cmd cid :: s.live)

/-- **The command id allocator.** For every size libvfn accepts, every pool of
requests, any number of threads and every interleaving of allocations, frees
and state changes. -/
theorem cid_allocator {size : Nat} (pos : 0 < size) (small : size ≤ 2 ^ 16) {rqs : List Nat}
    {as : List (Act ι)} {s : State ι} (hrun : run step (start ι size rqs) as = some s) :
    s.Allocator := by
  have h : s.Inv := run_inv_all (fun _ _ _ h hs => step_inv h hs) (start_inv pos small rqs) hrun
  refine ⟨h.sound, fun t s' work hstep => by rw [Cid.conflict_keeps_bits h work hstep], ?_⟩
  intro t vcqId hint idle inBytes free
  have hinted : ({ s with cids := { s.cids with top := hint } } : State ι).Inv :=
    ⟨h.bytes, h.small, h.length, inBytes, h.bits, h.conflict, h.count, h.slots, h.pcs⟩
  have enter : step { s with cids := { s.cids with top := hint } } (.cmdAlloc t none vcqId) =
      some ({ s with cids := { s.cids with top := hint },
                     vcqId := Function.update s.vcqId t vcqId }.goto t .topLoad) := by
    simp [step, idle]
  obtain ⟨cid, s', alone, found⟩ := alloc_finds (t := t) (step_inv hinted enter)
    (by simp [State.goto]) free
  refine ⟨_, s', cid, enter, alone, ⟨found.pc, found.in_range, found.was_clear, found.now_set,
    found.rqs, found.live⟩, fun rq => ?_⟩
  obtain ⟨s'', rest, done⟩ := found.returns rq
  exact ⟨s'', alone.trans rest, done⟩

/-- Thread `b` pins the id that `a`'s allocation takes first, and gets the conflict
slot; `a` starts to free its command. -/
def collidingRun : List (Act Thread) :=
  [.cmdAlloc .a none 1, .step .a, .step .a, .cmdAlloc .b (some 0) 2, .step .b, .step .a, .step .a,
    .step .a, .step .a, .step .b, .step .b, .step .b, .step .b, .step .b, .step .b,
    .cmdFree .a (.cmd 0), .step .a]

theorem cid_allocator_colliding :
    ∃ s, run step (start Thread 3 [0, 1, 2]) collidingRun = some s ∧ s.live = [.conflict] ∧
      s.Allocator :=
  ⟨_, rfl, rfl, cid_allocator (by decide) (by decide)
    (show run step (start Thread 3 [0, 1, 2]) collidingRun = some _ from rfl)⟩

end Runs

end Unvmed.Cid
