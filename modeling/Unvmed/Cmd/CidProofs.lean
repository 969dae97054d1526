import Unvmed.Cmd.Cid

/-!
The command id allocator keeps its accounts.

Three equations carry the proof (`State.Inv`): a bit is set as often as its id is
owned or padding, the conflict slot is busy as often as it is owned, and
`nr_cmds` is the number of owners it was raised for. `State.Inv.move` is the one
step lemma: a thread that moves from one program counter to another keeps the
invariant if its own weights change as the shared state does.
-/

namespace Unvmed.Cid

open Lib

/-- What is known of the command in a slot that is owned. -/
def Fits : Slot → Cmd → Prop
  | .cmd c, cmd => cmd.cid = c ∧ cmd.injected ≠ .conflict
  | .conflict, cmd => cmd.injected = .conflict

theorem fits_setState {cmds : Cmds} {slot : Slot} (x : Slot) (st : CmdState)
    (h : Fits slot (cmds slot)) : Fits slot (cmds.setState x st slot) := by
  unfold Cmds.setState
  by_cases same : slot = x
  · subst same
    rw [Function.update_self]
    cases slot <;> exact h
  · rwa [Function.update_of_ne same]

/-- What a thread knows at its program counter. -/
def PcOk (size nrBytes : Nat) (cmds : Cmds) : Pc → Prop
  | .hintLoad i | .scanLoad i | .topStore i _ => i < nrBytes
  | .hintCas i old pos | .scanCas i old pos => i < nrBytes ∧ pos < 8 ∧ old.getLsbD pos = false
  | .pinLoad cid => cid < size
  | .pinCas cid old => cid < size ∧ old.getLsbD (cid % 8) = false
  | .freeClear slot => Fits slot (cmds slot)
  | .freeDec slot _ cid freeCmd | .freeRq slot _ cid freeCmd =>
      (freeCmd = true → slot = .cmd cid) ∧ (freeCmd = false → slot = .conflict)
  | .cidFreeLoad slot cid | .cidFreeCas slot cid _ => slot = .cmd cid
  | _ => True

/-- 1 while the conflict slot is taken. -/
def conflictBusy (cmds : Cmds) : Nat := if (cmds .conflict).state = .init then 0 else 1

theorem conflictBusy_le (cmds : Cmds) : conflictBusy cmds ≤ 1 := by
  unfold conflictBusy
  split <;> omega

/-- Both program counters own the same ids, the same slot and the same count. -/
structure Pc.SameWeights (pc pc' : Pc) : Prop where
  owns : ∀ c, pc.owns c = pc'.owns c
  holds : pc.holdsConflict = pc'.holdsConflict
  counted : pc.counted = pc'.counted

/-- 1 for a bit past `size` in the last byte. -/
def padding (b : Bitmap) (c : Nat) : Nat := if b.size ≤ c ∧ c < 8 * b.nrBytes then 1 else 0

section Inv

variable {ι : Type} [Fintype ι]

structure State.Inv (s : State ι) : Prop where
  bytes : s.cids.nrBytes = (s.cids.size + 7) / 8
  small : s.cids.size ≤ 2 ^ 16
  length : s.cids.bits.length = s.cids.nrBytes
  top : s.cids.top < s.cids.nrBytes
  bits : ∀ c, (testBit s.cids.bits c).toNat =
    padding s.cids c + s.live.count (.cmd c) + tally (Pc.owns c) s.pcs
  conflict : conflictBusy s.cmds = s.live.count .conflict + tally Pc.holdsConflict s.pcs
  count : s.nrCmds = s.live.length + tally Pc.counted s.pcs
  slots : ∀ slot ∈ s.live, Fits slot (s.cmds slot)
  pcs : ∀ t, PcOk s.cids.size s.cids.nrBytes s.cmds (s.pcs t)

/-- A clear bit of a byte of the map is the bit of an id. -/
theorem State.Inv.lt_size {s : State ι} (h : s.Inv) {c : Nat} (inside : c < 8 * s.cids.nrBytes)
    (clear : testBit s.cids.bits c = false) : c < s.cids.size := by
  have := h.bits c
  simp only [clear, Bool.toNat_false, padding] at this
  split at this <;> omega

/-- An owned id is below `size`, its bit is set and it has one owner. -/
theorem State.Inv.owned {s : State ι} (h : s.Inv) {c : Nat}
    (own : 0 < s.live.count (.cmd c) + tally (Pc.owns c) s.pcs) :
    c < s.cids.size ∧ testBit s.cids.bits c = true ∧
      s.live.count (.cmd c) + tally (Pc.owns c) s.pcs = 1 := by
  have balance := h.bits c
  cases hbit : testBit s.cids.bits c with
  | false => simp only [hbit, Bool.toNat_false] at balance; omega
  | true =>
      have inside := testBit_lt hbit
      rw [h.length] at inside
      simp only [hbit, Bool.toNat_true, padding] at balance
      split at balance
      · omega
      · exact ⟨by omega, rfl, by omega⟩

theorem State.Inv.owned_pc {s : State ι} (h : s.Inv) {t : ι} {c : Nat}
    (own : (s.pcs t).owns c = 1) : c < s.cids.size := by
  have := le_tally (Pc.owns c) s.pcs t
  exact (h.owned (by omega)).1

/-- The free requests and the callers' arguments are not accounted for. -/
theorem State.Inv.frame {s : State ι} (h : s.Inv) (rqs : List Nat) (vcqId : ι → Nat) :
    ({ s with rqs := rqs, vcqId := vcqId } : State ι).Inv :=
  ⟨h.bytes, h.small, h.length, h.top, h.bits, h.conflict, h.count, h.slots, h.pcs⟩

theorem State.Inv.fits_freeing {s : State ι} (h : s.Inv) {u : ι} {slot : Slot}
    (hpc : s.pcs u = .freeClear slot) : Fits slot (s.cmds slot) := by
  have known := h.pcs u
  rwa [hpc] at known

/-- An owner's `unvmed_cid_free` never stops at the range check. -/
theorem State.Inv.cidFreeEntry_eq {s : State ι} (h : s.Inv) {t : ι} {cid : Nat} (slot : Slot)
    (own : (s.pcs t).owns cid = 1) : cidFreeEntry s.cids slot cid = .cidFreeLoad slot cid := by
  have := h.owned_pc own
  rw [cidFreeEntry, if_neg (by omega)]

/-- The id written to `*cid` is the bit's, untruncated. -/
theorem State.Inv.cidOf_eq {s : State ι} (h : s.Inv) {i pos : Nat} {old : BitVec 8}
    (hi : i < s.cids.nrBytes) (hpos : pos < 8) (clear : old.getLsbD pos = false)
    (read : s.cids.load i = old) : cidOf i pos = i * 8 + pos := by
  have unset : testBit s.cids.bits (i * 8 + pos) = false := by
    have byte : s.cids.bits.getD i 0 = old := read
    rw [testBit_of_byte hpos, byte, clear]
  have := h.lt_size (by omega) unset
  have := h.small
  exact Nat.mod_eq_of_lt (by omega)

variable [DecidableEq ι]

/-- A thread that owns id `c` is the only owner of it. -/
theorem State.Inv.sole_owner {s : State ι} (h : s.Inv) {t : ι} {c : Nat}
    (own : (s.pcs t).owns c = 1) :
    .cmd c ∉ s.live ∧ ∀ u, u ≠ t → (s.pcs u).owns c = 0 := by
  have mine := le_tally (Pc.owns c) s.pcs t
  obtain ⟨-, -, one⟩ := h.owned (c := c) (by omega)
  constructor
  · intro mem
    have := List.count_pos_iff.mpr mem
    omega
  · intro u other
    exact tally_sole (by omega) own other

/-- A thread that holds the conflict slot is the only one to do so. -/
theorem State.Inv.sole_conflict {s : State ι} (h : s.Inv) {t : ι}
    (hold : (s.pcs t).holdsConflict = 1) :
    conflictBusy s.cmds = 1 ∧ .conflict ∉ s.live ∧ ∀ u, u ≠ t → (s.pcs u).holdsConflict = 0 := by
  have mine := le_tally Pc.holdsConflict s.pcs t
  have balance := h.conflict
  have busy := conflictBusy_le s.cmds
  refine ⟨by omega, ?_, ?_⟩
  · intro mem
    have := List.count_pos_iff.mpr mem
    omega
  · intro u other
    exact tally_sole (by omega) hold other

/-- **Step lemma.** Thread `t` goes from its program counter to `pc` while the
shared state goes from `s` to `s'`. -/
theorem State.Inv.move {s s' : State ι} (h : s.Inv) {t : ι} {pc : Pc}
    (hpcs : s'.pcs = Function.update s.pcs t pc)
    (size : s'.cids.size = s.cids.size) (nrBytes : s'.cids.nrBytes = s.cids.nrBytes)
    (length : s'.cids.bits.length = s.cids.bits.length) (top : s'.cids.top < s.cids.nrBytes)
    (bits : ∀ c, (testBit s'.cids.bits c).toNat + s.live.count (.cmd c) + (s.pcs t).owns c =
      (testBit s.cids.bits c).toNat + s'.live.count (.cmd c) + pc.owns c)
    (conflict : conflictBusy s'.cmds + s.live.count .conflict + (s.pcs t).holdsConflict =
      conflictBusy s.cmds + s'.live.count .conflict + pc.holdsConflict)
    (count : s'.nrCmds + s.live.length + (s.pcs t).counted =
      s.nrCmds + s'.live.length + pc.counted)
    (slots : ∀ slot ∈ s'.live, Fits slot (s'.cmds slot))
    (mine : PcOk s.cids.size s.cids.nrBytes s'.cmds pc)
    (others : ∀ u slot, u ≠ t → s.pcs u = .freeClear slot → Fits slot (s'.cmds slot)) : s'.Inv := by
  refine ⟨by rw [nrBytes, size, h.bytes], size ▸ h.small, by rw [length, nrBytes, h.length],
    by rw [nrBytes]; exact top, fun c => ?_, ?_, ?_, slots, fun u => ?_⟩
  · have moved := tally_update (Pc.owns c) s.pcs t pc
    have before := h.bits c
    have := bits c
    have pad : padding s'.cids c = padding s.cids c := by
      simp only [padding, size, nrBytes]
    rw [hpcs, pad]
    omega
  · have moved := tally_update Pc.holdsConflict s.pcs t pc
    have before := h.conflict
    rw [hpcs]
    omega
  · have moved := tally_update Pc.counted s.pcs t pc
    have before := h.count
    rw [hpcs]
    omega
  · rw [hpcs, size, nrBytes]
    by_cases same : u = t
    · subst same
      rwa [Function.update_self]
    · rw [Function.update_of_ne same]
      have known := h.pcs u
      have theirs := others u
      cases hpc : s.pcs u <;> simp only [hpc, PcOk] at known ⊢ <;>
        first | trivial | exact known | exact theirs _ same hpc

/-- A thread moves on and touches nothing that is accounted for. -/
theorem State.Inv.goto {s : State ι} (h : s.Inv) {t : ι} {pc pc' : Pc} (hpc : s.pcs t = pc)
    (same : pc'.SameWeights pc) (mine : PcOk s.cids.size s.cids.nrBytes s.cmds pc') :
    (s.goto t pc').Inv := by
  subst hpc
  refine h.move rfl rfl rfl rfl h.top ?_ ?_ ?_ h.slots mine fun u slot _ hu => h.fits_freeing hu
  · intro c
    rw [same.owns c]; rfl
  · rw [same.holds]; rfl
  · rw [same.counted]; rfl

/-- A compare-and-swap that sets a clear bit gives its id to the thread. -/
theorem State.Inv.take {s : State ι} (h : s.Inv) {t : ι} {i pos : Nat} {old : BitVec 8}
    {pc pc' : Pc} (hi : i < s.cids.nrBytes) (hpos : pos < 8) (clear : old.getLsbD pos = false)
    (read : s.cids.load i = old) (hpc : s.pcs t = pc) (quiet : Pc.SameWeights .idle pc)
    (next : pc'.SameWeights (.rqAcquire (i * 8 + pos)))
    (mine : PcOk s.cids.size s.cids.nrBytes s.cmds pc') :
    ({ s with cids := s.cids.store i (old ||| 1#8 <<< pos) }.goto t pc' : State ι).Inv := by
  subst hpc
  have hlen : i < s.cids.bits.length := by rw [h.length]; exact hi
  refine h.move rfl rfl rfl (by simp [State.goto, Bitmap.store]) h.top (fun c => ?_) ?_ ?_ h.slots
    mine fun u slot _ hpc => h.fits_freeing hpc
  · rw [← quiet.owns c, next.owns c]
    simp only [State.goto, Bitmap.store, Pc.owns]
    rw [testBit_set_or hlen hpos read]
    by_cases same : c = i * 8 + pos
    · subst same
      have unset : testBit s.cids.bits (i * 8 + pos) = false := by
        have byte : s.cids.bits.getD i 0 = old := read
        rw [testBit_of_byte hpos, byte, clear]
      simp [unset]
      omega
    · simp [same, Ne.symm same]
  · rw [← quiet.holds, next.holds]; rfl
  · rw [← quiet.counted, next.counted]; rfl

/-- A compare-and-swap that clears the thread's own bit gives its id back. -/
theorem State.Inv.drop {s : State ι} (h : s.Inv) {t : ι} {slot : Slot} {cid : Nat}
    {old : BitVec 8} (hpc : s.pcs t = .cidFreeCas slot cid old)
    (read : s.cids.load (cid / 8) = old) :
    ({ s with cids := s.cids.store (cid / 8) (old &&& ~~~(1#8 <<< (cid % 8))) }.goto t .idle :
      State ι).Inv := by
  have own : (s.pcs t).owns cid = 1 := by simp [hpc, Pc.owns]
  have inSize := h.owned_pc own
  have set : testBit s.cids.bits cid = true :=
    (h.owned (c := cid) (by have := le_tally (Pc.owns cid) s.pcs t; omega)).2.1
  have hlen : cid / 8 < s.cids.bits.length := by
    rw [h.length, h.bytes]
    omega
  refine h.move rfl rfl rfl (by simp [State.goto, Bitmap.store]) h.top (fun c => ?_) ?_ ?_ h.slots
    trivial fun u slot _ hpc => h.fits_freeing hpc
  · simp only [State.goto, Bitmap.store, hpc, Pc.owns]
    rw [testBit_set_andNot hlen (Nat.mod_lt _ (by decide)) read, Nat.div_add_mod' cid 8]
    by_cases same : c = cid
    · subst same
      simp [set]
      omega
    · simp [same, Ne.symm same]
  · rw [hpc]; rfl
  · rw [hpc]; rfl

/-- The thread that owns `cid` fills its slot and returns the command. -/
theorem State.Inv.fill {s : State ι} (h : s.Inv) {t : ι} {cid rq : Nat}
    (hpc : s.pcs t = .fill cid rq) (vcqId : Nat) :
    ({ s with cmds := Function.update s.cmds (.cmd cid) (newCmd cid rq vcqId),
              live := .cmd cid :: s.live }.goto t .idle : State ι).Inv := by
  obtain ⟨notLive, alone⟩ := h.sole_owner (t := t) (c := cid) (by simp [hpc, Pc.owns])
  refine h.move rfl rfl rfl rfl h.top ?_ ?_ ?_ ?_ trivial ?_
  · intro c
    simp only [State.goto, hpc, Pc.owns, List.count_cons, beq_iff_eq, Slot.cmd.injEq]
    omega
  · simp [State.goto, hpc, Pc.holdsConflict, conflictBusy]
  · simp only [State.goto, hpc, Pc.counted, List.length_cons]
    omega
  · intro slot mem
    simp only [State.goto] at mem ⊢
    by_cases same : slot = .cmd cid
    · subst same
      rw [Function.update_self]
      exact ⟨rfl, by simp [newCmd]⟩
    · rw [Function.update_of_ne same]
      exact h.slots slot ((List.mem_cons.mp mem).resolve_left same)
  · intro u slot other hu
    have : slot ≠ .cmd cid := by
      rintro rfl
      have := alone u other
      simp [hu, Pc.owns] at this
    simp only [State.goto]
    rw [Function.update_of_ne this]
    exact h.fits_freeing hu

/-- The thread that holds the conflict slot fills it and returns the command. -/
theorem State.Inv.conflictFill {s : State ι} (h : s.Inv) {t : ι} {cid rq : Nat}
    (hpc : s.pcs t = .conflictFill cid rq) (vcqId : Nat) :
    ({ s with
      cmds := Function.update s.cmds .conflict (conflictCmd (s.cmds .conflict) cid rq vcqId),
      live := .conflict :: s.live }.goto t .idle : State ι).Inv := by
  refine h.move rfl rfl rfl rfl h.top ?_ ?_ ?_ ?_ trivial ?_
  · intro c
    simp [State.goto, hpc, Pc.owns]
  · simp [State.goto, hpc, Pc.holdsConflict, conflictBusy, conflictCmd]
    omega
  · simp only [State.goto, hpc, Pc.counted, List.length_cons]
    omega
  · intro slot mem
    simp only [State.goto] at mem ⊢
    by_cases same : slot = .conflict
    · subst same
      rw [Function.update_self]
      rfl
    · rw [Function.update_of_ne same]
      exact h.slots slot ((List.mem_cons.mp mem).resolve_left same)
  · intro u slot other hu
    simp only [State.goto]
    by_cases same : slot = .conflict
    · subst same
      rw [Function.update_self]
      rfl
    · rw [Function.update_of_ne same]
      exact h.fits_freeing hu

/-- `__unvmed_cmd_free` clears the command; what it read decides whether the bit
goes back. -/
theorem State.Inv.freeClear {s : State ι} (h : s.Inv) {t : ι} {slot : Slot}
    (hpc : s.pcs t = .freeClear slot) :
    ({ s with cmds := Function.update s.cmds slot {} }.goto t
      (.freeDec slot (s.cmds slot).rq (s.cmds slot).cid
        (decide ((s.cmds slot).injected ≠ Inject.conflict))) : State ι).Inv := by
  have fits := h.fits_freeing hpc
  have gone : slot ∉ s.live ∧ ∀ u, u ≠ t → s.pcs u ≠ .freeClear slot := by
    cases slot with
    | cmd c =>
        obtain ⟨notLive, alone⟩ := h.sole_owner (t := t) (c := c) (by simp [hpc, Pc.owns])
        refine ⟨notLive, ?_⟩
        intro u other hu
        have := alone u other
        simp [hu, Pc.owns] at this
    | conflict =>
        obtain ⟨-, notLive, alone⟩ := h.sole_conflict (t := t) (by simp [hpc, Pc.holdsConflict])
        refine ⟨notLive, ?_⟩
        intro u other hu
        have := alone u other
        simp [hu, Pc.holdsConflict] at this
  refine h.move rfl rfl rfl rfl h.top ?_ ?_ ?_ ?_ ?_ ?_
  · intro c
    cases slot with
    | cmd c' => simp [State.goto, hpc, Pc.owns, fits.1, fits.2]
    | conflict =>
        have : (s.cmds .conflict).injected = .conflict := fits
        simp [State.goto, hpc, Pc.owns, this]
  · cases slot with
    | cmd c' => simp [State.goto, hpc, Pc.holdsConflict, conflictBusy]
    | conflict =>
        obtain ⟨busy, -, -⟩ := h.sole_conflict (t := t) (by simp [hpc, Pc.holdsConflict])
        have cleared : conflictBusy (Function.update s.cmds .conflict {}) = 0 := by
          simp [conflictBusy]
        simp only [State.goto, hpc, Pc.holdsConflict, if_true, cleared, busy]
        omega
  · simp [State.goto, hpc, Pc.counted]
  · intro x mem
    have : x ≠ slot := by
      rintro rfl
      exact gone.1 mem
    simp only [State.goto]
    rw [Function.update_of_ne this]
    exact h.slots x mem
  · cases slot with
    | cmd c' => simp [PcOk, fits.1, fits.2]
    | conflict =>
        have : (s.cmds .conflict).injected = .conflict := fits
        simp [PcOk, this]
  · intro u x other hu
    have : x ≠ slot := by
      rintro rfl
      exact gone.2 u other hu
    simp only [State.goto]
    rw [Function.update_of_ne this]
    exact h.fits_freeing hu

/-- The conflict slot is taken or given back by writing its state alone. -/
theorem State.Inv.setConflict {s : State ι} (h : s.Inv) {t : ι} {pc : Pc} {st : CmdState}
    (owns : ∀ c, pc.owns c = (s.pcs t).owns c) (counted : pc.counted = (s.pcs t).counted)
    (holds : conflictBusy (s.cmds.setState .conflict st) + (s.pcs t).holdsConflict =
      conflictBusy s.cmds + pc.holdsConflict)
    (mine : ∀ cmds, PcOk s.cids.size s.cids.nrBytes cmds pc) :
    ({ s with cmds := s.cmds.setState .conflict st }.goto t pc : State ι).Inv := by
  refine h.move rfl rfl rfl rfl h.top (fun c => ?_) ?_ ?_
    (fun slot mem => fits_setState _ _ (h.slots slot mem)) (mine _)
    fun u slot _ hu => fits_setState _ _ (h.fits_freeing hu)
  · rw [owns c]; rfl
  · simp only [State.goto]
    omega
  · rw [counted]; rfl

/-- The loop heads own nothing. -/
theorem scanEntry_cases (b : Bitmap) (i : Nat) :
    scanEntry b i = .idle ∨ (i < b.nrBytes ∧ scanEntry b i = .scanLoad i) := by
  unfold scanEntry
  split
  · exact Or.inr ⟨by assumption, rfl⟩
  · exact Or.inl rfl

theorem State.Inv.goto_scan {s : State ι} (h : s.Inv) {t : ι} {pc : Pc} (i : Nat)
    (hpc : s.pcs t = pc) (quiet : Pc.SameWeights .idle pc) :
    (s.goto t (scanEntry s.cids i)).Inv := by
  obtain next | ⟨hi, next⟩ := scanEntry_cases s.cids i <;> rw [next]
  · exact h.goto hpc quiet trivial
  · exact h.goto hpc ⟨quiet.owns, quiet.holds, quiet.counted⟩ hi

theorem threadStep_inv {s s' : State ι} {t : ι} (h : s.Inv) (hstep : threadStep s t = some s') :
    s'.Inv := by
  have known := h.pcs t
  cases hpc : s.pcs t <;> simp only [threadStep, hpc, Option.some.injEq, reduceCtorEq] at hstep <;>
    simp only [hpc, PcOk] at known
  case topLoad =>
      subst hstep
      exact h.goto hpc ⟨fun _ => rfl, rfl, rfl⟩ h.top
  case hintLoad i =>
      split at hstep
      · cases hstep
        exact h.goto_scan 0 hpc ⟨fun _ => rfl, rfl, rfl⟩
      · split at hstep <;> cases hstep
        · exact h.goto_scan 0 hpc ⟨fun _ => rfl, rfl, rfl⟩
        · rename_i found
          exact h.goto hpc ⟨fun _ => rfl, rfl, rfl⟩
            ⟨known, findFirstZero_some found⟩
  case hintCas i old pos =>
      obtain ⟨hi, hpos, clear⟩ := known
      split at hstep <;> cases hstep
      · rename_i read
        rw [h.cidOf_eq hi hpos clear read]
        exact h.take hi hpos clear read hpc ⟨fun _ => rfl, rfl, rfl⟩ ⟨fun _ => rfl, rfl, rfl⟩ trivial
      · exact h.goto hpc ⟨fun _ => rfl, rfl, rfl⟩ hi
  case scanLoad i =>
      split at hstep
      · cases hstep
        exact h.goto_scan _ hpc ⟨fun _ => rfl, rfl, rfl⟩
      · split at hstep <;> cases hstep
        · exact h.goto_scan _ hpc ⟨fun _ => rfl, rfl, rfl⟩
        · rename_i found
          exact h.goto hpc ⟨fun _ => rfl, rfl, rfl⟩
            ⟨known, findFirstZero_some found⟩
  case scanCas i old pos =>
      obtain ⟨hi, hpos, clear⟩ := known
      split at hstep <;> cases hstep
      · rename_i read
        rw [h.cidOf_eq hi hpos clear read]
        exact h.take hi hpos clear read hpc ⟨fun _ => rfl, rfl, rfl⟩ ⟨fun _ => rfl, rfl, rfl⟩ hi
      · exact h.goto_scan _ hpc ⟨fun _ => rfl, rfl, rfl⟩
  case topStore i cid =>
      subst hstep
      exact h.move rfl rfl rfl rfl known (fun c => by rw [hpc]; rfl) (by rw [hpc]; rfl)
        (by rw [hpc]; rfl) h.slots trivial fun u slot _ hu => h.fits_freeing hu
  case pinLoad cid =>
      split at hstep <;> cases hstep
      · exact h.goto hpc ⟨fun _ => rfl, rfl, rfl⟩ trivial
      · rename_i clear
        exact h.goto hpc ⟨fun _ => rfl, rfl, rfl⟩
          ⟨known, by simpa using clear⟩
  case pinCas cid old =>
      obtain ⟨inSize, clear⟩ := known
      split at hstep <;> cases hstep
      · rename_i read
        have hi : cid / 8 < s.cids.nrBytes := by
          rw [h.bytes]
          omega
        exact h.take hi (Nat.mod_lt _ (by decide)) clear read hpc ⟨fun _ => rfl, rfl, rfl⟩
          ⟨fun c => by rw [Nat.div_add_mod' cid 8], rfl, rfl⟩ trivial
      · exact h.goto hpc ⟨fun _ => rfl, rfl, rfl⟩ inSize
  case rqAcquire cid =>
      split at hstep <;> cases hstep
      · rw [h.cidFreeEntry_eq (t := t) _ (by simp [hpc, Pc.owns])]
        exact h.goto hpc ⟨fun _ => rfl, rfl, rfl⟩ rfl
      · exact (h.frame _ s.vcqId).goto hpc ⟨fun _ => rfl, rfl, rfl⟩ trivial
  case nrInc cid rq =>
      subst hstep
      refine h.move rfl rfl rfl rfl h.top (fun c => by rw [hpc]; rfl) (by rw [hpc]; rfl) ?_
        h.slots trivial fun u slot _ hu => h.fits_freeing hu
      simp only [State.goto, hpc, Pc.counted]
      omega
  case fill cid rq =>
      subst hstep
      exact h.fill hpc _
  case conflictCas cid =>
      split at hstep <;> cases hstep
      · rename_i free
        refine h.setConflict (fun c => by rw [hpc]; rfl) (by rw [hpc]; rfl) ?_ fun _ => trivial
        simp [conflictBusy, Cmds.setState, free, hpc, Pc.holdsConflict]
      · exact h.goto hpc ⟨fun _ => rfl, rfl, rfl⟩ trivial
  case conflictRq cid =>
      split at hstep <;> cases hstep
      · exact h.goto hpc ⟨fun _ => rfl, rfl, rfl⟩ trivial
      · exact (h.frame _ s.vcqId).goto hpc ⟨fun _ => rfl, rfl, rfl⟩ trivial
  case conflictUndo =>
      subst hstep
      refine h.setConflict (fun c => by rw [hpc]; rfl) (by rw [hpc]; rfl) ?_ fun _ => trivial
      obtain ⟨busy, -, -⟩ := h.sole_conflict (t := t) (by simp [hpc, Pc.holdsConflict])
      have cleared : conflictBusy (s.cmds.setState .conflict .init) = 0 := by
        simp [conflictBusy, Cmds.setState]
      simp only [busy, cleared, hpc, Pc.holdsConflict]
  case conflictInc cid rq =>
      subst hstep
      refine h.move rfl rfl rfl rfl h.top (fun c => by rw [hpc]; rfl) (by rw [hpc]; rfl) ?_
        h.slots trivial fun u slot _ hu => h.fits_freeing hu
      simp only [State.goto, hpc, Pc.counted]
      omega
  case conflictFill cid rq =>
      subst hstep
      exact h.conflictFill hpc _
  case freeClear slot =>
      subst hstep
      exact h.freeClear hpc
  case freeDec slot rq cid freeCmd =>
      subst hstep
      refine h.move rfl rfl rfl rfl h.top (fun c => by rw [hpc]; rfl) (by rw [hpc]; rfl) ?_
        h.slots known fun u slot _ hu => h.fits_freeing hu
      simp only [State.goto, hpc, Pc.counted]
      omega
  case freeRq slot rq cid freeCmd =>
      subst hstep
      cases freeCmd with
      | false =>
          exact (h.frame _ s.vcqId).goto hpc ⟨fun c => by simp [Pc.owns], rfl, rfl⟩ trivial
      | true =>
          rw [if_pos rfl, h.cidFreeEntry_eq (t := t) _ (by simp [hpc, Pc.owns])]
          exact (h.frame _ s.vcqId).goto hpc ⟨fun c => by simp [Pc.owns], rfl, rfl⟩ (known.1 rfl)
  case cidFreeLoad slot cid =>
      subst hstep
      exact h.goto hpc ⟨fun _ => rfl, rfl, rfl⟩ known
  case cidFreeCas slot cid old =>
      split at hstep <;> cases hstep
      · rename_i read
        exact h.drop hpc read
      · exact h.goto hpc ⟨fun _ => rfl, rfl, rfl⟩ known

theorem step_inv {s s' : State ι} {a : Act ι} (h : s.Inv) (hstep : step s a = some s') :
    s'.Inv := by
  cases a with
  | cmdAlloc t cid vcqId =>
      cases hpc : s.pcs t <;> simp only [step, hpc, reduceCtorEq] at hstep
      have framed := h.frame s.rqs (Function.update s.vcqId t vcqId)
      cases cid with
      | none =>
          cases hstep
          exact framed.goto hpc ⟨fun _ => rfl, rfl, rfl⟩ trivial
      | some cid =>
          cases hstep
          split
          · exact framed.goto hpc ⟨fun _ => rfl, rfl, rfl⟩ trivial
          · rename_i inSize
            exact framed.goto hpc ⟨fun _ => rfl, rfl, rfl⟩ (Nat.lt_of_not_ge inSize)
  | cmdFree t slot =>
      cases hpc : s.pcs t <;> simp only [step, hpc, reduceCtorEq] at hstep
      split at hstep <;> cases hstep
      rename_i mem
      have held := List.count_pos_iff.mpr mem
      refine h.move rfl rfl rfl rfl h.top (fun c => ?_) ?_ ?_
        (fun x hx => h.slots x (List.mem_of_mem_erase hx)) (h.slots slot mem)
        fun u x _ hu => h.fits_freeing hu
      · simp only [State.goto, hpc, Pc.owns, List.count_erase, beq_iff_eq]
        split
        · subst_vars
          omega
        · omega
      · simp only [State.goto, hpc, Pc.holdsConflict, List.count_erase, beq_iff_eq]
        split
        · subst_vars
          omega
        · omega
      · have := List.length_erase_of_mem mem
        have := List.length_pos_of_mem mem
        simp only [State.goto, hpc, Pc.counted]
        omega
  | setState slot st =>
      simp only [step] at hstep
      split at hstep <;> cases hstep
      rename_i live
      refine ⟨h.bytes, h.small, h.length, h.top, h.bits, ?_, h.count,
        fun x mem => fits_setState _ _ (h.slots x mem), fun t => ?_⟩
      · rw [← h.conflict]
        by_cases same : slot = .conflict
        · subst same
          have busy := List.count_pos_iff.mpr live.1
          have := h.conflict
          have := conflictBusy_le s.cmds
          have now : conflictBusy (s.cmds.setState .conflict st) = 1 := by
            simp [conflictBusy, Cmds.setState, live.2]
          show conflictBusy (s.cmds.setState .conflict st) = conflictBusy s.cmds
          omega
        · simp [conflictBusy, Cmds.setState, Ne.symm same]
      · have known := h.pcs t
        cases hpc : s.pcs t <;> simp only [hpc, PcOk] at known ⊢ <;>
          first | trivial | exact known | exact fits_setState _ _ known
  | step t => exact threadStep_inv h hstep

omit [DecidableEq ι] in
theorem State.Inv.sound {s : State ι} (h : s.Inv) : s.Sound := by
  have cid_eq : ∀ slot ∈ s.live.filter (· ≠ .conflict), slot = .cmd (s.cmds slot).cid := by
    intro slot mem
    obtain ⟨live, notConflict⟩ := List.mem_filter.mp mem
    have fits := h.slots slot live
    cases slot with
    | cmd c => rw [fits.1]
    | conflict => simp at notConflict
  have mem_iff : ∀ c, c ∈ s.liveCids ↔ .cmd c ∈ s.live := by
    intro c
    simp only [State.liveCids, List.mem_map]
    constructor
    · rintro ⟨slot, mem, rfl⟩
      rw [← cid_eq slot mem]
      exact (List.mem_filter.mp mem).1
    · intro mem
      exact ⟨.cmd c, List.mem_filter.mpr ⟨mem, by simp⟩, (h.slots _ mem).1⟩
  refine ⟨?_, ?_, ?_, ?_, ?_⟩
  · have nodup : (s.live.filter (· ≠ .conflict)).Nodup := by
      rw [List.nodup_iff_count_le_one]
      intro slot
      by_cases mem : slot ∈ s.live.filter (· ≠ .conflict)
      · have live := (List.mem_filter.mp mem).1
        have le := (List.filter_sublist (p := (· ≠ Slot.conflict)) (l := s.live)).count_le slot
        rw [cid_eq slot mem] at le live ⊢
        have := List.count_pos_iff.mpr live
        have := (h.owned (c := (s.cmds slot).cid) (by omega)).2.2
        omega
      · rw [List.count_eq_zero_of_not_mem mem]
        omega
    refine List.Nodup.map_on (fun x hx y hy same => ?_) nodup
    rw [cid_eq x hx, cid_eq y hy, same]
  · intro c mem
    have := List.count_pos_iff.mpr ((mem_iff c).mp mem)
    exact (h.owned (by omega)).1
  · intro c
    have balance := h.bits c
    rw [State.Owned, mem_iff, Bitmap.Padding]
    constructor
    · intro set
      simp only [set, Bool.toNat_true, padding] at balance
      split at balance
      · exact Or.inr ‹_›
      · left
        by_cases live : .cmd c ∈ s.live
        · exact Or.inl live
        · right
          rw [List.count_eq_zero_of_not_mem live] at balance
          by_contra none
          rw [not_exists] at none
          have : tally (Pc.owns c) s.pcs = 0 := tally_eq_zero fun t => by
            have := none t
            have := le_tally (Pc.owns c) s.pcs t
            omega
          omega
    · rintro ((live | ⟨t, own⟩) | pad)
      · have := List.count_pos_iff.mpr live
        exact (h.owned (by omega)).2.1
      · have := le_tally (Pc.owns c) s.pcs t
        exact (h.owned (by omega)).2.1
      · cases hbit : testBit s.cids.bits c with
        | true => rfl
        | false =>
            simp only [hbit, Bool.toNat_false, padding, if_pos pad] at balance
            omega
  · have := h.conflict
    have := conflictBusy_le s.cmds
    omega
  · intro idle
    have : tally Pc.counted s.pcs = 0 := tally_eq_zero fun t => by rw [idle t]; rfl
    have := h.count
    omega

end Inv

end Unvmed.Cid
