import Unvmed.Lib.PhaseRing
import Unvmed.Basic

/-!
The two readers of a CQ (`lib/libunvmed.c`).

`__unvmed_reap_cqe` takes entries with libvfn's `nvme_cq_get_cqe`. `unvmed_cancel_sq`
has a loop of its own over the queue memory, with local copies of `head` and
`phase` that it stores back at the end.

* `cancel_drain_eq_reaper`: from every position and for every content of the ring both
  loops end, take the same entries in the same order, each slot once, and leave the
  same `head` and `phase`, where there is nothing more to take.
-/

namespace Unvmed.Drain

open Lib

/-- `struct nvme_cqe` -/
structure RawCqe where
  qw0 : BitVec 64
  sqhd : BitVec 16
  sqid : BitVec 16
  cid : BitVec 16
  sfp : BitVec 16
  deriving DecidableEq, Repr

/-- `le16_to_cpu(cqe->sfp) & 0x1` -/
def RawCqe.phase (cqe : RawCqe) : Bool := cqe.sfp.getLsbD 0

/-- The entry as the command paths read it. -/
def RawCqe.toCqe (cqe : RawCqe) : Cqe := ⟨cqe.sqid.toNat, cqe.cid.toNat, (cqe.sfp >>> 1).toNat⟩

/-- `struct nvme_cq` of libvfn, as far as the driver reads and writes it. The device
does not write the ring while it is drained. -/
structure NvmeCq where
  /-- The entries at `mem.vaddr`. -/
  mem : Nat → RawCqe
  qsize : Nat
  head : Nat
  phase : Bool

/-- `unvmed_get_cqe` -/
def NvmeCq.getCqe (q : NvmeCq) (head : Nat) : RawCqe := q.mem head

section Readers

variable {σ : Type}

/-- The loop `while (1)` of `unvmed_cancel_sq`. `body` stands for what the loop does
with an entry before `update`; it gets the slot too. -/
def drainLoop (q : NvmeCq) (body : σ → Nat → RawCqe → σ) :
    Nat → Nat → Bool → σ → Option (σ × Nat × Bool)
  | 0, _, _, _ => none
  | fuel + 1, head, phase, s =>
      let cqe := q.getCqe head
      if cqe.phase ≠ phase then
        let s := body s head cqe
        if head + 1 = q.qsize then drainLoop q body fuel 0 (!phase) s
        else drainLoop q body fuel (head + 1) phase s
      else some (s, head, phase)

/-- The drain of `unvmed_cancel_sq`: `head` and `phase` are loaded before the loop and
stored after it. -/
def cancelDrain (body : σ → Nat → RawCqe → σ) (fuel : Nat) (q : NvmeCq) (s : σ) :
    Option (σ × NvmeCq) :=
  (drainLoop q body fuel q.head q.phase s).map fun (s, head, phase) =>
    (s, { q with head := head, phase := phase })

/-- The loop of `__unvmed_reap_cqe`. The doorbell that `nvme_cq_update_head` writes is
left out. -/
def reapLoop (nvmeCqGetCqe : NvmeCq → Option RawCqe × NvmeCq) (body : σ → RawCqe → σ) :
    Nat → NvmeCq → σ → Option (σ × NvmeCq)
  | 0, _, _ => none
  | fuel + 1, q, s => match nvmeCqGetCqe q with
      | (none, q) => some (s, q)
      | (some cqe, q) => reapLoop nvmeCqGetCqe body fuel q (body s cqe)

end Readers

/-- The condition on which `unvmed_cq_drain` goes on waiting for the reaper. -/
def NvmeCq.undrained (q : NvmeCq) : Bool := (q.getCqe q.head).phase != q.phase

/-- `head` and `phase` behind the entry at `head`. -/
def NvmeCq.advance (q : NvmeCq) : NvmeCq :=
  if q.head + 1 = q.qsize then { q with head := 0, phase := !q.phase }
  else { q with head := q.head + 1 }

/-- What the driver relies on of libvfn's `nvme_cq_get_cqe`. -/
structure GetCqeSpec (nvmeCqGetCqe : NvmeCq → Option RawCqe × NvmeCq) : Prop where
  stale : ∀ q, (q.mem q.head).phase = q.phase → nvmeCqGetCqe q = (none, q)
  fresh : ∀ q, (q.mem q.head).phase ≠ q.phase →
    nvmeCqGetCqe q = (some (q.mem q.head), q.advance)

/-! ### Both loops walk the ring -/

section Walk

variable {σ : Type}

/-- The phase bits of the ring. -/
def NvmeCq.bit (q : NvmeCq) (i : Nat) : Bool := (q.mem i).phase

def NvmeCq.cursor (q : NvmeCq) : Cursor := ⟨q.head, q.phase⟩

def NvmeCq.setCursor (q : NvmeCq) (c : Cursor) : NvmeCq := { q with head := c.head, phase := c.phase }

/-- The slots of the entries that the host did not take yet, in ring order. -/
def NvmeCq.pending (q : NvmeCq) : List Nat := Cursor.pending q.bit q.qsize q.cursor

/-- The queue behind its pending entries. -/
def NvmeCq.drained (q : NvmeCq) : NvmeCq := q.setCursor (Cursor.stop q.bit q.qsize q.cursor)

theorem drainLoop_eq_walk (q : NvmeCq) (body : σ → Nat → RawCqe → σ) (fuel head : Nat)
    (phase : Bool) (s : σ) :
    drainLoop q body fuel head phase s =
      (Cursor.walk q.bit q.qsize (fun s i => body s i (q.mem i)) fuel ⟨head, phase⟩ s).map
        fun (s, c) => (s, c.head, c.phase) := by
  induction fuel generalizing head phase s with
  | zero => rfl
  | succ fuel ih =>
      rw [drainLoop, Cursor.walk]
      by_cases fresh : (q.getCqe head).phase ≠ phase
      · have walks : Cursor.Fresh q.bit ⟨head, phase⟩ := fresh
        rw [if_pos fresh, if_pos walks]
        by_cases last : head + 1 = q.qsize
        · rw [if_pos last, ih, Cursor.next, if_pos last]
          rfl
        · rw [if_neg last, ih, Cursor.next, if_neg last]
          rfl
      · have stops : ¬Cursor.Fresh q.bit ⟨head, phase⟩ := fresh
        rw [if_neg fresh, if_neg stops]
        rfl

theorem cancelDrain_eq (q : NvmeCq) (inRing : q.head < q.qsize)
    (body : σ → Nat → RawCqe → σ) {fuel : Nat} (enough : q.qsize < fuel) (s : σ) :
    cancelDrain body fuel q s =
      some (q.pending.foldl (fun s i => body s i (q.mem i)) s, q.drained) := by
  rw [cancelDrain, drainLoop_eq_walk, ← NvmeCq.cursor, Cursor.walk_eq inRing enough]
  rfl

theorem NvmeCq.advance_setCursor (q : NvmeCq) (c : Cursor) :
    (q.setCursor c).advance = q.setCursor (c.next q.qsize) := by
  by_cases last : c.head + 1 = q.qsize
  · simp [NvmeCq.advance, NvmeCq.setCursor, Cursor.next, last]
  · simp [NvmeCq.advance, NvmeCq.setCursor, Cursor.next, last]

variable {nvmeCqGetCqe : NvmeCq → Option RawCqe × NvmeCq}

theorem reapLoop_eq_walk (libvfn : GetCqeSpec nvmeCqGetCqe) (q : NvmeCq)
    (body : σ → RawCqe → σ) (fuel : Nat) (c : Cursor) (s : σ) :
    reapLoop nvmeCqGetCqe body fuel (q.setCursor c) s =
      (Cursor.walk q.bit q.qsize (fun s i => body s (q.mem i)) fuel c s).map
        fun (s, c) => (s, q.setCursor c) := by
  induction fuel generalizing c s with
  | zero => rfl
  | succ fuel ih =>
      rw [reapLoop, Cursor.walk]
      by_cases fresh : c.Fresh q.bit
      · rw [libvfn.fresh (q.setCursor c) fresh, if_pos fresh, NvmeCq.advance_setCursor]
        exact ih _ _
      · have stale : (q.mem c.head).phase = c.phase := not_not.mp fresh
        rw [libvfn.stale (q.setCursor c) stale, if_neg fresh]
        rfl

theorem reapLoop_eq (libvfn : GetCqeSpec nvmeCqGetCqe) (q : NvmeCq)
    (inRing : q.head < q.qsize) (body : σ → RawCqe → σ) {fuel : Nat} (enough : q.qsize < fuel)
    (s : σ) :
    reapLoop nvmeCqGetCqe body fuel q s =
      some (q.pending.foldl (fun s i => body s (q.mem i)) s, q.drained) := by
  have walk := reapLoop_eq_walk libvfn q body fuel q.cursor s
  rw [Cursor.walk_eq inRing enough] at walk
  exact walk

theorem NvmeCq.drained_stale (q : NvmeCq) (inRing : q.head < q.qsize) :
    (q.drained.mem q.drained.head).phase = q.drained.phase := by
  have stale : ¬(Cursor.stop q.bit q.qsize q.cursor).Fresh q.bit := Cursor.stop_stale inRing
  exact not_not.mp stale

end Walk

/-- Both readers end, take the entries of the same distinct slots in the same order,
whatever is done with an entry, and leave the queue in the same state; a reaper that
is woken afterwards takes nothing, and `unvmed_cq_drain` does not wait for one. -/
theorem cancel_drain_eq_reaper {nvmeCqGetCqe : NvmeCq → Option RawCqe × NvmeCq}
    (libvfn : GetCqeSpec nvmeCqGetCqe) (q : NvmeCq) (inRing : q.head < q.qsize) :
    ∃ slots q', slots.Nodup ∧ (∀ i ∈ slots, i < q.qsize) ∧
      nvmeCqGetCqe q' = (none, q') ∧ q'.undrained = false ∧
      ∀ fuel, q.qsize < fuel →
        cancelDrain (fun visited i _ => visited ++ [i]) fuel q [] = some (slots, q') ∧
        ∀ {σ : Type} (body : σ → RawCqe → σ) (s : σ),
          cancelDrain (fun s _ cqe => body s cqe) fuel q s =
            some ((slots.map q.mem).foldl body s, q') ∧
          reapLoop nvmeCqGetCqe body fuel q s = some ((slots.map q.mem).foldl body s, q') := by
  have stale := q.drained_stale inRing
  refine ⟨q.pending, q.drained, Cursor.pending_nodup inRing, fun i => Cursor.pending_lt inRing,
    libvfn.stale _ stale, ?_, ?_⟩
  · simp [NvmeCq.undrained, NvmeCq.getCqe, stale]
  · intro fuel enough
    constructor
    · rw [cancelDrain_eq q inRing _ enough]
      simp [← List.flatMap_def]
    · intro σ body s
      rw [cancelDrain_eq q inRing _ enough, reapLoop_eq libvfn q inRing _ enough,
        List.foldl_map]
      exact ⟨rfl, rfl⟩

/-- `nvme_cq_get_cqe` as libvfn has it. -/
def nvmeCqGetCqe (q : NvmeCq) : Option RawCqe × NvmeCq :=
  if q.undrained then (some (q.mem q.head), q.advance) else (none, q)

theorem nvmeCqGetCqe_spec : GetCqeSpec nvmeCqGetCqe where
  stale q same := by simp [nvmeCqGetCqe, NvmeCq.undrained, NvmeCq.getCqe, same]
  fresh q differ := by simp [nvmeCqGetCqe, NvmeCq.undrained, NvmeCq.getCqe, differ]

/-- A ring of four entries that are all fresh for a reader in the middle: the bits of the
first two differ from the inverted phase. -/
def fullRing : NvmeCq := ⟨fun i => ⟨0, 0, 1, i, if i < 2 then 0 else 1⟩, 4, 2, false⟩

/-- The full ring is read once around. -/
theorem cancel_drain_full_ring :
    fullRing.head < fullRing.qsize ∧ fullRing.pending = [2, 3, 0, 1] ∧
      ∃ slots q', slots.Nodup ∧ (∀ i ∈ slots, i < fullRing.qsize) ∧
        nvmeCqGetCqe q' = (none, q') ∧ q'.undrained = false ∧
        ∀ fuel, fullRing.qsize < fuel →
          cancelDrain (fun visited i _ => visited ++ [i]) fuel fullRing [] = some (slots, q') ∧
          ∀ {σ : Type} (body : σ → RawCqe → σ) (s : σ),
            cancelDrain (fun s _ cqe => body s cqe) fuel fullRing s =
              some ((slots.map fullRing.mem).foldl body s, q') ∧
            reapLoop nvmeCqGetCqe body fuel fullRing s =
              some ((slots.map fullRing.mem).foldl body s, q') :=
  ⟨by decide, by decide, cancel_drain_eq_reaper nvmeCqGetCqe_spec fullRing (by decide)⟩

end Unvmed.Drain
