import Mathlib.Data.Nat.Count
import Mathlib.Logic.Function.Iterate
import Unvmed.Lib.Linked
import Unvmed.Lib.Proc

/-!
The search for the PCI Express capability (`unvmed_get_pcie_cap_offset` in `lib/libunvmed.c`).

The capabilities of a configuration space are a list: each holds its id in one byte and the offset
of the next in the byte after it. The device chooses the links, and each read may report an error or
return fewer bytes than were asked for, which leaves the rest of the variable as it was.

* `correct_iff`: when the search ends with a capability that can be reached, or fails.
* `ends_iff_of_full`: with complete reads it ends if and only if no capability is met twice.
-/

namespace Unvmed.PciCap

open Lib

/-- What `pread` gives back. -/
inductive Reply where
  | error
  /-- This many bytes, or all that were asked for. -/
  | bytes (n : ℕ)
  deriving DecidableEq, Repr

/-- The value of `pread`. -/
def Reply.ret (size : ℕ) : Reply → Int
  | .error => -1
  | .bytes n => (min n size : ℕ)

/-- The read is complete. -/
def Reply.full (size : ℕ) (r : Reply) : Bool := r.ret size == size

inductive Access where
  | opened (ok : Bool)
  /-- A read, and whether it was complete. -/
  | read (addr size : ℕ) (full : Bool)
  /-- `unvmed_get_pcie_cap_offset` returns. -/
  | capOffset (ok : Bool)
  | write (addr : ℕ) (data : List (BitVec 8))
  deriving DecidableEq, Repr

def low (x : BitVec 16) : BitVec 8 := x.extractLsb' 0 8

def high (x : BitVec 16) : BitVec 8 := x.extractLsb' 8 8

/-- A 16-bit variable after two bytes are read into it. -/
def load (old : BitVec 16) (lo hi : BitVec 8) : Reply → BitVec 16
  | .error | .bytes 0 => old
  | .bytes 1 => high old ++ lo
  | .bytes _ => hi ++ lo

/-- What a call of `unvmed_get_pcie_cap_offset` meets. -/
structure Walk where
  /-- The bytes of the configuration space. -/
  config : ℕ → BitVec 8
  /-- `asprintf`: the length of the path. -/
  path : Option ℕ
  opens : Bool
  pointer : Reply
  caps : ℕ → Reply
  /-- What the variables hold before the reads. -/
  offset : BitVec 16
  cap : BitVec 16

/-- The variables of the loop; `turn` counts its reads. -/
structure Cursor where
  turn : ℕ
  offset : BitVec 16
  cap : BitVec 16

/-- The condition of the loop. -/
def InRange (offset : BitVec 16) : Prop := offset ≠ 0 ∧ offset.toNat < 0x100

instance (offset : BitVec 16) : Decidable (InRange offset) :=
  inferInstanceAs (Decidable (_ ∧ _))

/-- A turn of the loop; the loop ends with the value that is returned. -/
def capTurn (w : Walk) (s : Cursor) : Call Access (Cursor ⊕ Int) :=
  if InRange s.offset then
    let r := w.caps s.turn
    let log := [.read s.offset.toNat 2 (r.full 2)]
    if r.ret 2 < 0 then ⟨log, .done (.inr (-1))⟩
    else
      let cap := load s.cap (w.config s.offset.toNat) (w.config (s.offset.toNat + 1)) r
      let id := cap &&& 0xff
      let next := cap >>> 8
      if id = 0x10 then ⟨log, .done (.inr s.offset.toNat)⟩
      else ⟨log, .done (.inl ⟨s.turn + 1, next, cap⟩)⟩
  else ⟨[], .done (.inr (-1))⟩

/-- `offset` after its first read. -/
def Walk.start (w : Walk) : BitVec 16 := load w.offset (w.config 0x34) (w.config 0x35) w.pointer

/-- The body of `unvmed_get_pcie_cap_offset`. -/
def Walk.search (w : Walk) : Proc Access Int :=
  match w.path with
  | none => pure (-1)
  | some len => do
      .access (.opened w.opens)
      if w.opens = false then pure (len : Int)
      else do
        .access (.read 0x34 2 (w.pointer.full 2))
        if w.pointer.ret 2 < 0 then pure (w.pointer.ret 2)
        else .iterate (capTurn w) ⟨0, w.start, w.cap⟩

/-- `unvmed_get_pcie_cap_offset`. -/
def getPcieCapOffset (w : Walk) : Proc Access Int := do
  let ret ← w.search
  .access (.capOffset (0 ≤ ret))
  pure ret

/-! ### What the search is for -/

/-- The offset of the next capability. -/
def link (config : ℕ → BitVec 8) (x : BitVec 8) : BitVec 8 := config (x.toNat + 1)

/-- The offset that is reached after `k` links from the pointer. -/
def chain (config : ℕ → BitVec 8) (k : ℕ) : BitVec 8 := (link config)^[k] (config 0x34)

/-- A PCI Express capability that can be reached from the pointer. -/
def Express (config : ℕ → BitVec 8) (x : BitVec 8) : Prop :=
  config x.toNat = 0x10 ∧ ∃ k, chain config k = x ∧ ∀ j ≤ k, chain config j ≠ 0

def Access.Bad : Access → Prop
  | .opened ok | .read _ _ ok | .capOffset ok => ok = false
  | .write _ _ => False

def Access.IsWrite : Access → Prop
  | .write _ _ => True
  | _ => False

/-- A failure, or the offset of such a capability. -/
def Walk.Good (w : Walk) (ret : Int) : Prop :=
  ret < 0 ∨ ∃ x : BitVec 8, ret = x.toNat ∧ Express w.config x

/-- The search ends, and fails or finds such a capability. -/
def Walk.Correct (w : Walk) : Prop := ∃ ret, (getPcieCapOffset w).Returns ret ∧ w.Good ret

/-! ### When it is correct -/

/-- `cap` after the first capability is read. -/
def Walk.first (w : Walk) : BitVec 16 :=
  load w.cap (w.config w.start.toNat) (w.config (w.start.toNat + 1)) (w.caps 0)

/-- The offset after the first capability and `j` more reads: a complete read follows a link, and
after another one the offset is the same. -/
def Walk.pos (w : Walk) (j : ℕ) : BitVec 8 :=
  (link w.config)^[Nat.count (fun k => (w.caps (k + 1)).full 2 = true) j] (high w.first)

/-- The search ends at this offset. -/
def Walk.Last (w : Walk) (j : ℕ) : Prop :=
  w.caps (j + 1) = .error ∨ w.pos j = 0 ∨
    w.config (w.pos j).toNat = 0x10 ∧ w.caps (j + 1) ≠ .bytes 0

/-- The search ends here and not before. -/
def Walk.LastIs (w : Walk) (j : ℕ) : Prop := w.Last j ∧ ∀ k < j, ¬ w.Last k

/-- The search returns. -/
def Walk.Ends (w : Walk) : Prop :=
  w.path = none ∨ w.opens = false ∨ w.pointer = .error ∨ ¬ InRange w.start ∨
    w.caps 0 = .error ∨ low w.first = 0x10 ∨ ∃ j, w.Last j

/-- The search returns what it should. Where the file does not open, the length of the path is
returned; where the first capability is not read completely, `cap` holds what it held before. -/
def Walk.Sound (w : Walk) : Prop :=
  w.path = none ∨
    (w.opens = false ∧ ∃ x : BitVec 8, w.path = some x.toNat ∧ Express w.config x) ∨
    (w.opens = true ∧ (w.pointer = .error ∨ ¬ InRange w.start ∨ w.caps 0 = .error ∨
      (low w.first = 0x10 ∧ ∃ x : BitVec 8, w.start.toNat = x.toNat ∧ Express w.config x) ∨
      (low w.first ≠ 0x10 ∧ ∃ j, w.LastIs j ∧
        (w.pos j = 0 ∨ w.caps (j + 1) = .error ∨ Express w.config (w.pos j)))))

/-- The search finds the capability, with complete reads. -/
def Walk.Finds (w : Walk) : Prop :=
  w.path.isSome ∧ w.opens = true ∧ w.pointer.full 2 = true ∧ w.config 0x35 = 0 ∧
    ∃ k, w.config (chain w.config k).toNat = 0x10 ∧
      (∀ j ≤ k, chain w.config j ≠ 0 ∧ (w.caps j).full 2 = true) ∧
      ∀ j < k, w.config (chain w.config j).toNat ≠ 0x10

/-- A read of the search is not complete. -/
def Walk.Short (w : Walk) : Prop := w.pointer.full 2 = false ∨ ∃ i, (w.caps i).full 2 = false

/-! ### Bytes -/

section Bytes

variable {hi lo l h : BitVec 8} {x old : BitVec 16} {r : Reply} {size : ℕ}

theorem toNat_append (hi lo : BitVec 8) : (hi ++ lo).toNat = hi.toNat * 256 + lo.toNat := by
  rw [BitVec.toNat_append, ← Nat.shiftLeft_add_eq_or_of_lt lo.isLt, Nat.shiftLeft_eq]

@[simp]
theorem high_append : high (hi ++ lo) = hi := by
  apply BitVec.eq_of_toNat_eq
  rw [high, BitVec.extractLsb'_toNat, toNat_append, Nat.shiftRight_eq_div_pow]
  omega

@[simp]
theorem low_append : low (hi ++ lo) = lo := by
  apply BitVec.eq_of_toNat_eq
  rw [low, BitVec.extractLsb'_toNat, toNat_append, Nat.shiftRight_zero]
  omega

theorem shift_eq_high : x >>> 8 = (high x).setWidth 16 := by
  apply BitVec.eq_of_toNat_eq
  rw [high, BitVec.toNat_ushiftRight, BitVec.toNat_setWidth, BitVec.extractLsb'_toNat,
    Nat.shiftRight_eq_div_pow]
  omega

theorem and_eq_low : x &&& 0xff = (low x).setWidth 16 := by
  apply BitVec.eq_of_toNat_eq
  have mask : (0xff : BitVec 16).toNat = 2 ^ 8 - 1 := rfl
  rw [low, BitVec.toNat_and, mask, Nat.and_two_pow_sub_one_eq_mod, BitVec.toNat_setWidth,
    BitVec.extractLsb'_toNat, Nat.shiftRight_zero]
  omega

theorem toNat_wide : (lo.setWidth 16).toNat = lo.toNat := by bv_omega

theorem and_eq_iff : x &&& 0xff = 0x10 ↔ low x = 0x10 := by
  rw [and_eq_low]
  constructor
  · intro same
    bv_omega
  · intro same
    rw [same]
    rfl

theorem inRange_wide : InRange (lo.setWidth 16) ↔ lo ≠ 0 := by
  rw [InRange, toNat_wide]
  constructor
  · rintro ⟨nonzero, -⟩ rfl
    exact nonzero rfl
  · intro nonzero
    refine ⟨fun zero => nonzero ?_, lo.isLt⟩
    bv_omega

theorem Reply.full_iff : r.full size = true ↔ ∃ n, r = .bytes n ∧ size ≤ n := by
  cases r with
  | error => simp [Reply.full, Reply.ret]
  | bytes n =>
      have all : ((min n size : ℕ) : Int) = size ↔ size ≤ n := by omega
      simpa [Reply.full, Reply.ret] using all

theorem Reply.ret_neg_iff : r.ret size < 0 ↔ r = .error := by
  cases r with
  | error => simp [Reply.ret]
  | bytes n => simp [Reply.ret]

theorem high_load : high (load old l h r) = if r.full 2 = true then h else high old := by
  rcases r with _ | _ | _ | n
  · rfl
  · rfl
  · rw [load, high_append]
    rfl
  · rw [load, high_append, if_pos (Reply.full_iff.mpr ⟨_, rfl, by omega⟩)]
    · nofun
    · nofun

theorem low_load : low (load old l h r) = if r = .error ∨ r = .bytes 0 then low old else l := by
  rcases r with _ | _ | _ | n
  · simp [load]
  · simp [load]
  · simp [load]
  · simp [load]

end Bytes

/-! ### A turn of the loop -/

section Turn

variable {w : Walk} {s t : Cursor} {j k : ℕ}

theorem capTurn_out (h : ¬ InRange s.offset) : capTurn w s = ⟨[], .done (.inr (-1))⟩ :=
  if_neg h

theorem capTurn_error (h : InRange s.offset) (failed : w.caps s.turn = .error) :
    capTurn w s = ⟨[.read s.offset.toNat 2 false], .done (.inr (-1))⟩ := by
  rw [capTurn, if_pos h, failed]
  rfl

/-- What a read that does not fail leaves in `cap`. -/
def Walk.next (w : Walk) (s : Cursor) : BitVec 16 :=
  load s.cap (w.config s.offset.toNat) (w.config (s.offset.toNat + 1)) (w.caps s.turn)

theorem capTurn_read (h : InRange s.offset) (read : w.caps s.turn ≠ .error) :
    capTurn w s = ⟨[.read s.offset.toNat 2 ((w.caps s.turn).full 2)],
      .done (if low (w.next s) = 0x10 then .inr s.offset.toNat
        else .inl ⟨s.turn + 1, (high (w.next s)).setWidth 16, w.next s⟩)⟩ := by
  have good : ¬ (w.caps s.turn).ret 2 < 0 := by rwa [Reply.ret_neg_iff]
  by_cases found : low (w.next s) = 0x10
  · have id : w.next s &&& 0xff = 0x10 := and_eq_iff.mpr found
    rw [if_pos found]
    simp only [capTurn, if_pos h, if_neg good]
    exact if_pos id
  · have id : ¬ w.next s &&& 0xff = 0x10 := fun same => found (and_eq_iff.mp same)
    rw [if_neg found, ← shift_eq_high]
    simp only [capTurn, if_pos h, if_neg good]
    exact if_neg id

theorem capTurn_out_ne_failed (s : Cursor) : (capTurn w s).out ≠ .failed := by
  by_cases h : InRange s.offset
  · by_cases failed : w.caps s.turn = .error
    · rw [capTurn_error h failed]
      nofun
    · rw [capTurn_read h failed]
      nofun
  · rw [capTurn_out h]
    nofun

theorem capTurn_quiet {a : Access} (mem : a ∈ (capTurn w s).log) : ¬ a.IsWrite := by
  by_cases h : InRange s.offset
  · by_cases failed : w.caps s.turn = .error
    · rw [capTurn_error h failed, List.mem_singleton] at mem
      rw [mem]
      exact id
    · rw [capTurn_read h failed, List.mem_singleton] at mem
      rw [mem]
      exact id
  · rw [capTurn_out h] at mem
    cases mem

/-! ### The loop after its first turn -/

/-- The loop is at the offset `w.pos j`. The upper byte of `cap` is this offset, and the lower is not
the id that is looked for, so that a read of no bytes changes nothing. -/
structure At (w : Walk) (j : ℕ) (s : Cursor) : Prop where
  turn : s.turn = j + 1
  offset : s.offset = (w.pos j).setWidth 16
  upper : high s.cap = w.pos j
  lower : low s.cap ≠ 0x10

theorem pos_succ : w.pos (j + 1) =
    if (w.caps (j + 1)).full 2 = true then link w.config (w.pos j) else w.pos j := by
  rw [Walk.pos, Nat.count_succ]
  split
  · rw [Function.iterate_succ_apply']
    rfl
  · rfl

theorem At.inRange_iff (h : At w j s) : InRange s.offset ↔ w.pos j ≠ 0 := by
  rw [h.offset, inRange_wide]

theorem At.addr (h : At w j s) : s.offset.toNat = (w.pos j).toNat := by
  rw [h.offset, toNat_wide]

/-- What is returned at the last offset. -/
def Walk.result (w : Walk) (j : ℕ) : Int :=
  if w.pos j = 0 ∨ w.caps (j + 1) = .error then -1 else (w.pos j).toNat

theorem At.log (h : At w j s) {P : Access → Prop} :
    (∃ a ∈ (capTurn w s).log, P a) ↔
      w.pos j ≠ 0 ∧ P (.read (w.pos j).toNat 2 ((w.caps (j + 1)).full 2)) := by
  by_cases range : InRange s.offset
  · rw [← h.turn, ← h.addr, ← h.inRange_iff]
    by_cases failed : w.caps s.turn = .error
    · rw [capTurn_error range failed, failed]
      simp [range, Reply.full, Reply.ret]
    · rw [capTurn_read range failed]
      simp [range]
  · rw [capTurn_out range, ← h.inRange_iff]
    simp [range]

/-- The id that a read leaves. -/
theorem At.id_iff (h : At w j s) (read : w.caps (j + 1) ≠ .error) :
    low (w.next s) = 0x10 ↔ w.config (w.pos j).toNat = 0x10 ∧ w.caps (j + 1) ≠ .bytes 0 := by
  rw [Walk.next, low_load, h.turn, h.addr]
  split
  · rename_i nothing
    refine iff_of_false h.lower ?_
    rintro ⟨-, something⟩
    exact nothing.elim read something
  · rename_i something
    rw [not_or] at something
    exact (and_iff_left something.2).symm

theorem At.last (h : At w j s) (last : w.Last j) :
    (capTurn w s).out = .done (.inr (w.result j)) := by
  by_cases range : InRange s.offset
  · have nonzero := h.inRange_iff.mp range
    by_cases failed : w.caps (j + 1) = .error
    · rw [capTurn_error range (h.turn ▸ failed), Walk.result, if_pos (.inr failed)]
    · rcases last with failed' | zero | found
      · exact absurd failed' failed
      · exact absurd zero nonzero
      · rw [capTurn_read range (h.turn ▸ failed), Walk.result,
          if_pos ((h.id_iff failed).mpr found), if_neg (not_or.mpr ⟨nonzero, failed⟩), h.addr]
  · have zero : w.pos j = 0 := by
      by_contra nonzero
      exact range (h.inRange_iff.mpr nonzero)
    rw [capTurn_out range, Walk.result, if_pos (.inl zero)]

theorem At.turn_of_not_last (h : At w j s) (more : ¬ w.Last j) :
    ∃ t, Proc.Turn (capTurn w) s t ∧ At w (j + 1) t := by
  rw [Walk.Last, not_or, not_or] at more
  obtain ⟨read, nonzero, other⟩ := more
  have range := h.inRange_iff.mpr nonzero
  have id : low (w.next s) ≠ 0x10 := fun same => other ((h.id_iff read).mp same)
  have upper : high (w.next s) = w.pos (j + 1) := by
    rw [Walk.next, high_load, h.turn, h.addr, h.upper, pos_succ, link]
  refine ⟨⟨s.turn + 1, (high (w.next s)).setWidth 16, w.next s⟩, ?_, ?_⟩
  · rw [Proc.Turn, capTurn_read range (h.turn ▸ read), if_neg id]
  · exact ⟨by rw [h.turn], by rw [upper], upper, id⟩

/-- The loop comes to `w.pos j` if it does not end before. -/
theorem At.reaches (h : At w 0 s) :
    ∀ j, (∀ k < j, ¬ w.Last k) → ∃ t, Relation.ReflTransGen (Proc.Turn (capTurn w)) s t ∧ At w j t
  | 0, _ => ⟨s, .refl, h⟩
  | j + 1, more => by
      obtain ⟨t, steps, here⟩ := h.reaches j fun k lt => more k (by omega)
      obtain ⟨u, turn, there⟩ := here.turn_of_not_last (more j (by omega))
      exact ⟨u, steps.tail turn, there⟩

theorem At.of_reaches (h : At w 0 s) (steps : Relation.ReflTransGen (Proc.Turn (capTurn w)) s t) :
    ∃ j, At w j t ∧ ∀ k < j, ¬ w.Last k := by
  induction steps with
  | refl => exact ⟨0, h, nofun⟩
  | tail _ turn ih =>
      obtain ⟨j, here, before⟩ := ih
      have more : ¬ w.Last j := by
        intro last
        rw [Proc.Turn, here.last last] at turn
        cases turn
      obtain ⟨t, next, there⟩ := here.turn_of_not_last more
      rw [Proc.Turn, next] at turn
      cases turn
      refine ⟨j + 1, there, ?_⟩
      intro k lt
      rcases Nat.lt_succ_iff_lt_or_eq.mp lt with lt | rfl
      · exact before k lt
      · exact more

theorem At.returns_iff (h : At w 0 s) {ret : Int} :
    (Proc.iterate (capTurn w) s).Returns ret ↔ ∃ j, w.LastIs j ∧ w.result j = ret := by
  rw [Proc.returns_iterate]
  constructor
  · rintro ⟨t, steps, ended⟩
    obtain ⟨j, here, before⟩ := h.of_reaches steps
    have last : w.Last j := by
      by_contra more
      obtain ⟨u, turn, -⟩ := here.turn_of_not_last more
      rw [turn] at ended
      cases ended
    rw [here.last last] at ended
    cases ended
    exact ⟨j, ⟨last, before⟩, rfl⟩
  · rintro ⟨j, ⟨last, before⟩, rfl⟩
    obtain ⟨t, steps, here⟩ := h.reaches j before
    exact ⟨t, steps, here.last last⟩

theorem At.sees_iff (h : At w 0 s) {P : Access → Prop} :
    (Proc.iterate (capTurn w) s).Sees P ↔ ∃ j, (∀ k < j, ¬ w.Last k) ∧ w.pos j ≠ 0 ∧
      P (.read (w.pos j).toNat 2 ((w.caps (j + 1)).full 2)) := by
  rw [Proc.sees_iterate]
  constructor
  · rintro ⟨t, steps, sees⟩
    obtain ⟨j, here, before⟩ := h.of_reaches steps
    exact ⟨j, before, here.log.mp sees⟩
  · rintro ⟨j, before, sees⟩
    obtain ⟨t, steps, here⟩ := h.reaches j before
    exact ⟨t, steps, here.log.mpr sees⟩

end Turn

/-! ### The first turn -/

section Search

variable {w : Walk} {j k : ℕ} {len : ℕ} {ret : Int} {P : Access → Prop}

/-- The loop of the search. -/
def Walk.loop (w : Walk) : Proc Access Int := .iterate (capTurn w) ⟨0, w.start, w.cap⟩

/-- After a first turn that does not end the loop. -/
theorem first_turn (range : InRange w.start) (read : w.caps 0 ≠ .error)
    (other : low w.first ≠ 0x10) :
    ∃ t, Proc.Turn (capTurn w) ⟨0, w.start, w.cap⟩ t ∧ At w 0 t := by
  refine ⟨⟨1, (high w.first).setWidth 16, w.first⟩, ?_, ⟨rfl, rfl, rfl, other⟩⟩
  rw [Proc.Turn, capTurn_read range read]
  exact congrArg Outcome.done (if_neg other)

theorem first_log (range : InRange w.start) (read : w.caps 0 ≠ .error) :
    (∃ a ∈ (capTurn w ⟨0, w.start, w.cap⟩).log, P a) ↔
      P (.read w.start.toNat 2 ((w.caps 0).full 2)) := by
  rw [capTurn_read range read]
  simp

/-- A loop that its first turn ends. -/
theorem loop_of_last (last : (capTurn w ⟨0, w.start, w.cap⟩).out = .done (.inr ret)) :
    w.loop.Returns ret ∧
      (w.loop.Sees P ↔ ∃ a ∈ (capTurn w ⟨0, w.start, w.cap⟩).log, P a) :=
  ⟨Proc.returns_iterate.mpr ⟨_, .refl, last⟩, Proc.sees_iterate_of_last last⟩

theorem loop_out (range : ¬ InRange w.start) :
    w.loop.Returns (-1) ∧ (w.loop.Sees P ↔ False) := by
  have turn : capTurn w ⟨0, w.start, w.cap⟩ = ⟨[], .done (.inr (-1))⟩ := capTurn_out range
  obtain ⟨returns, sees⟩ := loop_of_last (P := P) (congrArg Call.out turn)
  refine ⟨returns, sees.trans ?_⟩
  rw [turn]
  simp

theorem loop_error (range : InRange w.start) (failed : w.caps 0 = .error) :
    w.loop.Returns (-1) ∧ (w.loop.Sees P ↔ P (.read w.start.toNat 2 false)) := by
  have turn := capTurn_error (s := ⟨0, w.start, w.cap⟩) range failed
  obtain ⟨returns, sees⟩ := loop_of_last (P := P) (congrArg Call.out turn)
  refine ⟨returns, sees.trans ?_⟩
  rw [turn]
  simp

theorem loop_found (range : InRange w.start) (read : w.caps 0 ≠ .error)
    (found : low w.first = 0x10) :
    w.loop.Returns w.start.toNat ∧
      (w.loop.Sees P ↔ P (.read w.start.toNat 2 ((w.caps 0).full 2))) := by
  have turn := capTurn_read (s := ⟨0, w.start, w.cap⟩) range read
  have out : (capTurn w ⟨0, w.start, w.cap⟩).out = .done (.inr w.start.toNat) := by
    rw [turn]
    exact congrArg Outcome.done (if_pos found)
  obtain ⟨returns, sees⟩ := loop_of_last (P := P) out
  exact ⟨returns, sees.trans (first_log range read)⟩

theorem loop_returns (range : InRange w.start) (read : w.caps 0 ≠ .error)
    (other : low w.first ≠ 0x10) : w.loop.Returns ret ↔ ∃ j, w.LastIs j ∧ w.result j = ret := by
  obtain ⟨t, turn, here⟩ := first_turn range read other
  rw [Walk.loop, Proc.returns_iterate_of_turn turn, here.returns_iff]

theorem loop_sees (range : InRange w.start) (read : w.caps 0 ≠ .error)
    (other : low w.first ≠ 0x10) :
    w.loop.Sees P ↔ P (.read w.start.toNat 2 ((w.caps 0).full 2)) ∨
      ∃ j, (∀ k < j, ¬ w.Last k) ∧ w.pos j ≠ 0 ∧
        P (.read (w.pos j).toNat 2 ((w.caps (j + 1)).full 2)) := by
  obtain ⟨t, turn, here⟩ := first_turn range read other
  rw [Walk.loop, Proc.sees_iterate_of_turn turn, here.sees_iff, first_log range read]

/-! ### The whole search -/

theorem search_none (h : w.path = none) : w.search = pure (-1) := by
  rw [Walk.search, h]

theorem search_closed (h : w.path = some len) (closed : w.opens = false) :
    w.search = Proc.access (.opened false) >>= fun _ => pure (len : Int) := by
  rw [Walk.search, h, closed]
  rfl

theorem search_error (h : w.path = some len) (opened : w.opens = true)
    (failed : w.pointer = .error) :
    w.search = Proc.access (.opened true) >>= fun _ =>
      Proc.access (.read 0x34 2 false) >>= fun _ => pure (-1) := by
  rw [Walk.search, h, opened, failed]
  rfl

theorem search_loop (h : w.path = some len) (opened : w.opens = true)
    (read : w.pointer ≠ .error) :
    w.search = Proc.access (.opened true) >>= fun _ =>
      Proc.access (.read 0x34 2 (w.pointer.full 2)) >>= fun _ => w.loop := by
  have good : ¬ w.pointer.ret 2 < 0 := by rwa [Reply.ret_neg_iff]
  rw [Walk.search, h, opened]
  simp only [Bool.true_eq_false, if_false, if_neg good]
  rfl

theorem returns_getPcieCapOffset :
    (getPcieCapOffset w).Returns ret ↔ w.search.Returns ret := by
  rw [getPcieCapOffset, Proc.returns_bind]
  simp only [Proc.returns_access_bind, Proc.returns_pure, exists_eq_right]

theorem sees_getPcieCapOffset :
    (getPcieCapOffset w).Sees P ↔
      w.search.Sees P ∨ ∃ ret, w.search.Returns ret ∧ P (.capOffset (0 ≤ ret)) := by
  rw [getPcieCapOffset, Proc.sees_bind]
  simp only [Proc.sees_access_bind, Proc.not_sees_pure, or_false]

/-- The four ways through the search. -/
theorem search_forms (w : Walk) :
    w.search = pure (-1) ∨
      (∃ len : ℕ, w.search = Proc.access (.opened false) >>= fun _ => pure (len : Int)) ∨
      (w.search = Proc.access (.opened true) >>= fun _ =>
        Proc.access (.read 0x34 2 false) >>= fun _ => pure (-1)) ∨
      w.search = Proc.access (.opened true) >>= fun _ =>
        Proc.access (.read 0x34 2 (w.pointer.full 2)) >>= fun _ => w.loop := by
  cases h : w.path with
  | none => exact .inl (search_none h)
  | some len =>
      cases opened : w.opens with
      | false => exact .inr (.inl ⟨len, search_closed h opened⟩)
      | true =>
          by_cases failed : w.pointer = .error
          · exact .inr (.inr (.inl (search_error h opened failed)))
          · exact .inr (.inr (.inr (search_loop h opened failed)))

theorem not_fails_search : ¬ w.search.Fails := by
  rcases search_forms w with form | ⟨len, form⟩ | form | form
  · rw [form]
    exact Proc.not_fails_pure
  · rw [form, Proc.fails_access_bind]
    exact Proc.not_fails_pure
  · rw [form, Proc.fails_access_bind, Proc.fails_access_bind]
    exact Proc.not_fails_pure
  · rw [form, Proc.fails_access_bind, Proc.fails_access_bind]
    exact Proc.not_fails_iterate capTurn_out_ne_failed

theorem not_fails_getPcieCapOffset : ¬ (getPcieCapOffset w).Fails := by
  rw [getPcieCapOffset, Proc.fails_bind]
  rintro (fails | ⟨ret, -, fails⟩)
  · exact not_fails_search fails
  · rw [Proc.fails_access_bind] at fails
    exact Proc.not_fails_pure fails

theorem search_quiet : ¬ w.search.Sees Access.IsWrite := by
  rcases search_forms w with form | ⟨len, form⟩ | form | form
  · rw [form]
    exact Proc.not_sees_pure
  · rw [form, Proc.sees_access_bind]
    exact not_or.mpr ⟨id, Proc.not_sees_pure⟩
  · rw [form, Proc.sees_access_bind, Proc.sees_access_bind]
    exact not_or.mpr ⟨id, not_or.mpr ⟨id, Proc.not_sees_pure⟩⟩
  · rw [form, Proc.sees_access_bind, Proc.sees_access_bind]
    refine not_or.mpr ⟨id, not_or.mpr ⟨id, ?_⟩⟩
    rw [Walk.loop, Proc.sees_iterate]
    rintro ⟨t, -, a, mem, writes⟩
    exact capTurn_quiet mem writes

/-- The search writes nothing. -/
theorem getPcieCapOffset_quiet : ¬ (getPcieCapOffset w).Sees Access.IsWrite := by
  rw [sees_getPcieCapOffset, not_or]
  exact ⟨search_quiet, fun ⟨_, _, writes⟩ => writes⟩

/-! ### Complete reads -/

theorem load_full {old : BitVec 16} {l h : BitVec 8} {r : Reply} (full : r.full 2 = true) :
    load old l h r = h ++ l := by
  obtain ⟨n, rfl, two⟩ := Reply.full_iff.mp full
  match n, two with
  | n + 2, _ => rfl

theorem inRange_append {hi lo : BitVec 8} : InRange (hi ++ lo) ↔ hi = 0 ∧ lo ≠ 0 := by
  have value := toNat_append hi lo
  constructor
  · rintro ⟨nonzero, small⟩
    have upper : hi = 0 := by
      apply BitVec.eq_of_toNat_eq
      have zero : (0 : BitVec 8).toNat = 0 := rfl
      omega
    subst upper
    refine ⟨rfl, ?_⟩
    rintro rfl
    exact nonzero rfl
  · rintro ⟨rfl, nonzero⟩
    have zero : (0 : BitVec 8).toNat = 0 := rfl
    have bound := lo.isLt
    refine ⟨?_, by omega⟩
    intro same
    apply nonzero
    apply BitVec.eq_of_toNat_eq
    have none : (0 : BitVec 16).toNat = 0 := rfl
    rw [same] at value
    omega

/-- A complete read of the pointer. -/
theorem start_of_full (full : w.pointer.full 2 = true) :
    w.start = w.config 0x35 ++ chain w.config 0 := load_full full

theorem start_toNat (full : w.pointer.full 2 = true) (upper : w.config 0x35 = 0) :
    w.start.toNat = (chain w.config 0).toNat := by
  have zero : (0 : BitVec 8).toNat = 0 := rfl
  rw [start_of_full full, toNat_append, upper]
  omega

/-- A complete read of the first capability. -/
theorem first_of_full (at_start : w.start.toNat = (chain w.config 0).toNat)
    (full : (w.caps 0).full 2 = true) :
    w.first = chain w.config 1 ++ w.config (chain w.config 0).toNat := by
  rw [Walk.first, load_full full, at_start]
  rfl

/-- Complete reads follow the links. -/
theorem pos_eq_chain (at_start : w.start.toNat = (chain w.config 0).toNat)
    (full : ∀ i ≤ j, (w.caps i).full 2 = true) : w.pos j = chain w.config (j + 1) := by
  induction j with
  | zero =>
      have first := first_of_full at_start (full 0 le_rfl)
      have here : w.pos 0 = high w.first := rfl
      rw [here, first, high_append]
  | succ j ih =>
      rw [pos_succ, if_pos (full (j + 1) le_rfl), ih fun i le => full i (by omega), chain, chain,
        Function.iterate_succ_apply' _ (j + 1)]

/-! ### How the search ends -/

/-- The search ends with `ret`. -/
structure Ended (w : Walk) (ret : Int) : Prop where
  returns : w.search.Returns ret
  ends : w.Ends
  good_iff : w.Good ret ↔ w.Sound
  finds_iff : w.search.Sees Access.Bad ∨ ret < 0 ↔ ¬ w.Finds

theorem good_neg (neg : ret < 0) : w.Good ret := .inl neg

/-- What is returned, if it is an offset. -/
theorem good_nat {n : ℕ} : w.Good n ↔ ∃ x : BitVec 8, n = x.toNat ∧ Express w.config x := by
  rw [Walk.Good]
  constructor
  · rintro (neg | ⟨x, same, express⟩)
    · omega
    · exact ⟨x, by omega, express⟩
  · rintro ⟨x, same, express⟩
    exact .inr ⟨x, by omega, express⟩

theorem ended_none (h : w.path = none) : Ended w (-1) := by
  have lost : ¬ w.Finds := by
    rintro ⟨some, -⟩
    rw [h] at some
    cases some
  exact ⟨by rw [search_none h, Proc.returns_pure], .inl h,
    iff_of_true (good_neg (by decide)) (.inl h), iff_of_true (.inr (by decide)) lost⟩

theorem ended_closed (h : w.path = some len) (closed : w.opens = false) : Ended w len := by
  have lost : ¬ w.Finds := by
    rintro ⟨-, opened, -⟩
    rw [closed] at opened
    cases opened
  refine ⟨?_, .inr (.inl closed), ?_, iff_of_true (.inl ?_) lost⟩
  · rw [search_closed h closed, Proc.returns_access_bind, Proc.returns_pure]
  · rw [good_nat, Walk.Sound, h, closed]
    simp
  · rw [search_closed h closed, Proc.sees_access_bind]
    exact .inl rfl

theorem ended_error (h : w.path = some len) (opened : w.opens = true)
    (failed : w.pointer = .error) : Ended w (-1) := by
  have lost : ¬ w.Finds := by
    rintro ⟨-, -, full, -⟩
    rw [failed] at full
    cases full
  refine ⟨?_, .inr (.inr (.inl failed)), iff_of_true (good_neg (by decide)) ?_,
    iff_of_true (.inr (by decide)) lost⟩
  · rw [search_error h opened failed, Proc.returns_access_bind, Proc.returns_access_bind,
      Proc.returns_pure]
  · exact .inr (.inr ⟨opened, .inl failed⟩)

/-- The first capability, if the search finds one. -/
theorem Walk.Finds.start (h : w.Finds) :
    w.start.toNat = (chain w.config 0).toNat ∧ InRange w.start ∧ (w.caps 0).full 2 = true := by
  obtain ⟨-, -, full, upper, k, -, read, -⟩ := h
  obtain ⟨nonzero, first⟩ := read 0 (Nat.zero_le k)
  refine ⟨start_toNat full upper, ?_, first⟩
  rw [start_of_full full, inRange_append]
  exact ⟨upper, nonzero⟩

/-- The loop of a search that has begun. -/
theorem returns_of_loop (h : w.path = some len) (opened : w.opens = true)
    (read : w.pointer ≠ .error) : w.search.Returns ret ↔ w.loop.Returns ret := by
  rw [search_loop h opened read, Proc.returns_access_bind, Proc.returns_access_bind]

theorem sees_of_loop (h : w.path = some len) (opened : w.opens = true)
    (read : w.pointer ≠ .error) :
    w.search.Sees Access.Bad ↔ w.pointer.full 2 = false ∨ w.loop.Sees Access.Bad := by
  rw [search_loop h opened read, Proc.sees_access_bind, Proc.sees_access_bind]
  simp [Access.Bad]

theorem ended_out (h : w.path = some len) (opened : w.opens = true) (read : w.pointer ≠ .error)
    (range : ¬ InRange w.start) : Ended w (-1) := by
  have lost : ¬ w.Finds := fun finds => range finds.start.2.1
  refine ⟨?_, .inr (.inr (.inr (.inl range))), iff_of_true (good_neg (by decide)) ?_,
    iff_of_true (.inr (by decide)) lost⟩
  · rw [returns_of_loop h opened read]
    exact (loop_out (P := Access.Bad) range).1
  · exact .inr (.inr ⟨opened, .inr (.inl range)⟩)

theorem ended_first_error (h : w.path = some len) (opened : w.opens = true)
    (read : w.pointer ≠ .error) (range : InRange w.start) (failed : w.caps 0 = .error) :
    Ended w (-1) := by
  have lost : ¬ w.Finds := by
    intro finds
    have full := finds.start.2.2
    rw [failed] at full
    cases full
  refine ⟨?_, .inr (.inr (.inr (.inr (.inl failed)))), iff_of_true (good_neg (by decide)) ?_,
    iff_of_true (.inr (by decide)) lost⟩
  · rw [returns_of_loop h opened read]
    exact (loop_error (P := Access.Bad) range failed).1
  · exact .inr (.inr ⟨opened, .inr (.inr (.inl failed))⟩)

theorem ended_found (h : w.path = some len) (opened : w.opens = true) (read : w.pointer ≠ .error)
    (range : InRange w.start) (reads : w.caps 0 ≠ .error) (found : low w.first = 0x10) :
    Ended w w.start.toNat := by
  obtain ⟨returns, sees⟩ := loop_found (P := Access.Bad) range reads found
  refine ⟨(returns_of_loop h opened read).mpr returns,
    .inr (.inr (.inr (.inr (.inr (.inl found))))), ?_, ?_⟩
  · rw [good_nat, Walk.Sound, h, opened]
    simp [read, range, reads, found]
  · have positive : ¬ (w.start.toNat : Int) < 0 := by omega
    rw [sees_of_loop h opened read, sees, or_iff_left positive]
    constructor
    · rintro (short | short) finds
      · have full := finds.2.2.1
        rw [short] at full
        cases full
      · have full := finds.start.2.2
        rw [show (w.caps 0).full 2 = false from short] at full
        cases full
    · intro lost
      by_contra complete
      rw [not_or, Bool.not_eq_false] at complete
      have first : (w.caps 0).full 2 = true := Bool.not_eq_false _ ▸ complete.2
      have bytes := inRange_append.mp (start_of_full complete.1 ▸ range)
      have id := first_of_full (start_toNat complete.1 bytes.1) first
      rw [id, low_append] at found
      refine lost ⟨by rw [h]; rfl, opened, complete.1, bytes.1, 0, found, ?_, nofun⟩
      intro j le
      obtain rfl := Nat.le_zero.mp le
      exact ⟨bytes.2, first⟩

theorem Walk.LastIs.unique (h : w.LastIs j) (h' : w.LastIs k) : j = k := by
  rcases Nat.lt_trichotomy j k with lt | same | lt
  · exact absurd h.1 (h'.2 j lt)
  · exact same
  · exact absurd h'.1 (h.2 k lt)

/-- An offset where the search finds the id. -/
theorem Walk.LastIs.found (h : w.LastIs j) (nonneg : ¬ w.result j < 0) :
    w.pos j ≠ 0 ∧ w.config (w.pos j).toNat = 0x10 := by
  have ends : ¬ (w.pos j = 0 ∨ w.caps (j + 1) = .error) := by
    intro ends
    rw [Walk.result, if_pos ends] at nonneg
    exact nonneg (by decide)
  rw [not_or] at ends
  rcases h.1 with failed | zero | found
  · exact absurd failed ends.2
  · exact absurd zero ends.1
  · exact ⟨ends.1, found.1⟩

/-- Where the search finds the capability. -/
theorem Walk.Finds.last (h : w.Finds) (other : low w.first ≠ 0x10) :
    ∃ j, w.LastIs j ∧ w.pos j ≠ 0 ∧ ∀ i ≤ j + 1, (w.caps i).full 2 = true := by
  obtain ⟨at_start, -, first⟩ := h.start
  obtain ⟨-, -, -, -, k, found, read, before⟩ := h
  cases k with
  | zero =>
      rw [first_of_full at_start first, low_append] at other
      exact absurd found other
  | succ j =>
      have follow {i : ℕ} (le : i ≤ j) : w.pos i = chain w.config (i + 1) :=
        pos_eq_chain at_start fun l le' => (read l (by omega)).2
      have not_error {i : ℕ} (le : i ≤ j + 1) : w.caps i ≠ .error := by
        intro failed
        have full := (read i le).2
        rw [failed] at full
        cases full
      have not_empty {i : ℕ} (le : i ≤ j + 1) : w.caps i ≠ .bytes 0 := by
        intro empty
        have full := (read i le).2
        rw [empty] at full
        cases full
      refine ⟨j, ⟨.inr (.inr ⟨?_, not_empty le_rfl⟩), ?_⟩, ?_, fun i le => (read i le).2⟩
      · rw [follow le_rfl]
        exact found
      · rintro i lt (failed | zero | here)
        · exact not_error (by omega) failed
        · rw [follow lt.le] at zero
          exact (read (i + 1) (by omega)).1 zero
        · rw [follow lt.le] at here
          exact before (i + 1) (by omega) here.1
      · rw [follow le_rfl]
        exact (read (j + 1) le_rfl).1

/-- Complete reads up to the last offset find the capability. -/
theorem Walk.Finds.of_last (h : w.path = some len) (opened : w.opens = true)
    (range : InRange w.start) (pointer : w.pointer.full 2 = true)
    (other : low w.first ≠ 0x10) (last : w.LastIs j) (nonneg : ¬ w.result j < 0)
    (full : ∀ i ≤ j + 1, (w.caps i).full 2 = true) : w.Finds := by
  have bytes := inRange_append.mp (start_of_full pointer ▸ range)
  have at_start := start_toNat pointer bytes.1
  rw [first_of_full at_start (full 0 (Nat.zero_le _)), low_append] at other
  have follow {i : ℕ} (le : i ≤ j) : w.pos i = chain w.config (i + 1) :=
    pos_eq_chain at_start fun l le' => full l (by omega)
  obtain ⟨nonzero, found⟩ := last.found nonneg
  rw [follow le_rfl] at nonzero found
  refine ⟨by rw [h]; rfl, opened, pointer, bytes.1, j + 1, found, ?_, ?_⟩
  · intro i le
    refine ⟨?_, full i le⟩
    match i with
    | 0 => exact bytes.2
    | i + 1 =>
        rcases Nat.eq_or_lt_of_le le with same | lt
        · rw [same]
          exact nonzero
        · rw [← follow (by omega)]
          exact fun zero => last.2 i (by omega) (.inr (.inl zero))
  · intro i lt
    match i with
    | 0 => exact other
    | i + 1 =>
        rw [← follow (by omega)]
        intro id
        refine last.2 i (by omega) (.inr (.inr ⟨id, ?_⟩))
        intro empty
        have complete := full (i + 1) (by omega)
        rw [empty] at complete
        cases complete

theorem ended_loop (h : w.path = some len) (opened : w.opens = true) (read : w.pointer ≠ .error)
    (range : InRange w.start) (reads : w.caps 0 ≠ .error) (other : low w.first ≠ 0x10)
    (last : w.LastIs j) : Ended w (w.result j) := by
  refine ⟨?_, .inr (.inr (.inr (.inr (.inr (.inr ⟨j, last.1⟩))))), ?_, ?_⟩
  · rw [returns_of_loop h opened read, loop_returns range reads other]
    exact ⟨j, last, rfl⟩
  · have sound : w.Sound ↔ w.pos j = 0 ∨ w.caps (j + 1) = .error ∨ Express w.config (w.pos j) := by
      rw [Walk.Sound, h, opened]
      simp only [reduceCtorEq, Bool.true_eq_false, false_and, false_or, true_and, read, range,
        not_true_eq_false, reads, other, ne_eq, not_false_eq_true]
      constructor
      · rintro ⟨k, here, good⟩
        rwa [here.unique last] at good
      · exact fun good => ⟨j, last, good⟩
    rw [sound, Walk.result]
    by_cases ends : w.pos j = 0 ∨ w.caps (j + 1) = .error
    · rw [if_pos ends, ← or_assoc]
      exact iff_of_true (good_neg (by decide)) (.inl ends)
    · rw [if_neg ends, good_nat, ← or_assoc, or_iff_right ends]
      constructor
      · rintro ⟨x, same, express⟩
        rwa [BitVec.eq_of_toNat_eq same]
      · exact fun express => ⟨_, rfl, express⟩
  · rw [sees_of_loop h opened read, loop_sees range reads other]
    constructor
    · intro bad finds
      obtain ⟨k, here, nonzero, full⟩ := finds.last other
      obtain rfl := here.unique last
      have complete (i : ℕ) (le : i ≤ k + 1) : (w.caps i).full 2 ≠ false := by
        rw [full i le]
        nofun
      rcases bad with (pointer | first | ⟨i, before, -, short⟩) | neg
      · rw [finds.2.2.1] at pointer
        cases pointer
      · exact complete 0 (Nat.zero_le _) first
      · refine complete (i + 1) ?_ short
        by_contra late
        exact before k (by omega) last.1
      · have failed : w.caps (k + 1) ≠ .error := by
          intro failed
          refine complete (k + 1) le_rfl ?_
          rw [failed]
          rfl
        rw [Walk.result, if_neg (not_or.mpr ⟨nonzero, failed⟩)] at neg
        omega
    · intro lost
      by_contra clean
      rw [not_or, not_or, not_or, not_exists] at clean
      obtain ⟨⟨pointer, first, rest⟩, nonneg⟩ := clean
      refine lost (.of_last h opened range (Bool.not_eq_false _ ▸ pointer) other last nonneg ?_)
      intro i le
      match i with
      | 0 => exact Bool.not_eq_false _ ▸ first
      | i + 1 =>
          by_contra short
          refine rest i ⟨fun k lt => last.2 k (by omega), ?_, Bool.eq_false_of_not_eq_true short⟩
          rcases Nat.eq_or_lt_of_le (Nat.le_of_succ_le_succ le) with same | lt
          · rw [same]
            exact (last.found nonneg).1
          · exact fun zero => last.2 i lt (.inr (.inl zero))

/-- A search that does not end. -/
theorem hangs (h : w.path = some len) (opened : w.opens = true) (read : w.pointer ≠ .error)
    (range : InRange w.start) (reads : w.caps 0 ≠ .error) (other : low w.first ≠ 0x10)
    (more : ∀ j, ¬ w.Last j) :
    (∀ ret, ¬ w.search.Returns ret) ∧ ¬ w.Ends ∧ ¬ w.Sound ∧
      (w.search.Sees Access.Bad ↔ w.Short) := by
  refine ⟨?_, ?_, ?_, ?_⟩
  · intro ret
    rw [returns_of_loop h opened read, loop_returns range reads other]
    rintro ⟨j, last, -⟩
    exact more j last.1
  · rw [Walk.Ends, h, opened]
    simp only [reduceCtorEq, Bool.true_eq_false, read, range, not_true_eq_false, reads, other, more,
      exists_false, or_self, not_false_eq_true]
  · rw [Walk.Sound, h, opened]
    simp only [reduceCtorEq, Bool.true_eq_false, false_and, false_or, true_and, read, range,
      not_true_eq_false, reads, other, ne_eq, not_false_eq_true]
    rintro ⟨j, last, -⟩
    exact more j last.1
  · rw [sees_of_loop h opened read, loop_sees range reads other, Walk.Short]
    constructor
    · rintro (pointer | first | ⟨j, -, -, short⟩)
      · exact .inl pointer
      · exact .inr ⟨0, first⟩
      · exact .inr ⟨j + 1, short⟩
    · rintro (pointer | ⟨i, short⟩)
      · exact .inl pointer
      · match i with
        | 0 => exact .inr (.inl short)
        | j + 1 =>
            refine .inr (.inr ⟨j, fun k _ => more k, ?_, short⟩)
            exact fun zero => more j (.inr (.inl zero))

/-- How the search ends, and what it has read. -/
theorem search_spec (w : Walk) :
    (∃ ret, Ended w ret) ∨
      (∀ ret, ¬ w.search.Returns ret) ∧ ¬ w.Ends ∧ ¬ w.Sound ∧
        (w.search.Sees Access.Bad ↔ w.Short) := by
  cases h : w.path with
  | none => exact .inl ⟨_, ended_none h⟩
  | some len =>
      cases opened : w.opens with
      | false => exact .inl ⟨_, ended_closed h opened⟩
      | true =>
          by_cases read : w.pointer = .error
          · exact .inl ⟨_, ended_error h opened read⟩
          by_cases range : InRange w.start
          swap
          · exact .inl ⟨_, ended_out h opened read range⟩
          by_cases reads : w.caps 0 = .error
          · exact .inl ⟨_, ended_first_error h opened read range reads⟩
          by_cases found : low w.first = 0x10
          · exact .inl ⟨_, ended_found h opened read range reads found⟩
          by_cases last : ∃ j, w.Last j
          · classical
            have least : w.LastIs (Nat.find last) :=
              ⟨Nat.find_spec last, fun k lt => Nat.find_min last lt⟩
            exact .inl ⟨_, ended_loop h opened read range reads found least⟩
          · exact .inr (hangs h opened read range reads found (not_exists.mp last))

theorem Walk.Sound.ends (h : w.Sound) : w.Ends := by
  rcases h with none | ⟨closed, -⟩ | ⟨-, error | range | first | ⟨found, -⟩ | ⟨-, j, last, -⟩⟩
  · exact .inl none
  · exact .inr (.inl closed)
  · exact .inr (.inr (.inl error))
  · exact .inr (.inr (.inr (.inl range)))
  · exact .inr (.inr (.inr (.inr (.inl first))))
  · exact .inr (.inr (.inr (.inr (.inr (.inl found)))))
  · exact .inr (.inr (.inr (.inr (.inr (.inr ⟨j, last.1⟩)))))

/-- The search is correct if and only if it is sound. -/
theorem correct_iff (w : Walk) : w.Correct ↔ w.Sound := by
  have returns {ret : Int} : (getPcieCapOffset w).Returns ret ↔ w.search.Returns ret :=
    returns_getPcieCapOffset
  rcases search_spec w with ⟨ret, ended⟩ | ⟨hangs, -, unsound, -⟩
  · rw [← ended.good_iff]
    constructor
    · rintro ⟨ret', returned, good⟩
      rwa [(returns.mp returned).unique ended.returns] at good
    · exact fun good => ⟨ret, returns.mpr ended.returns, good⟩
  · refine iff_of_false ?_ unsound
    rintro ⟨ret, returned, -⟩
    exact hangs ret (returns.mp returned)

/-- With complete reads the search ends if and only if it meets no capability twice before the end of
the list or the id. -/
theorem ends_iff_of_full (h : w.path = some len) (opened : w.opens = true)
    (pointer : w.pointer.full 2 = true) (upper : w.config 0x35 = 0)
    (full : ∀ i, (w.caps i).full 2 = true) :
    w.Ends ↔ ∀ i j, i < j → chain w.config i = chain w.config j →
      ∃ k < j, chain w.config k = 0 ∨ w.config (chain w.config k).toNat = 0x10 := by
  have finite : Finite (BitVec 8) := .of_injective BitVec.toFin fun _ _ => BitVec.toFin_inj.mp
  have at_start := start_toNat pointer upper
  have not_error {r : Reply} (complete : r.full 2 = true) : r ≠ .error := by
    rintro rfl
    cases complete
  have follow (j : ℕ) : w.pos j = chain w.config (j + 1) := pos_eq_chain at_start fun i _ => full i
  have not_empty (i : ℕ) : w.caps i ≠ .bytes 0 := by
    intro empty
    have complete := full i
    rw [empty] at complete
    cases complete
  have range : ¬ InRange w.start ↔ chain w.config 0 = 0 := by
    rw [start_of_full pointer, inRange_append, and_iff_right upper, not_not]
  have last (j : ℕ) : w.Last j ↔ chain w.config (j + 1) = 0 ∨
      w.config (chain w.config (j + 1)).toNat = 0x10 := by
    rw [Walk.Last, follow, or_iff_right (not_error (full (j + 1))), and_iff_left (not_empty (j + 1))]
  have ends : w.Ends ↔ ∃ k, chain w.config k = 0 ∨ w.config (chain w.config k).toNat = 0x10 := by
    rw [Walk.Ends, h, opened, range, first_of_full at_start (full 0), low_append]
    simp only [reduceCtorEq, Bool.true_eq_false, not_error pointer, not_error (full 0), false_or,
      last]
    constructor
    · rintro (zero | id | ⟨j, here⟩)
      · exact ⟨0, .inl zero⟩
      · exact ⟨0, .inr id⟩
      · exact ⟨j + 1, here⟩
    · rintro ⟨k, here⟩
      match k with
      | 0 => exact here.imp_right .inl
      | j + 1 => exact .inr (.inr ⟨j, here⟩)
  rw [ends]
  exact exists_iterate_iff (p := fun x : BitVec 8 => x = 0 ∨ w.config x.toNat = 0x10)

/-- What follows the search, where only the accesses before matter to it. -/
theorem carefulFrom_getPcieCapOffset {β : Type} {f : Int → Proc Access β} {d : Prop}
    {Q : Prop → Prop}
    (rest : ∀ ret e, (f ret).CarefulFrom Access.Bad Access.IsWrite e ↔ Q e) :
    (getPcieCapOffset w >>= f).CarefulFrom Access.Bad Access.IsWrite d ↔
      (w.Ends → Q (d ∨ ¬ w.Finds)) ∧ (¬ w.Ends → ¬ (d ∨ w.Short)) := by
  rcases search_spec w with ⟨ret, ended⟩ | ⟨hangs, endless, -, short⟩
  · have sees : (getPcieCapOffset w).Sees Access.Bad ↔ ¬ w.Finds := by
      rw [← ended.finds_iff, sees_getPcieCapOffset]
      refine or_congr_right ?_
      constructor
      · rintro ⟨ret', returns, bad⟩
        obtain rfl := returns.unique ended.returns
        exact not_le.mp (of_decide_eq_false bad)
      · exact fun neg => ⟨ret, ended.returns, decide_eq_false (not_le.mpr neg)⟩
    rw [Proc.carefulFrom_bind_of_returns getPcieCapOffset_quiet
      (returns_getPcieCapOffset.mpr ended.returns), rest, propext sees]
    simp [ended.ends]
  · have sees : (getPcieCapOffset w).Sees Access.Bad ↔ w.Short := by
      rw [← short, sees_getPcieCapOffset, or_iff_left]
      rintro ⟨ret, returns, -⟩
      exact hangs ret returns
    rw [Proc.carefulFrom_bind_of_hangs getPcieCapOffset_quiet
      (fun ret returns => hangs ret (returns_getPcieCapOffset.mp returns))
      not_fails_getPcieCapOffset, propext sees]
    simp [endless]

end Search

end Unvmed.PciCap
