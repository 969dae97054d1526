import Mathlib
import Unvmed.Lib.Layout
import Unvmed.Lib.Run

/-!
The host memory buffer (`unvmed_hmb_init` and `unvmed_hmb_free` in `lib/libunvmed.c`).

The buffer is a list of descriptors in pages of their own, an array on the heap with the addresses
of the buffers, and the buffers, each allocated and mapped. After an error the call releases the
buffers whose descriptor has an address; `unvmed_hmb_free` does the same.

* `hmb_correct_iff`: a call does all or nothing and can be undone, if and only if it fails, not at
  the mapping of a buffer, and with no buffer at IOVA 0.
* `array_is_leaked`: `unvmed_hmb_free` leaves the array on the heap.
* `hmb_run`: over any number of calls, a buffer that is there has what it was asked for with, and all
  that the buffers before it have left are their arrays.
* `clean_run`: without descriptors `u->hmb` is zero in every run.
-/

namespace Unvmed.HostMemory

open Lib

/-! ### The calls -/

/-- `u->hmb.descs[i]` and `u->hmb.descs_vaddr[i]`. -/
structure Desc where
  vaddr : ℕ := 0
  badd : ℕ := 0
  bsize : BitVec 32 := 0
  deriving DecidableEq, Repr

/-- `struct unvme_hmb`; `entries` are the contents of both arrays. -/
structure Hmb where
  descs : Option ℕ := none
  descsVaddr : Option ℕ := none
  entries : List Desc := []
  descsIova : ℕ := 0
  descsSize : ℕ := 0
  nrDescs : ℕ := 0
  hsize : BitVec 32 := 0
  deriving DecidableEq, Repr

/-- What a call takes and gives back. -/
structure State where
  /-- `unvmed_pgmap` -/
  pages : Finset ℕ
  /-- `calloc` -/
  heap : Finset ℕ
  /-- `unvmed_map_vaddr` -/
  maps : Finset ℕ
  hmb : Hmb
  /-- What was freed without being allocated. -/
  doubleFrees : List ℕ := []
  deriving DecidableEq

/-- What the calls return: an address or an IOVA, if they succeed. -/
structure Env where
  /-- `page_size` -/
  pageSize : ℕ
  descs : Option ℕ
  descsIova : Option ℕ
  array : Option ℕ
  /-- The pages of a buffer. -/
  buf : ℕ → Option ℕ
  bufIova : ℕ → Option ℕ

inductive Errno where
  | eexist
  | enomem
  deriving DecidableEq, Repr

def State.unmap (s : State) (a : ℕ) : State := { s with maps := s.maps.erase a }

/-- `unvmed_pgunmap` -/
def State.pgunmap (s : State) (a : ℕ) : State :=
  if a ∈ s.pages then { s with pages := s.pages.erase a }
  else { s with doubleFrees := s.doubleFrees ++ [a] }

def State.free (s : State) (h : ℕ) : State :=
  if h ∈ s.heap then { s with heap := s.heap.erase h }
  else { s with doubleFrees := s.doubleFrees ++ [h] }

/-- The loop that releases the buffers whose descriptor has an address. -/
def State.releaseBufs (s : State) (entries : List Desc) : State :=
  entries.foldl (fun s e => if e.badd ≠ 0 then (s.unmap e.vaddr).pgunmap e.vaddr else s) s

/-- The loop of `unvmed_hmb_init` from buffer `i` on: whether it gets through, the state, and
`hsize`. -/
def initBufs (env : Env) : ℕ → List (BitVec 32) → ℕ → State → Bool × State × ℕ
  | _, [], hsize, s => (true, s, hsize)
  | i, bsize :: rest, hsize, s =>
      match env.buf i with
      | none => (false, s, hsize)
      | some buf =>
          let s := { s with pages := insert buf s.pages }
          match env.bufIova i with
          | none => (false, s, hsize)
          | some iova =>
              initBufs env (i + 1) rest (hsize + bsize.toNat)
                { s with
                  maps := insert buf s.maps
                  hmb.entries := s.hmb.entries.set i ⟨buf, iova, bsize⟩ }

/-- What follows the label `free`. -/
def State.undo (s : State) (descs : ℕ) : State :=
  let s := if s.hmb.descs.isSome then s.releaseBufs s.hmb.entries else s
  let s := match s.hmb.descsVaddr with
    | none => s
    | some array => s.free array
  { (s.unmap descs).pgunmap descs with hmb := {} }

/-- `sizeof(*u->hmb.descs)` -/
def descSize : ℕ := 16

/-- `unvmed_hmb_init`: the error, if there is one, and the state. -/
def hmbInit (env : Env) (bsize : List (BitVec 32)) (s : State) : Option Errno × State :=
  if s.hmb.descs.isSome then (some .eexist, s)
  else match env.descs with
    | none => (some .enomem, s)
    | some descs =>
        let s := { s with pages := insert descs s.pages }
        match env.descsIova with
        | none => (some .enomem, s.undo descs)
        | some iova =>
            let s := { s with maps := insert descs s.maps }
            match env.array with
            | none => (some .enomem, s.undo descs)
            | some array =>
                let s := { s with
                  heap := insert array s.heap
                  hmb := { s.hmb with
                    descs := some descs, descsVaddr := some array
                    entries := List.replicate bsize.length {}, descsIova := iova
                    descsSize := roundUp env.pageSize (bsize.length * descSize)
                    nrDescs := bsize.length } }
                let r := initBufs env 0 bsize 0 s
                if r.1 then (none, { r.2.1 with hmb.hsize := BitVec.ofNat 32 r.2.2 })
                else (some .enomem, r.2.1.undo descs)

/-- `unvmed_hmb_free` -/
def hmbFree (s : State) : Option Errno × State :=
  match s.hmb.descs with
  | none => (some .enomem, s)
  | some descs =>
      let s := s.releaseBufs (s.hmb.entries.take s.hmb.nrDescs)
      (none, { (s.unmap descs).pgunmap descs with hmb := {} })

/-! ### All or nothing -/

/-- The buffers of a descriptor list: apart, allocated and mapped, with the sizes that were asked
for. -/
structure Allocated (env : Env) (bsize : List (BitVec 32)) (s : State) : Prop where
  sizes : s.hmb.entries.map Desc.bsize = bsize
  count : s.hmb.nrDescs = bsize.length
  apart : s.hmb.entries.Pairwise fun e e' =>
    Disjoint (bytes e.vaddr (e.bsize.toNat * env.pageSize))
      (bytes e'.vaddr (e'.bsize.toNat * env.pageSize))
  mapped : ∀ e ∈ s.hmb.entries, e.vaddr ∈ s.pages ∧ e.vaddr ∈ s.maps
  hsize : s.hmb.hsize.toNat = (bsize.map BitVec.toNat).sum

/-- A failure changes nothing; a success has its buffers, and `unvmed_hmb_free` goes back to the
state before, with nothing freed twice. -/
def Correct (env : Env) (bsize : List (BitVec 32)) (s : State) : Prop :=
  match hmbInit env bsize s with
  | (some _, s') => s' = s
  | (none, s') => Allocated env bsize s' ∧ (hmbFree s').2 = s

/-- The call fails before the buffers, or at the pages of a buffer, and every buffer before that has
an IOVA other than 0. -/
def FailsClean (env : Env) (n : ℕ) : Prop :=
  env.descs = none ∨ env.descsIova = none ∨ env.array = none ∨
    ∃ i < n, env.buf i = none ∧
      ∀ j < i, ∃ buf iova, env.buf j = some buf ∧ env.bufIova j = some iova ∧ iova ≠ 0

/-- New memory is apart from what is there, and not mapped. -/
structure Fresh (env : Env) (bsize : List (BitVec 32)) (s : State) : Prop where
  descs : ∀ a, env.descs = some a → a ∉ s.pages ∧ a ∉ s.maps
  array : ∀ a, env.array = some a → a ∉ s.heap
  buf : ∀ i a, env.buf i = some a → a ∉ s.pages ∧ a ∉ s.maps ∧ env.descs ≠ some a
  inj : ∀ i j a, env.buf i = some a → env.buf j = some a → i = j
  apart : ∀ i j a b, i ≠ j → env.buf i = some a → env.buf j = some b →
    Disjoint (bytes a ((bsize.getD i 0).toNat * env.pageSize))
      (bytes b ((bsize.getD j 0).toNat * env.pageSize))

/-! ### What is released -/

section Release

variable {s : State} {es : List Desc} {a descs array : ℕ}

/-- The buffers of these descriptors. -/
def addrs (es : List Desc) : Finset ℕ := (es.map Desc.vaddr).toFinset

/-- The descriptors that have an IOVA. -/
def live (es : List Desc) : List Desc := es.filter fun e => e.badd ≠ 0

theorem mem_addrs : a ∈ addrs es ↔ ∃ e ∈ es, e.vaddr = a := by
  rw [addrs, List.mem_toFinset, List.mem_map]

/-- The loop releases the buffers of the live descriptors, once each. -/
theorem releaseBufs_eq (apart : ((live es).map Desc.vaddr).Nodup)
    (there : ∀ e ∈ live es, e.vaddr ∈ s.pages) :
    s.releaseBufs es =
      { s with pages := s.pages \ addrs (live es), maps := s.maps \ addrs (live es) } := by
  induction es generalizing s with
  | nil => simp [State.releaseBufs, live, addrs]
  | cons e es ih =>
      by_cases zero : e.badd = 0
      · have skipped : live (e :: es) = live es := by simp [live, zero]
        rw [skipped] at apart there ⊢
        rw [← ih apart there, State.releaseBufs, List.foldl_cons, if_neg (not_not.mpr zero)]
        rfl
      · have taken : live (e :: es) = e :: live es := by simp [live, zero]
        rw [taken] at apart there ⊢
        rw [List.map_cons, List.nodup_cons] at apart
        have here : (s.unmap e.vaddr).pgunmap e.vaddr =
            { s with maps := s.maps.erase e.vaddr, pages := s.pages.erase e.vaddr } := by
          have mem : e.vaddr ∈ (s.unmap e.vaddr).pages := there e List.mem_cons_self
          rw [State.pgunmap, if_pos mem]
          rfl
        have first : s.releaseBufs (e :: es) =
            State.releaseBufs { s with
              maps := s.maps.erase e.vaddr, pages := s.pages.erase e.vaddr } es := by
          rw [State.releaseBufs, List.foldl_cons, if_pos zero, here]
          rfl
        rw [first, ih apart.2]
        · have both (t : Finset ℕ) :
              t.erase e.vaddr \ addrs (live es) = t \ addrs (e :: live es) := by
            ext x
            rw [addrs, addrs, List.map_cons, List.toFinset_cons, Finset.mem_sdiff,
              Finset.mem_erase, Finset.mem_sdiff, Finset.mem_insert, not_or]
            tauto
          rw [both, both]
        · intro e' mem
          refine Finset.mem_erase.mpr ⟨?_, there e' (List.mem_cons_of_mem e mem)⟩
          intro same
          exact apart.1 (same ▸ List.mem_map_of_mem mem)

/-- Descriptors that are zero are not live. -/
theorem live_padded (n : ℕ) : live (es ++ List.replicate n ({} : Desc)) = live es := by
  rw [live, List.filter_append, List.filter_replicate_of_neg (by decide), List.append_nil, live]

end Release

/-! ### The loop over the buffers -/

section Loop

variable {env : Env} {s : State} {i hsize : ℕ} {todo : List (BitVec 32)} {done : List Desc}

/-- The descriptors `new` have been taken for the buffers from `i` on. -/
def Taken (env : Env) (i : ℕ) (todo : List (BitVec 32)) (new : List Desc) : Prop :=
  new.map Desc.bsize = todo.take new.length ∧
    ∀ j (inside : j < new.length), env.buf (i + j) = some new[j].vaddr ∧
      env.bufIova (i + j) = some new[j].badd

/-- The state with buffers taken, and the pages `extra` of a buffer that is not mapped. -/
def State.grown (s : State) (done new : List Desc) (left : ℕ) (extra : Finset ℕ) : State :=
  { s with
    pages := s.pages ∪ addrs new ∪ extra
    maps := s.maps ∪ addrs new
    hmb.entries := done ++ new ++ List.replicate left {} }

/-- How the loop ends: at the end, at the pages or at the mapping of a buffer. -/
inductive Ends (env : Env) (i n : ℕ) : Bool → ℕ → Finset ℕ → Prop where
  | done : Ends env i n true n ∅
  | noPages {k : ℕ} (before : k < n) (none : env.buf (i + k) = none) : Ends env i n false k ∅
  | notMapped {k a : ℕ} (before : k < n) (some_ : env.buf (i + k) = some a)
      (none : env.bufIova (i + k) = none) : Ends env i n false k {a}

theorem Ends.succ {n k : ℕ} {ok : Bool} {extra : Finset ℕ} (h : Ends env (i + 1) n ok k extra) :
    Ends env i (n + 1) ok (k + 1) extra := by
  cases h with
  | done => exact .done
  | noPages before none =>
      refine .noPages (Nat.succ_lt_succ before) ?_
      rwa [Nat.add_right_comm] at none
  | notMapped before some_ none =>
      rw [Nat.add_right_comm] at some_ none
      exact .notMapped (Nat.succ_lt_succ before) some_ none

theorem Taken.cons {a v : ℕ} {bsize : BitVec 32} {new : List Desc} (buf : env.buf i = some a)
    (iova : env.bufIova i = some v) (h : Taken env (i + 1) todo new) :
    Taken env i (bsize :: todo) (⟨a, v, bsize⟩ :: new) := by
  constructor
  · rw [List.map_cons, List.length_cons, List.take_succ_cons, h.1]
  · intro j inside
    cases j with
    | zero => exact ⟨buf, iova⟩
    | succ j =>
        have next := h.2 j (Nat.lt_of_succ_lt_succ inside)
        rwa [Nat.add_right_comm] at next

theorem grown_nil (entries : s.hmb.entries = done ++ List.replicate i ({} : Desc))
    (extra : Finset ℕ) : s.grown done [] i extra = { s with pages := s.pages ∪ extra } := by
  have none : addrs [] = ∅ := rfl
  rw [State.grown, none, Finset.union_empty, Finset.union_empty, List.append_nil, ← entries]

/-- The state after the loop: the buffers before the failure are there. -/
theorem initBufs_spec (entries : s.hmb.entries = done ++ List.replicate todo.length ({} : Desc))
    (place : done.length = i) :
    ∃ new extra, Taken env i todo new ∧
      Ends env i todo.length (initBufs env i todo hsize s).1 new.length extra ∧
      (initBufs env i todo hsize s).2.1 = s.grown done new (todo.length - new.length) extra ∧
      (initBufs env i todo hsize s).2.2 =
        hsize + ((todo.take new.length).map BitVec.toNat).sum := by
  induction todo generalizing i hsize s done with
  | nil =>
      refine ⟨[], ∅, ⟨rfl, fun j inside => absurd inside (Nat.not_lt_zero j)⟩, .done, ?_, rfl⟩
      exact ((grown_nil entries ∅).trans (by rw [Finset.union_empty]; rfl)).symm
  | cons bsize todo ih =>
      have short : Taken env i (bsize :: todo) [] :=
        ⟨rfl, fun j inside => absurd inside (Nat.not_lt_zero j)⟩
      cases buf : env.buf i with
      | none =>
          refine ⟨[], ∅, short, ?_, ?_, ?_⟩ <;> rw [initBufs, buf]
          · exact .noPages (Nat.succ_pos _) buf
          · exact ((grown_nil entries ∅).trans (by rw [Finset.union_empty])).symm
          · rfl
      | some a =>
          cases iova : env.bufIova i with
          | none =>
              refine ⟨[], {a}, short, ?_, ?_, ?_⟩ <;> simp only [initBufs, buf, iova]
              · exact .notMapped (Nat.succ_pos _) buf iova
              · refine ((grown_nil entries {a}).trans ?_).symm
                rw [Finset.union_comm, ← Finset.insert_eq]
              · rfl
          | some v =>
              have next : (s.hmb.entries.set i ⟨a, v, bsize⟩) =
                  (done ++ [⟨a, v, bsize⟩]) ++ List.replicate todo.length ({} : Desc) := by
                rw [entries, List.length_cons, List.replicate_succ, ← place,
                  List.set_append_right _ _ le_rfl, Nat.sub_self, List.set_cons_zero,
                  List.append_assoc, List.singleton_append]
              have length : (done ++ [(⟨a, v, bsize⟩ : Desc)]).length = i + 1 := by
                rw [List.length_append, place, List.length_singleton]
              obtain ⟨new, extra, taken, ends, state, sum⟩ := ih
                (s := { s with
                  pages := insert a s.pages, maps := insert a s.maps
                  hmb.entries := s.hmb.entries.set i ⟨a, v, bsize⟩ })
                next length
              refine ⟨⟨a, v, bsize⟩ :: new, extra, taken.cons buf iova, ?_, ?_, ?_⟩ <;>
                simp only [initBufs, buf, iova]
              · exact ends.succ
              · rw [state]
                have more (t : Finset ℕ) : insert a t ∪ addrs new =
                    t ∪ addrs (⟨a, v, bsize⟩ :: new) := by
                  rw [addrs, addrs, List.map_cons, List.toFinset_cons, Finset.insert_union,
                    Finset.union_insert]
                simp only [State.grown, more, List.append_assoc, List.singleton_append,
                  List.length_cons, Nat.succ_sub_succ]
              · rw [sum, List.length_cons, List.take_succ_cons, List.map_cons, List.sum_cons,
                  Nat.add_assoc]

end Loop

/-! ### After the loop -/

section Call

variable {env : Env} {s : State} {bsize : List (BitVec 32)} {new : List Desc} {extra : Finset ℕ}
  {descs iova array left k : ℕ} {ok : Bool}

/-- The buffers that are not released. -/
def leaked (new : List Desc) : Finset ℕ := addrs new \ addrs (live new)

theorem leaked_eq_empty (apart : (new.map Desc.vaddr).Nodup) :
    leaked new = ∅ ↔ ∀ e ∈ new, e.badd ≠ 0 := by
  rw [leaked, Finset.sdiff_eq_empty_iff_subset]
  constructor
  · intro all e mem zero
    obtain ⟨e', mem', same⟩ := mem_addrs.mp (all (mem_addrs.mpr ⟨e, mem, rfl⟩))
    rw [live, List.mem_filter] at mem'
    rw [List.inj_on_of_nodup_map apart mem'.1 mem same] at mem'
    exact of_decide_eq_true mem'.2 zero
  · intro all a mem
    obtain ⟨e, there, rfl⟩ := mem_addrs.mp mem
    exact mem_addrs.mpr ⟨e, List.mem_filter.mpr ⟨there, decide_eq_true (all e there)⟩, rfl⟩

theorem Taken.nodup (taken : Taken env 0 bsize new) (fresh : Fresh env bsize s) :
    (new.map Desc.vaddr).Nodup := by
  rw [List.nodup_iff_injective_get]
  intro i j same
  obtain ⟨i, hi⟩ := i
  obtain ⟨j, hj⟩ := j
  rw [List.length_map] at hi hj
  have buf_i := (taken.2 i hi).1
  have buf_j := (taken.2 j hj).1
  simp only [List.get_eq_getElem, List.getElem_map] at same
  rw [Nat.zero_add] at buf_i buf_j
  rw [← same] at buf_j
  exact Fin.ext (fresh.inj i j _ buf_i buf_j)

theorem Taken.new_of_mem (taken : Taken env 0 bsize new) (fresh : Fresh env bsize s) {e : Desc}
    (mem : e ∈ new) :
    e.vaddr ∉ s.pages ∧ e.vaddr ∉ s.maps ∧ env.descs ≠ some e.vaddr := by
  obtain ⟨i, inside, rfl⟩ := List.getElem_of_mem mem
  exact fresh.buf _ _ (taken.2 i inside).1

/-- The state at the start of the loop. -/
def State.begun (s : State) (env : Env) (n descs iova array : ℕ) : State :=
  { s with
    pages := insert descs s.pages
    heap := insert array s.heap
    maps := insert descs s.maps
    hmb := { s.hmb with
      descs := some descs, descsVaddr := some array
      entries := List.replicate n {}, descsIova := iova
      descsSize := roundUp env.pageSize (n * descSize)
      nrDescs := n } }

theorem hmbInit_eq (none_ : s.hmb.descs = none) (pages : env.descs = some descs)
    (map : env.descsIova = some iova) (calloc : env.array = some array) :
    hmbInit env bsize s =
      let r := initBufs env 0 bsize 0 (s.begun env bsize.length descs iova array)
      if r.1 then (none, { r.2.1 with hmb.hsize := BitVec.ofNat 32 r.2.2 })
      else (some .enomem, r.2.1.undo descs) := by
  rw [hmbInit, none_, if_neg (by decide), pages, map, calloc]
  rfl

/-- What is left in a set from which the live buffers are taken. -/
theorem union_sdiff_live (extra t : Finset ℕ) (before : ∀ e ∈ new, e.vaddr ∉ t)
    (other : ∀ e ∈ new, e.vaddr ∉ extra) :
    (t ∪ addrs new ∪ extra) \ addrs (live new) = t ∪ leaked new ∪ extra := by
  have away {r : Finset ℕ} (h : ∀ e ∈ new, e.vaddr ∉ r) : r \ addrs (live new) = r := by
    rw [Finset.sdiff_eq_self_iff_disjoint, Finset.disjoint_right]
    intro a mem
    obtain ⟨e, there, rfl⟩ := mem_addrs.mp mem
    exact h e (List.mem_filter.mp there).1
  rw [Finset.union_sdiff_distrib, Finset.union_sdiff_distrib, away before, away other, leaked]

/-- The buffers are released, but for those with IOVA 0. -/
theorem release_grown (left : ℕ) (apart : (new.map Desc.vaddr).Nodup)
    (pages : ∀ e ∈ new, e.vaddr ∉ s.pages) (maps : ∀ e ∈ new, e.vaddr ∉ s.maps)
    (other : ∀ e ∈ new, e.vaddr ∉ extra) :
    (s.grown [] new left extra).releaseBufs (s.grown [] new left extra).hmb.entries =
      { s.grown [] new left extra with
        pages := s.pages ∪ leaked new ∪ extra, maps := s.maps ∪ leaked new } := by
  have entries : live (s.grown [] new left extra).hmb.entries = live new := live_padded left
  rw [releaseBufs_eq, entries]
  · have maps := union_sdiff_live ∅ s.maps maps fun _ _ => Finset.notMem_empty _
    rw [Finset.union_empty, Finset.union_empty] at maps
    rw [← union_sdiff_live extra s.pages pages other, ← maps]
    rfl
  · rw [entries]
    exact apart.sublist (List.filter_sublist.map _)
  · rw [entries]
    intro e mem
    have there := mem_addrs.mpr ⟨e, (List.mem_filter.mp mem).1, rfl⟩
    exact Finset.mem_union_left _ (Finset.mem_union_right _ there)

/-- The last steps of both: the descriptors. -/
theorem release_descs {P M : Finset ℕ} (pages : s.pages = insert descs P) (notP : descs ∉ P)
    (maps : s.maps = insert descs M) (notM : descs ∉ M) :
    { (s.unmap descs).pgunmap descs with hmb := {} } =
      { s with pages := P, maps := M, hmb := {} } := by
  have mem : descs ∈ (s.unmap descs).pages := pages ▸ Finset.mem_insert_self descs P
  rw [State.pgunmap, if_pos mem]
  simp only [State.unmap, pages, maps, Finset.erase_insert notP, Finset.erase_insert notM]

theorem free_insert (heap : s.heap = insert array extra) (away : array ∉ extra) :
    s.free array = { s with heap := extra } := by
  have mem : array ∈ s.heap := heap ▸ Finset.mem_insert_self array extra
  rw [State.free, if_pos mem, heap, Finset.erase_insert away]

/-- The buffers of the loop, released. -/
theorem begun_released (iova array left : ℕ) (fresh : Fresh env bsize s)
    (pages : env.descs = some descs) (taken : Taken env 0 bsize new)
    (other : ∀ e ∈ new, e.vaddr ∉ extra) :
    let t := (s.begun env bsize.length descs iova array).grown [] new left extra
    t.releaseBufs t.hmb.entries =
      { t with
        pages := insert descs (s.pages ∪ leaked new ∪ extra)
        maps := insert descs (s.maps ∪ leaked new) } := by
  have apart := taken.nodup fresh
  have away (e : Desc) (mem : e ∈ new) : e.vaddr ≠ descs := by
    rintro rfl
    exact (taken.new_of_mem fresh mem).2.2 pages
  have release := release_grown (s := s.begun env bsize.length descs iova array) left apart
    (fun e mem => Finset.mem_insert.not.mpr
      (not_or.mpr ⟨away e mem, (taken.new_of_mem fresh mem).1⟩))
    (fun e mem => Finset.mem_insert.not.mpr
      (not_or.mpr ⟨away e mem, (taken.new_of_mem fresh mem).2.1⟩)) other
  rw [← Finset.insert_union, ← Finset.insert_union, ← Finset.insert_union]
  exact release

theorem undo_eq {t : State} (there : s.hmb.descs.isSome)
    (released : s.releaseBufs s.hmb.entries = t) (some_ : t.hmb.descsVaddr = some array) :
    s.undo descs = { ((t.free array).unmap descs).pgunmap descs with hmb := {} } := by
  simp only [State.undo, there, if_true, released, some_]

theorem notMem_leaked (fresh : Fresh env bsize s) (pages : env.descs = some descs)
    (taken : Taken env 0 bsize new) : descs ∉ leaked new := by
  intro mem
  obtain ⟨e, there, rfl⟩ := mem_addrs.mp (Finset.mem_sdiff.mp mem).1
  exact (taken.new_of_mem fresh there).2.2 pages

/-- What is left after a failure in the loop. -/
theorem undo_grown (fresh : Fresh env bsize s) (clean : s.hmb = {})
    (pages : env.descs = some descs) (calloc : env.array = some array)
    (taken : Taken env 0 bsize new) (other : ∀ e ∈ new, e.vaddr ∉ extra) (away : descs ∉ extra) :
    ((s.begun env bsize.length descs iova array).grown [] new left extra).undo descs =
      { s with pages := s.pages ∪ leaked new ∪ extra, maps := s.maps ∪ leaked new } := by
  have notLeaked := notMem_leaked fresh pages taken
  have notThere := fresh.descs descs pages
  have released := begun_released iova array left fresh pages taken
    other
  simp only at released
  have notP : descs ∉ s.pages ∪ leaked new ∪ extra := by
    simp only [Finset.mem_union, not_or]
    exact ⟨⟨notThere.1, notLeaked⟩, away⟩
  have notM : descs ∉ s.maps ∪ leaked new := by
    simp only [Finset.mem_union, not_or]
    exact ⟨notThere.2, notLeaked⟩
  rw [undo_eq rfl released rfl, free_insert rfl (fresh.array array calloc),
    release_descs rfl notP rfl notM, clean]
  rfl

/-- Before the array there are only the descriptors. -/
theorem undo_early (away : descs ∉ s.pages ∧ descs ∉ s.maps) (clean : s.hmb = {}) {M : Finset ℕ}
    (maps : M = s.maps ∨ M = insert descs s.maps) :
    State.undo { s with pages := insert descs s.pages, maps := M } descs = s := by
  have erased : M.erase descs = s.maps := by
    rcases maps with rfl | rfl
    · exact Finset.erase_eq_of_notMem away.2
    · exact Finset.erase_insert away.2
  have mem : descs ∈ insert descs s.pages := Finset.mem_insert_self descs s.pages
  simp only [State.undo, clean, Option.isSome_none, Bool.false_eq_true, if_false, State.unmap,
    State.pgunmap, if_pos mem, Finset.erase_insert away.1, erased]
  rw [← clean]

/-- The pages that could not be mapped are none of the others. -/
theorem Ends.extra_new (ends : Ends env 0 bsize.length ok new.length extra)
    (fresh : Fresh env bsize s) (taken : Taken env 0 bsize new) (pages : env.descs = some descs) :
    (∀ e ∈ new, e.vaddr ∉ extra) ∧ descs ∉ extra := by
  generalize length : new.length = k at ends
  cases ends with
  | done => exact ⟨fun _ _ => Finset.notMem_empty _, Finset.notMem_empty _⟩
  | noPages before none => exact ⟨fun _ _ => Finset.notMem_empty _, Finset.notMem_empty _⟩
  | @notMapped k a before some_ none =>
      constructor
      · intro e mem same
        obtain ⟨j, inside, rfl⟩ := List.getElem_of_mem mem
        have buf := (taken.2 j inside).1
        rw [Finset.mem_singleton.mp same] at buf
        have last := fresh.inj _ _ a buf some_
        omega
      · intro same
        exact (fresh.buf _ a some_).2.2 (Finset.mem_singleton.mp same ▸ pages)

/-- A call that gets to the loop. -/
theorem hmbInit_cases (fresh : Fresh env bsize s) (clean : s.hmb = {})
    (pages : env.descs = some descs) (map : env.descsIova = some iova)
    (calloc : env.array = some array) :
    ∃ new extra, Taken env 0 bsize new ∧
      ((Ends env 0 bsize.length true new.length extra ∧
          hmbInit env bsize s = (none,
            { (s.begun env bsize.length descs iova array).grown [] new
                (bsize.length - new.length) extra with
              hmb.hsize :=
                BitVec.ofNat 32 (0 + ((bsize.take new.length).map BitVec.toNat).sum) })) ∨
        Ends env 0 bsize.length false new.length extra ∧
          hmbInit env bsize s = (some .enomem,
            { s with pages := s.pages ∪ leaked new ∪ extra, maps := s.maps ∪ leaked new })) := by
  have none_ : s.hmb.descs = none := by rw [clean]
  have start : (s.begun env bsize.length descs iova array).hmb.entries =
      [] ++ List.replicate bsize.length ({} : Desc) := rfl
  obtain ⟨new, extra, taken, ends, state, sum⟩ := @initBufs_spec env _ 0 0 bsize [] start rfl
  refine ⟨new, extra, taken, ?_⟩
  rw [hmbInit_eq none_ pages map calloc]
  simp only
  cases ok : (initBufs env 0 bsize 0 (s.begun env bsize.length descs iova array)).1 with
  | true =>
      rw [ok] at ends
      refine .inl ⟨ends, ?_⟩
      rw [if_pos rfl, state, sum]
  | false =>
      rw [ok] at ends
      refine .inr ⟨ends, ?_⟩
      have apart := ends.extra_new fresh taken pages
      rw [if_neg (by decide), state, undo_grown fresh clean pages calloc taken apart.1 apart.2]

/-- Where the loop ends, the buffers before had their pages and mapping. -/
theorem Ends.clean_iff (ends : Ends env 0 bsize.length ok new.length extra)
    (taken : Taken env 0 bsize new) :
    (∃ i < bsize.length, env.buf i = none ∧
        ∀ j < i, ∃ buf iova, env.buf j = some buf ∧ env.bufIova j = some iova ∧ iova ≠ 0) ↔
      ok = false ∧ extra = ∅ ∧ ∀ e ∈ new, e.badd ≠ 0 := by
  have before {j : ℕ} (inside : j < new.length) :
      env.buf j = some new[j].vaddr ∧ env.bufIova j = some new[j].badd := by
    have h := taken.2 j inside
    rwa [Nat.zero_add] at h
  have stop {i : ℕ} (none : env.buf i = none) : new.length ≤ i := by
    by_contra inside
    rw [(before (Nat.lt_of_not_le inside)).1] at none
    cases none
  generalize length : new.length = k at ends
  cases ends with
  | done =>
      constructor
      · rintro ⟨i, inside, none, -⟩
        have := stop none
        omega
      · rintro ⟨no, -⟩
        cases no
  | noPages inside none =>
      rw [Nat.zero_add] at none
      constructor
      · rintro ⟨i, -, none', rest⟩
        refine ⟨rfl, rfl, ?_⟩
        have last : i = k := by
          have first := stop none'
          by_contra other
          obtain ⟨_, _, buf, -⟩ := rest k (by omega)
          rw [none] at buf
          cases buf
        intro e mem
        obtain ⟨j, inside, rfl⟩ := List.getElem_of_mem mem
        obtain ⟨_, iova, -, map, nonzero⟩ := rest j (by omega)
        rw [(before inside).2] at map
        cases map
        exact nonzero
      · rintro ⟨-, -, nonzero⟩
        refine ⟨k, inside, none, fun j le => ?_⟩
        have inside : j < new.length := length ▸ le
        exact ⟨_, _, (before inside).1, (before inside).2, nonzero _ (List.getElem_mem inside)⟩
  | @notMapped k a inside some_ none =>
      rw [Nat.zero_add] at some_ none
      constructor
      · rintro ⟨i, -, none', rest⟩
        have first := stop none'
        rcases Nat.lt_or_ge k i with more | same
        · obtain ⟨_, _, -, map, -⟩ := rest k more
          rw [none] at map
          cases map
        · obtain rfl : i = k := by omega
          rw [some_] at none'
          cases none'
      · rintro ⟨-, empty, -⟩
        exact absurd empty (Finset.singleton_ne_empty a)

/-- The pages of the buffers are not among those that are there. -/
theorem Ends.extra_notMem (ends : Ends env 0 bsize.length ok new.length extra)
    (fresh : Fresh env bsize s) : ∀ a ∈ extra, a ∉ s.pages := by
  generalize new.length = k at ends
  cases ends with
  | done => exact fun a mem => absurd mem (Finset.notMem_empty a)
  | noPages before none => exact fun a mem => absurd mem (Finset.notMem_empty a)
  | notMapped before some_ none =>
      intro a mem
      rw [Finset.mem_singleton.mp mem]
      exact (fresh.buf _ _ some_).1

/-- A failure in the loop changes nothing exactly if nothing is leaked. -/
theorem failed_eq_iff (fresh : Fresh env bsize s) (taken : Taken env 0 bsize new)
    (away : ∀ a ∈ extra, a ∉ s.pages) :
    { s with pages := s.pages ∪ leaked new ∪ extra, maps := s.maps ∪ leaked new } = s ↔
      extra = ∅ ∧ leaked new = ∅ := by
  constructor
  · intro same
    have pages : s.pages ∪ leaked new ∪ extra = s.pages := congrArg State.pages same
    constructor
    · rw [Finset.eq_empty_iff_forall_notMem]
      intro a mem
      exact away a mem (pages ▸ Finset.mem_union_right _ mem)
    · rw [Finset.eq_empty_iff_forall_notMem]
      intro a mem
      obtain ⟨e, there, rfl⟩ := mem_addrs.mp (Finset.mem_sdiff.mp mem).1
      refine (taken.new_of_mem fresh there).1 ?_
      rw [← pages]
      exact Finset.mem_union_left _ (Finset.mem_union_right _ mem)
  · rintro ⟨noExtra, noLeak⟩
    rw [noExtra, noLeak, Finset.union_empty, Finset.union_empty, Finset.union_empty]

end Call

/-! ### What the calls do -/

section Main

variable {env : Env} {s : State} {bsize : List (BitVec 32)}

theorem releaseBufs_heap (es : List Desc) : (s.releaseBufs es).heap = s.heap := by
  induction es generalizing s with
  | nil => rfl
  | cons e es ih =>
      rw [State.releaseBufs, List.foldl_cons]
      refine ih.trans ?_
      split
      · rw [State.pgunmap]
        split <;> rfl
      · rfl

/-- The loop does not touch the descriptors. -/
theorem releaseBufs_hmb (hmb : Hmb) (es : List Desc) :
    State.releaseBufs { s with hmb := hmb } es = { s.releaseBufs es with hmb := hmb } := by
  induction es generalizing s with
  | nil => rfl
  | cons e es ih =>
      simp only [State.releaseBufs, List.foldl_cons] at ih ⊢
      rw [← ih]
      congr 1
      by_cases zero : e.badd = 0
      · simp only [zero, ne_eq, not_true_eq_false, if_false]
      · by_cases there : e.vaddr ∈ s.pages <;>
          simp [State.pgunmap, State.unmap, zero, there]

/-- The array stays on the heap. -/
theorem hmbFree_heap : (hmbFree s).2.heap = s.heap := by
  unfold hmbFree
  split
  · rfl
  · simp only [State.pgunmap]
    split <;> exact releaseBufs_heap _

/-- A call without an error took everything. -/
theorem hmbInit_success (fresh : Fresh env bsize s) (clean : s.hmb.descs = none → s.hmb = {})
    (ok : (hmbInit env bsize s).1 = none) :
    s.hmb = {} ∧ ∃ descs iova array new, env.descs = some descs ∧ env.descsIova = some iova ∧
      env.array = some array ∧ Taken env 0 bsize new ∧ new.length = bsize.length ∧
      (hmbInit env bsize s).2 =
        { (s.begun env bsize.length descs iova array).grown [] new 0 ∅ with
          hmb.hsize := BitVec.ofNat 32 (bsize.map BitVec.toNat).sum } := by
  cases had : s.hmb.descs with
  | some d =>
      rw [hmbInit, had, if_pos Option.isSome_some] at ok
      cases ok
  | none =>
      have clean := clean had
      cases pages : env.descs with
      | none =>
          rw [hmbInit, had, if_neg (by decide), pages] at ok
          cases ok
      | some descs =>
          cases map : env.descsIova with
          | none =>
              rw [hmbInit, had, if_neg (by decide), pages, map] at ok
              cases ok
          | some iova =>
              cases calloc : env.array with
              | none =>
                  rw [hmbInit, had, if_neg (by decide), pages, map, calloc] at ok
                  cases ok
              | some array =>
                  obtain ⟨new, extra, taken, ⟨ends, call⟩ | ⟨-, call⟩⟩ :=
                    hmbInit_cases fresh clean pages map calloc
                  · have whole : new.length = bsize.length ∧ extra = ∅ := by
                      generalize length : new.length = k at ends
                      cases ends with
                      | done => exact ⟨rfl, rfl⟩
                    obtain ⟨whole, rfl⟩ := whole
                    refine ⟨clean, descs, iova, array, new, rfl, rfl, rfl, taken, whole, ?_⟩
                    rw [call, whole, Nat.sub_self, List.take_length, Nat.zero_add]
                  · rw [call] at ok
                    cases ok

/-- An error-free call has its buffers, and their sizes in `hsize` if it is wide enough. -/
theorem hmbInit_ok (fresh : Fresh env bsize s) (clean : s.hmb.descs = none → s.hmb = {})
    (ok : (hmbInit env bsize s).1 = none) (short : (bsize.map BitVec.toNat).sum < 2 ^ 32) :
    Allocated env bsize (hmbInit env bsize s).2 := by
  obtain ⟨-, descs, iova, array, new, -, -, -, taken, whole, state⟩ :=
    hmbInit_success fresh clean ok
  have entries : (hmbInit env bsize s).2.hmb.entries = new := by
    rw [state]
    exact List.append_nil new
  have sizes : new.map Desc.bsize = bsize := by
    rw [taken.1, whole, List.take_length]
  constructor
  · rw [entries, sizes]
  · rw [state]
    rfl
  · rw [entries, List.pairwise_iff_getElem]
    intro i j hi hj less
    have size {k : ℕ} (inside : k < new.length) : bsize.getD k 0 = new[k].bsize := by
      rw [← sizes, List.getD_eq_getElem?_getD, List.getElem?_map, List.getElem?_eq_getElem inside]
      rfl
    have buf {k : ℕ} (inside : k < new.length) := (taken.2 k inside).1
    rw [← size hi, ← size hj]
    refine fresh.apart i j _ _ (Nat.ne_of_lt less) ?_ ?_
    · rw [← buf hi, Nat.zero_add]
    · rw [← buf hj, Nat.zero_add]
  · rw [entries]
    intro e mem
    have there := mem_addrs.mpr ⟨e, mem, rfl⟩
    rw [state]
    exact ⟨Finset.mem_union_left _ (Finset.mem_union_right _ there),
      Finset.mem_union_right _ there⟩
  · rw [state]
    exact BitVec.toNat_ofNat .. |>.trans (Nat.mod_eq_of_lt short)

/-- What `unvmed_hmb_free` leaves of a successful call is the array, if no buffer has IOVA 0. -/
theorem hmbFree_ok (fresh : Fresh env bsize s) (clean : s.hmb.descs = none → s.hmb = {})
    (ok : (hmbInit env bsize s).1 = none) (nonzero : ∀ i, env.bufIova i ≠ some 0) :
    ∃ array, env.array = some array ∧
      (hmbFree (hmbInit env bsize s).2).2 = { s with heap := insert array s.heap } := by
  obtain ⟨none_, descs, iova, array, new, pages, -, calloc, taken, whole, state⟩ :=
    hmbInit_success fresh clean ok
  refine ⟨array, calloc, ?_⟩
  have noLeak : leaked new = ∅ := by
    rw [leaked_eq_empty (taken.nodup fresh)]
    intro e mem zero
    obtain ⟨i, inside, rfl⟩ := List.getElem_of_mem mem
    exact nonzero _ (zero ▸ (taken.2 i inside).2)
  have released := begun_released iova array 0 fresh pages taken
    fun _ _ => Finset.notMem_empty _
  have away := fresh.descs descs pages
  rw [noLeak, Finset.union_empty, Finset.union_empty, Finset.union_empty] at released
  have all : ((s.begun env bsize.length descs iova array).grown [] new 0 ∅).hmb.entries.take
      bsize.length =
        ((s.begun env bsize.length descs iova array).grown [] new 0 ∅).hmb.entries := by
    apply List.take_of_length_le
    exact (congrArg List.length (List.append_nil new)).le.trans whole.le
  have freed := releaseBufs_hmb (s := (s.begun env bsize.length descs iova array).grown [] new 0 ∅)
    { ((s.begun env bsize.length descs iova array).grown [] new 0 ∅).hmb with
      hsize := BitVec.ofNat 32 (bsize.map BitVec.toNat).sum }
    ((s.begun env bsize.length descs iova array).grown [] new 0 ∅).hmb.entries
  rw [released, ← all] at freed
  rw [state]
  refine (congrArg (fun t : State => { (t.unmap descs).pgunmap descs with hmb := {} })
    freed).trans ?_
  rw [release_descs rfl away.1 rfl away.2, ← none_]
  rfl

/-- A call that fails changes nothing exactly if every buffer before the failure can be released,
and the pages of the last one are not there. -/
theorem hmbInit_failed_iff (fresh : Fresh env bsize s) (clean : s.hmb.descs = none → s.hmb = {})
    (failed : (hmbInit env bsize s).1 ≠ none) :
    (hmbInit env bsize s).2 = s ↔ s.hmb.descs.isSome ∨ FailsClean env bsize.length := by
  cases had : s.hmb.descs with
  | some d =>
      have kept : hmbInit env bsize s = (some .eexist, s) := by
        rw [hmbInit, had, if_pos Option.isSome_some]
      rw [kept]
      exact ⟨fun _ => .inl rfl, fun _ => rfl⟩
  | none =>
      have empty := clean had
      rw [Option.isSome_none]
      cases pages : env.descs with
      | none =>
          have kept : hmbInit env bsize s = (some .enomem, s) := by
            rw [hmbInit, had, if_neg (by decide), pages]
          rw [kept]
          exact ⟨fun _ => .inr (.inl pages), fun _ => rfl⟩
      | some descs =>
          have away := fresh.descs descs pages
          cases map : env.descsIova with
          | none =>
              have kept : hmbInit env bsize s = (some .enomem, s) := by
                rw [hmbInit, had, if_neg (by decide), pages, map]
                exact congrArg (_, ·) (undo_early away empty (.inl rfl))
              rw [kept]
              exact ⟨fun _ => .inr (.inr (.inl map)), fun _ => rfl⟩
          | some iova =>
              cases calloc : env.array with
              | none =>
                  have kept : hmbInit env bsize s = (some .enomem, s) := by
                    rw [hmbInit, had, if_neg (by decide), pages, map, calloc]
                    exact congrArg (_, ·) (undo_early away empty (.inr rfl))
                  rw [kept]
                  exact ⟨fun _ => .inr (.inr (.inr (.inl calloc))), fun _ => rfl⟩
              | some array =>
                  have fails : FailsClean env bsize.length ↔ ∃ i < bsize.length,
                      env.buf i = none ∧ ∀ j < i, ∃ buf iova,
                        env.buf j = some buf ∧ env.bufIova j = some iova ∧ iova ≠ 0 := by
                    simp [FailsClean, pages, map, calloc]
                  obtain ⟨new, extra, taken, ⟨-, call⟩ | ⟨ends, call⟩⟩ :=
                    hmbInit_cases fresh empty pages map calloc
                  · rw [call] at failed
                    exact absurd rfl failed
                  · rw [fails, ends.clean_iff taken, call]
                    refine (failed_eq_iff fresh taken (ends.extra_notMem fresh)).trans ?_
                    rw [leaked_eq_empty (taken.nodup fresh)]
                    exact ⟨fun h => .inr ⟨rfl, h⟩, fun h => (h.resolve_left (by decide)).2⟩

/-- A call that succeeds has met no failure. -/
theorem not_failsClean_of_ok (fresh : Fresh env bsize s) (clean : s.hmb.descs = none → s.hmb = {})
    (ok : (hmbInit env bsize s).1 = none) :
    ¬ (s.hmb.descs.isSome ∨ FailsClean env bsize.length) := by
  obtain ⟨none_, descs, iova, array, new, pages, map, calloc, taken, whole, -⟩ :=
    hmbInit_success fresh clean ok
  rw [none_]
  rintro (had | none | none | none | ⟨i, inside, none, -⟩)
  · cases had
  · cases pages.symm.trans none
  · cases map.symm.trans none
  · cases calloc.symm.trans none
  · have there := (taken.2 i (whole ▸ inside)).1
    rw [Nat.zero_add, none] at there
    cases there

/-- A call does all or nothing, and can be undone, exactly if it fails and leaves nothing. -/
theorem hmb_correct_iff (fresh : Fresh env bsize s) (clean : s.hmb.descs = none → s.hmb = {}) :
    Correct env bsize s ↔ s.hmb.descs.isSome ∨ FailsClean env bsize.length := by
  rcases ran : hmbInit env bsize s with ⟨_ | e, s'⟩
  · have ok : (hmbInit env bsize s).1 = none := by rw [ran]
    obtain ⟨-, descs, iova, array, new, -, -, calloc, -, -, state⟩ := hmbInit_success fresh clean ok
    refine iff_of_false ?_ (not_failsClean_of_ok fresh clean ok)
    rw [Correct, ran]
    rintro ⟨-, undone⟩
    have there : array ∈ (hmbInit env bsize s).2.heap := by
      rw [state]
      exact Finset.mem_insert_self array s.heap
    have heap := congrArg State.heap undone
    rw [hmbFree_heap] at heap
    rw [ran, heap] at there
    exact fresh.array array calloc there
  · have failed : (hmbInit env bsize s).1 ≠ none := by
      rw [ran]
      exact Option.some_ne_none e
    have same := hmbInit_failed_iff fresh clean failed
    rw [ran] at same
    rw [Correct, ran]
    exact same

/-- One buffer of one page, with everything that is asked for but the array. -/
def noArray : Env where
  pageSize := 4096
  descs := some 0x1000
  descsIova := some 0x10000
  array := none
  buf := fun i => if i = 0 then some 0x2000 else none
  bufIova := fun _ => some 0x11000

def idle : State := { pages := ∅, heap := ∅, maps := ∅, hmb := {} }

theorem noArray_fresh {array : Option ℕ} (pages : s.pages = ∅) (maps : s.maps = ∅)
    (heap : ∀ a, array = some a → a ∉ s.heap) : Fresh { noArray with array } bsize s := by
  have away (a : ℕ) : a ∉ s.pages ∧ a ∉ s.maps := by simp [pages, maps]
  refine ⟨fun a _ => away a, heap, ?_, ?_, ?_⟩
  · intro i a buf
    refine ⟨(away a).1, (away a).2, ?_⟩
    rintro same
    cases same
    revert buf
    simp only [noArray]
    split <;> decide
  · intro i j a buf buf'
    by_cases first : i = 0 <;> by_cases second : j = 0 <;> simp_all [noArray]
  · intro i j a b other buf buf'
    by_cases first : i = 0 <;> by_cases second : j = 0 <;> simp_all [noArray]

/-- Without the array nothing is left, and without the pages of the second buffer the first one is
released. -/
theorem hmb_correct_undone :
    Correct noArray [1] idle ∧ Correct { noArray with array := some 1 } [1, 1] idle := by
  have fresh (array : Option ℕ) {bsize : List (BitVec 32)} :
      Fresh { noArray with array } bsize idle :=
    noArray_fresh rfl rfl fun a _ => Finset.notMem_empty a
  constructor
  · exact (hmb_correct_iff (fresh none) fun _ => rfl).mpr (.inr (.inr (.inr (.inl rfl))))
  · refine (hmb_correct_iff (fresh (some 1)) fun _ => rfl).mpr
      (.inr (.inr (.inr (.inr ⟨1, by decide, rfl, ?_⟩))))
    intro j first
    obtain rfl : j = 0 := by omega
    exact ⟨_, _, rfl, rfl, by decide⟩

/-- `unvme hmb --allocate -s 1`, then `--deallocate`: the array is left on the heap. And if the
buffer cannot be mapped, its page is left. -/
theorem array_is_leaked :
    (¬ Correct { noArray with array := some 1 } [1] idle ∧
      (hmbInit { noArray with array := some 1 } [1] idle).1 = none ∧
      (hmbFree (hmbInit { noArray with array := some 1 } [1] idle).2).2 =
        { idle with heap := {1} }) ∧
    (hmbInit { noArray with array := some 1, bufIova := fun _ => none } [1] idle) =
      (some .enomem, { idle with pages := {0x2000} }) := by
  have heap : (hmbFree (hmbInit { noArray with array := some 1 } [1] idle).2).2 =
      { idle with heap := {1} } := by decide
  refine ⟨⟨?_, by decide, heap⟩, by decide⟩
  intro correct
  have undone : (hmbFree (hmbInit { noArray with array := some 1 } [1] idle).2).2 = idle :=
    correct.2
  rw [undone] at heap
  exact absurd heap (by decide)

end Main

/-! ### Runs -/

inductive Call where
  | init (env : Env) (bsize : List (BitVec 32))
  | free

/-- A controller between two calls. -/
structure Life where
  state : State
  /-- What the buffer was asked for with, as long as there is one. -/
  asked : Option (Env × List (BitVec 32)) := none
  /-- The buffers that were freed. -/
  frees : ℕ := 0

def Life.step (l : Life) : Call → Option Life
  | .init env bsize => some { l with
      state := (hmbInit env bsize l.state).2
      asked := if (hmbInit env bsize l.state).1 = none then some (env, bsize) else l.asked }
  | .free => some {
      state := (hmbFree l.state).2
      asked := none
      frees := if (hmbFree l.state).1 = none then l.frees + 1 else l.frees }

section Runs

variable {env : Env} {s : State} {bsize : List (BitVec 32)}

theorem initBufs_descs (i : ℕ) (todo : List (BitVec 32)) (hsize : ℕ) :
    (initBufs env i todo hsize s).2.1.hmb.descs = s.hmb.descs := by
  induction todo generalizing i hsize s with
  | nil => rfl
  | cons bsize todo ih =>
      rw [initBufs]
      split
      · rfl
      · simp only
        split
        · rfl
        · exact ih _ _

/-- Without descriptors the whole `struct unvme_hmb` is zero, before and after a call. -/
theorem hmbInit_clean (clean : s.hmb.descs = none → s.hmb = {}) (bsize : List (BitVec 32))
    (none_ : (hmbInit env bsize s).2.hmb.descs = none) : (hmbInit env bsize s).2.hmb = {} := by
  unfold hmbInit at none_ ⊢
  split
  case isTrue had =>
    rw [if_pos had] at none_
    exact clean none_
  case isFalse had =>
    rw [if_neg had] at none_
    revert none_
    split
    · exact clean
    · simp only
      split
      · exact fun _ => rfl
      · split
        · exact fun _ => rfl
        · split
          · intro none_
            simp only [initBufs_descs] at none_
            cases none_
          · exact fun _ => rfl

theorem hmbFree_clean (clean : s.hmb.descs = none → s.hmb = {}) : (hmbFree s).2.hmb = {} := by
  unfold hmbFree
  split
  case h_1 none_ => exact clean none_
  case h_2 => rfl

/-- The assumption on `u->hmb` holds in every state of every run. -/
theorem clean_run {l l' : Life} {calls : List Call}
    (clean : l.state.hmb.descs = none → l.state.hmb = {})
    (ran : run Life.step l calls = some l') : l'.state.hmb.descs = none → l'.state.hmb = {} := by
  refine run_inv_all (I := fun l : Life => l.state.hmb.descs = none → l.state.hmb = {}) ?_ clean ran
  intro l call l' clean went
  cases call with
  | init env bsize =>
      cases went
      exact hmbInit_clean clean bsize
  | free =>
      cases went
      exact fun _ => hmbFree_clean clean

/-- Every buffer can be mapped, at an IOVA other than 0. -/
def Env.Maps (env : Env) : Prop := ∀ i, ∃ iova, env.bufIova i = some iova ∧ iova ≠ 0

/-- New memory is new, and what has pages can be mapped. -/
def Meets (l : Life) : Call → Prop
  | .init env bsize => Fresh env bsize l.state ∧ env.Maps
  | .free => True

theorem Ends.extra_eq_empty {i n k : ℕ} {ok : Bool} {extra : Finset ℕ}
    (ends : Ends env i n ok k extra) (maps : env.Maps) : extra = ∅ := by
  cases ends with
  | done | noPages => rfl
  | notMapped _ _ none =>
      obtain ⟨iova, some_, -⟩ := maps (i + k)
      cases none.symm.trans some_

/-- Where the buffers can be mapped, a call that fails leaves nothing behind. -/
theorem hmbInit_failed (fresh : Fresh env bsize s) (clean : s.hmb.descs = none → s.hmb = {})
    (maps : env.Maps) (failed : (hmbInit env bsize s).1 ≠ none) : (hmbInit env bsize s).2 = s := by
  rw [hmbInit_failed_iff fresh clean failed]
  cases had : s.hmb.descs with
  | some d => exact .inl rfl
  | none =>
      right
      cases pages : env.descs with
      | none => exact .inl pages
      | some descs =>
          cases map : env.descsIova with
          | none => exact .inr (.inl map)
          | some iova =>
              cases calloc : env.array with
              | none => exact .inr (.inr (.inl calloc))
              | some array =>
                  refine .inr (.inr (.inr ?_))
                  obtain ⟨new, extra, taken, ⟨-, call⟩ | ⟨ends, call⟩⟩ :=
                    hmbInit_cases fresh (clean had) pages map calloc
                  · rw [call] at failed
                    exact absurd rfl failed
                  · rw [ends.clean_iff taken]
                    refine ⟨rfl, ends.extra_eq_empty maps, fun e mem => ?_⟩
                    obtain ⟨i, inside, rfl⟩ := List.getElem_of_mem mem
                    obtain ⟨iova, some_, nonzero⟩ := maps (0 + i)
                    rw [(taken.2 i inside).2] at some_
                    cases some_
                    exact nonzero

/-- The same with more on the heap. -/
def State.leaving (s : State) (arrays : Finset ℕ) : State := { s with heap := arrays ∪ s.heap }

/-- With no buffer all is as it was at the start, but for an array of each buffer that was freed;
with one it is as a call leaves it. -/
def Life.Kept (start : State) (l : Life) : Prop :=
  ∃ arrays, Disjoint arrays start.heap ∧ arrays.card = l.frees ∧ match l.asked with
    | none => l.state = start.leaving arrays
    | some (env, bsize) => Fresh env bsize (start.leaving arrays) ∧ env.Maps ∧
        hmbInit env bsize (start.leaving arrays) = (none, l.state)

/-- A buffer has descriptors. -/
theorem descs_of_ok {t : State} (fresh : Fresh env bsize s) (clean : s.hmb.descs = none → s.hmb = {})
    (ran : hmbInit env bsize s = (none, t)) : t.hmb.descs.isSome := by
  have ok : (hmbInit env bsize s).1 = none := by rw [ran]
  obtain ⟨-, descs, iova, array, new, -, -, -, -, -, state⟩ := hmbInit_success fresh clean ok
  rw [ran] at state
  change t = _ at state
  rw [state]
  rfl

theorem kept_step {start : State} (idle : start.hmb = {}) {l l' : Life} {call : Call}
    (kept : l.Kept start) (met : Meets l call) (went : l.step call = some l') : l'.Kept start := by
  obtain ⟨arrays, apart, card, now⟩ := kept
  have clean : (start.leaving arrays).hmb.descs = none → (start.leaving arrays).hmb = {} :=
    fun _ => idle
  cases asked : l.asked with
  | none =>
      rw [asked] at now
      cases call with
      | init env bsize =>
          cases went
          refine ⟨arrays, apart, card, ?_⟩
          obtain ⟨fresh, maps⟩ := met
          simp only [now] at fresh ⊢
          by_cases ok : (hmbInit env bsize (start.leaving arrays)).1 = none
          · rw [if_pos ok]
            exact ⟨fresh, maps, Prod.ext ok rfl⟩
          · rw [if_neg ok, asked]
            exact hmbInit_failed fresh clean maps ok
      | free =>
          cases went
          have none_ : hmbFree l.state = (some .enomem, l.state) := by
            rw [hmbFree, now]
            simp only [State.leaving, idle]
          refine ⟨arrays, apart, ?_, ?_⟩ <;> rw [none_]
          · exact card
          · exact now
  | some given =>
      obtain ⟨env, bsize⟩ := given
      rw [asked] at now
      obtain ⟨fresh, maps, ran⟩ := now
      have there := descs_of_ok fresh clean ran
      cases call with
      | init env' bsize' =>
          cases went
          have exists_ : hmbInit env' bsize' l.state = (some .eexist, l.state) := by
            rw [hmbInit, if_pos there]
          refine ⟨arrays, apart, card, ?_⟩
          simp only [exists_, asked, reduceCtorEq, if_false]
          exact ⟨fresh, maps, ran⟩
      | free =>
          cases went
          have ok : (hmbInit env bsize (start.leaving arrays)).1 = none := by rw [ran]
          have nonzero (i : ℕ) : env.bufIova i ≠ some 0 := by
            intro zero
            obtain ⟨iova, some_, nonzero⟩ := maps i
            cases zero.symm.trans some_
            exact nonzero rfl
          obtain ⟨array, calloc, freed⟩ := hmbFree_ok fresh clean ok nonzero
          have new : array ∉ arrays ∪ start.heap := fresh.array array calloc
          rw [Finset.mem_union, not_or] at new
          rw [ran] at freed
          obtain ⟨descs, some_⟩ := Option.isSome_iff_exists.mp there
          have freed₁ : (hmbFree l.state).1 = none := by
            rw [hmbFree, some_]
          refine ⟨insert array arrays, ?_, ?_, ?_⟩
          · rw [Finset.disjoint_insert_left]
            exact ⟨new.2, apart⟩
          · simp only [freed₁, if_true, Finset.card_insert_of_notMem new.1, card]
          · refine freed.trans ?_
            simp only [State.leaving, Finset.insert_union]

/-- **The life of the buffer.** In every run of both calls, where new memory is new and every buffer
can be mapped: a buffer that is there has what it was asked for with, and without one all is as it
was at the start, but for one array on the heap for each buffer that was freed. -/
theorem hmb_run {start : State} (idle : start.hmb = {}) (calls : List Call) (l : Life)
    (met : Guarded Life.step Meets { state := start } calls)
    (ran : run Life.step { state := start } calls = some l) :
    (l.state.hmb.descs.isSome ↔ l.asked.isSome) ∧
      (∀ env bsize, l.asked = some (env, bsize) → (bsize.map BitVec.toNat).sum < 2 ^ 32 →
        Allocated env bsize l.state) ∧
      (l.asked = none → ∃ arrays, Disjoint arrays start.heap ∧ arrays.card = l.frees ∧
        l.state = start.leaving arrays) := by
  have kept : l.Kept start := by
    refine run_inv (fun _ _ _ kept met went => kept_step idle kept met went) ?_ met ran
    refine ⟨∅, Finset.disjoint_empty_left _, rfl, ?_⟩
    simp only [State.leaving, Finset.empty_union]
  obtain ⟨arrays, apart, card, now⟩ := kept
  have clean : (start.leaving arrays).hmb.descs = none → (start.leaving arrays).hmb = {} :=
    fun _ => idle
  cases asked : l.asked with
  | none =>
      rw [asked] at now
      refine ⟨?_, nofun, fun _ => ⟨arrays, apart, card, now⟩⟩
      rw [now, State.leaving, idle]
      rfl
  | some given =>
      obtain ⟨env, bsize⟩ := given
      rw [asked] at now
      obtain ⟨fresh, -, went⟩ := now
      refine ⟨iff_of_true (descs_of_ok fresh clean went) rfl, ?_, nofun⟩
      rintro _ _ ⟨⟩ short
      have allocated := hmbInit_ok fresh clean (by rw [went]) short
      rwa [went] at allocated

/-- Two buffers, one after the other, leave two arrays. -/
theorem hmb_run_twice : ∃ l arrays, run Life.step { state := idle }
    [.init { noArray with array := some 1 } [1], .free,
      .init { noArray with array := some 2 } [1], .free] = some l ∧
    arrays.card = 2 ∧ l.state = idle.leaving arrays := by
  have maps (array : Option ℕ) : Env.Maps { noArray with array } :=
    fun _ => ⟨0x11000, rfl, by decide⟩
  have met : Guarded Life.step Meets { state := idle }
      [.init { noArray with array := some 1 } [1], .free,
        .init { noArray with array := some 2 } [1], .free] := by
    refine ⟨⟨noArray_fresh rfl rfl (by decide), maps _⟩, trivial,
      ⟨noArray_fresh ?_ ?_ ?_, maps _⟩, trivial, trivial⟩
    · decide
    · decide
    · rintro a ⟨⟩
      decide
  obtain ⟨-, -, free⟩ := hmb_run rfl _ _ met rfl
  obtain ⟨arrays, -, card, state⟩ := free rfl
  exact ⟨_, arrays, rfl, card, state⟩

end Runs

end Unvmed.HostMemory
