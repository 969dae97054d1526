import Mathlib.Data.List.Chain
import Mathlib.Data.List.Nodup
import Mathlib.Logic.Function.Basic

/-!
Circular doubly linked lists in a memory of `next` and `prev` links.

`m.Ring h xs` says that the links join `h`, the nodes `xs` and `h` again, both ways, and that
no node comes twice. The edits of such a list are joins of two nodes.

* `Ring.insert`, `Ring.remove`: a node is joined in, and taken out.
* `Path.nodup`: what does not come back to its start visits no node twice.
* `Ring.congr`: the links of other nodes do not matter.
* `Rings.start`, `Rings.insert`, `Rings.remove`: the same for any number of rings in one memory.
-/

namespace Lib

/-- The links of all nodes. -/
structure Links (α : Type*) where
  next : α → α
  prev : α → α

namespace Links

variable {α : Type*}

/-- `y` follows `x`, and both know it. -/
def Joined (m : Links α) (x y : α) : Prop := m.next x = y ∧ m.prev y = x

/-- Each node is joined to the next. -/
def Path (m : Links α) (xs : List α) : Prop := xs.IsChain m.Joined

/-- The nodes `xs` hang on `h`, in order, and the last one leads back to it. -/
structure Ring (m : Links α) (h : α) (xs : List α) : Prop where
  nodup : (h :: xs).Nodup
  path : m.Path (h :: xs ++ [h])

/-- Let `y` follow `x`. -/
def join [DecidableEq α] (m : Links α) (x y : α) : Links α where
  next := Function.update m.next x y
  prev := Function.update m.prev y x

section Join

variable [DecidableEq α] {m : Links α} {x y z a b : α}

theorem joined_join (m : Links α) (x y : α) : (m.join x y).Joined x y :=
  ⟨Function.update_self .., Function.update_self ..⟩

theorem join_next_of_ne (h : z ≠ x) : (m.join x y).next z = m.next z :=
  Function.update_of_ne h ..

theorem join_prev_of_ne (h : z ≠ y) : (m.join x y).prev z = m.prev z :=
  Function.update_of_ne h ..

/-- Another join keeps what it does not touch. -/
theorem Joined.join (h : m.Joined a b) (hx : a ≠ x) (hy : b ≠ y) : (m.join x y).Joined a b :=
  ⟨(join_next_of_ne hx).trans h.1, (join_prev_of_ne hy).trans h.2⟩

end Join

/-! ### Paths -/

section Path

variable {m m' : Links α} {xs ys : List α} {x y a b : α}

theorem Path.congr (h : m.Path xs) (next : ∀ x ∈ xs.dropLast, m'.next x = m.next x)
    (prev : ∀ x ∈ xs.tail, m'.prev x = m.prev x) : m'.Path xs := by
  induction xs with
  | nil => exact .nil
  | cons x xs ih =>
      cases xs with
      | nil => exact .singleton x
      | cons y ys =>
          obtain ⟨first, rest⟩ := List.isChain_cons_cons.mp h
          have joined : m'.Joined x y :=
            ⟨(next x List.mem_cons_self).trans first.1, (prev y List.mem_cons_self).trans first.2⟩
          refine List.isChain_cons_cons.mpr ⟨joined, ih rest ?_ ?_⟩
          · exact fun z mem => next z (List.mem_cons_of_mem x mem)
          · exact fun z mem => prev z (List.mem_cons_of_mem y mem)

/-- A path that goes on. -/
theorem path_append : m.Path (xs ++ x :: y :: ys) ↔
    m.Path (xs ++ [x]) ∧ m.Joined x y ∧ m.Path (y :: ys) :=
  List.isChain_append_cons_cons

/-- A path that does not come back to its start visits no node twice. -/
theorem Path.nodup {h : α} (path : m.Path (h :: xs)) (away : h ∉ xs) : (h :: xs).Nodup := by
  induction xs using List.reverseRecOn with
  | nil => exact List.nodup_singleton h
  | append_singleton xs y ih =>
      obtain ⟨off, ne⟩ : h ∉ xs ∧ h ≠ y := by simpa [not_or] using away
      have split : m.Path ((h :: xs) ++ [y]) := path
      have before : m.Path (h :: xs) := split.left_of_append
      have nodup := ih before off
      have new : y ∉ h :: xs := by
        intro mem
        obtain ⟨a, c, split⟩ := List.append_of_mem mem
        obtain ⟨q, p, last⟩ := (List.eq_nil_or_concat (h :: xs)).resolve_left (List.cons_ne_nil _ _)
        rw [List.concat_eq_append] at last
        -- both times `y` comes after the node that it knows as its predecessor
        have from_last : m.Joined p y := by
          have whole : h :: (xs ++ [y]) = q ++ p :: [y] := by
            rw [← List.cons_append, last, List.append_assoc, List.singleton_append]
          rw [whole] at path
          exact (path_append.mp path).2.1
        obtain ⟨a, b, rfl⟩ : ∃ a' b, a = a' ++ [b] := by
          rcases List.eq_nil_or_concat a with rfl | ⟨a', b, rfl⟩
          · exact absurd (List.cons.inj split).1 ne
          · exact ⟨a', b, List.concat_eq_append⟩
        have from_middle : m.Joined b y := by
          rw [split, List.append_assoc] at before
          exact (path_append.mp before).2.1
        have same : p = b := from_last.2.symm.trans from_middle.2
        have end_ : p ∈ y :: c := by
          have last' : (h :: xs).getLast? = some p := by rw [last, List.getLast?_concat]
          rw [split, List.getLast?_append_cons] at last'
          exact List.mem_of_mem_getLast? last'
        rw [split, ← same] at nodup
        exact (List.nodup_append.mp nodup).2.2 p (by simp) p end_ rfl
      rw [← List.cons_append]
      exact (List.perm_append_singleton y (h :: xs)).nodup_iff.mpr (List.nodup_cons.mpr ⟨new, nodup⟩)

/-- A join from the last node or from outside, to the first or to outside, keeps the path. -/
theorem Path.join [DecidableEq α] (h : m.Path xs) (ha : a ∉ xs.dropLast) (hb : b ∉ xs.tail) :
    (m.join a b).Path xs := by
  apply h.congr
  · intro x mem
    exact join_next_of_ne (ne_of_mem_of_not_mem mem ha)
  · intro x mem
    exact join_prev_of_ne (ne_of_mem_of_not_mem mem hb)

end Path

/-! ### A ring -/

section Ring

variable {m m' : Links α} {h n p x : α} {q zs xs ys : List α}

theorem ring_nil : m.Ring h [] ↔ m.Joined h h := by
  constructor
  · intro ring
    exact (List.isChain_cons_cons.mp ring.path).1
  · intro joined
    exact ⟨List.nodup_singleton h, List.isChain_pair.mpr joined⟩

/-- The links of nodes that are not in the ring do not matter. -/
theorem Ring.congr (ring : m.Ring h xs) (next : ∀ x ∈ h :: xs, m'.next x = m.next x)
    (prev : ∀ x ∈ h :: xs, m'.prev x = m.prev x) : m'.Ring h xs := by
  refine ⟨ring.nodup, ring.path.congr ?_ ?_⟩
  · rw [List.dropLast_concat]
    exact next
  · intro x mem
    apply prev
    rw [List.cons_append, List.tail_cons, List.mem_append, List.mem_singleton] at mem
    exact List.mem_cons.mpr mem.symm

/-- Every ring is cut, between any two of its parts, at a last and a first node. -/
theorem exists_cut (h : α) (xs ys : List α) :
    ∃ p q x zs, h :: xs = q ++ [p] ∧ ys ++ [h] = x :: zs := by
  have some_last := List.eq_nil_or_concat (h :: xs)
  obtain ⟨q, p, before⟩ := some_last.resolve_left (List.cons_ne_nil _ _)
  rw [List.concat_eq_append] at before
  cases ys with
  | nil => exact ⟨p, q, h, [], before, rfl⟩
  | cons x ys => exact ⟨p, q, x, ys ++ [h], before, rfl⟩

/-- A ring, seen at a cut. -/
theorem ring_cut (before : h :: xs = q ++ [p]) (after : ys ++ [h] = x :: zs) :
    m.Ring h (xs ++ ys) ↔ (h :: (xs ++ ys)).Nodup ∧
      m.Path (q ++ [p]) ∧ m.Joined p x ∧ m.Path (x :: zs) := by
  have whole : h :: (xs ++ ys) ++ [h] = q ++ p :: x :: zs := by
    calc h :: (xs ++ ys) ++ [h] = (h :: xs) ++ (ys ++ [h]) := by simp
      _ = q ++ p :: x :: zs := by rw [before, after]; simp
  rw [← path_append, ← whole]
  exact ⟨fun ring => ⟨ring.nodup, ring.path⟩, fun ring => ⟨ring.1, ring.2⟩⟩

/-- A ring around one of its nodes. -/
theorem ring_around (before : h :: xs = q ++ [p]) (after : ys ++ [h] = x :: zs) :
    m.Ring h (xs ++ n :: ys) ↔ (h :: (xs ++ n :: ys)).Nodup ∧
      m.Path (q ++ [p]) ∧ m.Joined p n ∧ m.Joined n x ∧ m.Path (x :: zs) := by
  have after_n : n :: ys ++ [h] = n :: x :: zs := by rw [List.cons_append, after]
  rw [ring_cut before after_n]
  have step : m.Path (n :: x :: zs) ↔ m.Joined n x ∧ m.Path (x :: zs) := List.isChain_cons_cons
  rw [step]

/-- What follows the node a ring hangs on, and what it follows. -/
theorem Ring.ends (ring : m.Ring h xs) :
    (xs ++ [h]).head? = some (m.next h) ∧ (h :: xs).getLast? = some (m.prev h) := by
  constructor
  · obtain ⟨p, q, x, zs, before, after⟩ := exists_cut h [] xs
    obtain ⟨-, -, joined, -⟩ := (ring_cut before after (m := m)).mp ring
    have last : p = h := by
      cases q with
      | nil => exact (List.cons.inj before).1.symm
      | cons y q => simp at before
    rw [after, List.head?_cons, ← joined.1, last]
  · obtain ⟨p, q, x, zs, before, after⟩ := exists_cut h xs []
    obtain ⟨-, -, joined, -⟩ := (ring_cut before after (m := m)).mp (by rwa [List.append_nil])
    rw [List.nil_append] at after
    obtain ⟨rfl, -⟩ := List.cons.inj after
    rw [before, List.getLast?_concat, joined.2]

/-- What follows a node of a ring, and what it follows. -/
theorem Ring.beside (ring : m.Ring h (xs ++ n :: ys)) :
    (ys ++ [h]).head? = some (m.next n) ∧ (h :: xs).getLast? = some (m.prev n) := by
  obtain ⟨p, q, x, zs, before, after⟩ := exists_cut h xs ys
  obtain ⟨-, -, back, on, -⟩ := (ring_around before after).mp ring
  rw [before, after, List.head?_cons, List.getLast?_concat, on.1, back.2]
  exact ⟨rfl, rfl⟩

/-- The nodes at a cut come only there. -/
theorem cut_apart (nodup : (h :: (xs ++ ys)).Nodup) (before : h :: xs = q ++ [p])
    (after : ys ++ [h] = x :: zs) : (p ∉ q ∧ p ∉ ys) ∧ x ∉ xs ∧ x ∉ zs := by
  constructor
  · have left : (q ++ [p] ++ ys).Nodup := by
      rw [← before]
      exact nodup
    rw [List.append_assoc, List.singleton_append, List.nodup_middle] at left
    rw [← not_or, ← List.mem_append]
    exact (List.nodup_cons.mp left).1
  · have right : (xs ++ x :: zs).Nodup := by
      rw [← after, ← List.append_assoc]
      exact (List.perm_append_singleton h (xs ++ ys)).nodup_iff.mpr nodup
    rw [List.nodup_middle] at right
    rw [← not_or, ← List.mem_append]
    exact (List.nodup_cons.mp right).1

variable [DecidableEq α]

/-- A join of nodes at the cut, or outside, leaves both sides. -/
theorem sides_join {a b : α} (paths : m.Path (q ++ [p]) ∧ m.Path (x :: zs))
    (before : h :: xs = q ++ [p]) (after : ys ++ [h] = x :: zs)
    (ha : a ∉ q ∧ a ∉ ys) (hb : b ∉ xs ∧ b ∉ zs) :
    (m.join a b).Path (q ++ [p]) ∧ (m.join a b).Path (x :: zs) := by
  constructor
  · apply paths.1.join
    · rw [List.dropLast_concat]
      exact ha.1
    · rw [← before, List.tail_cons]
      exact hb.1
  · apply paths.2.join
    · rw [← after, List.dropLast_concat]
      exact ha.2
    · exact hb.2

/-- **Insertion.** A node that is not in the ring is joined in at any place. -/
theorem Ring.insert (ring : m.Ring h (xs ++ ys)) (fresh : n ∉ h :: (xs ++ ys))
    (before : h :: xs = q ++ [p]) (after : ys ++ [h] = x :: zs) :
    ((m.join p n).join n x).Ring h (xs ++ n :: ys) := by
  obtain ⟨nodup, left, -, right⟩ := (ring_cut before after).mp ring
  obtain ⟨last, first⟩ := cut_apart nodup before after
  have outside : (n ∉ q ++ [p] ∧ n ∉ ys) ∧ n ∉ xs ∧ n ∉ x :: zs := by
    rw [← before, ← after]
    simp only [List.mem_cons, List.mem_append, not_or] at fresh ⊢
    simp [fresh]
  obtain ⟨⟨outq, outys⟩, outxs, outzs⟩ := outside
  have nq : n ∉ q := fun mem => outq (List.mem_append_left _ mem)
  have np : p ≠ n := by
    rintro rfl
    exact outq (List.mem_append_right _ List.mem_cons_self)
  have nx : n ≠ x ∧ n ∉ zs := by rwa [List.mem_cons, not_or] at outzs
  have sides := sides_join ⟨left, right⟩ before after last ⟨outxs, nx.2⟩
  have sides := sides_join sides before after ⟨nq, outys⟩ first
  rw [ring_around before after]
  refine ⟨?_, sides.1, ?_, joined_join _ n x, sides.2⟩
  · rw [← List.cons_append, List.nodup_middle, List.cons_append]
    exact List.nodup_cons.mpr ⟨fresh, nodup⟩
  · exact (joined_join m p n).join np nx.1

/-- **Removal.** A node is taken out of the ring. -/
theorem Ring.remove (ring : m.Ring h (xs ++ n :: ys)) :
    (m.join (m.prev n) (m.next n)).Ring h (xs ++ ys) := by
  obtain ⟨p, q, x, zs, before, after⟩ := exists_cut h xs ys
  obtain ⟨nodup, left, back, on, right⟩ := (ring_around before after).mp ring
  rw [back.2, on.1]
  have rest : (h :: (xs ++ ys)).Nodup := by
    rw [← List.cons_append, List.nodup_middle, List.cons_append] at nodup
    exact (List.nodup_cons.mp nodup).2
  obtain ⟨last, first⟩ := cut_apart rest before after
  have sides := sides_join ⟨left, right⟩ before after last first
  rw [ring_cut before after]
  exact ⟨rest, sides.1, joined_join m p x, sides.2⟩

/-- The node that hangs on nothing is left as it is by its removal. -/
theorem join_of_alone (alone : m.Ring n []) : m.join (m.prev n) (m.next n) = m := by
  obtain ⟨next, prev⟩ := ring_nil.mp alone
  rw [next, prev]
  have nextSame : Function.update m.next n n = m.next := by
    conv_rhs => rw [← Function.update_eq_self n m.next, next]
  have prevSame : Function.update m.prev n n = m.prev := by
    conv_rhs => rw [← Function.update_eq_self n m.prev, prev]
  unfold join
  rw [nextSame, prevSame]

end Ring

/-! ### Several rings -/

/-- The rings of a memory, by the node each hangs on. No two share a node. -/
structure Rings (m : Links α) (S : α → Option (List α)) : Prop where
  ring : ∀ {h xs}, S h = some xs → m.Ring h xs
  apart : ∀ {h h' xs xs'}, S h = some xs → S h' = some xs' → h ≠ h' →
    List.Disjoint (h :: xs) (h' :: xs')

/-- `n` is in no ring, unless the ring hangs on it. -/
def Outside (S : α → Option (List α)) (n : α) : Prop := ∀ h xs, S h = some xs → n ∉ xs

section Rings

variable {m m' : Links α} {S : α → Option (List α)} {h n p x : α} {q zs xs ys : List α}

/-- The links of nodes that are in no ring do not matter. -/
theorem Rings.congr (rings : m.Rings S)
    (next : ∀ h xs, S h = some xs → ∀ x ∈ h :: xs, m'.next x = m.next x)
    (prev : ∀ h xs, S h = some xs → ∀ x ∈ h :: xs, m'.prev x = m.prev x) : m'.Rings S where
  ring own := (rings.ring own).congr (next _ _ own) (prev _ _ own)
  apart := rings.apart

variable [DecidableEq α]

/-- A ring may be forgotten. -/
theorem Rings.forget (rings : m.Rings S) (h : α) : m.Rings (Function.update S h none) := by
  have kept {h' xs} (own : Function.update S h none h' = some xs) : S h' = some xs := by
    rcases eq_or_ne h' h with rfl | ne
    · rw [Function.update_self] at own
      cases own
    · rwa [Function.update_of_ne ne] at own
  exact ⟨fun own => rings.ring (kept own), fun own own' => rings.apart (kept own) (kept own')⟩

/-- One ring is replaced by one whose nodes are not in the others. -/
theorem Rings.replace (rings : m.Rings S) (whole : m'.Ring h xs)
    (next : ∀ h' xs', h' ≠ h → S h' = some xs' → ∀ x ∈ h' :: xs', m'.next x = m.next x)
    (prev : ∀ h' xs', h' ≠ h → S h' = some xs' → ∀ x ∈ h' :: xs', m'.prev x = m.prev x)
    (apart : ∀ h' xs', h' ≠ h → S h' = some xs' → List.Disjoint (h :: xs) (h' :: xs')) :
    m'.Rings (Function.update S h (some xs)) := by
  have other {h' xs'} (ne : h' ≠ h) (own : Function.update S h (some xs) h' = some xs') :
      S h' = some xs' := by
    rwa [Function.update_of_ne ne] at own
  have self {xs'} (own : Function.update S h (some xs) h = some xs') : xs = xs' := by
    rw [Function.update_self] at own
    exact Option.some.inj own
  constructor
  · intro h' xs' own
    rcases eq_or_ne h' h with rfl | ne
    · rw [← self own]
      exact whole
    · exact (rings.ring (other ne own)).congr (next _ _ ne (other ne own))
        (prev _ _ ne (other ne own))
  · intro a b as bs owna ownb ne
    rcases eq_or_ne a h with rfl | nea
    · rw [← self owna]
      exact apart b bs ne.symm (other ne.symm ownb)
    · rcases eq_or_ne b h with rfl | neb
      · rw [← self ownb]
        exact List.disjoint_symm (apart a as nea (other nea owna))
      · exact rings.apart (other nea owna) (other neb ownb) ne

/-- **Start.** A node that is in no ring becomes an empty one. -/
theorem Rings.start (rings : m.Rings S) (outside : Outside S n) :
    (m.join n n).Rings (Function.update S n (some [])) := by
  have elsewhere (h' : α) (xs' : List α) (ne : h' ≠ n) (own : S h' = some xs') :
      n ∉ h' :: xs' := by
    rw [List.mem_cons, not_or]
    exact ⟨ne.symm, outside h' xs' own⟩
  apply rings.replace (ring_nil.mpr (joined_join m n n))
  · intro h' xs' ne own x mem
    exact join_next_of_ne (ne_of_mem_of_not_mem mem (elsewhere h' xs' ne own))
  · intro h' xs' ne own x mem
    exact join_prev_of_ne (ne_of_mem_of_not_mem mem (elsewhere h' xs' ne own))
  · intro h' xs' ne own
    rw [List.disjoint_cons_left]
    exact ⟨elsewhere h' xs' ne own, List.disjoint_nil_left _⟩

/-- **Insertion** into one of the rings. -/
theorem Rings.insert (rings : m.Rings S) (own : S h = some (xs ++ ys)) (outside : Outside S n)
    (ne : n ≠ h) (before : h :: xs = q ++ [p]) (after : ys ++ [h] = x :: zs) :
    ((m.join p n).join n x).Rings
      (Function.update (Function.update S n none) h (some (xs ++ n :: ys))) := by
  have fresh : n ∉ h :: (xs ++ ys) := by
    rw [List.mem_cons, not_or]
    exact ⟨ne, outside h _ own⟩
  have here : p ∈ h :: (xs ++ ys) ∧ x ∈ h :: (xs ++ ys) := by
    constructor
    · rw [← List.cons_append, before]
      simp
    · rw [← (List.perm_append_singleton h (xs ++ ys)).mem_iff, List.append_assoc, after]
      simp
  have elsewhere {h' : α} {xs' : List α} (other : h' ≠ h)
      (own' : Function.update S n none h' = some xs') :
      S h' = some xs' ∧ (∀ y ∈ h' :: xs', y ≠ n ∧ y ∉ h :: (xs ++ ys)) := by
    have not_new : h' ≠ n := by
      rintro rfl
      rw [Function.update_self] at own'
      cases own'
    rw [Function.update_of_ne not_new] at own'
    refine ⟨own', ?_⟩
    intro y mem
    constructor
    · rintro rfl
      rcases List.mem_cons.mp mem with rfl | inside
      · exact not_new rfl
      · exact outside h' xs' own' inside
    · exact rings.apart own' own other mem
  apply (rings.forget n).replace ((rings.ring own).insert fresh before after)
  · intro h' xs' other own' y mem
    obtain ⟨not_new, away⟩ := (elsewhere other own').2 y mem
    rw [join_next_of_ne not_new, join_next_of_ne (ne_of_mem_of_not_mem here.1 away).symm]
  · intro h' xs' other own' y mem
    obtain ⟨not_new, away⟩ := (elsewhere other own').2 y mem
    rw [join_prev_of_ne (ne_of_mem_of_not_mem here.2 away).symm, join_prev_of_ne not_new]
  · intro h' xs' other own' y mem mem'
    obtain ⟨not_new, away⟩ := (elsewhere other own').2 y mem'
    rw [← List.cons_append, List.perm_middle.mem_iff, List.mem_cons, List.cons_append] at mem
    exact mem.elim not_new away

/-- **Removal** from one of the rings. -/
theorem Rings.remove (rings : m.Rings S) (own : S h = some (xs ++ n :: ys)) :
    (m.join (m.prev n) (m.next n)).Rings (Function.update S h (some (xs ++ ys))) := by
  obtain ⟨p, q, x, zs, before, after⟩ := exists_cut h xs ys
  have ring := rings.ring own
  obtain ⟨-, -, back, on, -⟩ := (ring_around before after).mp ring
  have smaller : h :: (xs ++ ys) ⊆ h :: (xs ++ n :: ys) := by
    intro y mem
    simp only [List.mem_cons, List.mem_append] at mem ⊢
    tauto
  have here : p ∈ h :: (xs ++ ys) ∧ x ∈ h :: (xs ++ ys) := by
    constructor
    · rw [← List.cons_append, before]
      simp
    · rw [← (List.perm_append_singleton h (xs ++ ys)).mem_iff, List.append_assoc, after]
      simp
  have away {h' : α} {xs' : List α} (other : h' ≠ h) (own' : S h' = some xs') :
      ∀ y ∈ h' :: xs', y ∉ h :: (xs ++ ys) :=
    fun y mem mem' => rings.apart own' own other mem (smaller mem')
  apply rings.replace ring.remove
  · intro h' xs' other own' y mem
    rw [back.2]
    exact join_next_of_ne (ne_of_mem_of_not_mem here.1 (away other own' y mem)).symm
  · intro h' xs' other own' y mem
    rw [on.1]
    exact join_prev_of_ne (ne_of_mem_of_not_mem here.2 (away other own' y mem)).symm
  · intro h' xs' other own' y mem mem'
    exact away other own' y mem' mem

end Rings

end Links

end Lib
