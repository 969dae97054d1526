import Mathlib.Data.Set.Finite.Basic
import Unvmed.Lib.Proc
import Unvmed.Lib.Rings
import Unvmed.Lib.Run

/-!
The linked lists of `ccan/list`.

A list is a ring of nodes in memory, and a program has many. A node is a cell that may be freed;
reading or writing a freed cell is a fault. `lists_refine` follows any sequence of calls on any
number of lists, each meeting the header's preconditions: none faults, and the memory holds the
lists that the calls describe. `listForEachSafe_returns` is the rule for the loop that may delete
the entry it is at, `listCheckNode_exact` says what the debugging check accepts.
-/

namespace Unvmed.Ccan

open Lib

variable {α : Type}

/-- The list nodes in memory: their links, and which are allocated. -/
structure Heap (α : Type) where
  links : Links α
  live : α → Bool

section Code

variable [DecidableEq α]

def Heap.readNext (m : Heap α) (x : α) : Option α := if m.live x then some (m.links.next x) else none

def Heap.readPrev (m : Heap α) (x : α) : Option α := if m.live x then some (m.links.prev x) else none

def Heap.writeNext (m : Heap α) (x y : α) : Option (Heap α) :=
  if m.live x then some { m with links.next := Function.update m.links.next x y } else none

def Heap.writePrev (m : Heap α) (x y : α) : Option (Heap α) :=
  if m.live x then some { m with links.prev := Function.update m.links.prev x y } else none

/-- `list_head_init`. -/
def listHeadInit (m : Heap α) (h : α) : Option (Heap α) := do
  let m ← m.writePrev h h
  m.writeNext h h

/-- `list_node_init`. -/
def listNodeInit (m : Heap α) (n : α) : Option (Heap α) := do
  let m ← m.writePrev n n
  m.writeNext n n

/-- `list_add_after_`. -/
def listAddAfter (m : Heap α) (p n : α) : Option (Heap α) := do
  let m ← m.writeNext n (← m.readNext p)
  let m ← m.writePrev n p
  let m ← m.writePrev (← m.readNext p) n
  m.writeNext p n

/-- `list_add_`. -/
def listAdd (m : Heap α) (h n : α) : Option (Heap α) := listAddAfter m h n

/-- `list_add_before_`. -/
def listAddBefore (m : Heap α) (p n : α) : Option (Heap α) := do
  let m ← m.writeNext n p
  let m ← m.writePrev n (← m.readPrev p)
  let m ← m.writeNext (← m.readPrev p) n
  m.writePrev p n

/-- `list_add_tail_`. -/
def listAddTail (m : Heap α) (h n : α) : Option (Heap α) := listAddBefore m h n

/-- `list_empty_`. -/
def listEmpty (m : Heap α) (h : α) : Option Bool := do
  return (← m.readNext h) == h

/-- `list_del_`. -/
def listDel (m : Heap α) (n : α) : Option (Heap α) := do
  let m ← m.writePrev (← m.readNext n) (← m.readPrev n)
  m.writeNext (← m.readPrev n) (← m.readNext n)

/-- `list_top_`; `some none` is the null pointer. -/
def listTop (m : Heap α) (h : α) : Option (Option α) := do
  if ← listEmpty m h then return none
  return some (← m.readNext h)

/-- One turn of the loop in `list_check_node`; the result is whether it returns the node. -/
def checkTurn (m : Heap α) (node : α) : α × α → Call Unit (α × α ⊕ Bool)
  | (p, n) =>
    if n = node then
      match m.readPrev node with
      | none => ⟨[], .failed⟩
      | some back => ⟨[], .done (.inr (back == p))⟩
    else match m.readPrev n, m.readNext n with
      | some back, some after => ⟨[], .done (if back = p then .inl (n, after) else .inr false)⟩
      | _, _ => ⟨[], .failed⟩

/-- `list_check_node`. -/
def listCheckNode (m : Heap α) (node : α) : Proc Unit Bool :=
  match m.readNext node with
  | none => Proc.ofCall ⟨[], .failed⟩
  | some n => Proc.iterate (checkTurn m node) (node, n)

variable {σ β : Type}

/-- One turn of `list_for_each_safe_off_dir_`: `i`, and `nxt` after it. The body goes on, or leaves
the loop. -/
def forEachSafeTurn (h : α) (heap : σ → Heap α) (body : σ → α → Call Unit (σ ⊕ β)) (stop : σ → β) :
    σ × α × α → Call Unit (σ × α × α ⊕ β)
  | (s, i, nxt) =>
    if i = h then ⟨[], .done (.inr (stop s))⟩
    else (body s i).bind fun
      | .inr b => ⟨[], .done (.inr b)⟩
      | .inl s => match (heap s).readNext nxt with
        | none => ⟨[], .failed⟩
        | some n => ⟨[], .done (.inl (s, nxt, n))⟩

/-- `list_for_each_safe`. -/
def listForEachSafe (h : α) (heap : σ → Heap α) (body : σ → α → Call Unit (σ ⊕ β)) (stop : σ → β)
    (s : σ) : Proc Unit β :=
  match (do let i ← (heap s).readNext h; return (i, ← (heap s).readNext i)) with
  | none => Proc.ofCall ⟨[], .failed⟩
  | some (i, nxt) => Proc.iterate (forEachSafeTurn h heap body stop) (s, i, nxt)

end Code

/-! ### One call -/

section Calls

variable {m : Heap α} {h n p x y : α} {xs ys : List α}

@[simp] theorem readNext_live (live : m.live x) : m.readNext x = some (m.links.next x) := if_pos live

@[simp] theorem readPrev_live (live : m.live x) : m.readPrev x = some (m.links.prev x) := if_pos live

/-- The list of `h` is `xs`, and all its nodes are allocated. -/
structure Hangs (m : Heap α) (h : α) (xs : List α) : Prop where
  ring : m.links.Ring h xs
  live : ∀ x ∈ h :: xs, m.live x

theorem Hangs.live_next (hangs : Hangs m h xs) : m.live (m.links.next h) := by
  have first := List.mem_of_mem_head? hangs.ring.ends.1
  apply hangs.live
  rw [List.mem_append, List.mem_singleton] at first
  exact List.mem_cons.mpr first.symm

theorem Hangs.live_prev (hangs : Hangs m h xs) : m.live (m.links.prev h) :=
  hangs.live _ (List.mem_of_mem_getLast? hangs.ring.ends.2)

variable [DecidableEq α]

@[simp] theorem writeNext_live (live : m.live x) :
    m.writeNext x y = some { m with links.next := Function.update m.links.next x y } := if_pos live

@[simp] theorem writePrev_live (live : m.live x) :
    m.writePrev x y = some { m with links.prev := Function.update m.links.prev x y } := if_pos live

theorem listHeadInit_eq (live : m.live h) :
    listHeadInit m h = some { m with links := m.links.join h h } := by
  simp [listHeadInit, live, Links.join]

theorem listNodeInit_eq (live : m.live n) :
    listNodeInit m n = some { m with links := m.links.join n n } := by
  simp [listNodeInit, live, Links.join]

theorem listAddBefore_eq (hn : m.live n) (hp : m.live p) (before : m.live (m.links.prev p))
    (ne : p ≠ n) (other : m.links.prev p ≠ n) : listAddBefore m p n =
      some { m with links := (m.links.join (m.links.prev p) n).join n p } := by
  simp [listAddBefore, Links.join, hn, hp, before, ne, Function.update_comm other]

theorem listAddAfter_eq (hn : m.live n) (hp : m.live p) (after : m.live (m.links.next p))
    (ne : p ≠ n) : listAddAfter m p n =
      some { m with links := (m.links.join p n).join n (m.links.next p) } := by
  simp [listAddAfter, Links.join, hn, hp, after, ne, Function.update_comm ne]

theorem listDel_eq (hn : m.live n) (after : m.live (m.links.next n))
    (before : m.live (m.links.prev n)) :
    listDel m n = some { m with links := m.links.join (m.links.prev n) (m.links.next n) } := by
  -- where the node hangs on nothing, the first write leaves what the second one reads
  have reread : Function.update m.links.prev (m.links.next n) (m.links.prev n) n = m.links.prev n := by
    rw [Function.update_apply]
    split <;> rfl
  simp [listDel, Links.join, hn, after, before, reread]

/-- The loop's body sees the entries in order, if it keeps the list of those to come. -/
theorem listForEachSafe_returns {σ β : Type} (heap : σ → Heap α)
    (body : σ → α → Call Unit (σ ⊕ β)) (stop : σ → β) (I : σ → List α → Prop) (Q : β → Prop)
    (hangs : ∀ s rest, I s rest → ∃ pre, Hangs (heap s) h (pre ++ rest))
    (turn : ∀ s x rest, I s (x :: rest) →
      (∃ s', (body s x).out = .done (.inl s') ∧ I s' rest) ∨
        ∃ b, (body s x).out = .done (.inr b) ∧ Q b)
    (finish : ∀ s, I s [] → Q (stop s)) {s : σ} (start : Hangs (heap s) h xs) (hI : I s xs) :
    ∃ b, (listForEachSafe h heap body stop s).Returns b ∧ Q b := by
  have loop (rest : List α) : ∀ s i, I s rest → (rest ++ [h]).head? = some i →
      ∃ b, (Proc.iterate (forEachSafeTurn h heap body stop)
        (s, i, (heap s).links.next i)).Returns b ∧ Q b := by
    induction rest with
    | nil =>
        intro s i hI first
        cases Option.some.inj first
        refine ⟨stop s, Proc.returns_iterate.mpr ⟨_, .refl, ?_⟩, finish s hI⟩
        simp [forEachSafeTurn]
    | cons x rest ih =>
        intro s i hI first
        cases Option.some.inj first
        obtain ⟨pre, here⟩ := hangs s _ hI
        have not_head : x ≠ h := by
          rintro rfl
          have nodup := here.ring.nodup
          simp at nodup
        rcases turn s x rest hI with ⟨s', went, hI'⟩ | ⟨b, left, hQ⟩
        · have nxt := here.ring.beside.1
          obtain ⟨pre', there⟩ := hangs s' _ hI'
          have live : (heap s').live ((heap s).links.next x) := by
            apply there.live
            have mem := List.mem_of_mem_head? nxt
            simp only [List.mem_append, List.mem_cons, List.not_mem_nil] at mem ⊢
            tauto
          obtain ⟨b, returns, hQ⟩ := ih s' _ hI' nxt
          refine ⟨b, ?_, hQ⟩
          rw [Proc.returns_iterate_of_turn (t := (s', _, _))]
          · exact returns
          · simp [Proc.Turn, forEachSafeTurn, not_head, Call.bind, went, live]
        · refine ⟨b, Proc.returns_iterate.mpr ⟨_, .refl, ?_⟩, hQ⟩
          simp [forEachSafeTurn, not_head, Call.bind, left]
  have first := start.ring.ends.1
  obtain ⟨b, returns, hQ⟩ := loop xs s _ hI first
  refine ⟨b, ?_, hQ⟩
  have head : (heap s).readNext h = some ((heap s).links.next h) :=
    readNext_live (start.live h List.mem_cons_self)
  unfold listForEachSafe
  simpa [head, readNext_live start.live_next] using returns

end Calls

/-! ### The check of one list -/

section Check

variable [DecidableEq α] {m : Heap α} {node : α} {xs : List α}

/-- The walk goes on along a ring, and comes around. -/
theorem Hangs.check (hangs : Hangs m node xs) : (listCheckNode m node).Returns true := by
  have loop (rest : List α) : ∀ pre p n, Hangs m node (pre ++ rest) →
      (node :: pre).getLast? = some p → (rest ++ [node]).head? = some n →
      (Proc.iterate (checkTurn m node) (p, n)).Returns true := by
    induction rest with
    | nil =>
        intro pre p n hangs last first
        rw [List.append_nil] at hangs
        cases Option.some.inj first
        have back : m.links.prev node = p := Option.some.inj (hangs.ring.ends.2.symm.trans last)
        refine Proc.returns_iterate.mpr ⟨_, .refl, ?_⟩
        simp [checkTurn, hangs.live node List.mem_cons_self, back]
    | cons x rest ih =>
        intro pre p n hangs last first
        cases Option.some.inj first
        have ne : x ≠ node := by
          rintro rfl
          have nodup := hangs.ring.nodup
          simp at nodup
        obtain ⟨next, prev⟩ := hangs.ring.beside
        have back : m.links.prev x = p := Option.some.inj (prev.symm.trans last)
        have live : m.live x := hangs.live x (by simp)
        rw [Proc.returns_iterate_of_turn (t := (x, m.links.next x))]
        · refine ih (pre ++ [x]) x _ (by simpa using hangs) ?_ next
          rw [← List.cons_append, List.getLast?_concat]
        · simp [Proc.Turn, checkTurn, ne, live, back]
  have head := readNext_live (hangs.live node List.mem_cons_self)
  simpa [listCheckNode, head] using
    loop xs [] node _ hangs rfl hangs.ring.ends.1

/-- What the walk has come through is a path, so that it ends on finitely many nodes; where it
comes around, that is a ring. -/
theorem check_returns (finite : {x | m.live x}.Finite)
    (closed : ∀ x, m.live x → m.live (m.links.next x)) (live : m.live node) :
    ∃ b, (listCheckNode m node).Returns b ∧ (b = true → ∃ xs, m.links.Ring node xs) := by
  have loop (k : ℕ) : ∀ pre p, finite.toFinset.card ≤ pre.length + k →
      m.links.Path (node :: pre) → node ∉ pre → (∀ x ∈ node :: pre, m.live x) →
      (node :: pre).getLast? = some p →
      ∃ b, (Proc.iterate (checkTurn m node) (p, m.links.next p)).Returns b ∧
        (b = true → ∃ xs, m.links.Ring node xs) := by
    induction k with
    | zero =>
        intro pre p room path away live last
        have nodup := path.nodup away
        have inside : (node :: pre).toFinset ⊆ finite.toFinset := by
          intro x mem
          exact finite.mem_toFinset.mpr (live x (List.mem_toFinset.mp mem))
        have few := Finset.card_le_card inside
        rw [List.toFinset_card_of_nodup nodup, List.length_cons] at few
        omega
    | succ k ih =>
        intro pre p room path away live last
        have live_p := live p (List.mem_of_mem_getLast? last)
        have live_n := closed p live_p
        obtain ⟨q, split⟩ := List.getLast?_eq_some_iff.mp last
        rcases eq_or_ne (m.links.next p) node with around | on
        · refine ⟨m.links.prev node == p, Proc.returns_iterate.mpr ⟨_, .refl, ?_⟩, ?_⟩
          · simp [checkTurn, around, live node List.mem_cons_self]
          · intro same
            refine ⟨pre, path.nodup away, ?_⟩
            rw [split] at path ⊢
            rw [List.append_assoc]
            exact Links.path_append.mpr ⟨path, ⟨around, beq_iff_eq.mp same⟩, .singleton _⟩
        · by_cases back : m.links.prev (m.links.next p) = p
          · have longer : m.links.Path (node :: (pre ++ [m.links.next p])) := by
              rw [← List.cons_append]
              rw [split] at path ⊢
              rw [List.append_assoc]
              exact Links.path_append.mpr ⟨path, ⟨rfl, back⟩, .singleton _⟩
            obtain ⟨b, returns, ring⟩ := ih (pre ++ [m.links.next p]) (m.links.next p)
              (by simp; omega) longer (by simp [away, on.symm])
              (by rw [← List.cons_append]; simpa [or_imp, forall_and, live_n] using live)
              (by rw [← List.cons_append, List.getLast?_concat])
            refine ⟨b, ?_, ring⟩
            rw [Proc.returns_iterate_of_turn (t := (m.links.next p, _))]
            · exact returns
            · simp [Proc.Turn, checkTurn, on, live_n, back]
          · refine ⟨false, Proc.returns_iterate.mpr ⟨_, .refl, ?_⟩, Bool.false_ne_true.elim⟩
            simp [checkTurn, on, live_n, back]
  have start := loop finite.toFinset.card [] node (by simp) (.singleton node) List.not_mem_nil
    (by simpa using live) rfl
  simpa [listCheckNode, live] using start

/-- **The check.** Whatever the links are, the check comes to an end, and it accepts a node exactly
if a list hangs on it. -/
theorem listCheckNode_exact (m : Heap α) (node : α) (finite : {x | m.live x}.Finite)
    (closed : ∀ x, m.live x → m.live (m.links.next x)) (live : m.live node) :
    ∃ b, (listCheckNode m node).Returns b ∧ (b = true ↔ ∃ xs, m.links.Ring node xs) := by
  obtain ⟨b, returns, sound⟩ := check_returns finite closed live
  refine ⟨b, returns, sound, ?_⟩
  rintro ⟨xs, ring⟩
  have walked (ys : List α) : ∀ x, m.live x → m.links.Path (x :: ys) → ∀ y ∈ x :: ys, m.live y := by
    induction ys with
    | nil =>
        intro x live _ y mem
        rwa [List.mem_singleton.mp mem]
    | cons z ys ih =>
        intro x live path y mem
        obtain ⟨joined, path⟩ := List.isChain_cons_cons.mp path
        rcases List.mem_cons.mp mem with rfl | mem
        · exact live
        · exact ih z (joined.1 ▸ closed x live) path y mem
  have hangs : Hangs m node xs :=
    ⟨ring, fun x mem => walked _ node live ring.path x (List.mem_append_left _ mem)⟩
  exact returns.unique hangs.check

/-- A walk that finds a link that does not lead back. -/
theorem listCheckNode_exact_corrupt : ∃ b,
    (listCheckNode (⟨⟨(1 - ·), id⟩, fun _ => true⟩ : Heap (Fin 2)) 0).Returns b ∧
      (b = true ↔ ∃ xs, (⟨(1 - ·), id⟩ : Links (Fin 2)).Ring 0 xs) :=
  listCheckNode_exact _ _ (Set.toFinite _) (fun _ _ => rfl) rfl

end Check

/-! ### Calls in any order -/

/-- What a program may do to its list nodes. -/
inductive Op (α : Type) where
  /-- The links of the new node are what the memory held before. -/
  | malloc (x next prev : α)
  | free (x : α)
  | headInit (h : α)
  | nodeInit (n : α)
  | add (h n : α)
  | addTail (h n : α)
  | del (n : α)
  deriving DecidableEq, Repr

/-- The lists of a program: the allocated nodes, and the entries of each head. A node that
`list_node_init` linked to itself is a head without entries. -/
structure Lists (α : Type) where
  live : α → Bool
  list : α → Option (List α)

section Runs

variable [DecidableEq α]

def Heap.step (m : Heap α) : Op α → Option (Heap α)
  | .malloc x next prev =>
      if m.live x then none
      else some {
        live := Function.update m.live x true
        links.next := Function.update m.links.next x next
        links.prev := Function.update m.links.prev x prev }
  | .free x => if m.live x then some { m with live := Function.update m.live x false } else none
  | .headInit h => listHeadInit m h
  | .nodeInit n => listNodeInit m n
  | .add h n => listAdd m h n
  | .addTail h n => listAddTail m h n
  | .del n => listDel m n

/-- Put `n` into the list of `h`, and let it be no head. -/
def Lists.put (S : Lists α) (h n : α) (place : List α → List α) : Lists α :=
  { S with list := Function.update (Function.update S.list n none) h ((S.list h).map place) }

/-- What a call is for. -/
def Lists.step (S : Lists α) : Op α → Lists α
  | .malloc x _ _ => { S with live := Function.update S.live x true }
  | .free x =>
      { live := Function.update S.live x false, list := Function.update S.list x none }
  | .headInit h => { S with list := Function.update S.list h (some []) }
  | .nodeInit n => { S with list := Function.update S.list n (some []) }
  | .add h n => S.put h n (n :: ·)
  | .addTail h n => S.put h n (· ++ [n])
  | .del n => { S with list := fun h => (S.list h).map (·.erase n) }

/-- `n` can be added to the list of `h`: it is allocated, and in no list. -/
@[mk_iff]
structure Lists.Addable (S : Lists α) (h n : α) : Prop where
  head : (S.list h).isSome
  live : S.live n
  outside : Links.Outside S.list n
  other : n ≠ h

/-- The preconditions of a call. A head may be freed before its entries, which are in no list
then. -/
def Lists.Allowed (S : Lists α) : Op α → Prop
  | .malloc x _ _ => S.live x = false
  | .free x => S.live x ∧ Links.Outside S.list x
  | .headInit n | .nodeInit n => S.live n ∧ Links.Outside S.list n
  | .add h n | .addTail h n => S.Addable h n
  | .del n => (∃ h xs, S.list h = some xs ∧ n ∈ xs) ∨ S.list n = some []

/-- The memory holds the lists. -/
structure Holds (m : Heap α) (S : Lists α) : Prop where
  rings : m.links.Rings S.list
  same : m.live = S.live
  live : ∀ h xs, S.list h = some xs → ∀ x ∈ h :: xs, S.live x

variable {m : Heap α} {S : Lists α} {h n x : α} {xs : List α}

omit [DecidableEq α] in
theorem Holds.hangs (holds : Holds m S) (own : S.list h = some xs) : Hangs m h xs := by
  refine ⟨holds.rings.ring own, ?_⟩
  rw [holds.same]
  exact holds.live h xs own

theorem Holds.malloc (holds : Holds m S) (dead : S.live x = false) (a b : α) :
    ∃ m', m.step (.malloc x a b) = some m' ∧ Holds m' (S.step (.malloc x a b)) := by
  have elsewhere (h : α) (xs : List α) (own : S.list h = some xs) : ∀ y ∈ h :: xs, y ≠ x := by
    rintro y mem rfl
    have live := holds.live h xs own y mem
    rw [dead] at live
    cases live
  have fresh : ¬ m.live x := by simp [holds.same, dead]
  refine ⟨_, if_neg fresh, ?_, ?_, ?_⟩
  · apply holds.rings.congr
    · intro h xs own y mem
      exact Function.update_of_ne (elsewhere h xs own y mem) ..
    · intro h xs own y mem
      exact Function.update_of_ne (elsewhere h xs own y mem) ..
  · simp [Lists.step, holds.same]
  · intro h xs own y mem
    simp only [Lists.step, Function.update_of_ne (elsewhere h xs own y mem)]
    exact holds.live h xs own y mem

theorem Holds.free (holds : Holds m S) (allowed : S.Allowed (.free x)) :
    ∃ m', m.step (.free x) = some m' ∧ Holds m' (S.step (.free x)) := by
  obtain ⟨live, outside⟩ := allowed
  have here : m.live x := by rw [holds.same, live]
  refine ⟨_, if_pos here, holds.rings.forget x, ?_, ?_⟩
  · simp [Lists.step, holds.same]
  · intro h xs own y mem
    simp only [Lists.step] at own ⊢
    have other : h ≠ x := by
      rintro rfl
      rw [Function.update_self] at own
      cases own
    rw [Function.update_of_ne other] at own
    have ne : y ≠ x := by
      rintro rfl
      rcases List.mem_cons.mp mem with rfl | inside
      · exact other rfl
      · exact outside h xs own inside
    rw [Function.update_of_ne ne]
    exact holds.live h xs own y mem

/-- `list_head_init` and `list_node_init` are one function. -/
theorem Holds.init (holds : Holds m S) (allowed : S.Allowed (.headInit h)) :
    ∃ m', m.step (.headInit h) = some m' ∧ m.step (.nodeInit h) = some m' ∧
      Holds m' (S.step (.headInit h)) := by
  obtain ⟨live, outside⟩ := allowed
  have here : m.live h := by rw [holds.same, live]
  refine ⟨_, listHeadInit_eq here, listNodeInit_eq here, holds.rings.start outside, holds.same, ?_⟩
  intro h' xs own y mem
  rcases eq_or_ne h' h with rfl | ne
  · simp only [Lists.step, Function.update_self] at own
    cases own
    cases List.mem_singleton.mp mem
    exact live
  · simp only [Lists.step, Function.update_of_ne ne] at own
    exact holds.live h' xs own y mem

/-- The nodes of the lists after one was put in. -/
theorem Holds.live_put (holds : Holds m S) (own : S.list h = some xs)
    (live : S.live n) {place : List α → List α} (same : ∀ y, y ∈ place xs ↔ y = n ∨ y ∈ xs) :
    ∀ h' xs', (S.put h n place).list h' = some xs' → ∀ y ∈ h' :: xs', S.live y := by
  intro h' xs' own' y mem
  simp only [Lists.put, own, Option.map_some] at own'
  rcases eq_or_ne h' h with rfl | ne
  · rw [Function.update_self] at own'
    cases own'
    rw [List.mem_cons, same] at mem
    rcases mem with rfl | rfl | mem
    · exact holds.live y xs own y List.mem_cons_self
    · exact live
    · exact holds.live h' xs own y (List.mem_cons_of_mem _ mem)
  · rw [Function.update_of_ne ne] at own'
    rcases eq_or_ne h' n with rfl | ne'
    · rw [Function.update_self] at own'
      cases own'
    · rw [Function.update_of_ne ne'] at own'
      exact holds.live h' xs' own' y mem

theorem Holds.add (holds : Holds m S) (allowed : S.Addable h n) :
    ∃ m', m.step (.add h n) = some m' ∧ Holds m' (S.step (.add h n)) := by
  obtain ⟨xs, own⟩ := Option.isSome_iff_exists.mp allowed.head
  have hangs := holds.hangs own
  have here : m.live n := by rw [holds.same, allowed.live]
  have next_ne : m.links.next h ≠ n := by
    have first := List.mem_of_mem_head? hangs.ring.ends.1
    rintro same
    rw [same, List.mem_append, List.mem_singleton] at first
    exact first.elim (allowed.outside h xs own) allowed.other
  have put : (S.put h n (n :: ·)).list =
      Function.update (Function.update S.list n none) h (some ([] ++ n :: xs)) := by
    simp [Lists.put, own]
  refine ⟨_, listAddAfter_eq here (hangs.live h List.mem_cons_self) hangs.live_next
    allowed.other.symm, ?_, holds.same, ?_⟩
  · have first := hangs.ring.ends.1
    obtain ⟨zs, after⟩ := List.head?_eq_some_iff.mp first
    simp only [Lists.step, put]
    exact holds.rings.insert own allowed.outside allowed.other (q := []) rfl after
  · exact holds.live_put own allowed.live (by simp)

theorem Holds.addTail (holds : Holds m S) (allowed : S.Addable h n) :
    ∃ m', m.step (.addTail h n) = some m' ∧ Holds m' (S.step (.addTail h n)) := by
  obtain ⟨xs, own⟩ := Option.isSome_iff_exists.mp allowed.head
  have hangs := holds.hangs own
  have here : m.live n := by rw [holds.same, allowed.live]
  have last := hangs.ring.ends.2
  have prev_ne : m.links.prev h ≠ n := by
    have mem := List.mem_of_mem_getLast? last
    rintro same
    rw [same, List.mem_cons] at mem
    exact mem.elim allowed.other (allowed.outside h xs own)
  have put : (S.put h n (· ++ [n])).list =
      Function.update (Function.update S.list n none) h (some (xs ++ n :: [])) := by
    simp [Lists.put, own]
  refine ⟨_, listAddBefore_eq here (hangs.live h List.mem_cons_self) hangs.live_prev
    allowed.other.symm prev_ne, ?_, holds.same, ?_⟩
  · obtain ⟨q, before⟩ := List.getLast?_eq_some_iff.mp last
    simp only [Lists.step, put]
    rw [← List.append_nil xs] at own
    exact holds.rings.insert own allowed.outside allowed.other before rfl
  · exact holds.live_put own allowed.live (by simp [or_comm])

/-- A list that has the node loses it, and no other list changes. -/
theorem Holds.erase (holds : Holds m S) {ys : List α} (own : S.list h = some (xs ++ n :: ys)) :
    (S.step (.del n)).list = Function.update S.list h (some (xs ++ ys)) := by
  funext h'
  rcases eq_or_ne h' h with rfl | ne
  · have nodup := (holds.rings.ring own).nodup
    have not_before : n ∉ xs := by
      intro mem
      simp only [List.nodup_cons, List.nodup_append] at nodup
      exact nodup.2.2.2 n mem n List.mem_cons_self rfl
    simp [Lists.step, own, List.erase_append_right _ not_before]
  · rw [Function.update_of_ne ne]
    cases own' : S.list h' with
    | none => simp [Lists.step, own']
    | some xs' =>
        have away : n ∉ xs' := fun mem =>
          holds.rings.apart own own' ne.symm (by simp) (List.mem_cons_of_mem _ mem)
        simp [Lists.step, own', List.erase_of_not_mem away]

/-- A node that hangs on nothing is in no list. -/
theorem Holds.erase_alone (holds : Holds m S) (alone : S.list n = some []) :
    (fun h => (S.list h).map (·.erase n)) = S.list := by
  funext h
  rcases eq_or_ne h n with rfl | ne
  · simp [alone]
  · cases own : S.list h with
    | none => rfl
    | some xs =>
        have away : n ∉ xs := fun mem =>
          holds.rings.apart own alone ne (List.mem_cons_of_mem _ mem) List.mem_cons_self
        rw [Option.map_some, List.erase_of_not_mem away]

theorem Holds.del (holds : Holds m S) (allowed : S.Allowed (.del n)) :
    ∃ m', m.step (.del n) = some m' ∧ Holds m' (S.step (.del n)) := by
  rcases allowed with ⟨h, all, own, mem⟩ | alone
  · obtain ⟨xs, ys, rfl⟩ := List.append_of_mem mem
    have hangs := holds.hangs own
    have live := hangs.live
    have next := List.mem_of_mem_head? hangs.ring.beside.1
    have prev := List.mem_of_mem_getLast? hangs.ring.beside.2
    have erased := holds.erase own
    refine ⟨_, listDel_eq (live n (by simp)) (live _ ?_) (live _ ?_), ?_, holds.same, ?_⟩
    · simp only [List.mem_append, List.mem_cons, List.not_mem_nil] at next ⊢
      tauto
    · simp only [List.mem_append, List.mem_cons] at prev ⊢
      tauto
    · rw [erased]
      exact holds.rings.remove own
    · intro h' xs' own' y mem
      rw [erased] at own'
      rcases eq_or_ne h' h with rfl | ne
      · rw [Function.update_self] at own'
        cases own'
        apply holds.live h' _ own
        simp only [List.mem_cons, List.mem_append] at mem ⊢
        tauto
      · rw [Function.update_of_ne ne] at own'
        exact holds.live h' xs' own' y mem
  · have hangs := holds.hangs alone
    have lists : S.step (.del n) = S := by
      simp only [Lists.step, holds.erase_alone alone]
    refine ⟨m, ?_, by rw [lists]; exact holds⟩
    have deleted := listDel_eq (hangs.live n List.mem_cons_self) hangs.live_next hangs.live_prev
    rw [Links.join_of_alone hangs.ring] at deleted
    exact deleted

/-- One call keeps the lists. -/
theorem Holds.step (holds : Holds m S) (op : Op α) (allowed : S.Allowed op) :
    ∃ m', m.step op = some m' ∧ Holds m' (S.step op) := by
  cases op with
  | malloc x a b => exact holds.malloc allowed a b
  | free x => exact holds.free allowed
  | headInit h =>
      obtain ⟨m', done, -, holds'⟩ := holds.init allowed
      exact ⟨m', done, holds'⟩
  | nodeInit n =>
      obtain ⟨m', -, done, holds'⟩ := holds.init allowed
      exact ⟨m', done, holds'⟩
  | add h n => exact holds.add allowed
  | addTail h n => exact holds.addTail allowed
  | del n => exact holds.del allowed

/-- What a reader of a list sees. -/
structure Reads (m : Heap α) (h : α) (xs : List α) : Prop where
  empty : listEmpty m h = some xs.isEmpty
  top : listTop m h = some xs.head?
  /-- A loop that notes its entries. -/
  entries : (listForEachSafe h (fun _ => m) (fun seen x => ⟨[], .done (.inl (seen ++ [x]))⟩)
    id []).Returns xs

theorem Hangs.reads (hangs : Hangs m h xs) : Reads m h xs := by
  have first := hangs.ring.ends.1
  have head : m.readNext h = some (m.links.next h) := readNext_live (hangs.live h List.mem_cons_self)
  have empty : listEmpty m h = some xs.isEmpty := by
    cases xs with
    | nil =>
        have back : m.links.next h = h := (Option.some.inj first).symm
        simp [listEmpty, head, back]
    | cons x xs =>
        have next : m.links.next h = x := (Option.some.inj first).symm
        have ne : x ≠ h := by
          rintro rfl
          have nodup := hangs.ring.nodup
          simp at nodup
        simp [listEmpty, head, next, ne]
  refine ⟨empty, ?_, ?_⟩
  · unfold listTop
    rw [empty]
    cases xs with
    | nil => rfl
    | cons x xs =>
        have next : m.links.next h = x := (Option.some.inj first).symm
        simp [head, next]
  · obtain ⟨seen, returns, all⟩ := listForEachSafe_returns (fun _ => m)
      (fun seen x => ⟨[], .done (.inl (seen ++ [x]))⟩) id
      (fun seen rest => xs = seen ++ rest) (fun seen => xs = seen)
      (fun seen rest all => ⟨seen, all ▸ hangs⟩)
      (fun seen x rest all => .inl ⟨_, rfl, by rw [all]; simp⟩)
      (fun seen all => by rw [all]; simp) hangs (s := []) rfl
    exact all ▸ returns

/-- **The lists.** Whatever calls a program makes, in any order and on any number of lists, if each
meets its precondition none touches freed memory, and every list has the entries that the calls
gave it, in their order. -/
theorem lists_refine (m : Heap α) (S T : Lists α) (ops : List (Op α)) (holds : Holds m S)
    (allowed : Guarded (fun S op => some (Lists.step S op)) Lists.Allowed S ops)
    (ends : run (fun S op => some (Lists.step S op)) S ops = some T) :
    ∃ m', run Heap.step m ops = some m' ∧ Holds m' T ∧
      ∀ h xs, T.list h = some xs → Reads m' h xs := by
  have one (m : Heap α) (S : Lists α) (op : Op α) (S' : Lists α) (holds : Holds m S)
      (allowed : S.Allowed op) (next : some (S.step op) = some S') :
      ∃ m', m.step op = some m' ∧ Holds m' S' := by
    cases next
    exact holds.step op allowed
  obtain ⟨m', done, holds'⟩ := run_sim one holds allowed ends
  exact ⟨m', done, holds', fun h xs own => (holds'.hangs own).reads⟩

/-- A list is built from two new nodes, and one of them is deleted, linked to itself and freed. -/
theorem lists_refine_built : ∃ m' : Heap ℕ,
    run Heap.step ⟨⟨id, id⟩, (· == 0)⟩ [.headInit 0, .malloc 1 7 9, .malloc 2 1 0, .addTail 0 1,
      .add 0 2, .del 1, .nodeInit 1, .free 1] = some m' ∧ Reads m' 0 [2] := by
  have none_yet : Holds ⟨⟨id, id⟩, (· == 0)⟩ (⟨(· == 0), fun _ => none⟩ : Lists ℕ) :=
    ⟨⟨nofun, nofun⟩, rfl, nofun⟩
  obtain ⟨m', done, -, reads⟩ := lists_refine _ _ _ [.headInit 0, .malloc 1 7 9, .malloc 2 1 0,
    .addTail 0 1, .add 0 2, .del 1, .nodeInit 1, .free 1] none_yet (by
      simp +decide [Guarded, Lists.Allowed, Lists.addable_iff, Links.Outside, Lists.step, Lists.put,
        Function.update_apply, ite_eq_iff]
      exact ⟨by grind, ⟨0, [2, 1], by simp⟩, by grind⟩) rfl
  exact ⟨m', done, reads 0 [2] rfl⟩

end Runs

end Unvmed.Ccan
