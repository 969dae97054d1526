import Unvmed.Ctrl.Bdf

/-!
Device names of fio (`libunvmed_to_bdf` in `src/app/fio/libunvmed-engine.c`).

For fio, `README.md` replaces the colons of a device name by dots (`dotted`). `libunvmed_to_bdf`
turns every dot but the last one into a colon again and calls `unvmed_parse_bdf`, whose result it
does not check.

* `toBdf_dotted`: the last separator of the name becomes a dot.
* `toBdf_dotted_iff`: the name stays that of the device if and only if it is spelled with its
  function, or every number is zero.
* `dotted_device_is_another`: `1:0` becomes device 1 on bus 0.
-/

namespace Unvmed.Names

open Lib Bdf

/-- `sed 's/:/./g'` -/
def dotted (s : List Char) : List Char := s.map fun c => if c = ':' then '.' else c

/-- The loop of `libunvmed_to_bdf`. -/
def toColons (nrDots : Nat) : List Char → List Char
  | [] => []
  | c :: str =>
      if nrDots > 1 then
        if c = '.' then ':' :: toColons (nrDots - 1) str else c :: toColons nrDots str
      else c :: str

/-- `libunvmed_to_bdf` -/
def toBdf (fileName : List Char) : Except Fail (List Char) :=
  parseBdf (toColons (fileName.count '.') fileName)

/-! ### Which names stay -/

/-- What follows the last colon. -/
def lastPart (s : List Char) : List Char := (s.reverse.takeWhile (· ≠ ':')).reverse

/-- The function is written, or all numbers are zero, the last one in base 10 too. -/
def KeepsName (s : List Char) : Prop :=
  '.' ∈ s ∨ Spells s ⟨0, 0, 0, 0⟩ ∧
    ∃ t rest z, lastPart s = t ++ rest ∧ Numeral 10 t z rest ∧ Conv.d.store z = 0

/-! ### Separators -/

section Separators

variable {p q : List Char}

theorem replace_absent {a b : Char} {s : List Char} (absent : a ∉ s) :
    s.map (fun c => if c = a then b else c) = s := by
  induction s with
  | nil => rfl
  | cons c s ih =>
      rw [List.mem_cons, not_or] at absent
      rw [List.map_cons, if_neg (fun h => absent.1 h.symm), ih absent.2]

theorem replace_back {a b : Char} {s : List Char} (absent : b ∉ s) :
    (s.map (fun c => if c = a then b else c)).map (fun c => if c = b then a else c) = s := by
  induction s with
  | nil => rfl
  | cons c s ih =>
      rw [List.mem_cons, not_or] at absent
      rw [List.map_cons, List.map_cons, ih absent.2]
      by_cases here : c = a
      · rw [if_pos here, if_pos rfl, here]
      · rw [if_neg here, if_neg (fun h => absent.1 h.symm)]

/-- All dots but the last one. -/
theorem toColons_last (p q : List Char) : toColons (p.count '.' + 1) (p ++ '.' :: q) =
    p.map (fun c => if c = '.' then ':' else c) ++ '.' :: q := by
  induction p with
  | nil => rfl
  | cons c p ih =>
      rw [List.cons_append, List.map_cons, List.cons_append, toColons]
      by_cases dot : c = '.'
      · subst dot
        rw [List.count_cons_self, if_pos (by omega), if_pos rfl, if_pos rfl, Nat.add_sub_cancel, ih]
      · rw [List.count_cons_of_ne dot, if_neg dot, if_neg dot]
        by_cases more : p.count '.' + 1 > 1
        · rw [if_pos more, ih]
        · have none : '.' ∉ p := List.count_eq_zero.mp (by omega)
          rw [if_neg more, replace_absent none]

/-- The last separator of a name becomes a dot, and the name is parsed. -/
theorem toBdf_dotted {sep : Char} (isSep : sep = ':' ∨ sep = '.') (noDot : '.' ∉ p)
    (plain : ':' ∉ q ∧ '.' ∉ q) : toBdf (dotted (p ++ sep :: q)) = parseBdf (p ++ '.' :: q) := by
  have last : dotted (p ++ sep :: q) = dotted p ++ '.' :: q := by
    have dot : (if sep = ':' then '.' else sep) = '.' := by
      rcases isSep with rfl | rfl <;> rfl
    rw [dotted, List.map_append, List.map_cons, dot, replace_absent plain.1, dotted]
  have count : (dotted p ++ '.' :: q).count '.' = (dotted p).count '.' + 1 := by
    rw [List.count_append, List.count_cons_self, List.count_eq_zero.mpr plain.2]
  rw [toBdf, last, count, toColons_last, dotted, replace_back noDot]

theorem lastPart_append (plain : ':' ∉ q) : lastPart (p ++ ':' :: q) = q := by
  have same : ∀ d ∈ q.reverse, decide (d ≠ ':') = true := by
    intro d hd
    have other : d ≠ ':' := fun h => plain (List.mem_reverse.mp (h ▸ hd))
    simpa using other
  rw [lastPart, List.reverse_append, List.reverse_cons, List.append_assoc,
    List.takeWhile_append_of_pos same]
  simp

end Separators

/-! ### A function behind the name -/

section Function

variable {t₁ t₂ q : List Char} {d b v : Int}

/-- What `%d` takes for the function. -/
def withFunc (n : Fields) (q : List Char) : Except Fail Fields :=
  match scanInt 10 q with
  | none => .error .scan
  | some (f, _) => .ok { n with func := Conv.d.store f }

theorem parseFields_devFunc (dev : Numeral 16 t₁ v ('.' :: q)) (plain : ':' ∉ q ∧ '.' ∉ q) :
    parseFields (t₁ ++ '.' :: q) = withFunc ⟨0, 0, Conv.x.store v, 0⟩ q := by
  have dots : (t₁ ++ '.' :: q).count '.' = 1 := by
    simp [List.count_append, count_text dev, List.count_eq_zero.mpr plain.2]
  have colons : (t₁ ++ '.' :: q).count ':' = 0 := by
    simp [List.count_append, count_text dev, List.count_eq_zero.mpr plain.1]
  rw [parseFields, dots, colons, withFunc]
  have first : scanInt 16 (t₁ ++ '.' :: q) = some (v, '.' :: q) := scanInt_complete dev
  cases scan : scanInt 10 q with
  | none => simp [sscanf, first, Conv.base, scan]
  | some found => simp [sscanf, first, Conv.base, scan]

theorem parseFields_busDevFunc (bus : Numeral 16 t₁ b (':' :: (t₂ ++ '.' :: q)))
    (dev : Numeral 16 t₂ v ('.' :: q)) (plain : ':' ∉ q ∧ '.' ∉ q) :
    parseFields (t₁ ++ ':' :: (t₂ ++ '.' :: q)) =
      withFunc ⟨0, Conv.x.store b, Conv.x.store v, 0⟩ q := by
  have dots : (t₁ ++ ':' :: (t₂ ++ '.' :: q)).count '.' = 1 := by
    simp [List.count_append, count_text bus, count_text dev, List.count_eq_zero.mpr plain.2]
  have colons : (t₁ ++ ':' :: (t₂ ++ '.' :: q)).count ':' = 1 := by
    simp [List.count_append, count_text bus, count_text dev, List.count_eq_zero.mpr plain.1]
  rw [parseFields, dots, colons, withFunc]
  have first : scanInt 16 (t₁ ++ ':' :: (t₂ ++ '.' :: q)) =
      some (b, ':' :: (t₂ ++ '.' :: q)) := scanInt_complete bus
  have second : scanInt 16 (t₂ ++ '.' :: q) = some (v, '.' :: q) := scanInt_complete dev
  cases scan : scanInt 10 q with
  | none => simp [sscanf, first, second, Conv.base, scan]
  | some found => simp [sscanf, first, second, Conv.base, scan]

theorem withFunc_ok {n n' : Fields} : withFunc n q = .ok n' ↔
    ∃ t rest z, q = t ++ rest ∧ Numeral 10 t z rest ∧ { n with func := Conv.d.store z } = n' := by
  unfold withFunc
  constructor
  · intro h
    split at h
    · cases h
    · rename_i z rest scan
      cases h
      rcases scanInt_sound scan with ⟨t, same, numeral⟩
      exact ⟨t, rest, z, same, numeral, rfl⟩
  · rintro ⟨t, rest, z, rfl, numeral, rfl⟩
    rw [scanInt_complete numeral]

end Function

/-! ### The recipe -/

section Recipe

variable {s o : List Char} {n : Fields}

/-- A name that ends with a number of a device behind a colon keeps its meaning if the device and
everything before it are zero. -/
theorem recipe_colon {p q : List Char} {n m : Fields} (plain : ':' ∉ q ∧ '.' ∉ q) (noDot : '.' ∉ p)
    (spelled : Spells (p ++ ':' :: q) n) (parsed : parseFields (p ++ '.' :: q) = withFunc m q)
    (zero : ∀ z, { m with func := z } = n ↔ n = ⟨0, 0, 0, 0⟩ ∧ z = 0) :
    toBdf (dotted (p ++ ':' :: q)) = .ok n.print ↔ KeepsName (p ++ ':' :: q) := by
  have noDots : '.' ∉ p ++ ':' :: q := by simp [noDot, plain.2]
  rw [toBdf_dotted (.inl rfl) noDot plain, parseBdf_iff, KeepsName, or_iff_right noDots,
    lastPart_append plain.1]
  simp only [← parseFields_iff, parsed]
  constructor
  · rintro ⟨n', same, printed⟩
    rw [print_injective printed] at same
    rcases withFunc_ok.mp same with ⟨t, rest, z, split, numeral, whole⟩
    rcases (zero _).mp whole with ⟨rfl, stored⟩
    exact ⟨parse_of_spells spelled, t, rest, z, split, numeral, stored⟩
  · rintro ⟨parsedZero, t, rest, z, split, numeral, stored⟩
    have allZero : n = ⟨0, 0, 0, 0⟩ := spells_unique spelled (spells_of_parse parsedZero)
    exact ⟨n, withFunc_ok.mpr ⟨t, rest, z, split, numeral, (zero _).mpr ⟨allZero, stored⟩⟩, rfl⟩

/-- A name with a function is the name again. -/
theorem recipe_dot {p q : List Char} (plain : ':' ∉ q ∧ '.' ∉ q) (noDot : '.' ∉ p)
    (spelled : Spells (p ++ '.' :: q) n) :
    toBdf (dotted (p ++ '.' :: q)) = .ok n.print ↔ KeepsName (p ++ '.' :: q) := by
  rw [toBdf_dotted (.inr rfl) noDot plain]
  constructor
  · exact fun _ => .inl (by simp)
  · exact fun _ => parseBdf_iff.mpr ⟨n, spelled, rfl⟩

/-- No separator in a number and what follows it. -/
theorem plain_tail {base : Nat} {t rest : List Char} {z : Int} (numeral : Numeral base t z rest)
    (noDot : '.' ∉ rest) (noColon : ':' ∉ rest) : ':' ∉ t ++ rest ∧ '.' ∉ t ++ rest := by
  simp only [List.mem_append, not_or]
  exact ⟨⟨numeral.not_mem separator_colon, noColon⟩, numeral.not_mem separator_dot, noDot⟩

theorem recipe_iff (spelled : Spells s n) : toBdf (dotted s) = .ok n.print ↔ KeepsName s := by
  cases spelled with
  | busDev bus dev noDot noColon =>
      have plain := plain_tail dev noDot noColon
      apply recipe_colon plain (bus.not_mem separator_dot) (.busDev bus dev noDot noColon)
      · exact parseFields_devFunc (bus.before (ends_at separator_dot _)) plain
      · intro z
        simp only [Fields.mk.injEq]
        grind
  | @domainBusDev t₁ t₂ t₃ rest d b v domain bus dev noDot noColon =>
      have plain := plain_tail dev noDot noColon
      have noDots : '.' ∉ t₁ ++ ':' :: t₂ := by
        simp [domain.not_mem separator_dot, bus.not_mem separator_dot]
      have whole := Spells.domainBusDev domain bus dev noDot noColon
      have split : ∀ c : Char, t₁ ++ ':' :: (t₂ ++ c :: (t₃ ++ rest)) =
          (t₁ ++ ':' :: t₂) ++ c :: (t₃ ++ rest) := by simp
      rw [split] at whole ⊢
      apply recipe_colon plain noDots whole
      · rw [← split]
        exact parseFields_busDevFunc (domain.before (ends_at separator_colon _))
          (bus.before (ends_at separator_dot _)) plain
      · intro z
        simp only [Fields.mk.injEq]
        grind
  | devFunc dev func noDot noColon =>
      exact recipe_dot (plain_tail func noDot noColon) (dev.not_mem separator_dot)
        (.devFunc dev func noDot noColon)
  | @busDevFunc t₁ t₂ t₃ rest b v f bus dev func noDot noColon =>
      have noDots : '.' ∉ t₁ ++ ':' :: t₂ := by
        simp [bus.not_mem separator_dot, dev.not_mem separator_dot]
      have whole := Spells.busDevFunc bus dev func noDot noColon
      have split : t₁ ++ ':' :: (t₂ ++ '.' :: (t₃ ++ rest)) =
          (t₁ ++ ':' :: t₂) ++ '.' :: (t₃ ++ rest) := by simp
      rw [split] at whole ⊢
      exact recipe_dot (plain_tail func noDot noColon) noDots whole
  | @full t₁ t₂ t₃ t₄ rest d b v f domain bus dev func noDot noColon =>
      have noDots : '.' ∉ t₁ ++ ':' :: (t₂ ++ ':' :: t₃) := by
        simp [domain.not_mem separator_dot, bus.not_mem separator_dot, dev.not_mem separator_dot]
      have whole := Spells.full domain bus dev func noDot noColon
      have split : t₁ ++ ':' :: (t₂ ++ ':' :: (t₃ ++ '.' :: (t₄ ++ rest))) =
          (t₁ ++ ':' :: (t₂ ++ ':' :: t₃)) ++ '.' :: (t₄ ++ rest) := by simp
      rw [split] at whole ⊢
      exact recipe_dot (plain_tail func noDot noColon) noDots whole

/-- The dotted name of an accepted name is the same device if and only if the function is written or
all numbers are zero. -/
theorem toBdf_dotted_iff (accepted : parseBdf s = .ok o) :
    toBdf (dotted s) = .ok o ↔ KeepsName s := by
  rcases parseBdf_iff.mp accepted with ⟨n, spelled, rfl⟩
  exact recipe_iff spelled

theorem toBdf_dotted_full : toBdf (dotted ['1', ':', '0', '.', '2']) =
    .ok ['0', '0', '0', '0', ':', '0', '1', ':', '0', '0', '.', '2'] :=
  (toBdf_dotted_iff (s := ['1', ':', '0', '.', '2']) (by decide)).mpr (.inl (by decide))

/-- The short name that `README.md` offers. -/
theorem dotted_device_is_another :
    parseBdf ['1', ':', '0'] =
        .ok ['0', '0', '0', '0', ':', '0', '1', ':', '0', '0', '.', '0'] ∧
      toBdf (dotted ['1', ':', '0']) =
        .ok ['0', '0', '0', '0', ':', '0', '0', ':', '0', '1', '.', '0'] := by
  decide

end Recipe

end Unvmed.Names
