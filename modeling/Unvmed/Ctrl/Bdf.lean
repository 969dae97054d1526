import Unvmed.Lib.Field
import Unvmed.Lib.Scan

/-!
Device names (`unvmed_parse_bdf`, `__unvmed_bdf_to_int` and `unvmed_get` in `lib/libunvmed.c`).

A device is spelled with or without its domain and its function. `unvmed_parse_bdf` reads the
numbers with `sscanf` and prints the full name; a controller is found by the integer that is made of
the numbers in the full name.

* `parseBdf_iff`: the accepted strings are those of the grammar `Spells`.
* `parseBdf_canonical_iff`: the name has its twelve characters and denotes no other device if and
  only if the numbers are those of a PCI address.
* `device_32_is_another`: device 0x20 on bus 0 is found as device 0 on bus 1.
-/

namespace Unvmed.Bdf

open Lib

/-- The numbers that `unvmed_parse_bdf` reads. -/
structure Fields where
  domain : BitVec 32
  bus : BitVec 32
  dev : BitVec 32
  func : BitVec 32
  deriving DecidableEq, Repr

/-- Why `unvmed_parse_bdf` returns `-1`. -/
inductive Fail where
  /-- `sscanf` assigned too few numbers. -/
  | scan
  /-- `errno = EINVAL` -/
  | einval
  deriving DecidableEq, Repr

/-- The two `switch` statements of `unvmed_parse_bdf`. -/
def parseFields (input : List Char) : Except Fail Fields :=
  match input.count '.', input.count ':' with
  | 0, 1 =>
      match sscanf [.conv .x, .lit ':', .conv .x] input with
      | [bus, dev] => .ok ⟨0, bus, dev, 0⟩
      | _ => .error .scan
  | 0, 2 =>
      match sscanf [.conv .x, .lit ':', .conv .x, .lit ':', .conv .x] input with
      | [domain, bus, dev] => .ok ⟨domain, bus, dev, 0⟩
      | _ => .error .scan
  | 1, 0 =>
      match sscanf [.conv .x, .lit '.', .conv .d] input with
      | [dev, func] => .ok ⟨0, 0, dev, func⟩
      | _ => .error .scan
  | 1, 1 =>
      match sscanf [.conv .x, .lit ':', .conv .x, .lit '.', .conv .d] input with
      | [bus, dev, func] => .ok ⟨0, bus, dev, func⟩
      | _ => .error .scan
  | 1, 2 =>
      match sscanf [.conv .x, .lit ':', .conv .x, .lit ':', .conv .x, .lit '.', .conv .d] input with
      | [domain, bus, dev, func] => .ok ⟨domain, bus, dev, func⟩
      | _ => .error .scan
  | _, _ => .error .einval

/-- `sprintf(bdf, "%04x:%02x:%02x.%1d", domain, bus, dev, func)` -/
def Fields.print (n : Fields) : List Char :=
  printHex 4 n.domain.toNat ++ ':' :: (printHex 2 n.bus.toNat ++ ':' ::
    (printHex 2 n.dev.toNat ++ '.' :: printInt n.func.toInt))

/-- `unvmed_parse_bdf` -/
def parseBdf (input : List Char) : Except Fail (List Char) := (parseFields input).map Fields.print

/-- `(domain << 16) | (bus << 8) | (device << 3) | func` -/
def Fields.toInt (n : Fields) : BitVec 32 :=
  n.domain <<< 16 ||| n.bus <<< 8 ||| n.dev <<< 3 ||| n.func

/-- `__unvmed_bdf_to_int` -/
def bdfToInt (bdf : List Char) : Option (BitVec 32) :=
  match sscanf [.conv .x, .lit ':', .conv .x, .lit ':', .conv .x, .lit '.', .conv .x] bdf with
  | [domain, bus, device, func] => some (Fields.toInt ⟨domain, bus, device, func⟩)
  | _ => none

/-- The name and the integer of a `struct unvme`. -/
structure Ctrl where
  bdf : List Char
  uBdf : BitVec 32
  deriving DecidableEq, Repr

/-- `unvmed_get`; the list is `none` before it is initialized. -/
def get (list : Option (List Ctrl)) (bdf : List Char) : Option Ctrl :=
  match bdfToInt bdf with
  | none => none
  | some uBdf =>
      match list with
      | none => none
      | some list => list.find? (·.uBdf = uBdf)

/-- `UNVME_BDF_STRLEN` -/
def bdfStrlen : Nat := 13

/-! ### What a name should be -/

/-- How a device may be spelled; no separator follows the last number. -/
inductive Spells : List Char → Fields → Prop where
  | busDev {t₁ t₂ rest : List Char} {b v : Int} (bus : Numeral 16 t₁ b (':' :: (t₂ ++ rest)))
      (dev : Numeral 16 t₂ v rest) (noDot : '.' ∉ rest) (noColon : ':' ∉ rest) :
      Spells (t₁ ++ ':' :: (t₂ ++ rest)) ⟨0, Conv.x.store b, Conv.x.store v, 0⟩
  | domainBusDev {t₁ t₂ t₃ rest : List Char} {d b v : Int}
      (domain : Numeral 16 t₁ d (':' :: (t₂ ++ ':' :: (t₃ ++ rest))))
      (bus : Numeral 16 t₂ b (':' :: (t₃ ++ rest))) (dev : Numeral 16 t₃ v rest)
      (noDot : '.' ∉ rest) (noColon : ':' ∉ rest) :
      Spells (t₁ ++ ':' :: (t₂ ++ ':' :: (t₃ ++ rest)))
        ⟨Conv.x.store d, Conv.x.store b, Conv.x.store v, 0⟩
  | devFunc {t₁ t₂ rest : List Char} {v f : Int} (dev : Numeral 16 t₁ v ('.' :: (t₂ ++ rest)))
      (func : Numeral 10 t₂ f rest) (noDot : '.' ∉ rest) (noColon : ':' ∉ rest) :
      Spells (t₁ ++ '.' :: (t₂ ++ rest)) ⟨0, 0, Conv.x.store v, Conv.d.store f⟩
  | busDevFunc {t₁ t₂ t₃ rest : List Char} {b v f : Int}
      (bus : Numeral 16 t₁ b (':' :: (t₂ ++ '.' :: (t₃ ++ rest))))
      (dev : Numeral 16 t₂ v ('.' :: (t₃ ++ rest))) (func : Numeral 10 t₃ f rest)
      (noDot : '.' ∉ rest) (noColon : ':' ∉ rest) :
      Spells (t₁ ++ ':' :: (t₂ ++ '.' :: (t₃ ++ rest)))
        ⟨0, Conv.x.store b, Conv.x.store v, Conv.d.store f⟩
  | full {t₁ t₂ t₃ t₄ rest : List Char} {d b v f : Int}
      (domain : Numeral 16 t₁ d (':' :: (t₂ ++ ':' :: (t₃ ++ '.' :: (t₄ ++ rest)))))
      (bus : Numeral 16 t₂ b (':' :: (t₃ ++ '.' :: (t₄ ++ rest))))
      (dev : Numeral 16 t₃ v ('.' :: (t₄ ++ rest))) (func : Numeral 10 t₄ f rest)
      (noDot : '.' ∉ rest) (noColon : ':' ∉ rest) :
      Spells (t₁ ++ ':' :: (t₂ ++ ':' :: (t₃ ++ '.' :: (t₄ ++ rest))))
        ⟨Conv.x.store d, Conv.x.store b, Conv.x.store v, Conv.d.store f⟩

/-- The numbers of a PCI address. -/
structure Fields.InRange (n : Fields) : Prop where
  domain : n.domain.toNat < 2 ^ 16
  bus : n.bus.toNat < 2 ^ 8
  dev : n.dev.toNat < 2 ^ 5
  func : n.func.toNat < 2 ^ 3

/-- The numbers that are written in the string are those of a PCI address. -/
def InRange (s : List Char) : Prop := ∀ n, Spells s n → n.InRange

/-- `dddd:bb:dd.f` -/
def Form (o : List Char) : Prop :=
  ∃ d b v f : List Char, o = d ++ ':' :: (b ++ ':' :: (v ++ '.' :: f)) ∧
    (d.length = 4 ∧ b.length = 2 ∧ v.length = 2 ∧ f.length = 1) ∧
    (∀ c ∈ d ++ b ++ v, isDigit 16 c = true) ∧ ∀ c ∈ f, isDigit 10 c = true

/-- A controller that was added under the full name of a PCI address. -/
def Registered (u : Ctrl) : Prop :=
  (∃ s, InRange s ∧ parseBdf s = .ok u.bdf) ∧ bdfToInt u.bdf = some u.uBdf

/-- The output of `unvmed_parse_bdf` is a name of one device. -/
structure Canonical (o : List Char) : Prop where
  form : Form o
  fits : o.length + 1 ≤ bdfStrlen
  again : parseBdf o = .ok o
  key : ∀ s o', InRange s → parseBdf s = .ok o' → o' ≠ o → bdfToInt o' ≠ bdfToInt o
  get : ∀ list, (∀ u ∈ list, Registered u) → ∀ u, get (some list) o = some u → u.bdf = o

/-! ### The parser and the grammar -/

section Parser

variable {s : List Char} {n : Fields}

theorem separator_colon : Separator ':' := by decide

theorem separator_dot : Separator '.' := by decide

theorem count_text {base : Nat} {t rest : List Char} {z : Int} (numeral : Numeral base t z rest) :
    t.count '.' = 0 ∧ t.count ':' = 0 :=
  ⟨List.count_eq_zero.mpr (numeral.not_mem separator_dot),
    List.count_eq_zero.mpr (numeral.not_mem separator_colon)⟩

theorem spells_of_parse (h : parseFields s = .ok n) : Spells s n := by
  unfold parseFields at h
  split at h
  · rename_i dots colons
    split at h
    · rename_i scan
      cases h
      cases (sscanf_iff (by simp) (by rfl)).mp scan with
      | conv bus m => cases m with
        | lit m => cases m with
          | conv dev m =>
              simp [List.count_append, List.count_eq_zero, count_text bus, count_text dev]
                at dots colons
              exact .busDev bus dev dots colons
    · cases h
  · rename_i dots colons
    split at h
    · rename_i scan
      cases h
      cases (sscanf_iff (by simp) (by rfl)).mp scan with
      | conv domain m => cases m with
        | lit m => cases m with
          | conv bus m => cases m with
            | lit m => cases m with
              | conv dev m =>
                  simp [List.count_append, List.count_eq_zero, count_text domain, count_text bus,
                    count_text dev] at dots colons
                  exact .domainBusDev domain bus dev dots colons
    · cases h
  · rename_i dots colons
    split at h
    · rename_i scan
      cases h
      cases (sscanf_iff (by simp) (by rfl)).mp scan with
      | conv dev m => cases m with
        | lit m => cases m with
          | conv func m =>
              simp [List.count_append, List.count_eq_zero, count_text dev, count_text func]
                at dots colons
              exact .devFunc dev func dots colons
    · cases h
  · rename_i dots colons
    split at h
    · rename_i scan
      cases h
      cases (sscanf_iff (by simp) (by rfl)).mp scan with
      | conv bus m => cases m with
        | lit m => cases m with
          | conv dev m => cases m with
            | lit m => cases m with
              | conv func m =>
                  simp [List.count_append, List.count_eq_zero, count_text bus, count_text dev,
                    count_text func] at dots colons
                  exact .busDevFunc bus dev func dots colons
    · cases h
  · rename_i dots colons
    split at h
    · rename_i scan
      cases h
      cases (sscanf_iff (by simp) (by rfl)).mp scan with
      | conv domain m => cases m with
        | lit m => cases m with
          | conv bus m => cases m with
            | lit m => cases m with
              | conv dev m => cases m with
                | lit m => cases m with
                  | conv func m =>
                      simp [List.count_append, List.count_eq_zero, count_text domain,
                        count_text bus, count_text dev, count_text func] at dots colons
                      exact .full domain bus dev func dots colons
    · cases h
  · cases h

theorem parse_of_spells (spelled : Spells s n) : parseFields s = .ok n := by
  cases spelled with
  | busDev bus dev noDot noColon =>
      have scan := (Matches.conv (k := .x) bus (.lit (.conv (k := .x) dev (.nil _)))).sscanf.1
      simp [parseFields, List.count_append, count_text bus, count_text dev,
        List.count_eq_zero.mpr noDot, List.count_eq_zero.mpr noColon, scan]
  | domainBusDev domain bus dev noDot noColon =>
      have scan := (Matches.conv (k := .x) domain (.lit (.conv (k := .x) bus
        (.lit (.conv (k := .x) dev (.nil _)))))).sscanf.1
      simp [parseFields, List.count_append, count_text domain, count_text bus, count_text dev,
        List.count_eq_zero.mpr noDot, List.count_eq_zero.mpr noColon, scan]
  | devFunc dev func noDot noColon =>
      have scan := (Matches.conv (k := .x) dev (.lit (.conv (k := .d) func (.nil _)))).sscanf.1
      simp [parseFields, List.count_append, count_text dev, count_text func,
        List.count_eq_zero.mpr noDot, List.count_eq_zero.mpr noColon, scan]
  | busDevFunc bus dev func noDot noColon =>
      have scan := (Matches.conv (k := .x) bus (.lit (.conv (k := .x) dev
        (.lit (.conv (k := .d) func (.nil _)))))).sscanf.1
      simp [parseFields, List.count_append, count_text bus, count_text dev, count_text func,
        List.count_eq_zero.mpr noDot, List.count_eq_zero.mpr noColon, scan]
  | full domain bus dev func noDot noColon =>
      have scan := (Matches.conv (k := .x) domain (.lit (.conv (k := .x) bus
        (.lit (.conv (k := .x) dev (.lit (.conv (k := .d) func (.nil _)))))))).sscanf.1
      simp [parseFields, List.count_append, count_text domain, count_text bus, count_text dev,
        count_text func, List.count_eq_zero.mpr noDot, List.count_eq_zero.mpr noColon, scan]

theorem parseFields_iff : parseFields s = .ok n ↔ Spells s n :=
  ⟨spells_of_parse, parse_of_spells⟩

/-- The accepted strings, and the name of each. -/
theorem parseBdf_iff {o : List Char} : parseBdf s = .ok o ↔ ∃ n, Spells s n ∧ n.print = o := by
  unfold parseBdf
  cases h : parseFields s with
  | error e =>
      simp only [Except.map, reduceCtorEq, false_iff, not_exists, not_and]
      intro n spelled
      rw [parse_of_spells spelled] at h
      cases h
  | ok n =>
      simp only [Except.map, Except.ok.injEq]
      constructor
      · exact fun same => ⟨n, spells_of_parse h, same⟩
      · rintro ⟨n', spelled, same⟩
        rw [parse_of_spells spelled] at h
        cases h
        exact same

theorem spells_unique {n' : Fields} (spelled : Spells s n) (spelled' : Spells s n') : n = n' := by
  have same := (parse_of_spells spelled).symm.trans (parse_of_spells spelled')
  cases same
  rfl

end Parser

/-! ### Names and their numbers -/

section Names

variable {n n' : Fields}

theorem ends_at {c : Char} (sep : Separator c) (s : List Char) :
    ∀ c' r, c :: s = c' :: r → Separator c' := by
  intro c' r same
  cases same
  exact sep

/-- A printed name spells its numbers. -/
theorem spells_print (n : Fields) : Spells n.print n := by
  have domain := Numeral.printHex 4 n.domain.toNat
    (ends_at separator_colon (printHex 2 n.bus.toNat ++ ':' :: (printHex 2 n.dev.toNat ++ '.' ::
      (printInt n.func.toInt ++ []))))
  have bus := Numeral.printHex 2 n.bus.toNat
    (ends_at separator_colon (printHex 2 n.dev.toNat ++ '.' :: (printInt n.func.toInt ++ [])))
  have dev := Numeral.printHex 2 n.dev.toNat
    (ends_at separator_dot (printInt n.func.toInt ++ []))
  have func : Numeral 10 (printInt n.func.toInt) n.func.toInt [] := Numeral.printInt _ (by simp)
  have spelled := Spells.full domain bus dev func (by simp) (by simp)
  simp only [Conv.store_x, Conv.store_d, List.append_nil] at spelled
  exact spelled

/-- The name of a name is itself. -/
theorem parseBdf_print (n : Fields) : parseBdf n.print = .ok n.print :=
  parseBdf_iff.mpr ⟨n, spells_print n, rfl⟩

theorem print_injective (same : n.print = n'.print) : n = n' :=
  spells_unique (spells_print n) (same ▸ spells_print n')

theorem length_print (n : Fields) : 12 ≤ n.print.length ∧
    (n.print.length = 12 ↔ n.domain.toNat < 16 ^ 4 ∧ n.bus.toNat < 16 ^ 2 ∧
      n.dev.toNat < 16 ^ 2 ∧ n.func.toNat < 10) := by
  have four : ∀ k, 4 ≤ (printHex 4 k).length ∧ ((printHex 4 k).length = 4 ↔ k < 16 ^ 4) :=
    fun _ => length_printHex (by decide)
  have two : ∀ k, 2 ≤ (printHex 2 k).length ∧ ((printHex 2 k).length = 2 ↔ k < 16 ^ 2) :=
    fun _ => length_printHex (by decide)
  have domain := four n.domain.toNat
  have bus := two n.bus.toNat
  have dev := two n.dev.toNat
  have func := length_printInt n.func.toInt
  have digit : 0 ≤ n.func.toInt ∧ n.func.toInt < 10 ↔ n.func.toNat < 10 := by
    rw [BitVec.toInt_eq_toNat_cond]
    have lt := n.func.isLt
    split <;> omega
  have total : n.print.length = (printHex 4 n.domain.toNat).length +
      (printHex 2 n.bus.toNat).length + (printHex 2 n.dev.toNat).length +
      (printInt n.func.toInt).length + 3 := by
    simp only [Fields.print, List.length_append, List.length_cons]
    omega
  rw [digit] at func
  omega

/-- The full name is read back by `__unvmed_bdf_to_int`, which reads the function in base 16. -/
theorem bdfToInt_print (digit : n.func.toNat < 10) : bdfToInt n.print = some n.toInt := by
  have small : n.func.toInt = n.func.toNat := by
    rw [BitVec.toInt_eq_toNat_cond, if_pos (by omega)]
  have domain := Numeral.printHex 4 n.domain.toNat
    (ends_at separator_colon (printHex 2 n.bus.toNat ++ ':' :: (printHex 2 n.dev.toNat ++ '.' ::
      (printHex 1 n.func.toNat ++ []))))
  have bus := Numeral.printHex 2 n.bus.toNat
    (ends_at separator_colon (printHex 2 n.dev.toNat ++ '.' :: (printHex 1 n.func.toNat ++ [])))
  have dev := Numeral.printHex 2 n.dev.toNat
    (ends_at separator_dot (printHex 1 n.func.toNat ++ []))
  have func : Numeral 16 (printHex 1 n.func.toNat) n.func.toNat [] :=
    Numeral.printHex _ _ (by simp)
  have scan := (Matches.conv (k := .x) domain (.lit (.conv (k := .x) bus
    (.lit (.conv (k := .x) dev (.lit (.conv (k := .x) func (.nil _)))))))).sscanf.1
  simp only [Conv.store_x, List.append_nil] at scan
  rw [bdfToInt, Fields.print, small, printInt_digit digit, scan]

end Names

/-! ### The integer -/

section Key

variable {n n' : Fields}

theorem toNat_toInt (small : n.InRange) : n.toInt.toNat =
    n.domain.toNat * 2 ^ 16 + (n.bus.toNat * 2 ^ 8 + (n.dev.toNat * 2 ^ 3 + n.func.toNat)) := by
  obtain ⟨domain, bus, dev, func⟩ := small
  rw [← Nat.shiftLeft_eq n.dev.toNat, Nat.shiftLeft_add_eq_or_of_lt func,
    ← Nat.shiftLeft_eq n.bus.toNat, Nat.shiftLeft_add_eq_or_of_lt,
    ← Nat.shiftLeft_eq n.domain.toNat, Nat.shiftLeft_add_eq_or_of_lt]
  · simp only [Fields.toInt, BitVec.toNat_or, BitVec.toNat_shiftLeft, Nat.lor_assoc]
    rw [Nat.mod_eq_of_lt, Nat.mod_eq_of_lt, Nat.mod_eq_of_lt]
    all_goals
      rw [Nat.shiftLeft_eq]
      omega
  · rw [← Nat.shiftLeft_add_eq_or_of_lt func, ← Nat.shiftLeft_add_eq_or_of_lt]
    all_goals
      simp only [Nat.shiftLeft_eq]
      omega
  · rw [← Nat.shiftLeft_add_eq_or_of_lt func, Nat.shiftLeft_eq]
    omega

theorem toInt_injective (small : n.InRange) (small' : n'.InRange)
    (same : n.toInt = n'.toInt) : n = n' := by
  have sums := (toNat_toInt small).symm.trans ((congrArg BitVec.toNat same).trans
    (toNat_toInt small'))
  obtain ⟨domain, bus, dev, func⟩ := small
  obtain ⟨domain', bus', dev', func'⟩ := small'
  have parts : n.domain.toNat = n'.domain.toNat ∧ n.bus.toNat = n'.bus.toNat ∧
      n.dev.toNat = n'.dev.toNat ∧ n.func.toNat = n'.func.toNat := by
    omega
  cases n
  cases n'
  simp only [Fields.mk.injEq]
  exact ⟨BitVec.eq_of_toNat_eq parts.1, BitVec.eq_of_toNat_eq parts.2.1,
    BitVec.eq_of_toNat_eq parts.2.2.1, BitVec.eq_of_toNat_eq parts.2.2.2⟩

/-- The PCI address that has the integer. -/
def Fields.ofInt (k : BitVec 32) : Fields where
  domain := BitVec.ofNat 32 (k.toNat / 2 ^ 16)
  bus := BitVec.ofNat 32 (k.toNat / 2 ^ 8 % 2 ^ 8)
  dev := BitVec.ofNat 32 (k.toNat / 2 ^ 3 % 2 ^ 5)
  func := BitVec.ofNat 32 (k.toNat % 2 ^ 3)

theorem inRange_ofInt (k : BitVec 32) : (Fields.ofInt k).InRange := by
  have lt := k.isLt
  constructor
  all_goals
    simp only [Fields.ofInt, BitVec.toNat_ofNat]
    omega

theorem toInt_ofInt (k : BitVec 32) : (Fields.ofInt k).toInt = k := by
  have lt := k.isLt
  apply BitVec.eq_of_toNat_eq
  rw [toNat_toInt (inRange_ofInt k)]
  simp only [Fields.ofInt, BitVec.toNat_ofNat]
  omega

end Key

/-! ### One name for one device -/

section Canonical

variable {s : List Char} {n : Fields}

theorem inRange_iff (spelled : Spells s n) : InRange s ↔ n.InRange := by
  constructor
  · exact fun all => all n spelled
  · intro small n' spelled'
    rw [← spells_unique spelled spelled']
    exact small

theorem Form.length {o : List Char} (form : Form o) : o.length = 12 := by
  obtain ⟨d, b, v, f, rfl, ⟨hd, hb, hv, hf⟩, -⟩ := form
  simp only [List.length_append, List.length_cons, hd, hb, hv, hf]

theorem print_length (small : n.InRange) : n.print.length = 12 := by
  obtain ⟨domain, bus, dev, func⟩ := small
  exact (length_print n).2.mpr ⟨by omega, by omega, by omega, by omega⟩

theorem form_print (small : n.InRange) : Form n.print := by
  obtain ⟨domain, bus, dev, func⟩ := small
  have digit : 0 ≤ n.func.toInt ∧ n.func.toInt < 10 := by
    rw [BitVec.toInt_eq_toNat_cond, if_pos (by omega)]
    omega
  refine ⟨_, _, _, _, rfl, ⟨?_, ?_, ?_, ?_⟩, ?_, ?_⟩
  · exact (length_printHex (by decide)).2.mpr (by omega)
  · exact (length_printHex (by decide)).2.mpr (by omega)
  · exact (length_printHex (by decide)).2.mpr (by omega)
  · exact (length_printInt _).2.mpr digit
  · intro c hc
    rcases List.mem_append.mp hc with hc | hc
    · rcases List.mem_append.mp hc with hc | hc
      · exact isDigit_printHex 4 _ c hc
      · exact isDigit_printHex 2 _ c hc
    · exact isDigit_printHex 2 _ c hc
  · rw [printInt, if_neg (by omega)]
    exact isDigit_toDigits (by decide) (by decide) _

/-- In-range names with one integer are one name. -/
theorem name_of_key {o : List Char} (small : n.InRange) (inRange : InRange s)
    (accepted : parseBdf s = .ok o) (same : bdfToInt o = some n.toInt) : o = n.print := by
  rcases parseBdf_iff.mp accepted with ⟨n', spelled, rfl⟩
  have small' := inRange n' spelled
  have func' := small'.func
  rw [bdfToInt_print (by omega), Option.some.injEq] at same
  rw [toInt_injective small' small same]

theorem canonical_print (small : n.InRange) : Canonical n.print := by
  have func := small.func
  have key := bdfToInt_print (n := n) (by omega)
  constructor
  · exact form_print small
  · rw [print_length small]
    decide
  · exact parseBdf_print n
  · intro s o' inRange accepted other same
    exact other (name_of_key small inRange accepted (same.trans key))
  · intro list registered u found
    simp only [get, key] at found
    have same : u.uBdf = n.toInt := by simpa using List.find?_some found
    rcases registered u (List.mem_of_find?_eq_some found) with ⟨⟨s, inRange, accepted⟩, added⟩
    exact name_of_key small inRange accepted (by rw [added, same])

/-- The name of an accepted string has twelve characters, is its own name and is the only name of a
PCI address with its integer if and only if the string spells a PCI address. -/
theorem parseBdf_canonical_iff (s : List Char) :
    (∀ o, parseBdf s = .ok o → Canonical o) ↔ InRange s := by
  constructor
  · intro canonical n spelled
    have named := canonical n.print (parseBdf_iff.mpr ⟨n, spelled, rfl⟩)
    have digits := (length_print n).2.mp named.form.length
    by_contra large
    -- The integer is also that of another PCI address.
    have spelled' := spells_print (Fields.ofInt n.toInt)
    have small' := inRange_ofInt n.toInt
    have func' := small'.func
    apply named.key _ _ ((inRange_iff spelled').mpr small') (parseBdf_print _)
    · intro same
      exact large (print_injective same ▸ small')
    · rw [bdfToInt_print (by omega), bdfToInt_print (by omega), toInt_ofInt]
  · intro inRange o accepted
    rcases parseBdf_iff.mp accepted with ⟨n, spelled, rfl⟩
    exact canonical_print (inRange n spelled)

/-- `0:20.0` is accepted, and its name is found as the device `1:0.0`. A domain of five digits does
not fit the buffer. -/
theorem device_32_is_another :
    parseBdf ['0', ':', '2', '0', '.', '0'] =
        .ok ['0', '0', '0', '0', ':', '0', '0', ':', '2', '0', '.', '0'] ∧
      parseBdf ['1', ':', '0', '.', '0'] =
        .ok ['0', '0', '0', '0', ':', '0', '1', ':', '0', '0', '.', '0'] ∧
      bdfToInt ['0', '0', '0', '0', ':', '0', '0', ':', '2', '0', '.', '0'] = some 0x100 ∧
      bdfToInt ['0', '0', '0', '0', ':', '0', '1', ':', '0', '0', '.', '0'] = some 0x100 ∧
      get (some [⟨['0', '0', '0', '0', ':', '0', '1', ':', '0', '0', '.', '0'], 0x100⟩])
          ['0', '0', '0', '0', ':', '0', '0', ':', '2', '0', '.', '0'] =
        some ⟨['0', '0', '0', '0', ':', '0', '1', ':', '0', '0', '.', '0'], 0x100⟩ ∧
      parseBdf ['1', '0', '0', '0', '0', ':', '0', ':', '0', '.', '0'] =
        .ok ['1', '0', '0', '0', '0', ':', '0', '0', ':', '0', '0', '.', '0'] := by
  decide

end Canonical

end Unvmed.Bdf
