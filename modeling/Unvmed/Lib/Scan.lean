import Mathlib.Algebra.Group.Nat.Defs
import Mathlib.Algebra.Ring.Int.Defs
import Mathlib.Data.List.TakeWhile
import Mathlib.Data.List.Infix

/-!
Integers in strings: `sscanf` with `%x` and `%d`, and what `printf` writes.

A string is the list of its characters, without the NUL. A conversion skips white space and takes
the longest text that begins a numeral; it fails where that text is no numeral (`0x` without a
digit). The value is converted like by `strtoul` and `strtol` with a 64-bit `long` and stored in 32
bits.

* `scanInt_iff`: a conversion reads exactly the numerals of the grammar (`Numeral`).
* `sscanf_iff`: a scan that assigns every object has matched its format.
* `Numeral.padded`, `Numeral.printInt`: what is printed is a numeral of the same value.
-/

namespace Lib

/-! ### Digits -/

/-- The value of a hexadecimal digit. -/
def digitVal (c : Char) : Option Nat :=
  if '0' ≤ c ∧ c ≤ '9' then some (c.toNat - 48)
  else if 'a' ≤ c ∧ c ≤ 'f' then some (c.toNat - 87)
  else if 'A' ≤ c ∧ c ≤ 'F' then some (c.toNat - 55)
  else none

def isDigit (base : Nat) (c : Char) : Bool :=
  match digitVal c with
  | some d => decide (d < base)
  | none => false

/-- `isspace` -/
def isSpace (c : Char) : Bool := c.toNat = 32 || (9 ≤ c.toNat && c.toNat ≤ 13)

/-- The number that digits make up, the most significant one first. -/
def ofDigits (base : Nat) (ds : List Char) : Nat :=
  ds.foldl (fun n c => base * n + (digitVal c).getD 0) 0

/-! ### Conversions -/

/-- The sign, if there is one: whether the number is negative, and what follows. -/
def scanSign : List Char → Bool × List Char
  | '-' :: s => (true, s)
  | '+' :: s => (false, s)
  | s => (false, s)

/-- The `0x` of a hexadecimal number is skipped. -/
def scanBase (base : Nat) : List Char → List Char
  | '0' :: x :: s => if base = 16 ∧ (x = 'x' ∨ x = 'X') then s else '0' :: x :: s
  | s => s

/-- The number at the start of the string, and what follows it. -/
def scanInt (base : Nat) (s : List Char) : Option (Int × List Char) :=
  let signed := scanSign (s.dropWhile isSpace)
  let s := scanBase base signed.2
  let ds := s.takeWhile (isDigit base)
  if ds = [] then none
  else some (if signed.1 then -(ofDigits base ds : Int) else ofDigits base ds,
    s.dropWhile (isDigit base))

/-- The value of `strtoul`. -/
def strtoul (z : Int) : Int := if -2 ^ 64 < z ∧ z < 2 ^ 64 then z % 2 ^ 64 else 2 ^ 64 - 1

/-- The value of `strtol`. -/
def strtol (z : Int) : Int := max (-2 ^ 63) (min (2 ^ 63 - 1) z)

/-- `%x` or `%d` -/
inductive Conv where
  | x
  | d
  deriving DecidableEq, Repr

def Conv.base : Conv → Nat
  | .x => 16
  | .d => 10

/-- What is stored in an object of 32 bits. -/
def Conv.store : Conv → Int → BitVec 32
  | .x, z => BitVec.ofInt 32 (strtoul z)
  | .d, z => BitVec.ofInt 32 (strtol z)

inductive Directive where
  | conv (k : Conv)
  | lit (c : Char)
  deriving DecidableEq, Repr

/-- The objects that `sscanf` assigns. -/
def sscanf : List Directive → List Char → List (BitVec 32)
  | [], _ => []
  | .conv k :: fmt, s =>
      match scanInt k.base s with
      | none => []
      | some (z, rest) => k.store z :: sscanf fmt rest
  | .lit _ :: _, [] => []
  | .lit c :: fmt, c' :: rest => if c' = c then sscanf fmt rest else []

/-- `%0<width>x` -/
def printHex (width n : Nat) : List Char :=
  List.replicate (width - (Nat.toDigits 16 n).length) '0' ++ Nat.toDigits 16 n

/-- `%1d` -/
def printInt (z : Int) : List Char :=
  if z < 0 then '-' :: Nat.toDigits 10 z.natAbs else Nat.toDigits 10 z.natAbs

/-! ### The grammar -/

/-- The text of an integer that ends before `rest`: white space, a sign, `0x` and digits. -/
inductive Numeral (base : Nat) : List Char → Int → List Char → Prop where
  | mk {space sign zx ds rest : List Char} {neg : Bool}
      (blank : ∀ c ∈ space, isSpace c = true)
      (signed : (sign, neg) ∈ [([], false), (['+'], false), (['-'], true)])
      (hex : zx = [] ∨ base = 16 ∧ (zx = ['0', 'x'] ∨ zx = ['0', 'X']))
      (some_digit : ds ≠ []) (digits : ∀ c ∈ ds, isDigit base c = true)
      (stop : ∀ c r, rest = c :: r → isDigit base c = false)
      (no_base : ∀ c r, rest = c :: r → base = 16 → zx = [] → ds = ['0'] → c ≠ 'x' ∧ c ≠ 'X') :
      Numeral base (space ++ sign ++ zx ++ ds)
        (if neg then -(ofDigits base ds : Int) else ofDigits base ds) rest

/-- A string starts with what a format describes, and the objects have these values. -/
inductive Matches : List Directive → List Char → List (BitVec 32) → Prop where
  | nil (rest : List Char) : Matches [] rest []
  | conv {k : Conv} {fmt : List Directive} {t rest : List Char} {z : Int}
      {vs : List (BitVec 32)} (numeral : Numeral k.base t z rest) (tail : Matches fmt rest vs) :
      Matches (.conv k :: fmt) (t ++ rest) (k.store z :: vs)
  | lit {c : Char} {fmt : List Directive} {rest : List Char} {vs : List (BitVec 32)}
      (tail : Matches fmt rest vs) : Matches (.lit c :: fmt) (c :: rest) vs

/-- How many objects a format assigns. -/
def assigned (fmt : List Directive) : Nat :=
  fmt.countP fun | .conv _ => true | .lit _ => false

/-! ### Facts about characters -/

section Characters

variable {base : Nat} {c : Char}

theorem isDigit_iff : isDigit base c = true ↔ ∃ d, digitVal c = some d ∧ d < base := by
  unfold isDigit
  cases digitVal c with
  | none => simp
  | some d => simp

/-- A character without a value is no digit. -/
theorem isDigit_ne {c' : Char} (digit : isDigit base c = true) (other : digitVal c' = none) :
    c ≠ c' := by
  rcases isDigit_iff.mp digit with ⟨d, value, -⟩
  rintro rfl
  rw [value] at other
  cases other

theorem digitVal_of_isSpace (space : isSpace c = true) : digitVal c = none := by
  have small : c.toNat ≤ 32 := by
    simp only [isSpace, Bool.or_eq_true, Bool.and_eq_true, decide_eq_true_eq] at space
    omega
  have below : ∀ low : Char, 32 < low.toNat → ¬ low ≤ c := by
    intro low big le
    have le : low.toNat ≤ c.toNat := le
    omega
  rw [digitVal, if_neg, if_neg, if_neg]
  · exact fun range => below 'A' (by decide) range.1
  · exact fun range => below 'a' (by decide) range.1
  · exact fun range => below '0' (by decide) range.1

theorem not_isSpace_of_isDigit (digit : isDigit base c = true) : isSpace c = false := by
  by_contra space
  exact isDigit_ne digit (digitVal_of_isSpace (by simpa using space)) rfl

theorem digitVal_digitChar : ∀ n < 16, digitVal (Nat.digitChar n) = some n := by decide

theorem isDigit_digitChar {n : Nat} (le : base ≤ 16) (lt : n < base) :
    isDigit base n.digitChar = true :=
  isDigit_iff.mpr ⟨n, digitVal_digitChar n (by omega), lt⟩

end Characters

/-! ### The conversion and the grammar -/

section Conversion

variable {base : Nat} {s rest : List Char}

theorem scanSign_spec (s : List Char) : ∃ sign, s = sign ++ (scanSign s).2 ∧
    (sign, (scanSign s).1) ∈ [([], false), (['+'], false), (['-'], true)] := by
  unfold scanSign
  split
  · exact ⟨['-'], rfl, by simp⟩
  · exact ⟨['+'], rfl, by simp⟩
  · exact ⟨[], rfl, by simp⟩

theorem scanBase_spec (base : Nat) (s : List Char) : ∃ zx, s = zx ++ scanBase base s ∧
    (zx = [] ∨ base = 16 ∧ (zx = ['0', 'x'] ∨ zx = ['0', 'X'])) ∧
    (∀ c r, s = '0' :: c :: r → base = 16 → zx = [] → c ≠ 'x' ∧ c ≠ 'X') := by
  unfold scanBase
  split
  · rename_i x s
    by_cases hex : base = 16 ∧ (x = 'x' ∨ x = 'X')
    · refine ⟨['0', x], by rw [if_pos hex]; rfl, .inr ⟨hex.1, ?_⟩, fun _ _ _ _ h => by cases h⟩
      rcases hex.2 with rfl | rfl
      · exact .inl rfl
      · exact .inr rfl
    · refine ⟨[], by rw [if_neg hex]; rfl, .inl rfl, ?_⟩
      rintro c r same sixteen -
      cases same
      exact not_or.mp fun h => hex ⟨sixteen, h⟩
  · rename_i other
    exact ⟨[], rfl, .inl rfl, fun c r same _ _ => absurd same (other c r)⟩

/-- Where the digits stop. -/
theorem takeWhile_digits {ds : List Char} (digits : ∀ c ∈ ds, isDigit base c = true)
    (stop : ∀ c r, rest = c :: r → isDigit base c = false) :
    (ds ++ rest).takeWhile (isDigit base) = ds ∧ (ds ++ rest).dropWhile (isDigit base) = rest := by
  rw [List.takeWhile_append_of_pos digits, List.dropWhile_append_of_pos digits]
  cases rest with
  | nil => simp
  | cons c r => simp [stop c r rfl]

theorem scanInt_sound {z : Int} (h : scanInt base s = some (z, rest)) :
    ∃ t, s = t ++ rest ∧ Numeral base t z rest := by
  have spaces := List.takeWhile_append_dropWhile (p := isSpace) (l := s)
  rcases scanSign_spec (s.dropWhile isSpace) with ⟨sign, signed, isSign⟩
  rcases scanBase_spec base (scanSign (s.dropWhile isSpace)).2 with ⟨zx, based, isHex, noBase⟩
  unfold scanInt at h
  generalize scanSign (s.dropWhile isSpace) = after at *
  obtain ⟨neg, s₂⟩ := after
  dsimp only at h signed isSign based noBase
  have digits := List.takeWhile_append_dropWhile (p := isDigit base) (l := scanBase base s₂)
  split at h
  · cases h
  · rename_i someDigit
    simp only [Option.some.injEq, Prod.mk.injEq] at h
    obtain ⟨rfl, rfl⟩ := h
    refine ⟨s.takeWhile isSpace ++ sign ++ zx ++ (scanBase base s₂).takeWhile (isDigit base),
      ?_, ?_⟩
    · simp only [List.append_assoc]
      rw [digits, ← based, ← signed, spaces]
    · apply Numeral.mk
      · exact fun c hc => List.mem_takeWhile_imp hc
      · exact isSign
      · exact isHex
      · exact someDigit
      · exact fun c hc => List.mem_takeWhile_imp hc
      · intro c r first
        have stopped := List.head?_dropWhile_not (isDigit base) (scanBase base s₂)
        rw [first] at stopped
        exact stopped
      · intro c r first sixteen plain zero
        apply noBase c r _ sixteen plain
        rw [based, plain, ← digits, zero, first]
        rfl

/-- Nothing is skipped before a sign or a digit. -/
theorem scanSign_numeral {sign zx ds : List Char} {neg : Bool}
    (signed : (sign, neg) ∈ [([], false), (['+'], false), (['-'], true)])
    (hex : zx = [] ∨ base = 16 ∧ (zx = ['0', 'x'] ∨ zx = ['0', 'X']))
    (someDigit : ds ≠ []) (digits : ∀ c ∈ ds, isDigit base c = true) :
    (sign ++ (zx ++ (ds ++ rest))).dropWhile isSpace = sign ++ (zx ++ (ds ++ rest)) ∧
      scanSign (sign ++ (zx ++ (ds ++ rest))) = (neg, zx ++ (ds ++ rest)) := by
  have first : ∃ c r, zx ++ (ds ++ rest) = c :: r ∧ isSpace c = false ∧ c ≠ '-' ∧ c ≠ '+' := by
    rcases hex with rfl | ⟨-, rfl | rfl⟩
    · rcases List.exists_cons_of_ne_nil someDigit with ⟨c, ds, rfl⟩
      have digit := digits c List.mem_cons_self
      exact ⟨c, ds ++ rest, rfl, not_isSpace_of_isDigit digit, isDigit_ne digit (by decide),
        isDigit_ne digit (by decide)⟩
    · exact ⟨'0', _, rfl, by decide, by decide, by decide⟩
    · exact ⟨'0', _, rfl, by decide, by decide, by decide⟩
  rcases first with ⟨c, r, same, solid, notMinus, notPlus⟩
  rw [same]
  simp only [List.mem_cons, Prod.mk.injEq, List.not_mem_nil, or_false] at signed
  rcases signed with ⟨rfl, rfl⟩ | ⟨rfl, rfl⟩ | ⟨rfl, rfl⟩
  · refine ⟨by simp [solid], ?_⟩
    rw [List.nil_append]
    unfold scanSign
    split
    · rename_i h
      cases h
      exact absurd rfl notMinus
    · rename_i h
      cases h
      exact absurd rfl notPlus
    · rfl
  · exact ⟨by simp [isSpace], rfl⟩
  · exact ⟨by simp [isSpace], rfl⟩

theorem scanBase_numeral {zx ds : List Char}
    (hex : zx = [] ∨ base = 16 ∧ (zx = ['0', 'x'] ∨ zx = ['0', 'X']))
    (digits : ∀ c ∈ ds, isDigit base c = true)
    (noBase : ∀ c r, rest = c :: r → base = 16 → zx = [] → ds = ['0'] → c ≠ 'x' ∧ c ≠ 'X')
    (someDigit : ds ≠ []) : scanBase base (zx ++ (ds ++ rest)) = ds ++ rest := by
  rcases hex with rfl | ⟨rfl, rfl | rfl⟩
  · rw [List.nil_append]
    unfold scanBase
    split
    · rename_i x r same
      rw [same, if_neg]
      rintro ⟨sixteen, isX⟩
      rcases List.exists_cons_of_ne_nil someDigit with ⟨c, ds, rfl⟩
      cases ds with
      | nil =>
          cases same
          rcases isX with rfl | rfl
          · exact (noBase _ _ rfl sixteen rfl rfl).1 rfl
          · exact (noBase _ _ rfl sixteen rfl rfl).2 rfl
      | cons d ds =>
          cases same
          have digit := digits x (by simp)
          rcases isX with rfl | rfl
          · exact isDigit_ne digit (by decide : digitVal 'x' = none) rfl
          · exact isDigit_ne digit (by decide : digitVal 'X' = none) rfl
    · rfl
  · rfl
  · rfl

theorem scanInt_complete {t : List Char} {z : Int} (numeral : Numeral base t z rest) :
    scanInt base (t ++ rest) = some (z, rest) := by
  cases numeral with
  | @mk space sign zx ds _ neg blank signed hex someDigit digits stop noBase =>
      have spaces : (space ++ sign ++ zx ++ ds ++ rest).dropWhile isSpace =
          sign ++ (zx ++ (ds ++ rest)) := by
        simp only [List.append_assoc]
        rw [List.dropWhile_append_of_pos blank, (scanSign_numeral signed hex someDigit digits).1]
      rcases takeWhile_digits digits stop with ⟨taken, left⟩
      unfold scanInt
      simp only [spaces, (scanSign_numeral signed hex someDigit digits).2,
        scanBase_numeral hex digits noBase someDigit, taken, left, if_neg someDigit]

/-- A conversion reads the numerals of the grammar. -/
theorem scanInt_iff {z : Int} :
    scanInt base s = some (z, rest) ↔ ∃ t, s = t ++ rest ∧ Numeral base t z rest := by
  constructor
  · exact scanInt_sound
  · rintro ⟨t, rfl, numeral⟩
    exact scanInt_complete numeral

end Conversion

/-! ### Formats -/

section Formats

variable {fmt : List Directive} {s : List Char} {vs : List (BitVec 32)}

theorem Matches.sscanf (m : Matches fmt s vs) :
    Lib.sscanf fmt s = vs ∧ vs.length = assigned fmt := by
  induction m with
  | nil rest => exact ⟨rfl, rfl⟩
  | conv numeral _ ih =>
      rw [Lib.sscanf, scanInt_iff.mpr ⟨_, rfl, numeral⟩]
      exact ⟨by simp only [ih.1], by simp [assigned, ih.2]⟩
  | lit _ ih =>
      rw [Lib.sscanf, if_pos rfl]
      exact ⟨ih.1, by rw [ih.2]; rfl⟩

theorem assigned_pos (last : ∀ c, fmt.getLast? ≠ some (.lit c)) (some_directive : fmt ≠ []) :
    0 < assigned fmt := by
  rw [assigned, List.countP_pos_iff]
  rcases List.eq_nil_or_concat fmt with rfl | ⟨front, d, rfl⟩
  · exact absurd rfl some_directive
  · cases d with
    | conv k => exact ⟨.conv k, by simp, rfl⟩
    | lit c => exact absurd (by simp) (last c)

theorem Matches.of_sscanf (last : ∀ c, fmt.getLast? ≠ some (.lit c))
    (all : (Lib.sscanf fmt s).length = assigned fmt) : Matches fmt s (Lib.sscanf fmt s) := by
  induction fmt generalizing s with
  | nil => exact .nil s
  | cons d fmt ih =>
      have last' : ∀ c, fmt.getLast? ≠ some (.lit c) := by
        intro c same
        apply last c
        cases fmt with
        | nil => cases same
        | cons e fmt => rw [List.getLast?_cons_cons]; exact same
      cases d with
      | conv k =>
          have count : assigned (.conv k :: fmt) = assigned fmt + 1 := by simp [assigned]
          rw [count] at all
          rw [Lib.sscanf] at all ⊢
          cases read : scanInt k.base s with
          | none => rw [read] at all; simp at all
          | some found =>
              obtain ⟨z, rest⟩ := found
              rw [read] at all
              obtain ⟨t, rfl, numeral⟩ := scanInt_iff.mp read
              exact .conv numeral (ih last' (by simpa using all))
      | lit c =>
          have count : assigned (.lit c :: fmt) = assigned fmt := by simp [assigned]
          rw [count] at all
          have more : 0 < assigned fmt := by
            apply assigned_pos last'
            rintro rfl
            exact last c rfl
          cases s with
          | nil => simp [Lib.sscanf] at all; omega
          | cons c' rest =>
              rw [Lib.sscanf] at all ⊢
              by_cases same : c' = c
              · subst same
                rw [if_pos rfl] at all ⊢
                exact .lit (ih last' all)
              · rw [if_neg same] at all
                simp at all
                omega

/-- A scan assigns every object if and only if the string matches the format. -/
theorem sscanf_iff (last : ∀ c, fmt.getLast? ≠ some (.lit c)) (count : vs.length = assigned fmt) :
    Lib.sscanf fmt s = vs ↔ Matches fmt s vs := by
  constructor
  · rintro rfl
    exact Matches.of_sscanf last count
  · exact fun m => m.sscanf.1

end Formats

/-! ### Texts of numerals -/

section Texts

variable {base : Nat} {t rest rest' : List Char} {z : Int}

/-- No numeral contains the character, or goes on with it. -/
def Separator (c : Char) : Prop :=
  isSpace c = false ∧ digitVal c = none ∧ c ∉ ['+', '-', 'x', 'X']

instance (c : Char) : Decidable (Separator c) := inferInstanceAs (Decidable (_ ∧ _))

theorem Separator.not_isDigit {c : Char} (sep : Separator c) : isDigit base c = false := by
  rw [isDigit, sep.2.1]

theorem Numeral.not_mem {c : Char} (numeral : Numeral base t z rest) (sep : Separator c) :
    c ∉ t := by
  obtain ⟨notSpace, noDigit, other⟩ := sep
  simp only [List.mem_cons, List.not_mem_nil, or_false, not_or] at other
  have notZero : c ≠ '0' := by
    rintro rfl
    exact absurd noDigit (by decide)
  cases numeral with
  | mk blank signed hex _ digits =>
      simp only [List.mem_cons, Prod.mk.injEq, List.not_mem_nil, or_false] at signed
      simp only [List.mem_append, not_or]
      refine ⟨⟨⟨fun h => ?_, ?_⟩, ?_⟩, fun h => isDigit_ne (digits c h) noDigit rfl⟩
      · rw [blank c h] at notSpace
        cases notSpace
      · rcases signed with ⟨rfl, -⟩ | ⟨rfl, -⟩ | ⟨rfl, -⟩ <;> simp [other]
      · rcases hex with rfl | ⟨-, rfl | rfl⟩ <;> simp [other, notZero]

/-- A numeral is read the same before any separator, and at the end. -/
theorem Numeral.before (numeral : Numeral base t z rest)
    (sep : ∀ c r, rest' = c :: r → Separator c) : Numeral base t z rest' := by
  cases numeral with
  | mk blank signed hex someDigit digits _ _ =>
      apply Numeral.mk blank signed hex someDigit digits
      · exact fun c r first => (sep c r first).not_isDigit
      · intro c r first _ _ _
        have other := (sep c r first).2.2
        simp only [List.mem_cons, List.not_mem_nil, or_false, not_or] at other
        exact ⟨other.2.2.1, other.2.2.2⟩

theorem ofDigits_concat (base : Nat) (ds : List Char) (c : Char) :
    ofDigits base (ds ++ [c]) = base * ofDigits base ds + (digitVal c).getD 0 := by
  rw [ofDigits, List.foldl_append]
  rfl

theorem ofDigits_toDigits (one : 1 < base) (le : base ≤ 16) (n : Nat) :
    ofDigits base (Nat.toDigits base n) = n := by
  induction n using Nat.strong_induction_on with
  | _ n ih =>
      rw [Nat.toDigits_eq_if one]
      split
      · rename_i small
        rw [ofDigits, List.foldl_cons, List.foldl_nil, digitVal_digitChar n (by omega)]
        simp
      · rename_i large
        have lt : n % base < base := Nat.mod_lt _ (by omega)
        rw [ofDigits_concat, ih _ (Nat.div_lt_self (by omega) one),
          digitVal_digitChar _ (by omega)]
        exact Nat.div_add_mod n base

theorem isDigit_toDigits (one : 1 < base) (le : base ≤ 16) (n : Nat) :
    ∀ c ∈ Nat.toDigits base n, isDigit base c = true := by
  induction n using Nat.strong_induction_on with
  | _ n ih =>
      rw [Nat.toDigits_eq_if one]
      split
      · rename_i small
        intro c hc
        rw [List.mem_singleton.mp hc]
        exact isDigit_digitChar le small
      · rename_i large
        intro c hc
        rcases List.mem_append.mp hc with high | low
        · exact ih _ (Nat.div_lt_self (by omega) one) c high
        · rw [List.mem_singleton.mp low]
          exact isDigit_digitChar le (Nat.mod_lt _ (by omega))

theorem ofDigits_zeros (base k : Nat) (ds : List Char) :
    ofDigits base (List.replicate k '0' ++ ds) = ofDigits base ds := by
  induction k with
  | zero => rfl
  | succ k ih =>
      rw [List.replicate_succ, List.cons_append, ofDigits, List.foldl_cons]
      exact ih

/-- Digits with or without a minus. -/
theorem Numeral.digits {ds : List Char} (neg : Bool) (someDigit : ds ≠ [])
    (digits : ∀ c ∈ ds, isDigit base c = true) (sep : ∀ c r, rest = c :: r → Separator c) :
    Numeral base ((if neg then ['-'] else []) ++ ds)
      (if neg then -(ofDigits base ds : Int) else ofDigits base ds) rest := by
  have text : Numeral base ([] ++ (if neg then ['-'] else []) ++ [] ++ ds)
      (if neg then -(ofDigits base ds : Int) else ofDigits base ds) [] := by
    apply Numeral.mk
    · simp
    · cases neg <;> simp
    · exact .inl rfl
    · exact someDigit
    · exact digits
    · simp
    · simp
  rw [List.nil_append, List.append_nil] at text
  exact text.before sep

theorem isDigit_printHex (width n : Nat) :
    ∀ c ∈ Lib.printHex width n, isDigit 16 c = true := by
  intro c hc
  rcases List.mem_append.mp hc with zero | digit
  · rw [List.eq_of_mem_replicate zero]
    decide
  · exact isDigit_toDigits (by decide) (by decide) n c digit

/-- What `%0<width>x` prints is read back. -/
theorem Numeral.printHex (width n : Nat) (sep : ∀ c r, rest = c :: r → Separator c) :
    Numeral 16 (Lib.printHex width n) n rest := by
  have value : ofDigits 16 (Lib.printHex width n) = n := by
    rw [Lib.printHex, ofDigits_zeros, ofDigits_toDigits (by decide) (by decide)]
  have text := Numeral.digits false (by simp [Lib.printHex]) (isDigit_printHex width n) sep
  rw [value] at text
  exact text

/-- What `%1d` prints is read back. -/
theorem Numeral.printInt (z : Int) (sep : ∀ c r, rest = c :: r → Separator c) :
    Numeral 10 (Lib.printInt z) z rest := by
  have decDigits : ∀ c ∈ Nat.toDigits 10 z.natAbs, isDigit 10 c = true :=
    isDigit_toDigits (by decide) (by decide) z.natAbs
  have value : ofDigits 10 (Nat.toDigits 10 z.natAbs) = z.natAbs :=
    ofDigits_toDigits (by decide) (by decide) z.natAbs
  unfold Lib.printInt
  split
  · rename_i negative
    have text := Numeral.digits true Nat.toDigits_ne_nil decDigits sep
    have same : -((z.natAbs : Nat) : Int) = z := by omega
    simp only [value, if_true, same] at text
    exact text
  · rename_i positive
    have text := Numeral.digits false Nat.toDigits_ne_nil decDigits sep
    have same : ((z.natAbs : Nat) : Int) = z := by omega
    simp only [value, Bool.false_eq_true, if_false, same] at text
    exact text

theorem Conv.store_x (v : BitVec 32) : Conv.x.store v.toNat = v := by
  have lt := v.isLt
  rw [Conv.store, strtoul, if_pos ⟨by omega, by omega⟩, Int.emod_eq_of_lt (by omega) (by omega)]
  simp

theorem Conv.store_d (v : BitVec 32) : Conv.d.store v.toInt = v := by
  have lt := BitVec.toInt_lt (x := v)
  have ge := BitVec.le_toInt (x := v)
  have inside : strtol v.toInt = v.toInt := by
    rw [strtol]
    omega
  rw [Conv.store, inside, BitVec.ofInt_toInt]

theorem length_printHex {width n : Nat} (pos : 0 < width) :
    width ≤ (printHex width n).length ∧ ((printHex width n).length = width ↔ n < 16 ^ width) := by
  rw [← Nat.length_toDigits_le_iff (by decide) pos, printHex, List.length_append,
    List.length_replicate]
  omega

/-- One digit is printed the same in both bases. -/
theorem printInt_digit {n : Nat} (lt : n < 10) : printInt n = printHex 1 n := by
  have hex : Nat.toDigits 16 n = [n.digitChar] := Nat.toDigits_of_lt_base (by omega)
  have dec : Nat.toDigits 10 n = [n.digitChar] := Nat.toDigits_of_lt_base lt
  rw [printInt, if_neg (by omega), printHex, hex, Int.natAbs_natCast, dec]
  rfl

theorem length_printInt (z : Int) :
    1 ≤ (printInt z).length ∧ ((printInt z).length = 1 ↔ 0 ≤ z ∧ z < 10) := by
  have pos := Nat.length_toDigits_pos (b := 10) (n := z.natAbs)
  have one := Nat.length_toDigits_le_iff (b := 10) (n := z.natAbs) (by decide) Nat.one_pos
  unfold printInt
  split
  · rw [List.length_cons]
    omega
  · omega

end Texts

end Lib
