import Mathlib.Data.List.TakeWhile
import Mathlib.Algebra.Order.Group.Nat

/-!
C strings in byte buffers, and files read line by line.

A buffer is the list of its bytes. A string ends at its first NUL byte, and every
function that writes one writes the NUL too. `fgets` takes a line, or as much of it
as its buffer holds; `fgetsAll` is what a loop around it reads.
-/

namespace Lib

/-- The string a buffer holds. -/
def cstr (buf : List UInt8) : List UInt8 := buf.takeWhile (· ≠ 0)

def strlen (buf : List UInt8) : Nat := (cstr buf).length

/-- The string that is left when its first `c` becomes the NUL. -/
def cutAt (c : UInt8) (buf : List UInt8) : List UInt8 := (cstr buf).takeWhile (· ≠ c)

/-- What follows the last `c` (`strrchr`); the whole string if there is none. -/
def afterLast (c : UInt8) (s : List UInt8) : List UInt8 := (s.reverse.takeWhile (· ≠ c)).reverse

/-- Write a string and its NUL into a buffer of `size` bytes, after the `used` ones. -/
def writeStr (size used : Nat) (s : List UInt8) : Option (List UInt8) :=
  if used + s.length + 1 ≤ size then some s else none

def newline : UInt8 := 10

/-- `fgets(buf, size, file)`: the bytes it stores before its NUL. -/
def fgets (size : Nat) (file : List UInt8) : List UInt8 :=
  (file.take (size - 1)).takeWhile (· ≠ newline) ++
    ((file.take (size - 1)).dropWhile (· ≠ newline)).take 1

/-- What the calls of `fgets` return one after another, until the end of the file.
A buffer of one byte takes nothing. -/
def fgetsAll (size : Nat) (file : List UInt8) : List (List UInt8) :=
  if file = [] ∨ size ≤ 1 then []
  else fgets size file :: fgetsAll size (file.drop (fgets size file).length)
termination_by file.length
decreasing_by
  rename_i more
  rw [not_or] at more
  have taken : 0 < (fgets size file).length := by
    cases file with
    | nil => exact absurd rfl more.1
    | cons c rest =>
        obtain ⟨n, hn⟩ : ∃ n, size - 1 = n + 1 := ⟨size - 2, by omega⟩
        rw [fgets, hn, List.take_succ_cons, List.takeWhile_cons, List.dropWhile_cons]
        split <;> simp
  have some_left : 0 < file.length := List.length_pos_iff.mpr more.1
  simp only [List.length_drop]
  omega

/-! ### Strings without NUL and lines that fit -/

section Lines

variable {s rest : List UInt8} {size : Nat}

theorem takeWhile_of_absent {c : UInt8} (absent : c ∉ s) : s.takeWhile (· ≠ c) = s := by
  rw [List.takeWhile_eq_self_iff]
  intro d hd
  have other : d ≠ c := fun same => absent (same ▸ hd)
  simpa using other

theorem dropWhile_of_absent {c : UInt8} (absent : c ∉ s) : s.dropWhile (· ≠ c) = [] := by
  rw [List.dropWhile_eq_nil_iff]
  intro d hd
  have other : d ≠ c := fun same => absent (same ▸ hd)
  simpa using other

theorem cstr_of_clean (clean : 0 ∉ s) : cstr s = s := takeWhile_of_absent clean

/-- A line that fits is taken with its newline. -/
theorem fgets_line (oneLine : newline ∉ s) (fits : s.length + 2 ≤ size) :
    fgets size (s ++ newline :: rest) = s ++ [newline] := by
  have start : (s ++ newline :: rest).take (size - 1) =
      s ++ newline :: rest.take (size - 1 - s.length - 1) := by
    obtain ⟨n, hn⟩ : ∃ n, size - 1 - s.length = n + 1 := ⟨size - 2 - s.length, by omega⟩
    rw [List.take_append, List.take_of_length_le (by omega), hn, List.take_succ_cons]
    rfl
  have same : ∀ d ∈ s, decide (d ≠ newline) = true := by
    intro d hd
    have other : d ≠ newline := fun same => oneLine (same ▸ hd)
    simpa using other
  rw [fgets, start, List.takeWhile_append_of_pos same, List.dropWhile_append_of_pos same]
  simp

/-- Of a line that does not fit, the buffer is filled. -/
theorem fgets_long (oneLine : newline ∉ s) (long : size - 1 ≤ s.length) :
    fgets size (s ++ rest) = s.take (size - 1) := by
  have clean : newline ∉ s.take (size - 1) := fun h => oneLine (List.mem_of_mem_take h)
  rw [fgets, List.take_append_of_le_length long, takeWhile_of_absent clean,
    dropWhile_of_absent clean, List.take_nil, List.append_nil]

theorem fgetsAll_line (oneLine : newline ∉ s) (fits : s.length + 2 ≤ size) :
    fgetsAll size (s ++ newline :: rest) = (s ++ [newline]) :: fgetsAll size rest := by
  rw [fgetsAll, if_neg (by simp; omega), fgets_line oneLine fits]
  simp

theorem fgetsAll_long (oneLine : newline ∉ s) (long : size ≤ s.length + 1) (room : 2 ≤ size) :
    fgetsAll size (s ++ rest) = s.take (size - 1) :: fgetsAll size (s.drop (size - 1) ++ rest) := by
  have some_left : s ≠ [] := by
    rintro rfl
    simp at long
    omega
  rw [fgetsAll, if_neg (by simp [some_left]; omega), fgets_long oneLine (by omega),
    List.length_take, Nat.min_eq_left (by omega), List.drop_append_of_le_length (by omega)]

/-- A file that goes on with NUL bytes is read as empty strings. -/
theorem fgetsAll_nul {k : Nat} (some_left : 0 < k) (room : 2 ≤ size) :
    ∃ buf bufs, fgetsAll size (List.replicate k 0) = buf :: bufs ∧ strlen buf = 0 := by
  refine ⟨_, _, by rw [fgetsAll, if_neg (by simp; omega)], ?_⟩
  obtain ⟨n, hn⟩ : ∃ n, min (size - 1) k = n + 1 := ⟨min (size - 1) k - 1, by omega⟩
  rw [fgets, List.take_replicate, hn, List.replicate_succ]
  simp [strlen, cstr, newline]

end Lines

theorem writeStr_eq_some {size used : Nat} {s r : List UInt8} :
    writeStr size used s = some r ↔ used + s.length < size ∧ r = s := by
  unfold writeStr
  split
  · simp only [Option.some.injEq]
    constructor
    · rintro rfl
      exact ⟨by omega, rfl⟩
    · rintro ⟨-, rfl⟩
      rfl
  · simp only [reduceCtorEq, false_iff, not_and]
    omega

end Lib
