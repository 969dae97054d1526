import Mathlib
import Unvmed.Lib.CString

/-!
The argument vector on its way from the client to the daemon (`src/unvme.c`,
`src/unvmed.c`).

The client joins the arguments, each with a newline, in a buffer on its stack and
writes the whole buffer to a file. The daemon reads that file line by line and puts
every line into an array of `argc + 1` pointers; it also builds the command line
for its log. None of the buffers is checked against the lengths of the arguments: a
write past the end of one is `none` here.

* `argv_carried_iff`: the daemon gets the client's arguments, and no write leaves
  its buffer, if and only if all three limits are met (`Fits`).
* `long_arg_overflows`: an argument of 127 bytes is cut in two by `fgets`, and its
  first part is copied past the end of its allocation.
-/

namespace Unvmed.Ipc

open Lib

/-- An argument: a C string without a newline. -/
structure Arg where
  bytes : List UInt8
  noNul : 0 ∉ bytes
  oneLine : newline ∉ bytes

def slash : UInt8 := 47

def space : UInt8 := 32

/-- `UNVME_MAX_OPT`. -/
def maxOpt : Nat := 64

/-- `UNVME_MAX_STR`. -/
def maxStr : Nat := 32

/-- `UNVME_ARGV_MAXLEN`. -/
def argvMaxlen : Nat := 4096

/-- `sizeof(buf)` in the daemon. -/
def bufSize : Nat := 128

/-! ### The client -/

/-- `strcat(buf, s)` on the client's buffer. -/
def strcat (buf s : List UInt8) : Option (List UInt8) :=
  (writeStr argvMaxlen buf.length s).map (buf ++ ·)

/-- `unvme_msg_init` of the client: the content of `argv_file`. The buffer is zeroed
and written as a whole. -/
def Client.msgInit (argv : List (List UInt8)) : Option (List UInt8) :=
  (argv.foldlM (fun buf arg => (strcat buf arg).bind fun buf => strcat buf [newline]) []).map
    fun buf => buf ++ List.replicate (argvMaxlen - buf.length) 0

/-! ### The daemon -/

/-- `argv[i] = NULL` after the last argument. -/
def terminate (argc : Nat) (argv : List (List UInt8)) : Option (List (List UInt8)) :=
  if argv.length < argc + 1 then some argv else none

/-- The loop around `fgets`. `argv` holds the arguments so far, `oneline` what
`__argv` holds. The allocation is made for the line with its newline. -/
def readArgs (argc : Nat) :
    List (List UInt8) → List (List UInt8) → List UInt8 → Option (List (List UInt8))
  | [], argv, _ => terminate argc argv
  | buf :: bufs, argv, oneline =>
      if strlen buf = 0 then terminate argc argv
      else if argv.length < argc + 1 then
        let arg := if argv.length = 0 then afterLast slash (cutAt newline buf) else cutAt newline buf
        let sep := if argv.length = 0 then [] else [space]
        (writeStr (strlen buf) 0 arg).bind fun arg =>
          (writeStr (maxOpt * maxStr) oneline.length (sep ++ arg)).bind fun text =>
            readArgs argc bufs (argv ++ [arg]) (oneline ++ text)
      else none

/-- `unvme_msg_init` of the daemon, with the array that `__unvme_handler` allocates. -/
def Daemon.msgInit (argc : Nat) (file : List UInt8) : Option (List (List UInt8)) :=
  readArgs argc (fgetsAll bufSize file) [] []

/-! ### What is to arrive -/

/-- The arguments the daemon is to get: the first one without its directory. -/
def delivered : List Arg → List (List UInt8)
  | [] => []
  | arg :: argv => afterLast slash arg.bytes :: argv.map Arg.bytes

/-- The file is written and read within every buffer, and the daemon has the
client's arguments. -/
def Carried (argv : List Arg) : Prop :=
  ∃ file, Client.msgInit (argv.map Arg.bytes) = some file ∧
    Daemon.msgInit argv.length file = some (delivered argv)

/-- The bytes of a list of arguments, each with one more for its separator. -/
def size (argv : List (List UInt8)) : Nat := (argv.map fun arg => arg.length + 1).sum

/-- Each argument fits `fgets` with its newline, all of them the client's buffer, and
the log line `__argv`. -/
structure Fits (argv : List Arg) : Prop where
  lines : ∀ arg ∈ argv, arg.bytes.length + 2 ≤ bufSize
  buffer : size (argv.map Arg.bytes) < argvMaxlen
  oneline : size (delivered argv) ≤ maxOpt * maxStr

/-! ### The client's buffer -/

/-- The text of the arguments, one a line. -/
def text (argv : List (List UInt8)) : List UInt8 := argv.flatMap fun arg => arg ++ [newline]

theorem length_text (argv : List (List UInt8)) : (text argv).length = size argv := by
  induction argv with
  | nil => rfl
  | cons arg argv ih =>
      simp only [text, size, List.flatMap_cons, List.length_append, List.map_cons, List.sum_cons,
        List.length_singleton] at ih ⊢
      omega

theorem strcat_eq_some {buf s r : List UInt8} :
    strcat buf s = some r ↔ buf.length + s.length < argvMaxlen ∧ r = buf ++ s := by
  simp only [strcat, Option.map_eq_some_iff, writeStr_eq_some]
  constructor
  · rintro ⟨_, ⟨room, rfl⟩, rfl⟩
    exact ⟨room, rfl⟩
  · rintro ⟨room, rfl⟩
    exact ⟨s, ⟨room, rfl⟩, rfl⟩

/-- The loop over the arguments, from a buffer that holds `buf`. -/
theorem client_loop {argv : List (List UInt8)} {buf r : List UInt8}
    (room : buf.length < argvMaxlen) :
    (argv.foldlM (fun buf arg => (strcat buf arg).bind fun buf => strcat buf [newline]) buf = some r ↔
      buf.length + size argv < argvMaxlen ∧ r = buf ++ text argv) := by
  induction argv generalizing buf r with
  | nil =>
      simp only [List.foldlM_nil, Option.pure_def, Option.some.injEq, size, List.map_nil,
        List.sum_nil, text, List.flatMap_nil, List.append_nil]
      constructor
      · rintro rfl
        exact ⟨by omega, rfl⟩
      · rintro ⟨-, rfl⟩
        rfl
  | cons arg argv ih =>
      simp only [List.foldlM_cons, Option.bind_eq_bind, Option.bind_eq_some_iff, strcat_eq_some,
        size, List.map_cons, List.sum_cons, text, List.flatMap_cons]
      constructor
      · rintro ⟨_, ⟨_, ⟨-, rfl⟩, line, rfl⟩, rest⟩
        rw [ih (by simpa [Nat.add_assoc] using line)] at rest
        obtain ⟨all, rfl⟩ := rest
        refine ⟨?_, by simp [text]⟩
        simp only [List.length_append, List.length_singleton, size] at all
        omega
      · rintro ⟨all, rfl⟩
        refine ⟨_, ⟨_, ⟨by omega, rfl⟩, ?_, rfl⟩, ?_⟩
        · simp only [List.length_append, List.length_singleton]
          omega
        · have line : (buf ++ arg ++ [newline]).length < argvMaxlen := by
            simp only [List.length_append, List.length_singleton]
            omega
          rw [ih line]
          refine ⟨?_, by simp [text]⟩
          simp only [List.length_append, List.length_singleton, size]
          omega

theorem client_eq_some {argv : List (List UInt8)} {file : List UInt8} :
    Client.msgInit argv = some file ↔
      size argv < argvMaxlen ∧ file = text argv ++ List.replicate (argvMaxlen - size argv) 0 := by
  have empty : ([] : List UInt8).length < argvMaxlen := by decide
  simp only [Client.msgInit, Option.map_eq_some_iff, client_loop empty, List.length_nil,
    Nat.zero_add, List.nil_append]
  constructor
  · rintro ⟨_, ⟨room, rfl⟩, rfl⟩
    exact ⟨room, by rw [length_text]⟩
  · rintro ⟨room, rfl⟩
    exact ⟨_, ⟨room, rfl⟩, by rw [length_text]⟩

/-! ### The daemon's buffers -/

/-- A list of strings as the file holds them. -/
def Clean (argv : List (List UInt8)) : Prop := ∀ arg ∈ argv, 0 ∉ arg ∧ newline ∉ arg

section Line

variable {s : List UInt8} (noNul : 0 ∉ s) (oneLine : newline ∉ s)
include noNul

theorem strlen_line : strlen (s ++ [newline]) = s.length + 1 := by
  have clean : 0 ∉ s ++ [newline] := by
    simp only [List.mem_append, List.mem_singleton, not_or]
    exact ⟨noNul, by decide⟩
  rw [strlen, cstr_of_clean clean, List.length_append, List.length_singleton]

theorem strlen_cut {n : Nat} (long : n ≤ s.length) : strlen (s.take n) = n := by
  have clean : 0 ∉ s.take n := fun h => noNul (List.mem_of_mem_take h)
  rw [strlen, cstr_of_clean clean, List.length_take, Nat.min_eq_left long]

include oneLine

theorem cutAt_line : cutAt newline (s ++ [newline]) = s := by
  have clean : 0 ∉ s ++ [newline] := by
    simp only [List.mem_append, List.mem_singleton, not_or]
    exact ⟨noNul, by decide⟩
  have same : ∀ d ∈ s, decide (d ≠ newline) = true := by
    intro d hd
    have other : d ≠ newline := fun same => oneLine (same ▸ hd)
    simpa using other
  rw [cutAt, cstr_of_clean clean, List.takeWhile_append_of_pos same]
  simp

theorem cutAt_cut (n : Nat) : cutAt newline (s.take n) = s.take n := by
  have clean : 0 ∉ s.take n := fun h => noNul (List.mem_of_mem_take h)
  have cleanLine : newline ∉ s.take n := fun h => oneLine (List.mem_of_mem_take h)
  rw [cutAt, cstr_of_clean clean, takeWhile_of_absent cleanLine]

end Line

/-- The file behind a line that does not fit goes on in the middle of that line. -/
theorem fgetsAll_cut {s rest : List UInt8} (oneLine : newline ∉ s) (long : bufSize ≤ s.length + 1) :
    fgetsAll bufSize (s ++ newline :: rest) =
      s.take (bufSize - 1) :: fgetsAll bufSize (s.drop (bufSize - 1) ++ newline :: rest) :=
  fgetsAll_long oneLine long (by decide)

theorem terminate_eq_some {argc : Nat} {argv r : List (List UInt8)} :
    terminate argc argv = some r ↔ argv.length ≤ argc ∧ r = argv := by
  unfold terminate
  split
  · simp only [Option.some.injEq]
    constructor
    · rintro rfl
      exact ⟨by omega, rfl⟩
    · rintro ⟨-, rfl⟩
      rfl
  · simp only [reduceCtorEq, false_iff, not_and]
    omega

/-- One round of the loop, for a buffer that holds a string. -/
theorem readArgs_cons {argc : Nat} {buf oneline : List UInt8} {bufs argv r : List (List UInt8)}
    (some_text : strlen buf ≠ 0) :
    readArgs argc (buf :: bufs) argv oneline = some r ↔
      argv.length ≤ argc ∧
      ∃ arg sep, arg = (if argv.length = 0 then afterLast slash (cutAt newline buf)
          else cutAt newline buf) ∧ sep = (if argv.length = 0 then [] else [space]) ∧
        arg.length < strlen buf ∧ oneline.length + (sep ++ arg).length < maxOpt * maxStr ∧
        readArgs argc bufs (argv ++ [arg]) (oneline ++ (sep ++ arg)) = some r := by
  rw [readArgs, if_neg some_text]
  split
  · simp only [Option.bind_eq_some_iff, writeStr_eq_some, Nat.zero_add]
    constructor
    · rintro ⟨_, ⟨alloc, rfl⟩, _, ⟨line, rfl⟩, rest⟩
      exact ⟨by omega, _, _, rfl, rfl, alloc, line, rest⟩
    · rintro ⟨-, _, _, rfl, rfl, alloc, line, rest⟩
      exact ⟨_, ⟨alloc, rfl⟩, _, ⟨line, rfl⟩, rest⟩
  · simp only [reduceCtorEq, false_iff, not_and]
    omega

/-- The loop after the first argument: each line must fit, and becomes one argument. -/
theorem readArgs_lines {argc k : Nat} (padded : 0 < k) {args argv r : List (List UInt8)}
    {oneline : List UInt8} (clean : Clean args) (later : 0 < argv.length)
    (room : oneline.length < maxOpt * maxStr) :
    readArgs argc (fgetsAll bufSize (text args ++ List.replicate k 0)) argv oneline = some r ↔
      (∀ arg ∈ args, arg.length + 2 ≤ bufSize) ∧ argv.length + args.length ≤ argc ∧
        oneline.length + size args < maxOpt * maxStr ∧ r = argv ++ args := by
  induction args generalizing argv r oneline with
  | nil =>
      obtain ⟨buf, bufs, read, empty⟩ := @fgetsAll_nul bufSize k padded (by decide)
      simp only [text, List.flatMap_nil, List.nil_append, read, readArgs, if_pos empty,
        terminate_eq_some, size, List.map_nil, List.sum_nil, Nat.add_zero, List.append_nil,
        List.not_mem_nil, List.length_nil]
      constructor
      · rintro ⟨few, rfl⟩
        exact ⟨fun _ h => absurd h id, few, room, rfl⟩
      · rintro ⟨-, few, -, rfl⟩
        exact ⟨few, rfl⟩
  | cons arg args ih =>
      obtain ⟨noNul, oneLine⟩ := clean arg List.mem_cons_self
      have rest : Clean args := fun s hs => clean s (List.mem_cons_of_mem _ hs)
      have file : text (arg :: args) ++ List.replicate k 0 =
          arg ++ newline :: (text args ++ List.replicate k 0) := by
        simp [text]
      rw [file]
      by_cases fits : arg.length + 2 ≤ bufSize
      · rw [fgetsAll_line oneLine fits, readArgs_cons (by rw [strlen_line noNul]; omega),
          cutAt_line noNul oneLine, strlen_line noNul, if_neg (by omega), if_neg (by omega)]
        constructor
        · rintro ⟨few, _, _, rfl, rfl, -, line, read⟩
          rw [ih rest (by simp) (by simpa using line)] at read
          obtain ⟨all, few, line, rfl⟩ := read
          refine ⟨?_, ?_, ?_, by simp⟩
          · simpa using ⟨fits, all⟩
          · simp only [List.length_append, List.length_cons] at few ⊢
            omega
          · simp only [size, List.map_cons, List.sum_cons, List.length_append,
              List.length_singleton] at line ⊢
            omega
        · rintro ⟨all, few, line, rfl⟩
          simp only [size, List.map_cons, List.sum_cons, List.length_cons] at few line
          refine ⟨by omega, _, _, rfl, rfl, by omega, ?_, ?_⟩
          · simp only [List.length_append, List.length_singleton]
            omega
          · rw [ih rest (by simp) (by simp; omega)]
            refine ⟨fun s hs => all s (List.mem_cons_of_mem _ hs), ?_, ?_, by simp⟩
            · simp only [List.length_append, List.length_singleton]
              omega
            · simp only [size, List.length_append, List.length_singleton]
              omega
      -- A part of a line fills its allocation and leaves no room for the NUL.
      · have long : bufSize ≤ arg.length + 1 := by omega
        have filled : strlen (arg.take (bufSize - 1)) = bufSize - 1 := strlen_cut noNul (by omega)
        have nonempty : bufSize - 1 ≠ 0 := by decide
        rw [fgetsAll_cut oneLine long, readArgs_cons (by rw [filled]; exact nonempty), filled,
          cutAt_cut noNul oneLine, if_neg (by omega)]
        constructor
        · rintro ⟨-, _, _, rfl, -, alloc, -⟩
          rw [List.length_take] at alloc
          omega
        · rintro ⟨all, -⟩
          exact absurd (all arg List.mem_cons_self) fits

theorem afterLast_length (c : UInt8) (s : List UInt8) : (afterLast c s).length ≤ s.length := by
  rw [afterLast, List.length_reverse]
  calc (s.reverse.takeWhile (· ≠ c)).length
      ≤ s.reverse.length := (List.takeWhile_sublist _).length_le
    _ = s.length := List.length_reverse

theorem clean_bytes (argv : List Arg) : Clean (argv.map Arg.bytes) := by
  intro s hs
  obtain ⟨arg, -, rfl⟩ := List.mem_map.mp hs
  exact ⟨arg.noNul, arg.oneLine⟩

/-- The whole loop on a file of the client. A first argument that `fgets` cuts
counts twice, and the array has no room for the end marker. -/
theorem daemon_eq_some {arg : Arg} {argv : List Arg} {k : Nat} (padded : 0 < k) :
    Daemon.msgInit (argv.length + 1)
        (text ((arg :: argv).map Arg.bytes) ++ List.replicate k 0) =
      some (delivered (arg :: argv)) ↔
    (∀ a ∈ arg :: argv, a.bytes.length + 2 ≤ bufSize) ∧
      size (delivered (arg :: argv)) ≤ maxOpt * maxStr := by
  have file : text ((arg :: argv).map Arg.bytes) ++ List.replicate k 0 =
      arg.bytes ++ newline :: (text (argv.map Arg.bytes) ++ List.replicate k 0) := by
    simp [text]
  rw [Daemon.msgInit, file]
  by_cases fits : arg.bytes.length + 2 ≤ bufSize
  · have short := afterLast_length slash arg.bytes
    rw [fgetsAll_line arg.oneLine fits, readArgs_cons (by rw [strlen_line arg.noNul]; omega),
      cutAt_line arg.noNul arg.oneLine, strlen_line arg.noNul, if_pos List.length_nil,
      if_pos List.length_nil]
    constructor
    · rintro ⟨-, _, _, rfl, rfl, -, line, read⟩
      rw [readArgs_lines padded (clean_bytes argv) (by simp) (by simpa using line)] at read
      obtain ⟨all, -, line, -⟩ := read
      refine ⟨?_, ?_⟩
      · intro a ha
        rcases List.mem_cons.mp ha with rfl | later
        · exact fits
        · exact all a.bytes (List.mem_map_of_mem later)
      · simp only [List.nil_append] at line
        simp only [size, delivered, List.map_cons, List.sum_cons] at line ⊢
        omega
    · rintro ⟨all, line⟩
      simp only [size, delivered, List.map_cons, List.sum_cons] at line
      refine ⟨by simp, _, _, rfl, rfl, by omega, ?_, ?_⟩
      · simp only [List.nil_append, List.length_nil, Nat.zero_add]
        omega
      · rw [readArgs_lines padded (clean_bytes argv) (by simp) (by simp; omega)]
        refine ⟨?_, by simp [Nat.add_comm], ?_, by simp [delivered]⟩
        · intro s hs
          obtain ⟨a, ha, rfl⟩ := List.mem_map.mp hs
          exact all a (List.mem_cons_of_mem _ ha)
        · simp only [List.nil_append, size]
          omega
  · have long : bufSize ≤ arg.bytes.length + 1 := by omega
    have filled : strlen (arg.bytes.take (bufSize - 1)) = bufSize - 1 :=
      strlen_cut arg.noNul (by omega)
    have nonempty : bufSize - 1 ≠ 0 := by decide
    rw [fgetsAll_cut arg.oneLine long, readArgs_cons (by rw [filled]; exact nonempty)]
    constructor
    · rintro ⟨-, first, sep, -, -, -, line, read⟩
      have again : arg.bytes.drop (bufSize - 1) ++
          newline :: (text (argv.map Arg.bytes) ++ List.replicate k 0) =
          text (arg.bytes.drop (bufSize - 1) :: argv.map Arg.bytes) ++ List.replicate k 0 := by
        simp [text]
      have clean : Clean (arg.bytes.drop (bufSize - 1) :: argv.map Arg.bytes) := by
        intro s hs
        rcases List.mem_cons.mp hs with rfl | later
        · exact ⟨fun h => arg.noNul (List.mem_of_mem_drop h),
            fun h => arg.oneLine (List.mem_of_mem_drop h)⟩
        · exact clean_bytes argv s later
      rw [again, readArgs_lines padded clean (by simp) (by simpa using line)] at read
      obtain ⟨-, few, -⟩ := read
      simp only [List.nil_append, List.length_cons, List.length_map] at few
      omega
    · rintro ⟨all, -⟩
      exact absurd (all arg List.mem_cons_self) fits

/-- **The argument vector arrives exactly when it fits.** -/
theorem argv_carried_iff (argv : List Arg) : Carried argv ↔ Fits argv := by
  cases argv with
  | nil =>
      refine iff_of_true ?_ ⟨fun _ h => absurd h List.not_mem_nil, by decide, by decide⟩
      refine ⟨_, client_eq_some.mpr ⟨by decide, rfl⟩, ?_⟩
      obtain ⟨buf, bufs, read, empty⟩ := @fgetsAll_nul bufSize argvMaxlen (by decide) (by decide)
      have start : text (List.map Arg.bytes []) ++
          List.replicate (argvMaxlen - size (List.map Arg.bytes [])) 0 =
          List.replicate argvMaxlen 0 := rfl
      rw [Daemon.msgInit, start, read, readArgs, if_pos empty]
      rfl
  | cons arg argv =>
      constructor
      · rintro ⟨file, written, read⟩
        obtain ⟨buffer, rfl⟩ := client_eq_some.mp written
        obtain ⟨lines, oneline⟩ := (daemon_eq_some (by omega)).mp read
        exact ⟨lines, buffer, oneline⟩
      · intro h
        have buffer := h.buffer
        exact ⟨_, client_eq_some.mpr ⟨h.buffer, rfl⟩,
          (daemon_eq_some (by omega)).mpr ⟨h.lines, h.oneline⟩⟩

/-- An argument of 127 bytes. -/
def longArg : Arg where
  bytes := List.replicate 127 97
  noNul := by simp
  oneLine := by simp [newline]

/-- A long argument does not arrive. -/
theorem long_arg_overflows : ¬ ∀ argv, Carried argv := by
  intro all
  obtain ⟨file, written, read⟩ := all [longArg, longArg]
  obtain ⟨buffer, rfl⟩ := client_eq_some.mp written
  have lines := ((daemon_eq_some (by omega)).mp read).1 longArg List.mem_cons_self
  have length : longArg.bytes.length = 127 := List.length_replicate
  rw [length] at lines
  exact absurd lines (by decide)

end Unvmed.Ipc
