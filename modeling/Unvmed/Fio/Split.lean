import Mathlib
import Unvmed.Lib.Scan
import Unvmed.Lib.Share

/-!
Split options of the fio engine (`src/app/fio/libunvmed-engine.c`).

`write_mode` and `admin_cmd` take a list such as `write/60:zeroes/30:uncor/10`. A blank percentage
gets an even part of what is left. For every I/O `fio_libunvmed_prep` draws a number below 100 and
takes the first entry whose percentages so far are more than that; if there is none, the opcode of
the last I/O stays.

* `splits_cover_iff`: every draw has its entry, and every entry as many draws as its percentage, if
  and only if the percentages that are written add up to at most 100, without a wrap, and the rest
  is a multiple of the blank ones.
* `three_blanks_leave_a_draw`: three blank percentages add up to 99.
-/

namespace Unvmed.Split

open Lib

/-! ### The options -/

/-- An entry of `wmode_split` or `admin_split`: an opcode or an Admin command. -/
structure Entry where
  value : BitVec 8
  perc : BitVec 32
  deriving DecidableEq, Repr

/-- What the callbacks log before they return 1. -/
inductive Fail where
  /-- `invalid write_mode value: %s` -/
  | invalid (mode : List Char)
  /-- `too many entries (max %d)` -/
  | tooMany (max : ℕ)
  /-- `missing '/' in entry: %s` -/
  | missingSlash (tok : List Char)
  /-- `percentage must not be negative: %s` -/
  | negative (percStr : List Char)
  /-- `needs at least 2 entries` -/
  | tooFew
  /-- `percentages exceed 100%` -/
  | exceed
  /-- `percentages should add up to 100%` -/
  | notHundred
  deriving DecidableEq, Repr

/-- `enum uring_cmd_write_mode` -/
inductive WriteMode where
  | write
  | uncor
  | zeroes
  | verify
  deriving DecidableEq, Repr

/-- A chain of `strcmp`. -/
def lookup (table : List (String × BitVec 8)) (mode : List Char) : BitVec 8 :=
  ((table.find? fun row => row.1.toList = mode).map Prod.snd).getD 0xff

def nvmeCmdWrite : BitVec 8 := 0x01
def nvmeCmdWriteUncor : BitVec 8 := 0x04
def nvmeCmdWriteZeroes : BitVec 8 := 0x08
def nvmeCmdVerify : BitVec 8 := 0x0c

/-- `wmode_str_to_opcode` -/
def wmodeStrToOpcode : List Char → BitVec 8 :=
  lookup [("write", nvmeCmdWrite), ("uncor", nvmeCmdWriteUncor), ("zeroes", nvmeCmdWriteZeroes),
    ("verify", nvmeCmdVerify)]

/-- `admin_cmd_str_to_val`; the values of `enum libunvmed_admin_cmd`. -/
def adminCmdStrToVal : List Char → BitVec 8 :=
  lookup [("id_ctrl", 1), ("id_ns", 2), ("id_nslist", 3), ("id_nvm_ns", 4), ("id_pri_ctrl", 5),
    ("id_sec_ctrl_list", 6), ("log_smart", 7), ("log_error", 8), ("log_fw_slot", 9),
    ("log_cmd_effects", 10), ("log_persistent_event", 11), ("feat_arbitration", 12),
    ("feat_power_mgmt", 13), ("feat_temp_threshold", 14), ("feat_num_queues", 15),
    ("feat_volatile_wc", 16), ("feat_timestamp", 17), ("abort", 18)]

def atoi (s : List Char) : BitVec 32 :=
  match scanInt 10 s with
  | none => 0
  | some (z, _) => Conv.d.store z

/-- The text behind the first slash of an entry. -/
def percStr (tok : List Char) : List Char := (tok.dropWhile (· ≠ '/')).tail

/-- An entry, and what it adds to `total_perc`; `-1U` is a blank percentage. -/
def entry (toVal : List Char → BitVec 8) (tok : List Char) : Except Fail (Entry × BitVec 32) :=
  if '/' ∉ tok then .error (.missingSlash tok)
  else
    let op := toVal (tok.takeWhile (· ≠ '/'))
    if op = 0xff then .error (.invalid (tok.takeWhile (· ≠ '/')))
    else if percStr tok = [] then .ok (⟨op, -1⟩, 0)
    else if (atoi (percStr tok)).toInt < 0 then .error (.negative (percStr tok))
    else .ok (⟨op, atoi (percStr tok)⟩, atoi (percStr tok))

/-- The loop over the entries, of which there are `i` already. -/
def entries (max : ℕ) (toVal : List Char → BitVec 8) :
    ℕ → BitVec 32 → List (List Char) → Except Fail (List Entry × BitVec 32)
  | _, total, [] => .ok ([], total)
  | i, total, tok :: toks =>
      if max ≤ i then .error (.tooMany max)
      else match entry toVal tok with
        | .error fail => .error fail
        | .ok (e, perc) => (entries max toVal (i + 1) (total + perc) toks).map fun r =>
            (e :: r.1, r.2)

/-- What is left of 100 goes to the blank percentages. -/
def distribute (es : List Entry) (total : BitVec 32) : Except Fail (List Entry) :=
  if es.length < 2 then .error .tooFew
  else if 100 < total then .error .exceed
  else
    let missing := es.countP (·.perc = -1)
    if missing ≠ 0 then
      let fill := BitVec.ofNat 32 ((100 - total.toNat) / missing)
      .ok (es.map fun e => if e.perc = -1 then { e with perc := fill } else e)
    else if total ≠ 100 then .error .notHundred
    else .ok es

/-- The part of both callbacks for a list. -/
def multi (max : ℕ) (toVal : List Char → BitVec 8) (str : List Char) : Except Fail (List Entry) :=
  match entries max toVal 0 0 (str.splitOn ':') with
  | .error fail => .error fail
  | .ok (es, total) => distribute es total

/-- `struct libunvmed_options`; `wmode_split_nr` and `admin_split_nr` are the lengths. -/
structure Options where
  writeMode : WriteMode := .write
  wmodeSplit : List Entry := []
  adminCmd : BitVec 8 := 0
  adminSplit : List Entry := []
  deac : Bool := false
  writefua : Bool := false

def wmodeSplitMax : ℕ := 4

def adminSplitMax : ℕ := 6

/-- `str_write_mode_cb` -/
def strWriteModeCb (o : Options) (str : List Char) : Except Fail Options :=
  if ':' ∉ str then
    let op := wmodeStrToOpcode str
    if op = 0xff then .error (.invalid str)
    else .ok { o with
      writeMode := if op = nvmeCmdWriteUncor then .uncor
        else if op = nvmeCmdWriteZeroes then .zeroes
        else if op = nvmeCmdVerify then .verify
        else .write
      wmodeSplit := [] }
  else (multi wmodeSplitMax wmodeStrToOpcode str).map fun es =>
    { o with wmodeSplit := es, writeMode := .write }

/-- `str_admin_cmd_cb` -/
def strAdminCmdCb (o : Options) (str : List Char) : Except Fail Options :=
  if ':' ∉ str then
    let val := adminCmdStrToVal str
    if val = 0xff then .error (.invalid str) else .ok { o with adminCmd := val, adminSplit := [] }
  else (multi adminSplitMax adminCmdStrToVal str).map fun es =>
    { o with adminSplit := es, adminCmd := (es.head?.map Entry.value).getD 0 }

/-! ### The draw of an I/O -/

/-- The loop of `fio_libunvmed_prep` over the entries, with the percentages so far. -/
def select (rand : ℕ) : BitVec 32 → List Entry → Option ℕ
  | _, [] => none
  | perc, e :: es =>
      if rand < (perc + e.perc).toNat then some 0
      else (select rand (perc + e.perc) es).map (· + 1)

def nvmeIoDeac : BitVec 32 := 1 <<< 9
def nvmeIoFua : BitVec 32 := 1 <<< 14

/-- `cdw12_flag` of an entry, as `fio_libunvmed_init` sets it. -/
def cdw12Flag (o : Options) (opcode : BitVec 8) : BitVec 32 :=
  if opcode = nvmeCmdWriteZeroes ∧ o.deac then nvmeIoDeac <<< 16
  else if opcode = nvmeCmdWrite ∧ o.writefua then nvmeIoFua <<< 16
  else 0

structure IoU where
  /-- `io_u->ddir == DDIR_WRITE` -/
  write : Bool
  trimmed : Bool := false
  zeroed : Bool := false
  errored : Bool := false

structure State where
  o : Options
  io : IoU
  /-- `ld->write_opcode` -/
  writeOpcode : BitVec 8
  /-- `ld->cdw12_flags[DDIR_WRITE]` -/
  cdw12Write : BitVec 32

/-- An entry of `wmode_split` is taken. -/
def State.takeWrite (s : State) (e : Entry) : State :=
  { s with
    io := { s.io with
      trimmed := e.value == nvmeCmdWriteZeroes && s.o.deac
      zeroed := e.value == nvmeCmdWriteZeroes && !s.o.deac
      errored := e.value == nvmeCmdWriteUncor }
    writeOpcode := e.value
    cdw12Write := cdw12Flag s.o e.value }

/-- An entry of `admin_split` is taken. -/
def State.takeAdmin (s : State) (e : Entry) : State := { s with o.adminCmd := e.value }

/-- The first half of `fio_libunvmed_prep`. -/
def State.prepWrite (s : State) (rand : ℕ) : State :=
  if 1 < s.o.wmodeSplit.length ∧ s.io.write then
    match (select rand 0 s.o.wmodeSplit).bind fun i => s.o.wmodeSplit[i]? with
    | none => s
    | some e => s.takeWrite e
  else s

/-- `fio_libunvmed_prep`, for the numbers that `rand_between` draws. -/
def State.prep (s : State) (wrand arand : ℕ) : State :=
  let s := s.prepWrite wrand
  if 1 < s.o.adminSplit.length then
    match (select arand 0 s.o.adminSplit).bind fun i => s.o.adminSplit[i]? with
    | none => s
    | some e => s.takeAdmin e
  else s

/-! ### What a split promises -/

/-- The percentages of entries. -/
def weights (es : List Entry) : List ℕ := es.map fun e => e.perc.toNat

/-- Every draw chooses an entry, and an entry is chosen by as many as its percentage says. -/
structure Covers (es : List Entry) : Prop where
  each : ∀ w ∈ weights es, w ≤ 100
  sum : (weights es).sum = 100
  chosen : ∀ r < 100, (select r 0 es).isSome
  share : ∀ i e, es[i]? = some e →
    ((Finset.range 100).filter fun r => select r 0 es = some i).card = e.perc.toNat

/-- A write has the opcode of the entry that its draw chooses. -/
def WritesFresh (o : Options) : Prop :=
  ∀ wrand < 100, ∀ (arand : ℕ) (s : State), s.o = o → s.io.write = true →
    ∃ i e, select wrand 0 o.wmodeSplit = some i ∧ o.wmodeSplit[i]? = some e ∧
      (s.prep wrand arand).writeOpcode = e.value

/-- The Admin command is that of the entry that the draw chooses. -/
def AdminFresh (o : Options) : Prop :=
  ∀ arand < 100, ∀ (wrand : ℕ) (s : State), s.o = o →
    ∃ i e, select arand 0 o.adminSplit = some i ∧ o.adminSplit[i]? = some e ∧
      (s.prep wrand arand).o.adminCmd = e.value

/-- The percentages that are written. -/
def explicit (toks : List (List Char)) : List ℕ :=
  (toks.filter fun tok => percStr tok ≠ []).map fun tok => (atoi (percStr tok)).toNat

/-- How many are blank. -/
def blanks (toks : List (List Char)) : ℕ := toks.countP fun tok => percStr tok = []

/-- What is written is at most 100, and the blank ones divide the rest. -/
def Even (str : List Char) : Prop :=
  (explicit (str.splitOn ':')).sum ≤ 100 ∧
    blanks (str.splitOn ':') ∣ 100 - (explicit (str.splitOn ':')).sum

instance (str : List Char) : Decidable (Even str) := inferInstanceAs (Decidable (_ ∧ _))

/-! ### The percentages that are stored -/

section Stored

variable {max i : ℕ} {toVal : List Char → BitVec 8} {tok : List Char} {toks : List (List Char)}
  {es es' : List Entry} {e : Entry} {total total' perc : BitVec 32}

/-- The percentage of an entry before the blank ones are filled. -/
def written (tok : List Char) : BitVec 32 := if percStr tok = [] then -1 else atoi (percStr tok)

/-- What an entry adds to the sum. -/
def added (tok : List Char) : ℕ := if percStr tok = [] then 0 else (atoi (percStr tok)).toNat

/-- No number that is written is taken for a blank. -/
def Signed (tok : List Char) : Prop := written tok = -1 ↔ percStr tok = []

theorem entry_ok (accepted : entry toVal tok = .ok (e, perc)) :
    e.perc = written tok ∧ perc.toNat = added tok ∧ Signed tok := by
  unfold entry at accepted
  split at accepted
  · cases accepted
  simp only at accepted
  split at accepted
  · cases accepted
  split at accepted
  · rename_i blank
    cases accepted
    simp [written, added, Signed, blank]
  · rename_i text
    split at accepted
    · cases accepted
    · rename_i notNegative
      cases accepted
      have notBlank : atoi (percStr tok) ≠ -1 := by
        intro same
        rw [same] at notNegative
        exact notNegative (by decide)
      rw [written, added, Signed, written, if_neg text, if_neg text]
      exact ⟨rfl, rfl, iff_of_false notBlank text⟩

theorem entries_ok (accepted : entries max toVal i total toks = .ok (es, total')) :
    es.map Entry.perc = toks.map written ∧
      total'.toNat = (total.toNat + (toks.map added).sum) % 2 ^ 32 ∧
      ∀ tok ∈ toks, Signed tok := by
  induction toks generalizing i total es total' with
  | nil =>
      cases accepted
      refine ⟨rfl, ?_, by simp⟩
      rw [List.map_nil, List.sum_nil, Nat.add_zero, Nat.mod_eq_of_lt total.isLt]
  | cons tok toks ih =>
      rw [entries] at accepted
      split at accepted
      · cases accepted
      cases one : entry toVal tok with
      | error fail =>
          rw [one] at accepted
          cases accepted
      | ok r =>
          obtain ⟨e, perc⟩ := r
          simp only [one] at accepted
          obtain ⟨stored, adds, signed⟩ := entry_ok one
          cases rest : entries max toVal (i + 1) (total + perc) toks with
          | error fail =>
              rw [rest] at accepted
              cases accepted
          | ok r =>
              rw [rest] at accepted
              cases accepted
              obtain ⟨percs, sum, all⟩ := ih rest
              refine ⟨?_, ?_, ?_⟩
              · rw [List.map_cons, List.map_cons, stored, percs]
              · rw [sum, BitVec.toNat_add, adds, List.map_cons, List.sum_cons]
                omega
              · exact List.forall_mem_cons.mpr ⟨signed, all⟩

theorem sum_added : (toks.map added).sum = (explicit toks).sum := by
  induction toks with
  | nil => rfl
  | cons tok toks ih =>
      rw [List.map_cons, List.sum_cons, ih]
      by_cases blank : percStr tok = []
      · simp [added, blank, explicit]
      · simp [added, blank, explicit]

theorem countP_blank (percs : es.map Entry.perc = toks.map written)
    (signed : ∀ tok ∈ toks, Signed tok) : es.countP (·.perc = -1) = blanks toks := by
  have fromPercs : es.countP (·.perc = -1) = (es.map Entry.perc).countP (· = -1) := by
    rw [List.countP_map]
    rfl
  rw [fromPercs, percs, List.countP_map, blanks]
  apply List.countP_congr
  intro tok mem
  rw [Function.comp_apply, decide_eq_true_eq, decide_eq_true_eq]
  exact signed tok mem

/-- What every entry gets. -/
def final (fill : ℕ) (tok : List Char) : ℕ :=
  if percStr tok = [] then fill else (atoi (percStr tok)).toNat

theorem sum_final (fill : ℕ) :
    (toks.map (final fill)).sum = (explicit toks).sum + blanks toks * fill := by
  induction toks with
  | nil => simp [explicit, blanks]
  | cons tok toks ih =>
      rw [List.map_cons, List.sum_cons, ih]
      by_cases blank : percStr tok = []
      · simp only [final, explicit, blanks, blank, List.filter_cons, List.countP_cons, if_true,
          ne_eq, not_true_eq_false, decide_false, decide_true, Bool.false_eq_true, if_false,
          Nat.add_mul, Nat.one_mul]
        omega
      · simp only [final, explicit, blanks, blank, List.filter_cons, List.countP_cons, if_false,
          ne_eq, not_false_eq_true, decide_true, decide_false, Bool.false_eq_true, if_true,
          List.map_cons, List.sum_cons, Nat.add_zero]
        omega

theorem distribute_ok (percs : es.map Entry.perc = toks.map written)
    (signed : ∀ tok ∈ toks, Signed tok) (accepted : distribute es total = .ok es') :
    total.toNat ≤ 100 ∧ 1 < es'.length ∧ (blanks toks = 0 → total.toNat = 100) ∧
      weights es' = toks.map (final ((100 - total.toNat) / blanks toks)) := by
  unfold distribute at accepted
  rw [countP_blank percs signed] at accepted
  split at accepted
  · cases accepted
  rename_i enough
  split at accepted
  · cases accepted
  rename_i small
  have le : total.toNat ≤ 100 := by
    rw [BitVec.lt_def] at small
    exact Nat.le_of_not_lt small
  have fill_lt : (100 - total.toNat) / blanks toks < 2 ^ 32 := by
    have below := Nat.div_le_self (100 - total.toNat) (blanks toks)
    omega
  have value (p : BitVec 32) (tok : List Char) (mem : tok ∈ toks) (stored : p = written tok) :
      (if p = -1 then BitVec.ofNat 32 ((100 - total.toNat) / blanks toks) else p).toNat =
        final ((100 - total.toNat) / blanks toks) tok := by
    rw [stored, final]
    by_cases blank : percStr tok = []
    · rw [if_pos ((signed tok mem).mpr blank), if_pos blank, BitVec.toNat_ofNat,
        Nat.mod_eq_of_lt fill_lt]
    · rw [if_neg (fun h => blank ((signed tok mem).mp h)), if_neg blank, written, if_neg blank]
  have all : (es.map Entry.perc).map (fun p =>
      (if p = -1 then BitVec.ofNat 32 ((100 - total.toNat) / blanks toks) else p).toNat) =
        toks.map (final ((100 - total.toNat) / blanks toks)) := by
    rw [percs, List.map_map]
    exact List.map_congr_left fun tok mem => value _ tok mem rfl
  simp only at accepted
  split at accepted
  · rename_i some_
    cases accepted
    refine ⟨le, by rw [List.length_map]; omega, fun none => absurd none some_, ?_⟩
    rw [← all, weights, List.map_map, List.map_map]
    apply List.map_congr_left
    intro e mem
    simp only [Function.comp_apply]
    split <;> rfl
  · rename_i none
    split at accepted
    · cases accepted
    · rename_i hundred
      cases accepted
      have none : blanks toks = 0 := by simpa using none
      refine ⟨le, by omega, fun _ => ?_, ?_⟩
      · have exact_ : total = 100 := by simpa using hundred
        rw [exact_]
        rfl
      · rw [← all, weights, List.map_map]
        apply List.map_congr_left
        intro e mem
        have explicit_ : e.perc ≠ -1 := by
          have count := countP_blank percs signed
          rw [none, List.countP_eq_zero] at count
          simpa using count e mem
        simp only [Function.comp_apply, if_neg explicit_]

theorem multi_ok {str : List Char} (accepted : multi max toVal str = .ok es) :
    ∃ total ≤ 100, total = (explicit (str.splitOn ':')).sum % 2 ^ 32 ∧ 1 < es.length ∧
      (blanks (str.splitOn ':') = 0 → total = 100) ∧
      weights es =
        (str.splitOn ':').map (final ((100 - total) / blanks (str.splitOn ':'))) := by
  unfold multi at accepted
  split at accepted
  · cases accepted
  · rename_i read total loop
    obtain ⟨percs, sum, signed⟩ := entries_ok loop
    obtain ⟨le, long, full, stored⟩ := distribute_ok percs signed accepted
    have start : (0 : BitVec 32).toNat = 0 := rfl
    rw [sum_added, start, Nat.zero_add] at sum
    exact ⟨total.toNat, le, sum, long, full, stored⟩

/-- What is stored adds up to 100 exactly for an even string. -/
theorem sum_weights_iff {str : List Char} (accepted : multi max toVal str = .ok es) :
    (weights es).sum = 100 ↔ Even str := by
  obtain ⟨total, le, wraps, -, full, stored⟩ := multi_ok accepted
  rw [stored, sum_final, Even]
  generalize (explicit (str.splitOn ':')).sum = n at wraps
  generalize blanks (str.splitOn ':') = k at full
  have exact_ (small : n ≤ 100) : total = n := by omega
  constructor
  · intro sum
    have small : n ≤ 100 := by omega
    rw [exact_ small] at sum
    exact ⟨small, Dvd.intro ((100 - n) / k) (by omega)⟩
  · rintro ⟨small, divides⟩
    rw [exact_ small, Nat.mul_div_cancel' divides]
    omega

end Stored

/-! ### The entry that is chosen -/

section Chosen

variable {es : List Entry} {perc : BitVec 32} {r : ℕ}

/-- The loop chooses by shares as long as the sum does not wrap. -/
theorem select_eq_pick (before : perc.toNat ≤ r) (fits : perc.toNat + (weights es).sum < 2 ^ 32) :
    select r perc es = pick (r - perc.toNat) (weights es) := by
  induction es generalizing perc with
  | nil => rfl
  | cons e es ih =>
      rw [weights, List.map_cons, List.sum_cons] at fits
      have sum : (perc + e.perc).toNat = perc.toNat + e.perc.toNat := by
        rw [BitVec.toNat_add]
        omega
      have here : r < perc.toNat + e.perc.toNat ↔ r - perc.toNat < e.perc.toNat := by omega
      rw [select, weights, List.map_cons, pick, sum]
      by_cases first : r < perc.toNat + e.perc.toNat
      · rw [if_pos first, if_pos (here.mp first)]
      · have later := ih (by rw [sum]; omega) (by rw [sum, weights]; omega)
        rw [if_neg first, if_neg (mt here.mpr first), later, sum, Nat.sub_sub]
        rfl

theorem covers_iff : Covers es ↔ (weights es).sum = 100 := by
  constructor
  · exact Covers.sum
  · intro sum
    have choose (r : ℕ) : select r 0 es = pick r (weights es) :=
      select_eq_pick (Nat.zero_le r) (by rw [sum]; decide)
    refine ⟨?_, sum, ?_, ?_⟩
    · intro w mem
      rw [← sum]
      exact List.le_sum_of_mem mem
    · intro r below
      rw [choose, pick_isSome_iff, sum]
      exact below
    · intro i e found
      obtain ⟨inside, here⟩ := List.getElem?_eq_some_iff.mp found
      have inside' : i < (weights es).length := by
        rw [weights, List.length_map]
        exact inside
      have counted := card_pick inside'
      simp only [choose]
      rw [sum] at counted
      rw [counted, ← here]
      exact List.getElem_map ..

/-- The entry that a draw chooses. -/
theorem Covers.taken (h : Covers es) (below : r < 100) :
    ∃ i e, select r 0 es = some i ∧ es[i]? = some e := by
  obtain ⟨i, chosen⟩ := Option.isSome_iff_exists.mp (h.chosen r below)
  have same : select r 0 es = pick r (weights es) :=
    select_eq_pick (Nat.zero_le r) (by rw [h.sum]; decide)
  have inside := pick_lt (same ▸ chosen)
  rw [weights, List.length_map] at inside
  exact ⟨i, es[i], chosen, List.getElem?_eq_getElem inside⟩

theorem writesFresh {o : Options} (h : Covers o.wmodeSplit) (many : 1 < o.wmodeSplit.length) :
    WritesFresh o := by
  rintro wrand below arand s rfl write
  obtain ⟨i, e, chosen, here⟩ := h.taken below
  refine ⟨i, e, chosen, here, ?_⟩
  have first : s.prepWrite wrand = s.takeWrite e := by
    rw [State.prepWrite, if_pos ⟨many, write⟩, chosen, Option.bind_some, here]
  simp only [State.prep, first]
  split
  · split <;> rfl
  · rfl

theorem adminFresh {o : Options} (h : Covers o.adminSplit) (many : 1 < o.adminSplit.length) :
    AdminFresh o := by
  rintro arand below wrand s rfl
  obtain ⟨i, e, chosen, here⟩ := h.taken below
  refine ⟨i, e, chosen, here, ?_⟩
  have same : (s.prepWrite wrand).o = s.o := by
    unfold State.prepWrite
    split
    · split <;> rfl
    · rfl
  simp only [State.prep, same, if_pos many, chosen, Option.bind_some, here]
  rfl

end Chosen

/-! ### Every string that is accepted -/

section Accepted

variable {o o' : Options} {str : List Char}

theorem strWriteModeCb_ok (list : ':' ∈ str) (accepted : strWriteModeCb o str = .ok o') :
    multi wmodeSplitMax wmodeStrToOpcode str = .ok o'.wmodeSplit := by
  rw [strWriteModeCb, if_neg (not_not.mpr list)] at accepted
  cases stored : multi wmodeSplitMax wmodeStrToOpcode str with
  | error fail =>
      rw [stored] at accepted
      cases accepted
  | ok es =>
      rw [stored] at accepted
      cases accepted
      rfl

theorem strAdminCmdCb_ok (list : ':' ∈ str) (accepted : strAdminCmdCb o str = .ok o') :
    multi adminSplitMax adminCmdStrToVal str = .ok o'.adminSplit := by
  rw [strAdminCmdCb, if_neg (not_not.mpr list)] at accepted
  cases stored : multi adminSplitMax adminCmdStrToVal str with
  | error fail =>
      rw [stored] at accepted
      cases accepted
  | ok es =>
      rw [stored] at accepted
      cases accepted
      rfl

/-- **Cover.** For every list that either callback accepts, every draw chooses an entry, every entry
has as many draws as its percentage and no opcode or command is left over, if and only if the string
is even. -/
theorem splits_cover_iff (list : ':' ∈ str) :
    (strWriteModeCb o str = .ok o' → (Covers o'.wmodeSplit ∧ WritesFresh o' ↔ Even str)) ∧
      (strAdminCmdCb o str = .ok o' → (Covers o'.adminSplit ∧ AdminFresh o' ↔ Even str)) := by
  constructor
  · intro accepted
    have stored := strWriteModeCb_ok list accepted
    obtain ⟨-, -, -, many, -⟩ := multi_ok stored
    rw [← sum_weights_iff stored, ← covers_iff]
    exact ⟨And.left, fun h => ⟨h, writesFresh h many⟩⟩
  · intro accepted
    have stored := strAdminCmdCb_ok list accepted
    obtain ⟨-, -, -, many, -⟩ := multi_ok stored
    rw [← sum_weights_iff stored, ← covers_iff]
    exact ⟨And.left, fun h => ⟨h, adminFresh h many⟩⟩

/-- Two blank percentages share 40. -/
def sampleSplit : List Char := "write/60:zeroes/:uncor/".toList

theorem sample_covers : Covers [⟨1, 60⟩, ⟨8, 20⟩, ⟨4, 20⟩] ∧
    WritesFresh { wmodeSplit := [⟨1, 60⟩, ⟨8, 20⟩, ⟨4, 20⟩] } :=
  ((splits_cover_iff (o := {}) (by decide : ':' ∈ sampleSplit)).1 rfl).mpr (by decide)

def threeBlanks : List Char := "write/:zeroes/:uncor/".toList

/-- Three blank percentages are 33 each, and draw 99 leaves the opcode as it was. -/
theorem three_blanks_leave_a_draw :
    ¬ ∀ o' : Options, strWriteModeCb {} threeBlanks = .ok o' →
      Covers o'.wmodeSplit ∧ WritesFresh o' := by
  intro all
  have covers := all { wmodeSplit := [⟨1, 33⟩, ⟨8, 33⟩, ⟨4, 33⟩] } rfl
  exact absurd covers.1.sum (by decide)

end Accepted

end Unvmed.Split
