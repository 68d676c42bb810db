/-
  File:      SwiftVpn/Router/DiagnosticLog.lean
  Subject:   THE DIAGNOSTIC LOG: DiagnosticLog.kt, its two files and the lines in memory.

  * `State` -- the files, which all processes share, and what each process keeps for itself;
  * `step`, `machine` -- a call in one process, or the end of that process; only `init` looks at the
    size of the file (`rotateIfLarge`);
  * `fewLines_of_exec` -- no process ever keeps more than 800 lines;
  * `written` -- the bytes that a sequence of calls has put into the file since it was last emptied, by
    a `clear` or by a start after more than MAX_BYTES; `length_after` -- they are its size;
  * `log_bounded` -- the file keeps its bound under the calls of which no write comes after more than
    MAX_BYTES (`Fits`), and where all lines have one size under no others;
  * `log_unbounded` -- it grows by a line with every write of a process that goes on.

  Files are written, deleted and renamed without failure; charon's own log, which `clear` empties, is
  left out.
-/
import Mathlib.Logic.Function.Basic
import SwiftVpn.Lib.Machine

namespace SwiftVpn.DiagnosticLog

/-! ## 1. The files and the lines in memory -/

def MAX_BYTES : Nat := 512 * 1024

def MEMORY_LINES : Nat := 800

/-- `diagnostic.log` and `diagnostic.prev.log`, and of each process the lines that it shows and whether
    `init` has set its `file`. -/
structure State (P : Type) where
  current : Option String
  previous : Option String
  memory : P → List String
  file : P → Bool

/-- A call, with the time stamp that it makes; `died` is the end of the process. -/
inductive Call where
  | init (stamp header : String)
  | write (stamp tag message : String)
  | clear
  | died
  deriving DecidableEq, Repr

/-- The line of a message. -/
def lineOf (stamp tag message : String) : String := stamp ++ " [" ++ tag ++ "] " ++ message

namespace Call

/-- The line that a call writes. -/
def line : Call → Option String
  | .init stamp header => some (lineOf stamp "app" header)
  | .write stamp tag message => some (lineOf stamp tag message)
  | .clear => none
  | .died => none

/-- Its size in the file. -/
def lineBytes (c : Call) : Nat := (c.line.map fun line => line.utf8ByteSize + 1).getD 0

end Call

/-- `while (memory.size > MEMORY_LINES) memory.poll()`. -/
def poll : List String → List String
  | [] => []
  | line :: lines => if MEMORY_LINES < (line :: lines).length then poll lines else line :: lines

/-- `readLine` after `readLine`, behind the characters `read` of a line. -/
def readLinesFrom (read : List Char) : List Char → List String
  | [] => if read.isEmpty then [] else [String.ofList read]
  | '\n' :: cs => String.ofList read :: readLinesFrom [] cs
  | '\r' :: '\n' :: cs => String.ofList read :: readLinesFrom [] cs
  | '\r' :: cs => String.ofList read :: readLinesFrom [] cs
  | c :: cs => readLinesFrom (read ++ [c]) cs

/-- `readLines`. -/
def readLines (text : String) : List String := readLinesFrom [] text.toList

namespace State

variable {P : Type} [DecidableEq P]

/-- Before the first start. -/
def fresh : State P := ⟨none, none, fun _ => [], fun _ => false⟩

/-- `File.length` of the log: that of a file that is not there is 0. -/
def length (s : State P) : Nat := (s.current.map String.utf8ByteSize).getD 0

/-- `write`, of one line. -/
def write (s : State P) (p : P) (line : String) : State P :=
  let s := { s with memory := Function.update s.memory p (poll (s.memory p ++ [line])) }
  if s.file p then { s with current := some (s.current.getD "" ++ line ++ "\n") } else s

/-- `rotateIfLarge`. -/
def rotateIfLarge (s : State P) : State P :=
  match s.current with
  | some text => if MAX_BYTES < text.utf8ByteSize then { s with current := none, previous := some text } else s
  | none => s

/-- `init`. -/
def init (s : State P) (p : P) (line : String) : State P :=
  let s := s.rotateIfLarge
  let s := { s with file := Function.update s.file p true }
  let tail := (s.current.map readLines).getD []
  let tail := tail.drop (tail.length - MEMORY_LINES)
  let s := { s with memory := Function.update s.memory p (s.memory p ++ tail) }
  s.write p line

/-- `clear`. -/
def clear (s : State P) (p : P) : State P :=
  { s with memory := Function.update s.memory p [], current := some "", previous := none }

/-- The process ends, and with it what it kept in memory. -/
def died (s : State P) (p : P) : State P :=
  { s with memory := Function.update s.memory p [], file := Function.update s.file p false }

/-- One call of the process `p`. -/
def step (s : State P) (p : P) : Call → State P
  | .init stamp header => s.init p (lineOf stamp "app" header)
  | .write stamp tag message => s.write p (lineOf stamp tag message)
  | .clear => s.clear p
  | .died => s.died p

end State

/-- The log under the calls of all processes. -/
def machine {P : Type} [DecidableEq P] (s : State P) (c : P × Call) : Option (State P) :=
  some (s.step c.1 c.2)

/-! ## 2. The lines in memory -/

theorem length_poll_le (lines : List String) : (poll lines).length ≤ MEMORY_LINES := by
  induction lines with
  | nil => exact Nat.zero_le _
  | cons line lines ih =>
    unfold poll
    split
    · exact ih
    · exact Nat.not_lt.1 ‹_›

theorem memory_rotateIfLarge {P : Type} (s : State P) : s.rotateIfLarge.memory = s.memory := by
  unfold State.rotateIfLarge
  split
  · split <;> rfl
  · rfl

section Calls

variable {P : Type} [DecidableEq P] {s s' : State P} {p : P}

/-- No process keeps more lines than the bound. -/
def FewLines (s : State P) : Prop := ∀ q, (s.memory q).length ≤ MEMORY_LINES

/-- One process's lines are replaced by few. -/
theorem fewLines_update (h : FewLines s) {lines : List String} (hlines : lines.length ≤ MEMORY_LINES)
    (q : P) : (Function.update s.memory p lines q).length ≤ MEMORY_LINES := by
  rw [Function.update_apply]
  split
  · exact hlines
  · exact h q

theorem memory_write (s : State P) (p : P) (line : String) :
    (s.write p line).memory = Function.update s.memory p (poll (s.memory p ++ [line])) := by
  unfold State.write
  dsimp only
  split <;> rfl

theorem fewLines_write (h : ∀ q, q ≠ p → (s.memory q).length ≤ MEMORY_LINES) (line : String) :
    FewLines (s.write p line) := by
  intro q
  rw [memory_write, Function.update_apply]
  split
  · exact length_poll_le _
  · exact h q ‹_›

theorem fewLines_step (h : FewLines s) (c : Call) : FewLines (s.step p c) := by
  cases c with
  | init stamp header =>
    refine fewLines_write (fun q hq => ?_) _
    dsimp only
    rw [Function.update_of_ne hq, memory_rotateIfLarge]
    exact h q
  | write stamp tag message => exact fewLines_write (fun q _ => h q) _
  | clear => exact fun q => fewLines_update h (Nat.zero_le _) q
  | died => exact fun q => fewLines_update h (Nat.zero_le _) q

end Calls

/-! ## 3. The size of the file -/

theorem length_rotateIfLarge {P : Type} (s : State P) :
    s.rotateIfLarge.length = if MAX_BYTES < s.length then 0 else s.length := by
  unfold State.rotateIfLarge
  cases htext : s.current with
  | none =>
    have hzero : s.length = 0 := by
      unfold State.length
      rw [htext]
      rfl
    dsimp only
    rw [hzero, if_neg (Nat.not_lt_zero _)]
  | some text =>
    have hsize : s.length = text.utf8ByteSize := by
      unfold State.length
      rw [htext]
      rfl
    dsimp only
    rw [← hsize]
    split
    · rfl
    · rfl

section Runs

variable {P : Type} [DecidableEq P] {s s' : State P} {p : P}

theorem length_write (hfile : s.file p = true) (line : String) :
    (s.write p line).length = s.length + (line.utf8ByteSize + 1) := by
  unfold State.write State.length
  dsimp only
  rw [if_pos hfile]
  have hend : "\n".utf8ByteSize = 1 := rfl
  cases s.current with
  | none => simp [String.utf8ByteSize_append, hend]
  | some text => simp [String.utf8ByteSize_append, hend, Nat.add_assoc]

theorem length_write_of_not (hfile : s.file p = false) (line : String) :
    (s.write p line).length = s.length := by
  unfold State.write State.length
  dsimp only
  rw [if_neg (by rw [hfile]; exact Bool.false_ne_true)]

theorem file_write (s : State P) (p : P) (line : String) : (s.write p line).file = s.file := by
  unfold State.write
  dsimp only
  split <;> rfl

theorem file_rotateIfLarge {P : Type} (s : State P) : s.rotateIfLarge.file = s.file := by
  unfold State.rotateIfLarge
  split
  · split <;> rfl
  · rfl

theorem file_init (s : State P) (p : P) (line : String) :
    (s.init p line).file = Function.update s.file p true := by
  unfold State.init
  dsimp only
  rw [file_write, file_rotateIfLarge]

/-- A start is a rotation and a write into the file. -/
theorem init_eq (s : State P) (p : P) (line : String) :
    ∃ t : State P, s.init p line = t.write p line ∧ t.file p = true ∧
      t.length = s.rotateIfLarge.length := by
  refine ⟨_, rfl, ?_, rfl⟩
  exact Function.update_self p true s.rotateIfLarge.file

/-- A start empties a large file, and writes its own line. -/
theorem length_init (s : State P) (p : P) (line : String) :
    (s.init p line).length
      = (if MAX_BYTES < s.length then 0 else s.length) + (line.utf8ByteSize + 1) := by
  obtain ⟨t, ht, hfile, hlength⟩ := init_eq s p line
  rw [ht, length_write hfile, hlength, length_rotateIfLarge]

end Runs

/-! ## 4. What the calls write -/

section Written

variable {P : Type} [DecidableEq P]

/-- The process has been started and has not ended since. Here and below the newest call comes first. -/
def started (p : P) : List (P × Call) → Bool
  | [] => false
  | (q, .init _ _) :: cs => q = p || started p cs
  | (q, .died) :: cs => q ≠ p && started p cs
  | (_, .write _ _ _) :: cs => started p cs
  | (_, .clear) :: cs => started p cs

/-- The bytes of the lines that the calls have put into the file since it was last emptied: by a
    `clear`, or by a start that came after more than MAX_BYTES. -/
def written : List (P × Call) → Nat
  | [] => 0
  | (_, .init stamp header) :: cs =>
    (if MAX_BYTES < written cs then 0 else written cs) + (Call.init stamp header).lineBytes
  | (p, .write stamp tag message) :: cs =>
    if started p cs then written cs + (Call.write stamp tag message).lineBytes else written cs
  | (_, .clear) :: _ => 0
  | (_, .died) :: cs => written cs

/-- No write of a started process comes after more than MAX_BYTES. -/
def Fits : List (P × Call) → Prop
  | [] => True
  | (p, .write _ _ _) :: cs => (started p cs = true → written cs ≤ MAX_BYTES) ∧ Fits cs
  | (_, .init _ _) :: cs => Fits cs
  | (_, .clear) :: cs => Fits cs
  | (_, .died) :: cs => Fits cs

instance decidableFits : ∀ cs : List (P × Call), Decidable (Fits cs)
  | [] => isTrue trivial
  | (p, .write _ _ _) :: cs =>
    have := decidableFits cs
    inferInstanceAs (Decidable ((started p cs = true → written cs ≤ MAX_BYTES) ∧ Fits cs))
  | (_, .init _ _) :: cs => decidableFits cs
  | (_, .clear) :: cs => decidableFits cs
  | (_, .died) :: cs => decidableFits cs

/-- The log after the calls. -/
def after : List (P × Call) → State P
  | [] => State.fresh
  | c :: cs => (after cs).step c.1 c.2

theorem file_after (p : P) (cs : List (P × Call)) : (after cs).file p = started p cs := by
  induction cs with
  | nil => rfl
  | cons c cs ih =>
    obtain ⟨q, c⟩ := c
    cases c with
    | init stamp header =>
      show (State.init (after cs) q _).file p = (decide (q = p) || started p cs)
      rw [file_init, Function.update_apply, ih]
      by_cases hq : q = p
      · rw [if_pos hq.symm, decide_eq_true hq, Bool.true_or]
      · rw [if_neg (Ne.symm hq), decide_eq_false hq, Bool.false_or]
    | write stamp tag message =>
      show (State.write (after cs) q _).file p = started p cs
      rw [file_write, ih]
    | clear => exact ih
    | died =>
      show Function.update (after cs).file q false p = (decide (q ≠ p) && started p cs)
      rw [Function.update_apply, ih]
      by_cases hq : q = p
      · rw [if_pos hq.symm, decide_eq_false (not_not_intro hq), Bool.false_and]
      · rw [if_neg (Ne.symm hq), decide_eq_true hq, Bool.true_and]

/-- **The size of the file is what the calls have written.** -/
theorem length_after (cs : List (P × Call)) : (after cs).length = written cs := by
  induction cs with
  | nil => rfl
  | cons c cs ih =>
    obtain ⟨q, c⟩ := c
    cases c with
    | init stamp header =>
      show (State.init (after cs) q _).length = _
      rw [length_init, ih]
      rfl
    | write stamp tag message =>
      show (State.write (after cs) q _).length
        = if started q cs then written cs + (Call.write stamp tag message).lineBytes else written cs
      rw [← file_after q cs]
      cases hfile : (after cs).file q with
      | true =>
        rw [length_write hfile, ih]
        rfl
      | false =>
        rw [length_write_of_not hfile, ih]
        rfl
    | clear => rfl
    | died => exact ih

/-- Where no write comes after more than MAX_BYTES, at most a line more is written. -/
theorem written_le {k : Nat} {cs : List (P × Call)} (hlines : ∀ c ∈ cs, c.2.lineBytes ≤ k)
    (h : Fits cs) : written cs ≤ MAX_BYTES + k := by
  induction cs with
  | nil => exact Nat.zero_le _
  | cons c cs ih =>
    have hline := hlines c List.mem_cons_self
    have hrest := ih fun c hc => hlines c (List.mem_cons_of_mem _ hc)
    obtain ⟨q, c⟩ := c
    cases c with
    | init stamp header =>
      refine Nat.add_le_add ?_ hline
      split
      · exact Nat.zero_le _
      · exact Nat.not_lt.1 ‹_›
    | write stamp tag message =>
      show (if started q cs then written cs + (Call.write stamp tag message).lineBytes else written cs) ≤ _
      split
      · exact Nat.add_le_add (h.1 ‹_›) hline
      · exact hrest h.2
    | clear => exact Nat.zero_le _
    | died => exact hrest h

/-- The calls without the newest ones. -/
theorem fits_of_suffix {cs cs' : List (P × Call)} (h : Fits cs) (hs : cs' <:+ cs) : Fits cs' := by
  induction cs with
  | nil => exact List.suffix_nil.1 hs ▸ h
  | cons c cs ih =>
    rcases List.suffix_cons_iff.1 hs with rfl | hs
    · exact h
    · refine ih ?_ hs
      obtain ⟨q, c⟩ := c
      cases c with
      | write stamp tag message => exact h.2
      | _ => exact h

/-- Where all lines have one size, a write after more than MAX_BYTES breaks the bound. -/
theorem fits_of_written_le {k : Nat} {cs : List (P × Call)}
    (hlines : ∀ c ∈ cs, c.2.line.isSome → c.2.lineBytes = k)
    (h : ∀ cs', cs' <:+ cs → written cs' ≤ MAX_BYTES + k) : Fits cs := by
  induction cs with
  | nil => trivial
  | cons c cs ih =>
    have hrest := ih (fun c hc => hlines c (List.mem_cons_of_mem _ hc))
      fun cs' hs => h cs' (hs.trans (List.suffix_cons c cs))
    have hall := h _ List.suffix_rfl
    have hline := hlines c List.mem_cons_self
    obtain ⟨q, c⟩ := c
    cases c with
    | write stamp tag message =>
      refine ⟨fun hstarted => ?_, hrest⟩
      have hbytes : written ((q, Call.write stamp tag message) :: cs) = written cs + k := by
        rw [← hline rfl]
        exact if_pos hstarted
      rw [hbytes] at hall
      exact Nat.le_of_add_le_add_right hall
    | _ => exact hrest

end Written

/-! ## 5. Runs -/

section Bound

variable {P : Type} [DecidableEq P] {s : State P}

open Machine

/-- The bound, after every call of a run. -/
def Bounded (k : Nat) (calls : List (P × Call)) : Prop :=
  ∀ (pre : List (P × Call)) (s : State P), pre <+: calls → exec machine State.fresh pre = some s →
    s.length ≤ MAX_BYTES + k

/-- Every run is possible, and ends in the log after its calls. -/
theorem exec_reverse (cs : List (P × Call)) : exec machine State.fresh cs.reverse = some (after cs) := by
  induction cs with
  | nil => rfl
  | cons c cs ih =>
    rw [List.reverse_cons]
    exact exec_concat ih rfl

/-- **The lines in memory are few after every call.** -/
theorem fewLines_of_exec {calls : List (P × Call)} (h : exec machine State.fresh calls = some s) :
    FewLines s := by
  refine exec_inv' (fun t c t' ht hstep => ?_) (fun _ => Nat.zero_le _) h
  have hnext : t.step c.1 c.2 = t' := Option.some.inj hstep
  exact hnext ▸ fewLines_step ht c.2

/-- **The file keeps its bound** under calls of which no write comes after more than MAX_BYTES. -/
theorem bounded_of_fits {k : Nat} {calls : List (P × Call)} (hlines : ∀ c ∈ calls, c.2.lineBytes ≤ k)
    (h : Fits calls.reverse) : Bounded k calls := by
  intro pre s hpre hexec
  have hend : after pre.reverse = s := by
    have hrun := exec_reverse pre.reverse
    rw [List.reverse_reverse, hexec] at hrun
    exact (Option.some.inj hrun).symm
  rw [← hend, length_after]
  refine written_le (fun c hc => ?_) (fits_of_suffix h (List.reverse_suffix.2 hpre))
  exact hlines c (hpre.subset (List.mem_reverse.1 hc))

theorem fits_of_bounded {k : Nat} {calls : List (P × Call)}
    (hlines : ∀ c ∈ calls, c.2.line.isSome → c.2.lineBytes = k) (h : Bounded k calls) :
    Fits calls.reverse := by
  refine fits_of_written_le (fun c hc => hlines c (List.mem_reverse.1 hc)) fun cs hs => ?_
  rw [← length_after]
  refine h cs.reverse _ ?_ (exec_reverse cs)
  rw [← List.reverse_reverse calls]
  exact List.reverse_prefix.2 hs

/-- **The bound of the log.** In memory it holds; in the file it holds under calls of which no write
    comes after more than MAX_BYTES, and, of lines of one size, under no others. -/
theorem log_bounded {k : Nat} {calls : List (P × Call)} (hlines : ∀ c ∈ calls, c.2.lineBytes ≤ k) :
    (∀ (pre : List (P × Call)) (s : State P), pre <+: calls → exec machine State.fresh pre = some s →
      ∀ q, (s.memory q).length ≤ MEMORY_LINES) ∧
    (Fits calls.reverse → Bounded k calls) ∧
    ((∀ c ∈ calls, c.2.line.isSome → c.2.lineBytes = k) → Bounded k calls → Fits calls.reverse) :=
  ⟨fun _ _ _ hexec => fewLines_of_exec hexec, bounded_of_fits hlines, fits_of_bounded⟩

/-- Calls of one process that write one line after another. -/
theorem length_writes (p : P) (stamp tag message : String) (n : Nat) {s : State P}
    (hfile : s.file p = true) :
    ∃ s', exec machine s (List.replicate n (p, .write stamp tag message)) = some s' ∧
      s'.length = s.length + n * ((lineOf stamp tag message).utf8ByteSize + 1) := by
  induction n generalizing s with
  | zero => exact ⟨s, rfl, by rw [Nat.zero_mul, Nat.add_zero]⟩
  | succ n ih =>
    have hopen : (s.write p (lineOf stamp tag message)).file p = true := by
      unfold State.write
      dsimp only
      rw [if_pos hfile]
      exact hfile
    obtain ⟨s', hrun, hlength⟩ := ih hopen
    refine ⟨s', exec_cons.2 ⟨_, rfl, hrun⟩, ?_⟩
    rw [hlength, length_write hfile, Nat.succ_mul]
    omega

end Bound

theorem log_bounded_start :
    Bounded 100 [((), Call.init "09-30 12:00:00.000" "=== session start"),
      ((), .write "09-30 12:00:00.001" "app" "ui process ready")] := by
  refine (log_bounded (by decide)).2.1 ?_
  decide

/-- A session of one process that writes the same short line twenty thousand times. -/
def longSession : List (Unit × Call) :=
  ((), .init "09-30 12:00:00.000" "=== session start") ::
    List.replicate 20000 ((), .write "09-30 12:00:00.001" "xray" "startLoop: returned OK")

theorem log_unbounded :
    ¬ ∀ (k : Nat) (calls : List (Unit × Call)), (∀ c ∈ calls, c.2.lineBytes ≤ k) → Bounded k calls := by
  intro h
  have hlines : ∀ c ∈ longSession, c.2.lineBytes ≤ 100 := by
    intro c hc
    rcases List.mem_cons.1 hc with rfl | hc
    · decide
    · rw [List.eq_of_mem_replicate hc]
      decide
  have hsize : (lineOf "09-30 12:00:00.001" "xray" "startLoop: returned OK").utf8ByteSize + 1 = 49 := by
    decide
  obtain ⟨s, hrun, hlength⟩ := length_writes () "09-30 12:00:00.001" "xray" "startLoop: returned OK" 20000
    (s := (State.fresh : State Unit).step () (.init "09-30 12:00:00.000" "=== session start")) rfl
  have hbound := h 100 longSession hlines longSession s List.prefix_rfl (Machine.exec_cons.2 ⟨_, rfl, hrun⟩)
  rw [hlength, hsize] at hbound
  have hmax : MAX_BYTES = 524288 := rfl
  omega

end SwiftVpn.DiagnosticLog
