import PathShim.Linux.ExecFrame
import PathShim.Linux.Reading

/-!
# Rewriting the pathname of an exec

The alias is written over the pathname, by one call or, after that has failed
part way, by another. Whatever the two of them write stays within the pathname
and its NUL, and after a success the chunked reader finds the alias there.
-/

namespace PathShim

open UnixPath Effects

variable {t : Tracee} {pid : Pid} {E : Env Op.Answer} {address : UInt64} {original : OsStr}

theorem length_decimal (fd : Fd) : (decimal fd.toInt).length ≤ 11 := by
  have habs : fd.toInt.natAbs < 10 ^ 10 := by
    have hlow := fd.le_toInt
    have hhigh := fd.toInt_lt
    omega
  have hdigits : (decimalDigits fd.toInt.natAbs).length ≤ 10 := by
    rw [decimalDigits, ascii, List.length_map]
    exact (Nat.length_toDigits_le_iff (by decide) (by decide)).mpr habs
  unfold decimal
  split
  · exact Nat.succ_le_succ hdigits
  · exact Nat.le_succ_of_le hdigits

theorem length_executableAlias (fd : Fd) : (executableAlias fd).bytes.length < MAX_PATH := by
  have hdecimal := length_decimal fd
  have hlength : (executableAlias fd).bytes.length = 8 + (decimal fd.toInt).length := by
    simp [executableAlias, AbsPath.toPath, relative, List.intercalate, Component.bytes, nameDev,
      nameFd, decimalName, ascii]
    omega
  rw [hlength, MAX_PATH]
  omega

/-- Nothing outside the pathname and its NUL changes; after a success a pathname that is not at
address 0 reads back as the alias; and an alias that does not fit is refused with nothing
written. -/
theorem rewritePath_in_bounds {fd : Fd} (hholds : t.memory.Holds address original) :
    Ensures E (rewritePath pid address original (executableAlias fd)) fun tr out =>
      (∀ x, x < address.toNat ∨ address.toNat + original.bytes.length + 1 ≤ x →
        (t.after pid tr).memory.byte x = t.memory.byte x) ∧
      (address ≠ 0 → out = some (.ok ()) → ∀ E', (t.after pid tr).memory.Serves pid E' →
        Ensures E' (readPath pid address) fun _ found => found = some (.ok (executableAlias fd))) ∧
      (original.bytes.length < (executableAlias fd).bytes.length →
        out = some (.error (.os ENAMETOOLONG)) ∧ (t.after pid tr).memory = t.memory) := by
  intro tr out hx
  obtain ⟨hwithin, hwritten⟩ := exec_rewritePath_within hholds hx
  refine ⟨hwithin.outside, fun hne hout E' hE' => ?_, fun hlong => ?_⟩
  · have halias := hwritten hout
    intro tr' found hx'
    obtain ⟨-, -, r, rfl, hread⟩ := Memory.exec_readPath_exact hE' hne halias.room hx'
    rw [hread.of_holds (length_executableAlias fd) halias]
  · obtain ⟨rfl, rfl⟩ := exec_rewritePath_long hlong hx
    exact ⟨rfl, rfl⟩

def programPath : OsStr := osStr ['/', 'a', '/', 'p', 'r', 'o', 'g', 'r', 'a', 'm']

theorem longMemory_holds : longMemory.Holds 64 programPath := Memory.has_ofBytes (by decide)

theorem rewritePath_in_bounds_program : Ensures (fun op r => r = execAnswers longMemory op)
    (rewritePath 100 64 programPath (executableAlias 3)) fun tr out =>
      (∀ x, x < (64 : UInt64).toNat ∨ (64 : UInt64).toNat + programPath.bytes.length + 1 ≤ x →
        ((execTracee longMemory).after 100 tr).memory.byte x =
          (execTracee longMemory).memory.byte x) ∧
      ((64 : UInt64) ≠ 0 → out = some (.ok ()) →
        ∀ E', ((execTracee longMemory).after 100 tr).memory.Serves 100 E' →
          Ensures E' (readPath 100 64) fun _ found => found = some (.ok (executableAlias 3))) ∧
      (programPath.bytes.length < (executableAlias 3).bytes.length →
        out = some (.error (.os ENAMETOOLONG)) ∧
          ((execTracee longMemory).after 100 tr).memory = (execTracee longMemory).memory) :=
  rewritePath_in_bounds longMemory_holds

/-- A pathname at address 0. -/
def nullMemory : Memory := .ofBytes 0 (programPath.bytes ++ [0])

/-- A pathname at address 0 is replaced, but `read_path` refuses the address. -/
theorem rewritten_at_null : nullMemory.Holds 0 programPath ∧
    ∃ tr, Exec (fun op r => r = execAnswers nullMemory op)
      (rewritePath 100 0 programPath (executableAlias 3)) tr (some (.ok ())) ∧
      ((execTracee nullMemory).after 100 tr).memory.Holds 0 (executableAlias 3) ∧
      ¬ ∀ E', ((execTracee nullMemory).after 100 tr).memory.Serves 100 E' →
        Ensures E' (readPath 100 0) fun _ found => found = some (.ok (executableAlias 3)) := by
  have hholds : nullMemory.Holds 0 programPath := Memory.has_ofBytes (by decide)
  have hrun := exec_eval (E := fun op r => r = execAnswers nullMemory op) (execAnswers nullMemory)
    (fun _ => rfl) (rewritePath 100 0 programPath (executableAlias 3))
  have halias := (exec_rewritePath_within (t := execTracee nullMemory) hholds hrun).2 rfl
  refine ⟨hholds, _, hrun, halias, fun h => ?_⟩
  have hread := h (fun op r => r = Memory.answers _ op)
    (Memory.Answers.serves fun _ _ _ h => h) [] (some (.error (.os EFAULT)))
    (by rw [readPath, if_pos rfl]; exact .ret)
  cases hread

end PathShim
