import Mathlib.Data.List.Basic
import Mathlib.Data.UInt

/-!
# Classic BPF

Loads of a word, equality tests and returns: the instructions a system call
filter is made of. Jumps only go forward, so a program is run along its own
suffixes. A chain of tests decides membership in the list of its constants
(`run_tests`).
-/

namespace ClassicBpf

/-- `struct sock_filter`. -/
structure SockFilter where
  code : UInt16
  jt : UInt8
  jf : UInt8
  k : UInt32
  deriving DecidableEq

/-- What the code of an instruction says. -/
inductive Instr where
  | ldAbsWord (offset : UInt32)
  | jeq (k : UInt32) (jt jf : Nat)
  | ret (k : UInt32)

def decode (insn : SockFilter) : Option Instr :=
  if insn.code = 0x20 then some (.ldAbsWord insn.k)
  else if insn.code = 0x15 then some (.jeq insn.k insn.jt.toNat insn.jf.toNat)
  else if insn.code = 0x06 then some (.ret insn.k)
  else none

/-- The value a program returns on the data that `word` reads from, started with accumulator `a`;
`none` if it runs off its end, reads outside the data or meets another instruction. -/
def run (word : UInt32 → Option UInt32) (a : UInt32) : List SockFilter → Option UInt32
  | [] => none
  | insn :: rest =>
    match decode insn with
    | none => none
    | some (.ldAbsWord offset) =>
      match word offset with
      | none => none
      | some loaded => run word loaded rest
    | some (.jeq k jt jf) => run word a (rest.drop (if a = k then jt else jf))
    | some (.ret k) => some k
termination_by program => program.length
decreasing_by all_goals grind

variable {word : UInt32 → Option UInt32} {a k loaded : UInt32} {insn : SockFilter}
  {rest : List SockFilter}

theorem run_ldAbsWord {offset : UInt32} (h : decode insn = some (.ldAbsWord offset))
    (hword : word offset = some loaded) : run word a (insn :: rest) = run word loaded rest := by
  rw [run, h]
  simp only [hword]

theorem run_jeq {jt jf : Nat} (h : decode insn = some (.jeq k jt jf)) :
    run word a (insn :: rest) = run word a (rest.drop (if a = k then jt else jf)) := by
  rw [run, h]

theorem run_ret (h : decode insn = some (.ret k)) : run word a (insn :: rest) = some k := by
  rw [run, h]

/-- Return `value` if the accumulator is one of `ks`: for each a test that skips its return. -/
def tests (value : UInt32) (ks : List UInt32) : List SockFilter :=
  ks.flatMap fun k => [⟨0x15, 0, 1, k⟩, ⟨0x06, 0, 0, value⟩]

theorem length_tests (value : UInt32) (ks : List UInt32) :
    (tests value ks).length = 2 * ks.length := by
  induction ks with
  | nil => rfl
  | cons k ks ih =>
    simp only [tests, List.flatMap_cons, List.length_append, List.length_cons, List.length_nil] at *
    omega

theorem run_tests (value : UInt32) (ks : List UInt32) :
    run word a (tests value ks ++ rest) = if a ∈ ks then some value else run word a rest := by
  induction ks with
  | nil => simp [tests]
  | cons k ks ih =>
    have hcons : tests value (k :: ks) ++ rest =
        ⟨0x15, 0, 1, k⟩ :: ⟨0x06, 0, 0, value⟩ :: (tests value ks ++ rest) := rfl
    rw [hcons, run_jeq rfl]
    by_cases hk : a = k
    · rw [if_pos hk, if_pos (by simp [hk])]
      exact run_ret rfl
    · have hskip : List.drop (if a = k then (0 : UInt8).toNat else (1 : UInt8).toNat)
          (⟨0x06, 0, 0, value⟩ :: (tests value ks ++ rest)) = tests value ks ++ rest := by
        rw [if_neg hk]
        rfl
      rw [hskip, ih]
      simp [hk]

end ClassicBpf
