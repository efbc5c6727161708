import PathShim.ClassicBpf
import PathShim.Linux.Ops

/-!
# The notification filter

`install_listener` compares the number of a call with those of the intercepted
ones and looks at nothing else in the record. What a number means depends on
the architecture of the call, so the filter does what it is there for exactly
on the records where a number in the list is a native one.
-/

namespace PathShim

open ClassicBpf

def USER_NOTIF : UInt32 := 0x7fc00000
def ALLOW : UInt32 := 0x7fff0000

def BPF_LD : UInt16 := 0x00
def BPF_W : UInt16 := 0x00
def BPF_ABS : UInt16 := 0x20
def BPF_JMP : UInt16 := 0x05
def BPF_JEQ : UInt16 := 0x10
def BPF_K : UInt16 := 0x00
def BPF_RET : UInt16 := 0x06

-- ---------------------------------------------------------------------------
-- Records
-- ---------------------------------------------------------------------------

/-- `struct seccomp_data`, as the filter gets it. -/
structure SeccompRecord where
  nr : Int32
  arch : UInt32
  instructionPointer : UInt64
  args : Fin 6 → UInt64

def lowWord (value : UInt64) : UInt32 := value.toUInt32
def highWord (value : UInt64) : UInt32 := (value >>> 32).toUInt32

def SeccompRecord.words (d : SeccompRecord) : List UInt32 :=
  [d.nr.toUInt32, d.arch, lowWord d.instructionPointer, highWord d.instructionPointer] ++
    (List.finRange 6).flatMap fun i => [lowWord (d.args i), highWord (d.args i)]

/-- The aligned word at a byte offset. -/
def SeccompRecord.word (d : SeccompRecord) (offset : UInt32) : Option UInt32 :=
  if offset % 4 = 0 then d.words[offset.toNat / 4]? else none

-- ---------------------------------------------------------------------------
-- The program
-- ---------------------------------------------------------------------------

def stmt (code : UInt16) (k : UInt32) : SockFilter := ⟨code, 0, 0, k⟩
def jump (code : UInt16) (k : UInt32) (jt jf : UInt8) : SockFilter := ⟨code, jt, jf, k⟩

/-- `syscall as u32`. -/
def asWord (syscall : Int64) : UInt32 := syscall.toUInt64.toUInt32

def listenerFilter (syscalls : List Int64) : List SockFilter :=
  stmt (BPF_LD ||| BPF_W ||| BPF_ABS) 0 ::
    ((syscalls.flatMap fun syscall =>
      [jump (BPF_JMP ||| BPF_JEQ ||| BPF_K) (asWord syscall) 0 1,
        stmt (BPF_RET ||| BPF_K) USER_NOTIF]) ++
    [stmt (BPF_RET ||| BPF_K) ALLOW])

/-- `struct sock_fprog`: the kernel takes as many instructions as `len` says. -/
structure SockFprog where
  len : UInt16
  filter : List SockFilter

def SockFprog.run (program : SockFprog) (d : SeccompRecord) : Option UInt32 :=
  ClassicBpf.run d.word 0 (program.filter.take program.len.toNat)

def listenerProgram (syscalls : List Int64) : SockFprog :=
  ⟨UInt16.ofNat (listenerFilter syscalls).length, listenerFilter syscalls⟩

def interceptedCalls : List Syscall := [
  .sysExecve, .sysExecveat, .sysOpen, .sysOpenat, .sysOpenat2, .sysNewfstatat, .sysStatx,
  .sysAccess, .sysFaccessat, .sysFaccessat2, .sysMkdir, .sysMkdirat, .sysUnlink, .sysUnlinkat,
  .sysRmdir, .sysRename, .sysRenameat, .sysRenameat2, .sysReadlink, .sysReadlinkat, .sysSymlink,
  .sysSymlinkat, .sysGetdents64, .sysChdir, .sysFchdir, .sysGetcwd, .sysTruncate, .sysChmod,
  .sysFchmodat, .sysChown, .sysLchown, .sysFchownat, .sysUtimensat]

/-- The numbers of the target architecture; a call it does not have is numbered -1. -/
def interceptedSyscalls (number : Syscall → Int64) : List Int64 :=
  (interceptedCalls.map number).filter fun syscall => 0 ≤ syscall

theorem length_interceptedSyscalls (number : Syscall → Int64) :
    (interceptedSyscalls number).length < 32000 := by
  have h : (interceptedSyscalls number).length ≤ 33 := List.length_filter_le _ _
  omega

-- ---------------------------------------------------------------------------
-- What it returns
-- ---------------------------------------------------------------------------

variable {syscalls : List Int64}

theorem listenerFilter_eq (syscalls : List Int64) : listenerFilter syscalls =
    ⟨0x20, 0, 0, 0⟩ :: (tests USER_NOTIF (syscalls.map asWord) ++ [⟨0x06, 0, 0, ALLOW⟩]) := by
  rw [tests, List.flatMap_map]
  rfl

theorem length_listenerFilter (syscalls : List Int64) :
    (listenerFilter syscalls).length = 2 * syscalls.length + 2 := by
  rw [listenerFilter_eq, List.length_cons, List.length_append, length_tests, List.length_map]
  rfl

/-- The length is not cut off by its type. -/
theorem take_listenerProgram (h : syscalls.length < 32000) :
    (listenerProgram syscalls).filter.take (listenerProgram syscalls).len.toNat =
      listenerFilter syscalls := by
  refine List.take_of_length_le ?_
  have hlength := length_listenerFilter syscalls
  show (listenerFilter syscalls).length ≤ (UInt16.ofNat (listenerFilter syscalls).length).toNat
  rw [UInt16.toNat_ofNat']
  omega

/-- Only the low word of the number decides. -/
theorem run_listenerProgram (h : syscalls.length < 32000) (d : SeccompRecord) :
    (listenerProgram syscalls).run d =
      some (if d.nr.toUInt32 ∈ syscalls.map asWord then USER_NOTIF else ALLOW) := by
  have hnr : d.word 0 = some d.nr.toUInt32 := rfl
  rw [SockFprog.run, take_listenerProgram h, listenerFilter_eq, run_ldAbsWord rfl hnr, run_tests,
    run_ret rfl]
  split <;> rfl

theorem asWord_toInt64 (nr : Int32) : asWord nr.toInt64 = nr.toUInt32 := by
  apply UInt32.toBitVec_inj.mp
  show BitVec.setWidth 32 (BitVec.signExtend 64 nr.toBitVec) = nr.toBitVec
  ext i hi
  have hwide : i < 64 := Nat.lt_trans hi (by decide)
  simp [BitVec.getElem_signExtend, hi, hwide]

-- ---------------------------------------------------------------------------
-- What it is there for
-- ---------------------------------------------------------------------------

/-- A native call with one of the numbers. -/
def Intercepts (nativeArch : UInt32) (syscalls : List Int64) (d : SeccompRecord) : Prop :=
  d.arch = nativeArch ∧ d.nr.toInt64 ∈ syscalls

instance (nativeArch : UInt32) (syscalls : List Int64) (d : SeccompRecord) :
    Decidable (Intercepts nativeArch syscalls d) :=
  inferInstanceAs (Decidable (_ ∧ _))

/-- Exactly these are handed to the supervisor, and all others to the kernel. -/
def FilterExact (nativeArch : UInt32) (syscalls : List Int64) (d : SeccompRecord) : Prop :=
  ((listenerProgram syscalls).run d = some USER_NOTIF ↔ Intercepts nativeArch syscalls d) ∧
    (¬ Intercepts nativeArch syscalls d → (listenerProgram syscalls).run d = some ALLOW)

/-- The filter is exact on a record unless its number is in the list and means another call. -/
theorem filter_exact {nativeArch : UInt32} (h : syscalls.length < 32000) (d : SeccompRecord) :
    FilterExact nativeArch syscalls d ↔
      (d.nr.toUInt32 ∈ syscalls.map asWord → Intercepts nativeArch syscalls d) := by
  have hlisted : Intercepts nativeArch syscalls d → d.nr.toUInt32 ∈ syscalls.map asWord := by
    rintro ⟨-, hnr⟩
    exact List.mem_map.mpr ⟨_, hnr, asWord_toInt64 d.nr⟩
  have hne : ALLOW ≠ USER_NOTIF := by decide
  rw [FilterExact, run_listenerProgram h]
  by_cases hmem : d.nr.toUInt32 ∈ syscalls.map asWord
  · rw [if_pos hmem]
    constructor
    · exact fun h _ => h.1.mp rfl
    · exact fun h => ⟨iff_of_true rfl (h hmem), fun hno => absurd (h hmem) hno⟩
  · have hnot : ¬ Intercepts nativeArch syscalls d := fun hi => hmem (hlisted hi)
    simp [hmem, hnot, hne]

def AUDIT_ARCH_X86_64 : UInt32 := 0xc000003e
def AUDIT_ARCH_I386 : UInt32 := 0x40000003

/-- The numbers of x86_64. -/
def sysNumber : Syscall → Int64
  | .sysExecve => 59
  | .sysExecveat => 322
  | .sysOpen => 2
  | .sysOpenat => 257
  | .sysOpenat2 => 437
  | .sysNewfstatat => 262
  | .sysStatx => 332
  | .sysAccess => 21
  | .sysFaccessat => 269
  | .sysFaccessat2 => 439
  | .sysMkdir => 83
  | .sysMkdirat => 258
  | .sysUnlink => 87
  | .sysUnlinkat => 263
  | .sysRmdir => 84
  | .sysRename => 82
  | .sysRenameat => 264
  | .sysRenameat2 => 316
  | .sysReadlink => 89
  | .sysReadlinkat => 267
  | .sysSymlink => 88
  | .sysSymlinkat => 266
  | .sysGetdents64 => 217
  | .sysChdir => 80
  | .sysFchdir => 81
  | .sysGetcwd => 79
  | .sysTruncate => 76
  | .sysChmod => 90
  | .sysFchmodat => 268
  | .sysChown => 92
  | .sysLchown => 94
  | .sysFchownat => 260
  | .sysUtimensat => 280
  | .other nr => nr.toInt64

/-- Call 21, which is `access` on x86_64 and `mount` on i386. -/
def callRecord (arch : UInt32) : SeccompRecord := ⟨21, arch, 0, fun _ => 0⟩

theorem filter_exact_native :
    FilterExact AUDIT_ARCH_X86_64 (interceptedSyscalls sysNumber) (callRecord AUDIT_ARCH_X86_64) :=
  (filter_exact (length_interceptedSyscalls _) _).mpr fun _ => by decide

/-- A 32-bit `mount` is handed to the handler of `access`. -/
theorem filter_notifies_foreign :
    (listenerProgram (interceptedSyscalls sysNumber)).run (callRecord AUDIT_ARCH_I386) =
        some USER_NOTIF ∧
      ¬ FilterExact AUDIT_ARCH_X86_64 (interceptedSyscalls sysNumber)
        (callRecord AUDIT_ARCH_I386) := by
  have hlisted : (callRecord AUDIT_ARCH_I386).nr.toUInt32 ∈
      (interceptedSyscalls sysNumber).map asWord := by decide
  have hrun := run_listenerProgram (length_interceptedSyscalls sysNumber)
    (callRecord AUDIT_ARCH_I386)
  rw [if_pos hlisted] at hrun
  refine ⟨hrun, fun h => ?_⟩
  have hnative : AUDIT_ARCH_I386 = AUDIT_ARCH_X86_64 := (h.1.mp hrun).1
  exact absurd hnative (by decide)

end PathShim
