import Mathlib.Logic.Function.Basic
import PathShim.Linux.Ops

/-!
# The tracee as the supervisor sees it

`remote.rs`: reading and rewriting tracee memory, and turning a pathname with
its directory descriptor into a guest path. A guest path is in normal form
from here on, so the functions that produce one return an `AbsPath`.
-/

namespace PathShim

open UnixPath Effects

-- ---------------------------------------------------------------------------
-- Supervisor state
-- ---------------------------------------------------------------------------

structure DirEntry where
  name : Name
  inode : UInt64
  fileType : UInt8
  deriving DecidableEq

structure OpenDirectory where
  path : AbsPath
  entries : List DirEntry
  cursor : Nat
  deriving DecidableEq

structure State where
  view : BindView
  directories : Pid × Fd → Option OpenDirectory
  virtualCwds : Pid → Option AbsPath

def State.new (view : BindView) : State := ⟨view, fun _ => none, fun _ => none⟩

/-- `HashMap::insert` and `HashMap::remove` on the two maps. -/
def State.insertDirectory (s : State) (key : Pid × Fd) (directory : OpenDirectory) : State :=
  { s with directories := Function.update s.directories key (some directory) }

def State.removeDirectory (s : State) (key : Pid × Fd) : State :=
  { s with directories := Function.update s.directories key none }

def State.insertCwd (s : State) (key : Pid) (path : AbsPath) : State :=
  { s with virtualCwds := Function.update s.virtualCwds key (some path) }

-- ---------------------------------------------------------------------------
-- Numbers in pathnames
-- ---------------------------------------------------------------------------

def decimalDigits (n : Nat) : Bytes := ascii (Nat.toDigits 10 n)

def isDigitByte (b : UInt8) : Bool := 48 ≤ b && b ≤ 57

theorem isDigitByte_of_mem {n : Nat} {b : UInt8} (h : b ∈ decimalDigits n) :
    isDigitByte b = true := by
  obtain ⟨c, hc, rfl⟩ := List.mem_map.mp h
  have hd := Char.isDigit_iff_toNat.mp (Nat.isDigit_of_mem_toDigits (by decide) (by decide) hc)
  obtain ⟨h0, h9⟩ : 48 ≤ c.toNat ∧ c.toNat ≤ 57 := hd
  simp only [isDigitByte, Bool.and_eq_true, decide_eq_true_eq, UInt8.le_iff_toNat_le,
    Nat.toUInt8, UInt8.toNat_ofNat']
  constructor
  · show 48 ≤ c.toNat % 2 ^ 8
    omega
  · show c.toNat % 2 ^ 8 ≤ 57
    omega

/-- A number as `format!` writes it. -/
def decimal (i : Int) : Bytes :=
  if i < 0 then 45 :: decimalDigits i.natAbs else decimalDigits i.natAbs

theorem decimal_isName (i : Int) : IsName (decimal i) := by
  have hdigits (n : Nat) : ∀ b ∈ decimalDigits n, b ≠ 0 ∧ b ≠ dot ∧ b ≠ slash := by
    intro b hb
    have h := isDigitByte_of_mem hb
    refine ⟨?_, ?_, ?_⟩ <;> rintro rfl <;> exact absurd h (by decide)
  have hall : ∀ b ∈ decimal i, b ≠ 0 ∧ b ≠ dot ∧ b ≠ slash := by
    intro b hb
    unfold decimal at hb
    split at hb
    · rcases List.mem_cons.mp hb with rfl | hb
      · decide
      · exact hdigits _ b hb
    · exact hdigits _ b hb
  have hne : decimal i ≠ [] := by
    unfold decimal
    split
    · simp
    · simp [decimalDigits, ascii]
  refine ⟨hne, ?_, ?_, fun h => (hall _ h).2.2 rfl, fun h => (hall _ h).1 rfl⟩
  · intro h
    exact (hall dot (by simp [h])).2.1 rfl
  · intro h
    exact (hall dot (by simp [h])).2.1 rfl

def decimalName (i : Int) : Name := ⟨decimal i, decimal_isName i⟩

/-- `str::parse::<u32>`: digits after an optional plus sign. -/
def parseU32 (text : Bytes) : Option UInt32 :=
  let digits := match text with
    | 43 :: rest => rest
    | _ => text
  if digits ≠ [] ∧ digits.all isDigitByte then
    let n := digits.foldl (fun acc b => 10 * acc + (b.toNat - 48)) 0
    if n < 2 ^ 32 then some (UInt32.ofNat n) else none
  else none

-- ---------------------------------------------------------------------------
-- Memory
-- ---------------------------------------------------------------------------

def MAX_PATH : Nat := 4096

/-- `process_vm_readv` into a fresh buffer. -/
def readMemory (pid : Pid) (address : UInt64) (length : Nat) :
    Sup (IoResult (Chunk address length)) := do
  match ← ask (.processVmReadv pid address length) with
  | .error e => return .error (.os e)
  | .ok chunk => return .ok chunk

/-- `address + offset`, which panics when it overflows. -/
def checkedAdd (address : UInt64) (offset : Nat) : Option UInt64 :=
  if address.toNat + offset < 2 ^ 64 then some (UInt64.ofNat (address.toNat + offset)) else none

theorem checkedAdd_eq {address : UInt64} {offset : Nat} (h : address.toNat + offset < 2 ^ 64) :
    ∃ start, checkedAdd address offset = some start ∧ start.toNat = address.toNat + offset := by
  refine ⟨_, if_pos h, ?_⟩
  simpa using Nat.mod_eq_of_lt h

theorem checkedAdd_some {address start : UInt64} {offset : Nat}
    (h : checkedAdd address offset = some start) : start.toNat = address.toNat + offset := by
  by_cases hlt : address.toNat + offset < 2 ^ 64
  · obtain ⟨start', hstart, hnat⟩ := checkedAdd_eq hlt
    obtain rfl : start' = start := by simpa [h] using hstart.symm
    exact hnat
  · rw [checkedAdd, if_neg hlt] at h
    cases h

def OsStr.append (bytes : OsStr) (more : Bytes) (h : (0 : UInt8) ∉ more) : OsStr :=
  ⟨bytes.bytes ++ more, by simpa using ⟨bytes.noNul, h⟩⟩

/-- The loop of `read_path`. Every turn reads a byte at least, so `MAX_PATH + 1` turns
are enough; running out of them counts as a panic. -/
def readPathLoop (pid : Pid) (address : UInt64) : Nat → OsStr → Sup (IoResult OsStr)
  | 0, _ => .panic
  | turns + 1, bytes =>
    if bytes.bytes.length < MAX_PATH then
      match checkedAdd address bytes.bytes.length with
      | none => .panic
      | some start => do
        let chunkLen := min (MAX_PATH - bytes.bytes.length) 256
        match ← readMemory pid start chunkLen with
        | .error e => return .error e
        | .ok chunk =>
          if h : (0 : UInt8) ∈ chunk.bytes then
            return .ok (OsStr.append bytes (chunk.bytes.takeWhile (· != 0)) (noNul_takeWhile _))
          else readPathLoop pid address turns (OsStr.append bytes chunk.bytes h)
    else return .error (.os ENAMETOOLONG)

def OsStr.empty : OsStr := ⟨[], by simp⟩

def readPath (pid : Pid) (address : UInt64) : Sup (IoResult OsStr) :=
  if address = 0 then return .error (.os EFAULT)
  else readPathLoop pid address (MAX_PATH + 1) OsStr.empty

/-- `read_value` of a type of `size` bytes. `truncate` keeps the buffer, so after a short
read the value takes its last bytes from the zeros the buffer was made of. -/
def readValue (pid : Pid) (address : UInt64) (size : Nat) : Sup (IoResult Bytes) := do
  match ← readMemory pid address size with
  | .error e => return .error e
  | .ok chunk => return .ok (chunk.bytes ++ List.replicate (size - chunk.bytes.length) 0)

def writeMemory (pid : Pid) (address : UInt64) (bytes : Bytes) : Sup (IoResult Unit) := do
  match ← ask (.processVmWritev pid address bytes) with
  | .error e => return .error (.os e)
  | .ok written =>
    if written.val ≠ bytes.length then
      return .error (.new .writeZero "short process_vm_writev" none)
    else return .ok ()

def writeProcessMemory (pid : Pid) (address : UInt64) (bytes : Bytes) : Sup (IoResult Unit) := do
  match ← ask (.openProcMem pid) with
  | .error e => return .error e
  | .ok () =>
    match ← ask (.writeProcMem pid bytes address) with
    | .error e => return .error e
    | .ok written =>
      if written.val = bytes.length then return .ok ()
      else return .error (.new .writeZero "short /proc/pid/mem write" none)

def rewritePath (pid : Pid) (address : UInt64) (original replacement : OsStr) :
    Sup (IoResult Unit) :=
  let bytes := replacement.bytes ++ [0]
  if bytes.length > original.bytes.length + 1 then return .error (.os ENAMETOOLONG)
  else do
    match ← writeMemory pid address bytes with
    | .ok () => return .ok ()
    | .error _ => writeProcessMemory pid address bytes

-- ---------------------------------------------------------------------------
-- Processes
-- ---------------------------------------------------------------------------

def processKey (pid : Pid) : Sup Pid := do
  return (← ask (.processStatusField pid .tgid)).getD pid

def processParent (pid : Pid) : Sup (Option Pid) := ask (.processStatusField pid .ppid)

def virtualCwdLoop (state : State) : Nat → Pid → Sup (Option AbsPath)
  | 0, _ => return none
  | turns + 1, current =>
    match state.virtualCwds current with
    | some path => return some path
    | none => do
      match ← processParent current with
      | none => return none
      | some parent =>
        if parent = 0 ∨ parent = current then return none
        else virtualCwdLoop state turns (← processKey parent)

def virtualCwd (state : State) (pid : Pid) : Sup (Option AbsPath) := do
  virtualCwdLoop state 16 (← processKey pid)

def processCwd (pid : Pid) (state : State) : Sup OsStr := do
  let host := match ← ask (.readCwdLink pid) with
    | .ok host => host
    | .error _ => osStr ['/']
  return state.view.virtualForHost host

def nameSelf : Name := ⟨ascii ['s', 'e', 'l', 'f'], by decide⟩
def nameThreadSelf : Name :=
  ⟨ascii ['t', 'h', 'r', 'e', 'a', 'd', '-', 's', 'e', 'l', 'f'], by decide⟩
def nameCwd : Name := ⟨ascii ['c', 'w', 'd'], by decide⟩
def nameFd : Name := ⟨ascii ['f', 'd'], by decide⟩

/-- The number after `/proc/`. -/
def procTarget (path : AbsPath) : Option UInt32 :=
  match path with
  | root :: target :: _ => if root = nameProc then parseU32 target.bytes else none
  | _ => none

def isOwnProcCwd (path : AbsPath) (pid : Pid) : Sup Bool :=
  if path = [nameProc, nameSelf, nameCwd] ∨ path = [nameProc, nameThreadSelf, nameCwd] then
    return true
  else
    match procTarget path with
    | none => return false
    | some target =>
      if path = [nameProc, decimalName target.toNat, nameCwd] then
        if target = pid then return true
        else do return target == (← processKey pid)
      else return false

-- ---------------------------------------------------------------------------
-- Path resolution
-- ---------------------------------------------------------------------------

/-- `remote::normalize`; `Component::Prefix` does not occur on Unix. -/
def normalize (path : OsStr) : AbsPath :=
  path.components.foldl (fun normalized component =>
    match component with
    | .rootDir | .curDir => normalized
    | .parentDir => normalized.dropLast
    | .normal part => normalized ++ [part]) []

@[simp] theorem normalize_eq (path : OsStr) : normalize path = path.normalize := rfl

/-- Paths are equal when their components are. -/
def samePath (first second : OsStr) : Bool := first.components == second.components

theorem samePath_iff {first second : OsStr} :
    samePath first second = true ↔ first.components = second.components := by
  simp [samePath]

def directoryFdMatches (state : State) (pid : Pid) (fd : Fd) (directory : OpenDirectory) :
    Sup Bool := do
  match ← ask (.readFdLink pid fd) with
  | .error _ => return false
  | .ok actual =>
    let expected := state.view.resolveRead directory.path.toPath
    match ← ask (.canonicalize expected) with
    | .ok canonical => return samePath canonical actual
    | .error _ => return samePath expected actual

/-- The tracked directory behind a descriptor, if the descriptor still is that directory. -/
def trackedDirectory (state : State) (pid : Pid) (fd : Fd) : Sup (Option OpenDirectory) := do
  match state.directories (← processKey pid, fd) with
  | none => return none
  | some directory =>
    if ← directoryFdMatches state pid fd directory then return some directory else return none

def resolvePath (state : State) (pid : Pid) (dirfd : Fd) (path : OsStr) : Sup (IoResult AbsPath) :=
  if path.bytes = [] then return .error (.os ENOENT)
  else if path.isAbsolute then return .ok (normalize path)
  else if dirfd = AT_FDCWD then do
    let base ← match ← virtualCwd state pid with
      | some cwd => pure cwd.toPath
      | none => processCwd pid state
    return .ok (normalize (base.join path))
  else do
    match ← trackedDirectory state pid dirfd with
    | some directory => return .ok (normalize (directory.path.toPath.join path))
    | none =>
      match ← ask (.readFdLink pid dirfd) with
      | .error e => return .error e
      | .ok host => return .ok (normalize ((state.view.virtualForHost host).join path))

end PathShim
