import PathShim.Effects
import PathShim.Bind

/-!
# What the supervisor asks of the kernel

Notifications and replies as `seccomp.rs` lays them out, and the calls the
supervisor makes while it handles one: on the tracee's memory and `/proc`
entries, on host files, and on the listener. Every call has an answer type
that holds exactly what the kernel may return.
-/

namespace PathShim

open UnixPath Effects

abbrev Pid := UInt32
abbrev Fd := Int32

-- ---------------------------------------------------------------------------
-- System calls
-- ---------------------------------------------------------------------------

/-- The numbers the filter intercepts on x86_64, and any other number. -/
inductive Syscall where
  | sysExecve | sysExecveat
  | sysOpen | sysOpenat | sysOpenat2
  | sysNewfstatat | sysStatx
  | sysAccess | sysFaccessat | sysFaccessat2
  | sysMkdir | sysMkdirat
  | sysUnlink | sysUnlinkat | sysRmdir
  | sysRename | sysRenameat | sysRenameat2
  | sysReadlink | sysReadlinkat
  | sysSymlink | sysSymlinkat
  | sysGetdents64
  | sysChdir | sysFchdir | sysGetcwd
  | sysTruncate
  | sysChmod | sysFchmodat
  | sysChown | sysLchown | sysFchownat
  | sysUtimensat
  | other (nr : Int32)
  deriving DecidableEq

def AT_FDCWD : Int32 := -100
def AT_SYMLINK_NOFOLLOW : Int32 := 0x100
def AT_REMOVEDIR : Int32 := 0x200
def AT_EMPTY_PATH : Int32 := 0x1000
def O_RDONLY : Int32 := 0
def O_DIRECTORY : Int32 := 0x10000
def O_CLOEXEC : Int32 := 0x80000

/-- `as i32` and `as u32` on a register. -/
def asI32 (register : UInt64) : Int32 := register.toUInt32.toInt32
def asU32 (register : UInt64) : UInt32 := register.toUInt32
def asI64 (register : UInt64) : Int64 := register.toInt64

-- so that the argument numbers are literals of `Fin 6`
instance neZeroSix : @NeZero Nat Zero.ofOfNat0 6 := ⟨Nat.succ_ne_zero 5⟩

structure SeccompData where
  nr : Syscall
  args : Fin 6 → UInt64

structure SeccompNotif where
  id : UInt64
  pid : Pid
  data : SeccompData

structure SeccompNotifResp where
  id : UInt64
  val : Int
  error : Int
  flags : UInt32
  deriving DecidableEq

structure SeccompNotifAddfd where
  id : UInt64
  flags : UInt32
  srcfd : UInt32
  newfd : UInt32
  newfdFlags : UInt32
  deriving DecidableEq

def USER_NOTIF_FLAG_CONTINUE : UInt32 := 1
def ADDFD_FLAG_SEND : UInt32 := 2

-- ---------------------------------------------------------------------------
-- Calls and answers
-- ---------------------------------------------------------------------------

/-- A successful remote read: a non-empty part of the range from its start, in the
lower half of the address space, where user memory is. -/
structure Chunk (address : UInt64) (length : Nat) where
  bytes : Bytes
  nonempty : bytes ≠ []
  length_le : bytes.length ≤ length
  mapped : address.toNat + bytes.length < 2 ^ 63

/-- A write transfers at most what it was given. -/
abbrev Written (bytes : Bytes) := Fin (bytes.length + 1)

/-- The lines of `/proc/<pid>/status` that are read. -/
inductive StatusField where
  | tgid
  | ppid
  deriving DecidableEq

inductive Op where
  -- the tracee
  | processVmReadv (pid : Pid) (address : UInt64) (length : Nat)
  | processVmWritev (pid : Pid) (address : UInt64) (bytes : Bytes)
  | openProcMem (pid : Pid)
  | writeProcMem (pid : Pid) (bytes : Bytes) (address : UInt64)
  | processStatusField (pid : Pid) (field : StatusField)
  | readFdLink (pid : Pid) (fd : Fd)
  | readCwdLink (pid : Pid)
  -- host files
  | canonicalize (path : OsStr)
  | metadata (path : OsStr)
  | symlinkMetadata (path : OsStr)
  | readDir (path : OsStr)
  | openFile (path : OsStr) (flags : Int32) (mode : UInt32)
  | fstatat (path : OsStr) (flags : Int32)
  | statx (path : OsStr) (flags : Int32) (mask : UInt32)
  | faccessat (path : OsStr) (mode flags : Int32)
  | createDir (path : OsStr) (mode : UInt32)
  | removeDir (path : OsStr)
  | removeFile (path : OsStr)
  | rename (old new : OsStr)
  | symlink (target link : OsStr)
  | readLink (path : OsStr)
  | truncate (path : OsStr) (length : Int64)
  | chmod (path : OsStr) (mode : UInt32)
  | fchownat (path : OsStr) (owner group : UInt32) (flags : Int32)
  | utimensat (path : OsStr) (times : Option Bytes) (flags : Int32)
  -- the listener
  | addFd (request : SeccompNotifAddfd)
  | respond (response : SeccompNotifResp)
  deriving DecidableEq

@[reducible] def Op.Answer : Op → Type
  | .processVmReadv _ address length => Except Errno (Chunk address length)
  | .processVmWritev _ _ bytes => Except Errno (Written bytes)
  | .openProcMem _ => IoResult Unit
  | .writeProcMem _ bytes _ => IoResult (Written bytes)
  | .processStatusField _ _ => Option Pid
  | .readFdLink _ _ => IoResult OsStr
  | .readCwdLink _ => IoResult OsStr
  | .canonicalize _ => IoResult OsStr
  | .metadata _ => IoResult Metadata
  | .symlinkMetadata _ => IoResult Metadata
  | .readDir _ => IoResult (List (IoResult Name))
  | .openFile _ _ _ => Except Errno Fd
  | .fstatat _ _ => Except Errno Bytes
  | .statx _ _ _ => Except Errno Bytes
  | .faccessat _ _ _ => Except Errno Unit
  | .createDir _ _ => IoResult Unit
  | .removeDir _ => IoResult Unit
  | .removeFile _ => IoResult Unit
  | .rename _ _ => IoResult Unit
  | .symlink _ _ => IoResult Unit
  | .readLink _ => IoResult OsStr
  | .truncate _ _ => Except Errno Nat
  | .chmod _ _ => Except Errno Nat
  | .fchownat _ _ _ _ => Except Errno Nat
  | .utimensat _ _ _ => Except Errno Nat
  | .addFd _ => Except Errno Fd
  | .respond _ => Except Errno Unit

/-- A computation of the supervisor. -/
abbrev Sup (α : Type) := Prog Op.Answer α

abbrev ask (op : Op) : Sup op.Answer := perform op

abbrev Trace := List (Event Op.Answer)

/-- `io::Error::last_os_error` after a failed call. -/
def osResult (r : Except Errno α) : IoResult α := r.mapError .os

theorem osResult_ok {r : Except Errno α} {a : α} (h : osResult r = .ok a) : r = .ok a := by
  cases r with
  | error e => cases h
  | ok b =>
    cases h
    rfl

def errno (error : IoError) : Errno := error.rawOsError.getD EIO

-- ---------------------------------------------------------------------------
-- Kinds of calls
-- ---------------------------------------------------------------------------

/-- The host paths a call names. -/
def Op.hostPaths : Op → List OsStr
  | .canonicalize path | .metadata path | .symlinkMetadata path | .readDir path
  | .openFile path _ _ | .fstatat path _ | .statx path _ _ | .faccessat path _ _
  | .createDir path _ | .removeDir path | .removeFile path | .symlink _ path | .readLink path
  | .truncate path _ | .chmod path _ | .fchownat path _ _ _ | .utimensat path _ _ => [path]
  | .rename old new => [old, new]
  | .processVmReadv .. | .processVmWritev .. | .openProcMem _ | .writeProcMem ..
  | .processStatusField .. | .readFdLink .. | .readCwdLink _ | .addFd _ | .respond _ => []

/-- Calls that only look at the tracee, and `canonicalize`, by which a descriptor is
recognised. Resolving a pathname needs no others. -/
def Op.Observes : Op → Prop
  | .processVmReadv .. | .processStatusField .. | .readFdLink .. | .readCwdLink _
  | .canonicalize _ => True
  | _ => False

instance : DecidablePred Op.Observes := fun op => by
  cases op <;> unfold Op.Observes <;> infer_instance

/-- A call that answers the notification: any response, or a descriptor that was
installed and sent in one step. -/
def isReply : Event Op.Answer → Bool
  | ⟨.respond _, _⟩ => true
  | ⟨.addFd request, .ok _⟩ => request.flags &&& ADDFD_FLAG_SEND != 0
  | _ => false

end PathShim
