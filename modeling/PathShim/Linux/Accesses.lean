import PathShim.Linux.Status
import PathShim.Linux.Runs
import PathShim.Linux.FailedOpen
import PathShim.Linux.Rename

/-!
# What a guest asks of the file system

A call on a path is carried out by the supervisor if its operands lie in
binds, and left to the kernel if they do not. Each handler makes no access but
the one that was asked for, at the place of the guest's operands, hands over
what it finds there and says how it went.
-/

namespace PathShim

open UnixPath Effects

-- ---------------------------------------------------------------------------
-- Accesses
-- ---------------------------------------------------------------------------

/-- A call that looks at a file by its path or changes it, on paths of any kind. -/
inductive Access (P : Type) where
  | openFile (path : P) (flags : Int32) (mode : UInt32)
  | fstatat (path : P) (flags : Int32)
  | statx (path : P) (flags : Int32) (mask : UInt32)
  | faccessat (path : P) (mode : Int32)
  | readLink (path : P)
  | createDir (path : P) (mode : UInt32)
  | removeDir (path : P)
  | removeFile (path : P)
  | rename (old new : P) (flags : UInt32)
  | symlink (target : OsStr) (link : P)
  | truncate (path : P) (length : Int64)
  | chmod (path : P) (mode : UInt32)
  | chown (path : P) (owner group : UInt32) (flags : Int32)
  | utimens (path : P) (times : Option Bytes) (flags : Int32)
  deriving DecidableEq

def Access.map {P Q : Type} (f : P → Q) : Access P → Access Q
  | .openFile path flags mode => .openFile (f path) flags mode
  | .fstatat path flags => .fstatat (f path) flags
  | .statx path flags mask => .statx (f path) flags mask
  | .faccessat path mode => .faccessat (f path) mode
  | .readLink path => .readLink (f path)
  | .createDir path mode => .createDir (f path) mode
  | .removeDir path => .removeDir (f path)
  | .removeFile path => .removeFile (f path)
  | .rename old new flags => .rename (f old) (f new) flags
  | .symlink target link => .symlink target (f link)
  | .truncate path length => .truncate (f path) length
  | .chmod path mode => .chmod (f path) mode
  | .chown path owner group flags => .chown (f path) owner group flags
  | .utimens path times flags => .utimens (f path) times flags

/-- Whether a descriptor is closed by an exec is no matter of the file. -/
def opening {P : Type} (path : P) (flags : Int32) (mode : UInt32) : Access P :=
  .openFile path (flags &&& ~~~O_CLOEXEC) mode

def removing {P : Type} (path : P) (flags : Int32) : Access P :=
  if flags &&& AT_REMOVEDIR != 0 then .removeDir path else .removeFile path

/-- The accesses among the supervisor's own calls. With `O_CLOEXEC` it opens a program for an exec,
and that is the kernel's access. The flags of `faccessat` are left out: the system call has none. -/
def Op.access : Op → Option (Access OsStr)
  | .openFile path flags mode =>
    if flags &&& O_CLOEXEC = 0 then some (.openFile path flags mode) else none
  | .fstatat path flags => some (.fstatat path flags)
  | .statx path flags mask => some (.statx path flags mask)
  | .faccessat path mode _ => some (.faccessat path mode)
  | .readLink path => some (.readLink path)
  | .createDir path mode => some (.createDir path mode)
  | .removeDir path => some (.removeDir path)
  | .removeFile path => some (.removeFile path)
  | .rename old new => some (.rename old new 0)
  | .symlink target link => some (.symlink target link)
  | .truncate path length => some (.truncate path length)
  | .chmod path mode => some (.chmod path mode)
  | .fchownat path owner group flags => some (.chown path owner group flags)
  | .utimensat path times flags => some (.utimens path times flags)
  | _ => none

/-- The bytes the supervisor reads for a value. -/
def Memory.value (m : Memory) (pid : Pid) (address : UInt64) (size : Nat) : Option Bytes :=
  ((readValue pid address size).eval m.answers).bind Except.toOption

/-- The times of `utimensat`; without any it takes the present. -/
def SeccompNotif.times (notif : SeccompNotif) (m : Memory) : Option (Option Bytes) :=
  if notif.data.args 2 = 0 then some none
  else (m.value notif.pid (notif.data.args 2) sizeOfTimes).map some

/-- What a system call asks of the file system, with its path operands at `paths`. The restrictions
of an `openat2`, the high words of its flags and its mode, and the flags of an `unlinkat` beside
`AT_REMOVEDIR` are left out. -/
def SeccompNotif.access {P : Type} (notif : SeccompNotif) (m : Memory) (paths : List P) :
    Option (Access P) :=
  let args := notif.data.args
  match notif.data.nr, paths with
  | .sysOpen, [path] => some (opening path (asI32 (args 1)) (asU32 (args 2)))
  | .sysOpenat, [path] => some (opening path (asI32 (args 2)) (asU32 (args 3)))
  | .sysOpenat2, [path] => (m.value notif.pid (args 2) sizeOfOpenHow).map fun how =>
    opening path (asI32 (leU64 how 0)) (asU32 (leU64 how 8))
  | .sysNewfstatat, [path] => some (.fstatat path (asI32 (args 3)))
  | .sysStatx, [path] => some (.statx path (asI32 (args 2)) (asU32 (args 3)))
  | .sysAccess, [path] => some (.faccessat path (asI32 (args 1)))
  | .sysFaccessat, [path] | .sysFaccessat2, [path] => some (.faccessat path (asI32 (args 2)))
  | .sysReadlink, [path] | .sysReadlinkat, [path] => some (.readLink path)
  | .sysMkdir, [path] => some (.createDir path (asU32 (args 1)))
  | .sysMkdirat, [path] => some (.createDir path (asU32 (args 2)))
  | .sysUnlink, [path] => some (.removeFile path)
  | .sysRmdir, [path] => some (.removeDir path)
  | .sysUnlinkat, [path] => some (removing path (asI32 (args 2)))
  | .sysRename, [old, new] | .sysRenameat, [old, new] => some (.rename old new 0)
  | .sysRenameat2, [old, new] => some (.rename old new (asU32 (args 4)))
  | .sysSymlink, [link] | .sysSymlinkat, [link] =>
    (m.pathname notif.pid (args 0)).map fun target => .symlink target link
  | .sysTruncate, [path] => some (.truncate path (asI64 (args 1)))
  | .sysChmod, [path] => some (.chmod path (asU32 (args 1)))
  | .sysFchmodat, [path] => some (.chmod path (asU32 (args 2)))
  | .sysChown, [path] => some (.chown path (asU32 (args 1)) (asU32 (args 2)) 0)
  | .sysLchown, [path] =>
    some (.chown path (asU32 (args 1)) (asU32 (args 2)) AT_SYMLINK_NOFOLLOW)
  | .sysFchownat, [path] =>
    some (.chown path (asU32 (args 2)) (asU32 (args 3)) (asI32 (args 4)))
  | .sysUtimensat, [path] =>
    (notif.times m).map fun times => .utimens path times (asI32 (args 3))
  | _, _ => none

theorem Access.map_map {P Q R : Type} (f : P → Q) (g : Q → R) (access : Access P) :
    (access.map f).map g = access.map (g ∘ f) := by
  cases access <;> rfl

-- ---------------------------------------------------------------------------
-- What is asked for, and what is done
-- ---------------------------------------------------------------------------

/-- The destination whose bind a guest path belongs to. -/
def BindView.mountPoint (view : BindView) (path : AbsPath) : Option AbsPath :=
  (Mounts.select view.table path).map Mounts.Mount.target

/-- Nothing is renamed from one bind to another, or in a special way. -/
def Access.allowed (view : BindView) : Access AbsPath → Bool
  | .rename old new flags => flags == 0 && view.mountPoint old == view.mountPoint new
  | _ => true

/-- Where a task's own working directory is, is no matter of the file system. -/
def Access.ofFiles (w : World) (pid : Pid) : Access AbsPath → Bool
  | .readLink path => (ownCwdLinks w pid).all fun link => !decide (link = path)
  | _ => true

/-- The guest paths of a call, unless one of them is an error. -/
def Config.operands (c : Config) (notif : SeccompNotif) (m : Memory) : Option (List AbsPath) :=
  (pathOperands notif).mapM fun operand => c.world.operand m c.state notif.pid operand.1 operand.2

/-- What a call asks of the guest's own namespace. -/
def Config.asked (c : Config) (notif : SeccompNotif) (m : Memory) : Option (Access AbsPath) :=
  ((c.operands notif m).bind (notif.access m)).filter fun access =>
    access.allowed c.state.view && access.ofFiles c.world notif.pid

-- ---------------------------------------------------------------------------
-- What the supervisor does for one notification
-- ---------------------------------------------------------------------------

/-- What an access has returned to the supervisor. -/
def result : Event Op.Answer → Except Errno Nat
  | ⟨.createDir _ _, r⟩ | ⟨.removeDir _, r⟩ | ⟨.removeFile _, r⟩ | ⟨.rename _ _, r⟩
  | ⟨.symlink _ _, r⟩ => (r.map fun () => 0).mapError errno
  | ⟨.truncate _ _, r⟩ | ⟨.chmod _ _, r⟩ | ⟨.fchownat _ _ _ _, r⟩ | ⟨.utimensat _ _ _, r⟩ => r
  | ⟨.faccessat _ _ _, r⟩ => r.map fun () => 0
  | ⟨.fstatat _ _, .error e⟩ | ⟨.statx _ _ _, .error e⟩ | ⟨.openFile _ _ _, .error e⟩ => .error e
  | ⟨.readLink _, .error e⟩ => .error (errno e)
  | _ => .ok 0

/-- The buffer for the target of a link, and its size. -/
def SeccompNotif.linkBuffer (notif : SeccompNotif) : UInt64 × Nat :=
  if notif.data.nr = .sysReadlink then (notif.data.args 1, (notif.data.args 2).toNat)
  else (notif.data.args 2, (notif.data.args 3).toNat)

/-- What an access has found for the guest: bytes for its memory, with their address and the value
that is returned when they are there, or a file. -/
inductive Found where
  | nothing
  | bytes (address : UInt64) (bytes : Bytes) (value : Nat)
  | file (fd : Fd)

def found (notif : SeccompNotif) : Event Op.Answer → Found
  | ⟨.fstatat _ _, .ok bytes⟩ => .bytes (notif.data.args 2) bytes 0
  | ⟨.statx _ _ _, .ok bytes⟩ => .bytes (notif.data.args 4) bytes 0
  | ⟨.readLink _, .ok target⟩ =>
    let length := min notif.linkBuffer.2 target.bytes.length
    .bytes notif.linkBuffer.1 (target.bytes.take length) length
  | ⟨.openFile _ _ _, .ok fd⟩ => .file fd
  | _ => .nothing

/-- The flags of an `open`. -/
def SeccompNotif.openFlags (notif : SeccompNotif) (m : Memory) : Int32 :=
  match notif.data.nr with
  | .sysOpen => asI32 (notif.data.args 1)
  | .sysOpenat => asI32 (notif.data.args 2)
  | _ => ((m.value notif.pid (notif.data.args 2) sizeOfOpenHow).map fun how =>
    asI32 (leU64 how 0)).getD 0

/-- A file is given as the reply, to be closed by an exec if the guest wants that. -/
def sending (notif : SeccompNotif) (m : Memory) (fd : Fd) : SeccompNotifAddfd :=
  sendRequest notif.id fd (notif.openFlags m)

/-- How a write to the guest's memory has gone. -/
def storeOutcome {bytes : Bytes} (value : Nat) : Except Errno (Written bytes) → Except Errno Nat
  | .error e => .error e
  | .ok written => if written.val = bytes.length then .ok value else .error EIO

/-- And how the guest is told. -/
def reply (id : UInt64) : Except Errno Nat → SeccompNotifResp
  | .ok value => ⟨id, value, 0, 0⟩
  | .error e => ⟨id, 0, -e, 0⟩

/-- Calls that write to the guest's memory or give it a file. -/
def Op.gives : Op → Bool
  | .processVmWritev _ _ _ | .writeProcMem _ _ _ | .addFd _ => true
  | _ => false

def notable (op : Op) : Bool := op.access.isSome || op.gives || op.isRespond

/-- The accesses of a trace, what it gives to the guest and its responses. -/
def notes (tr : Trace) : Trace := tr.filter fun e => notable e.op

/-- A call of the supervisor makes the access that was asked for, where the guest's paths lie. -/
def Located (c : Config) (notif : SeccompNotif) (m : Memory) (op : Op) : Prop :=
  ∃ access host, c.asked notif m = some access ∧ op.access = some host ∧
    host.map OsStr.normalize = access.map c.state.view.locate

/-- What a handler does for a call on paths: it makes no access, leaves the call to the kernel, or
makes the access it was asked for, hands over what it has found and says how that went. A file is
given with the reply, or there is an error if it cannot be given. -/
inductive Carried (c : Config) (notif : SeccompNotif) (m : Memory) : Trace → Prop
  | nothing {tr} : c.asked notif m = none →
      (∀ e ∈ tr, e.op.access = none ∧ isContinue e = false) → Carried c notif m tr
  | left {paths a} : c.operands notif m = some paths → (∀ v ∈ paths, ¬ c.state.view.Projected v) →
      c.asked notif m = (notif.access m paths).filter (Access.ofFiles c.world notif.pid) →
      Carried c notif m [⟨.respond ⟨notif.id, 0, 0, USER_NOTIF_FLAG_CONTINUE⟩, a⟩]
  | descriptor {dirfd address raw a} : pathOperands notif = [(dirfd, address)] →
      m.pathname notif.pid address = some raw → raw.bytes = [] →
      Carried c notif m [⟨.respond ⟨notif.id, 0, 0, USER_NOTIF_FLAG_CONTINUE⟩, a⟩]
  | made {op r a} : Located c notif m op → found notif ⟨op, r⟩ = .nothing →
      Carried c notif m [⟨op, r⟩, ⟨.respond (reply notif.id (result ⟨op, r⟩)), a⟩]
  | filled {op r address bytes value a b} : Located c notif m op →
      found notif ⟨op, r⟩ = .bytes address bytes value →
      Carried c notif m [⟨op, r⟩, ⟨.processVmWritev notif.pid address bytes, a⟩,
        ⟨.respond (reply notif.id (storeOutcome value a)), b⟩]
  | opened {op r fd childFd} : Located c notif m op → found notif ⟨op, r⟩ = .file fd →
      Carried c notif m [⟨op, r⟩, ⟨.addFd (sending notif m fd), .ok childFd⟩]
  | unopened {op r fd e a} : Located c notif m op → found notif ⟨op, r⟩ = .file fd →
      Carried c notif m [⟨op, r⟩, ⟨.addFd (sending notif m fd), .error e⟩,
        ⟨.respond ⟨notif.id, 0, -e, 0⟩, a⟩]

theorem Carried.refused {c : Config} {notif : SeccompNotif} {m : Memory}
    {response : SeccompNotifResp} {a : Except Errno Unit} (h : c.asked notif m = none)
    (hflags : response.flags = 0) : Carried c notif m [⟨.respond response, a⟩] := by
  refine .nothing h fun e he => ?_
  obtain rfl := List.mem_singleton.mp he
  simp [Op.access, isContinue, Op.continues, hflags]

/-- The notes of every execution that returns. -/
def Notes (E : Env Op.Answer) (p : Sup α) (T : Trace → Prop) : Prop :=
  ∀ tr a, Exec E p tr (some a) → T (notes tr)

abbrev Unnoted (E : Env Op.Answer) (p : Sup α) : Prop := Keeps E (fun e => notable e.op = false) p

section
variable {E : Env Op.Answer} {T : Trace → Prop}

theorem notes_append (first rest : Trace) : notes (first ++ rest) = notes first ++ notes rest :=
  List.filter_append ..

theorem notes_eq_nil {tr : Trace} (h : ∀ e ∈ tr, notable e.op = false) : notes tr = [] :=
  List.filter_eq_nil_iff.mpr fun e he => by simp [h e he]

theorem Notes.bind {p : Sup α} {f : α → Sup β} (hp : Unnoted E p)
    (hf : ∀ a, Returns E p a → Notes E (f a) T) : Notes E (p >>= f) T := by
  intro tr b hx
  rcases exec_bind.mp hx with ⟨a, first, rest, hfirst, hrest, rfl⟩ | ⟨-, hnone⟩
  · rw [notes_append, notes_eq_nil (hp _ _ hfirst)]
    exact hf a ⟨first, hfirst⟩ rest b hrest
  · cases hnone

theorem Notes.respond {response : SeccompNotifResp}
    (h : ∀ a, T [⟨.respond response, a⟩]) : Notes E (respond response) T := by
  intro tr r hx
  obtain ⟨a, rfl, -⟩ := exec_respond_eq hx
  exact h a

theorem Notes.answered {s : State} {p : Sup (IoResult Unit)} (h : Notes E p T) :
    Notes E (answered s p) T := by
  rintro tr ⟨s', r⟩ hx
  exact h _ _ (exec_answered_ok hx).2

theorem Notes.orRespond {id : UInt64} {x : Sup (IoResult α)} {next : α → Sup (IoResult Unit)}
    (hx : Unnoted E x) (herror : ∀ e, Returns E x (.error e) → ∀ a,
      T [⟨.respond ⟨id, 0, -errno e, 0⟩, a⟩])
    (hnext : ∀ a, Returns E x (.ok a) → Notes E (next a) T) : Notes E (orRespond id x next) T := by
  refine Notes.bind hx fun r hr => ?_
  cases r with
  | error e => exact .respond (herror e hr)
  | ok a => exact hnext a hr

theorem Notes.orRespondIn {s : State} {id : UInt64} {x : Sup (IoResult α)}
    {next : α → Sup (State × IoResult Unit)} (hx : Unnoted E x)
    (herror : ∀ e, Returns E x (.error e) → ∀ a, T [⟨.respond ⟨id, 0, -errno e, 0⟩, a⟩])
    (hnext : ∀ a, Returns E x (.ok a) → Notes E (next a) T) :
    Notes E (orRespondIn s id x next) T := by
  refine Notes.bind hx fun r hr => ?_
  cases r with
  | error e => exact .answered (.respond (herror e hr))
  | ok a => exact hnext a hr

end

section
variable {s : State} {w : World} {notif : SeccompNotif} {m : Memory} {dirfd : Fd}
  {address : UInt64} {v : AbsPath}

end

end PathShim
