import PathShim.Linux.Remote

/-!
# Handling a notification

`dispatch.rs` and `execute.rs`. A handler is the program of the calls it makes
until it returns; the ones that change the supervisor's state return it beside
their result. Early returns of the source are the branches of `orRespond`.
-/

namespace PathShim

open UnixPath Effects

-- ---------------------------------------------------------------------------
-- Replies
-- ---------------------------------------------------------------------------

def respond (response : SeccompNotifResp) : Sup (IoResult Unit) := do
  return osResult (← ask (.respond response))

def respondContinue (id : UInt64) : Sup (IoResult Unit) :=
  respond ⟨id, 0, 0, USER_NOTIF_FLAG_CONTINUE⟩

def respondValue (id : UInt64) (value : Int) : Sup (IoResult Unit) := respond ⟨id, value, 0, 0⟩

def respondError (id : UInt64) (error : Errno) : Sup (IoResult Unit) := respond ⟨id, 0, -error, 0⟩

/-- The reply for what a call of the C library returned. -/
def respondResult (id : UInt64) : Except Errno Nat → Sup (IoResult Unit)
  | .error e => respondError id e
  | .ok result => respondValue id result

/-- `match x { Ok(value) => next, Err(error) => return respond_error(..) }`. -/
def orRespond (id : UInt64) (x : Sup (IoResult α)) (next : α → Sup (IoResult Unit)) :
    Sup (IoResult Unit) := do
  match ← x with
  | .ok value => next value
  | .error e => respondError id (errno e)

/-- A reply that leaves the supervisor in `state`. -/
def answered (state : State) (reply : Sup (IoResult Unit)) : Sup (State × IoResult Unit) := do
  return (state, ← reply)

/-- `orRespond` in a handler that may change the state further on. -/
def orRespondIn (state : State) (id : UInt64) (x : Sup (IoResult α))
    (next : α → Sup (State × IoResult Unit)) : Sup (State × IoResult Unit) := do
  match ← x with
  | .ok value => next value
  | .error e => answered state (respondError id (errno e))

-- ---------------------------------------------------------------------------
-- Operands
-- ---------------------------------------------------------------------------

def readAndResolve (state : State) (notif : SeccompNotif) (dirfd : Fd) (address : UInt64) :
    Sup (IoResult AbsPath) := do
  match ← readPath notif.pid address with
  | .error e => return .error e
  | .ok path => resolvePath state notif.pid dirfd path

/-- `CString::new`, which refuses an interior NUL. -/
def cString (path : OsStr) : Option OsStr := if (0 : UInt8) ∈ path.bytes then none else some path

@[simp] theorem cString_eq (path : OsStr) : cString path = some path := by
  simp [cString, path.noNul]

def withCString (id : UInt64) (path : OsStr) (next : OsStr → Sup (IoResult Unit)) :
    Sup (IoResult Unit) :=
  match cString path with
  | some path => next path
  | none => respondError id EINVAL

/-- What most handlers start with: resolve the operand, and leave it to the kernel
unless it lies in a bind. -/
def onProjected (state : State) (notif : SeccompNotif) (dirfd : Fd) (address : UInt64)
    (next : AbsPath → Sup (IoResult Unit)) : Sup (IoResult Unit) :=
  orRespond notif.id (readAndResolve state notif dirfd address) fun virtualPath =>
    if state.view.projects virtualPath.toPath then next virtualPath
    else respondContinue notif.id

/-- The same for the handlers that look at the pathname itself first and let the
kernel have it when `skip` says so. -/
def onProjectedPath (state : State) (notif : SeccompNotif) (dirfd : Fd) (address : UInt64)
    (skip : OsStr → Bool) (next : OsStr → AbsPath → Sup (IoResult Unit)) : Sup (IoResult Unit) :=
  orRespond notif.id (readPath notif.pid address) fun rawPath =>
    if skip rawPath then respondContinue notif.id
    else orRespond notif.id (resolvePath state notif.pid dirfd rawPath) fun virtualPath =>
      if state.view.projects virtualPath.toPath then next rawPath virtualPath
      else respondContinue notif.id

-- ---------------------------------------------------------------------------
-- Operations of the bind view
-- ---------------------------------------------------------------------------

def BindView.mkdir (view : BindView) (virtualPath : OsStr) (mode : UInt32) : Sup (IoResult Unit) :=
  ask (.createDir (view.resolveProjected virtualPath) mode)

def BindView.unlink (view : BindView) (virtualPath : OsStr) (removeDir : Bool) :
    Sup (IoResult Unit) :=
  let realPath := view.resolveProjected virtualPath
  if removeDir then ask (.removeDir realPath) else ask (.removeFile realPath)

def BindView.rename (view : BindView) (old new : OsStr) : Sup (IoResult Unit) :=
  let old := normalizeVirtual old
  let new := normalizeVirtual new
  match view.projectionIndex old, view.projectionIndex new with
  | some oldIndex, some newIndex =>
    if oldIndex ≠ newIndex then return .error (.os EXDEV)
    else
      match view.projections[oldIndex]?.bind (·.resolve old),
        view.projections[newIndex]?.bind (·.resolve new) with
      | some realOld, some realNew => ask (.rename realOld realNew)
      | _, _ => .panic
  | _, _ => return .error (.os EXDEV)

def BindView.symlink (view : BindView) (target link : OsStr) : Sup (IoResult Unit) :=
  ask (.symlink target (view.resolveProjected link))

def metadataToDirType (metadata : Metadata) : UInt8 :=
  match metadata.fileType with
  | .dir => 4
  | .file => 8
  | .symlink => 10
  | .other => 0

/-- The loop of `list_dir` over the entries of `directory`. -/
def listEntries (directory : OsStr) : List (IoResult Name) → Sup (IoResult (List DirEntry))
  | [] => return .ok []
  | .error e :: _ => return .error e
  | .ok name :: rest => do
    match ← ask (.symlinkMetadata (directory.join (relative [.normal name]))) with
    | .error e => return .error e
    | .ok metadata =>
      match ← listEntries directory rest with
      | .error e => return .error e
      | .ok entries => return .ok (⟨name, metadata.inode, metadataToDirType metadata⟩ :: entries)

def BindView.listDir (view : BindView) (virtualPath : OsStr) : Sup (IoResult (List DirEntry)) := do
  let directory := view.resolveProjected virtualPath
  match ← ask (.readDir directory) with
  | .error e => return .error e
  | .ok entries => listEntries directory entries

-- ---------------------------------------------------------------------------
-- Exec
-- ---------------------------------------------------------------------------

def openExecutable (path : OsStr) : Sup (IoResult Fd) :=
  match cString path with
  | none => return .error (.os EINVAL)
  | some path => do return osResult (← ask (.openFile path (O_RDONLY ||| O_CLOEXEC) 0))

def executableAlias (fd : Fd) : OsStr := AbsPath.toPath [nameDev, nameFd, decimalName fd.toInt]

def addFd (request : SeccompNotifAddfd) : Sup (IoResult Fd) := do
  return osResult (← ask (.addFd request))

/-- `execute::handle` for a projected pathname: hand the opened file to the tracee and
let it execute that. -/
def execProjected (state : State) (notif : SeccompNotif) (pathAddress : UInt64) (flags : Int32)
    (rawPath : OsStr) (virtualPath : AbsPath) : Sup (IoResult Unit) :=
  if flags &&& AT_SYMLINK_NOFOLLOW ≠ 0 then respondError notif.id ENOTSUP
  else
    let realPath := state.view.resolveRead virtualPath.toPath
    orRespond notif.id (openExecutable realPath) fun sourceFd =>
    orRespond notif.id
      (addFd ⟨notif.id, 0, sourceFd.toUInt32, 0, O_CLOEXEC.toUInt32⟩) fun childFd =>
    orRespond notif.id
      (rewritePath notif.pid pathAddress rawPath (executableAlias childFd)) fun () =>
    respondContinue notif.id

/-- `execute::handle`. -/
def handleExec (state : State) (notif : SeccompNotif) : Sup (IoResult Unit) :=
  let (dirfd, pathAddress, flags) :=
    if notif.data.nr = .sysExecve then (AT_FDCWD, notif.data.args 0, (0 : Int32))
    else (asI32 (notif.data.args 0), notif.data.args 1, asI32 (notif.data.args 4))
  onProjectedPath state notif dirfd pathAddress (fun rawPath => rawPath.bytes = [])
    (execProjected state notif pathAddress flags)

-- ---------------------------------------------------------------------------
-- Open
-- ---------------------------------------------------------------------------

/-- A little-endian `u64` at an offset of a structure. -/
def leU64 (bytes : Bytes) (offset : Nat) : UInt64 :=
  ((bytes.drop offset).take 8).foldr (fun b acc => acc <<< 8 ||| b.toUInt64) 0

def sizeOfOpenHow : Nat := 24

structure OpenArguments where
  dirfd : Fd
  pathAddress : UInt64
  flags : Int32
  mode : UInt32

def openArguments (notif : SeccompNotif) : Sup (IoResult OpenArguments) :=
  if notif.data.nr = .sysOpen then
    return .ok ⟨AT_FDCWD, notif.data.args 0, asI32 (notif.data.args 1), asU32 (notif.data.args 2)⟩
  else if notif.data.nr = .sysOpenat then
    return .ok ⟨asI32 (notif.data.args 0), notif.data.args 1, asI32 (notif.data.args 2),
      asU32 (notif.data.args 3)⟩
  else do
    match ← readValue notif.pid (notif.data.args 2) sizeOfOpenHow with
    | .error e => return .error e
    | .ok how => return .ok ⟨asI32 (notif.data.args 0), notif.data.args 1, asI32 (leU64 how 0),
        asU32 (leU64 how 8)⟩

/-- Take a snapshot of an opened directory. -/
def trackDirectory (state : State) (notif : SeccompNotif) (virtualPath : AbsPath) (childFd : Fd) :
    Sup (State × IoResult Unit) := do
  match ← state.view.listDir virtualPath.toPath with
  | .ok entries =>
    let key := (← processKey notif.pid, childFd)
    return (state.insertDirectory key ⟨virtualPath, entries, 0⟩, .ok ())
  | .error _ => return (state, .ok ())

/-- What `handle_open` does once the descriptor has been sent. -/
def trackOpened (state : State) (notif : SeccompNotif) (flags : Int32) (virtualPath : AbsPath)
    (realPath : OsStr) (childFd : Fd) : Sup (State × IoResult Unit) := do
  let isDirectory ←
    if flags &&& O_DIRECTORY ≠ 0 then pure true
    else match ← ask (.metadata realPath) with
      | .ok metadata => pure metadata.isDir
      | .error _ => pure false
  if isDirectory then trackDirectory state notif virtualPath childFd else return (state, .ok ())

/-- `handle_open` for a projected path: open the source and send the descriptor. -/
def openProjected (state : State) (notif : SeccompNotif) (arguments : OpenArguments)
    (virtualPath : AbsPath) : Sup (State × IoResult Unit) :=
  let realPath := state.view.prepareOpen virtualPath.toPath arguments.flags
  match cString realPath with
  | none => answered state (respondError notif.id EINVAL)
  | some path =>
    let parentFlags := arguments.flags &&& ~~~O_CLOEXEC
    orRespondIn state notif.id
      (do return osResult (← ask (.openFile path parentFlags arguments.mode))) fun sourceFd =>
    orRespondIn state notif.id
      (addFd ⟨notif.id, ADDFD_FLAG_SEND, sourceFd.toUInt32, 0,
        (arguments.flags &&& O_CLOEXEC).toUInt32⟩) fun childFd =>
    trackOpened state notif arguments.flags virtualPath realPath childFd

def handleOpen (state : State) (notif : SeccompNotif) : Sup (State × IoResult Unit) :=
  orRespondIn state notif.id (openArguments notif) fun arguments =>
  orRespondIn state notif.id
    (readAndResolve state notif arguments.dirfd arguments.pathAddress) fun virtualPath =>
  if state.view.projects virtualPath.toPath then openProjected state notif arguments virtualPath
  else answered state (respondContinue notif.id)

-- ---------------------------------------------------------------------------
-- Metadata
-- ---------------------------------------------------------------------------

/-- Write a result into tracee memory and return 0. -/
def returnStruct (notif : SeccompNotif) (address : UInt64) (result : Except Errno Bytes) :
    Sup (IoResult Unit) :=
  match result with
  | .error e => respondError notif.id e
  | .ok bytes =>
    orRespond notif.id (writeMemory notif.pid address bytes) fun () => respondValue notif.id 0

def skipEmptyPath (flags : Int32) (rawPath : OsStr) : Bool :=
  decide (rawPath.bytes = []) && flags &&& AT_EMPTY_PATH != 0

def handleStat (state : State) (notif : SeccompNotif) : Sup (IoResult Unit) :=
  let flags := asI32 (notif.data.args 3)
  onProjectedPath state notif (asI32 (notif.data.args 0)) (notif.data.args 1)
    (skipEmptyPath flags) fun _ virtualPath =>
  withCString notif.id (state.view.resolveRead virtualPath.toPath) fun path => do
    returnStruct notif (notif.data.args 2) (← ask (.fstatat path flags))

def handleStatx (state : State) (notif : SeccompNotif) : Sup (IoResult Unit) :=
  let flags := asI32 (notif.data.args 2)
  onProjectedPath state notif (asI32 (notif.data.args 0)) (notif.data.args 1)
    (skipEmptyPath flags) fun _ virtualPath =>
  withCString notif.id (state.view.resolveRead virtualPath.toPath) fun path => do
    returnStruct notif (notif.data.args 4)
      (← ask (.statx path flags (asU32 (notif.data.args 3))))

def handleAccess (state : State) (notif : SeccompNotif) : Sup (IoResult Unit) :=
  let (dirfd, pathAddress, mode, flags) :=
    if notif.data.nr = .sysAccess then
      (AT_FDCWD, notif.data.args 0, asI32 (notif.data.args 1), (0 : Int32))
    else
      (asI32 (notif.data.args 0), notif.data.args 1, asI32 (notif.data.args 2),
        asI32 (notif.data.args 3))
  onProjected state notif dirfd pathAddress fun virtualPath =>
    match cString (state.view.resolveRead virtualPath.toPath) with
    | none => .panic
    | some path => do
      match ← ask (.faccessat path mode flags) with
      | .error e => respondError notif.id e
      | .ok () => respondValue notif.id 0

-- ---------------------------------------------------------------------------
-- Directory entries
-- ---------------------------------------------------------------------------

def handleMkdir (state : State) (notif : SeccompNotif) : Sup (IoResult Unit) :=
  let (dirfd, pathAddress, mode) :=
    if notif.data.nr = .sysMkdir then (AT_FDCWD, notif.data.args 0, asU32 (notif.data.args 1))
    else (asI32 (notif.data.args 0), notif.data.args 1, asU32 (notif.data.args 2))
  onProjected state notif dirfd pathAddress fun path =>
  orRespond notif.id (state.view.mkdir path.toPath mode) fun () => respondValue notif.id 0

def handleUnlink (state : State) (notif : SeccompNotif) : Sup (IoResult Unit) :=
  let (dirfd, pathAddress, flags) :=
    if notif.data.nr = .sysUnlink then (AT_FDCWD, notif.data.args 0, (0 : Int32))
    else if notif.data.nr = .sysRmdir then (AT_FDCWD, notif.data.args 0, AT_REMOVEDIR)
    else (asI32 (notif.data.args 0), notif.data.args 1, asI32 (notif.data.args 2))
  onProjected state notif dirfd pathAddress fun path =>
  orRespond notif.id (state.view.unlink path.toPath (flags &&& AT_REMOVEDIR != 0)) fun () =>
  respondValue notif.id 0

structure RenameArguments where
  oldDirfd : Fd
  oldAddress : UInt64
  newDirfd : Fd
  newAddress : UInt64
  flags : UInt32

def renameArguments (notif : SeccompNotif) : RenameArguments :=
  if notif.data.nr = .sysRename then
    ⟨AT_FDCWD, notif.data.args 0, AT_FDCWD, notif.data.args 1, 0⟩
  else
    ⟨asI32 (notif.data.args 0), notif.data.args 1, asI32 (notif.data.args 2), notif.data.args 3,
      if notif.data.nr = .sysRenameat2 then asU32 (notif.data.args 4) else 0⟩

def handleRename (state : State) (notif : SeccompNotif) : Sup (IoResult Unit) :=
  let arguments := renameArguments notif
  if arguments.flags ≠ 0 then respondError notif.id ENOTSUP
  else
    orRespond notif.id
      (readAndResolve state notif arguments.oldDirfd arguments.oldAddress) fun old =>
    orRespond notif.id
      (readAndResolve state notif arguments.newDirfd arguments.newAddress) fun new =>
    let oldProjected := state.view.projects old.toPath
    let newProjected := state.view.projects new.toPath
    if !oldProjected && !newProjected then respondContinue notif.id
    else if !oldProjected || !newProjected || !state.view.sameProjection old.toPath new.toPath then
      respondError notif.id EXDEV
    else orRespond notif.id (state.view.rename old.toPath new.toPath) fun () =>
      respondValue notif.id 0

/-- Copy as much of a link target as fits and return its length. -/
def returnLink (notif : SeccompNotif) (buffer : UInt64) (size : Nat) (target : OsStr) :
    Sup (IoResult Unit) :=
  let length := min size target.bytes.length
  orRespond notif.id (writeMemory notif.pid buffer (target.bytes.take length)) fun () =>
  respondValue notif.id length

def handleReadlink (state : State) (notif : SeccompNotif) : Sup (IoResult Unit) :=
  let (dirfd, pathAddress, buffer, size) :=
    if notif.data.nr = .sysReadlink then
      (AT_FDCWD, notif.data.args 0, notif.data.args 1, (notif.data.args 2).toNat)
    else
      (asI32 (notif.data.args 0), notif.data.args 1, notif.data.args 2,
        (notif.data.args 3).toNat)
  orRespond notif.id (readAndResolve state notif dirfd pathAddress) fun virtualPath => do
    if ← isOwnProcCwd virtualPath notif.pid then
      match ← virtualCwd state notif.pid with
      | none => respondContinue notif.id
      | some target => returnLink notif buffer size target.toPath
    else if state.view.projects virtualPath.toPath then
      orRespond notif.id (ask (.readLink (state.view.resolveRead virtualPath.toPath)))
        (returnLink notif buffer size)
    else respondContinue notif.id

def handleSymlink (state : State) (notif : SeccompNotif) : Sup (IoResult Unit) :=
  orRespond notif.id (readPath notif.pid (notif.data.args 0)) fun target =>
  let (dirfd, linkAddress) :=
    if notif.data.nr = .sysSymlink then (AT_FDCWD, notif.data.args 1)
    else (asI32 (notif.data.args 1), notif.data.args 2)
  onProjected state notif dirfd linkAddress fun link =>
  orRespond notif.id (state.view.symlink target link.toPath) fun () => respondValue notif.id 0

/-- The `count` low bytes of a number, lowest first. -/
def leBytes (count : Nat) (n : Nat) : Bytes :=
  (List.range count).map fun i => (n / 256 ^ i).toUInt8

/-- `linux_dirent64`: inode, offset, record length, type, name, padding. -/
def direntRecord (entry : DirEntry) (nextOffset : Nat) : Bytes :=
  let name := entry.name.bytes
  let rawLength := 8 + 8 + 2 + 1 + name.length + 1
  let recordLength := (rawLength + 7) / 8 * 8
  leBytes 8 entry.inode.toNat ++ leBytes 8 nextOffset ++ leBytes 2 recordLength ++
    [entry.fileType] ++ name ++ List.replicate (recordLength - 19 - name.length) 0

/-- The loop of `handle_getdents` over the entries from `cursor` on. -/
def packEntries (capacity : Nat) : List DirEntry → Nat → Bytes → Bytes × Nat
  | [], cursor, output => (output, cursor)
  | entry :: rest, cursor, output =>
    let record := direntRecord entry (cursor + 1)
    if output.length + record.length > capacity then (output, cursor)
    else packEntries capacity rest (cursor + 1) (output ++ record)

def handleGetdents (state : State) (notif : SeccompNotif) : Sup (State × IoResult Unit) := do
  let fd := asI32 (notif.data.args 0)
  let key := (← processKey notif.pid, fd)
  match state.directories key with
  | none => answered state (respondContinue notif.id)
  | some directory =>
    if ← directoryFdMatches state notif.pid fd directory then
      let (output, cursor) := packEntries (notif.data.args 2).toNat
        (directory.entries.drop directory.cursor) directory.cursor []
      let state := state.insertDirectory key { directory with cursor := cursor }
      answered state <|
        if output = [] ∧ cursor < directory.entries.length then respondError notif.id EINVAL
        else orRespond notif.id (writeMemory notif.pid (notif.data.args 1) output) fun () =>
          respondValue notif.id output.length
    else answered (state.removeDirectory key) (respondContinue notif.id)

-- ---------------------------------------------------------------------------
-- Working directory
-- ---------------------------------------------------------------------------

/-- `handle_chdir` once the target is known. -/
def chdirTo (state : State) (notif : SeccompNotif) (virtualPath : AbsPath) :
    Sup (State × IoResult Unit) := do
  if state.view.projects virtualPath.toPath then
    let realPath := state.view.resolveRead virtualPath.toPath
    match ← ask (.metadata realPath) with
    | .error e => answered state (respondError notif.id (errno e))
    | .ok metadata =>
      if metadata.isDir then
        let key ← processKey notif.pid
        -- The kernel keeps the directory only when guest and host path are the same.
        answered (state.insertCwd key virtualPath) <|
          if samePath realPath virtualPath.toPath then respondContinue notif.id
          else respondValue notif.id 0
      else answered state (respondError notif.id ENOTDIR)
  else
    let key ← processKey notif.pid
    answered (state.insertCwd key virtualPath) (respondContinue notif.id)

def handleChdir (state : State) (notif : SeccompNotif) : Sup (State × IoResult Unit) :=
  if notif.data.nr = .sysChdir then
    orRespondIn state notif.id (readAndResolve state notif AT_FDCWD (notif.data.args 0))
      (chdirTo state notif)
  else do
    let fd := asI32 (notif.data.args 0)
    let key := (← processKey notif.pid, fd)
    match state.directories key with
    | none => answered state (respondContinue notif.id)
    | some directory =>
      if ← directoryFdMatches state notif.pid fd directory then
        chdirTo state notif directory.path
      else answered (state.removeDirectory key) (respondContinue notif.id)

def handleGetcwd (state : State) (notif : SeccompNotif) : Sup (IoResult Unit) := do
  match ← virtualCwd state notif.pid with
  | none => respondContinue notif.id
  | some path =>
    let bytes := path.toPath.bytes ++ [0]
    if bytes.length > (notif.data.args 1).toNat then respondError notif.id ERANGE
    else orRespond notif.id (writeMemory notif.pid (notif.data.args 0) bytes) fun () =>
      respondValue notif.id bytes.length

-- ---------------------------------------------------------------------------
-- Attributes
-- ---------------------------------------------------------------------------

/-- The handlers that pass a prepared path to one call of the C library. -/
def mutate (state : State) (notif : SeccompNotif) (virtualPath : AbsPath)
    (call : OsStr → Sup (Except Errno Nat)) : Sup (IoResult Unit) :=
  withCString notif.id (state.view.prepareMutation virtualPath.toPath) fun path => do
    respondResult notif.id (← call path)

def handleTruncate (state : State) (notif : SeccompNotif) : Sup (IoResult Unit) :=
  onProjected state notif AT_FDCWD (notif.data.args 0) fun virtualPath =>
  mutate state notif virtualPath fun path => ask (.truncate path (asI64 (notif.data.args 1)))

def handleChmod (state : State) (notif : SeccompNotif) : Sup (IoResult Unit) :=
  let (dirfd, pathAddress, mode) :=
    if notif.data.nr = .sysChmod then (AT_FDCWD, notif.data.args 0, notif.data.args 1)
    else (asI32 (notif.data.args 0), notif.data.args 1, notif.data.args 2)
  onProjected state notif dirfd pathAddress fun virtualPath =>
  mutate state notif virtualPath fun path => ask (.chmod path (asU32 mode))

def handleChown (state : State) (notif : SeccompNotif) : Sup (IoResult Unit) :=
  let (dirfd, pathAddress, owner, group, flags) :=
    if notif.data.nr = .sysFchownat then
      (asI32 (notif.data.args 0), notif.data.args 1, notif.data.args 2, notif.data.args 3,
        asI32 (notif.data.args 4))
    else
      (AT_FDCWD, notif.data.args 0, notif.data.args 1, notif.data.args 2,
        if notif.data.nr = .sysLchown then AT_SYMLINK_NOFOLLOW else 0)
  onProjected state notif dirfd pathAddress fun virtualPath =>
  mutate state notif virtualPath fun path =>
    ask (.fchownat path (asU32 owner) (asU32 group) flags)

def sizeOfTimes : Nat := 32

def handleUtimensat (state : State) (notif : SeccompNotif) : Sup (IoResult Unit) :=
  onProjected state notif (asI32 (notif.data.args 0)) (notif.data.args 1) fun virtualPath =>
  withCString notif.id (state.view.prepareMutation virtualPath.toPath) fun path =>
  orRespond notif.id
    (if notif.data.args 2 = 0 then return .ok none
     else do
      match ← readValue notif.pid (notif.data.args 2) sizeOfTimes with
      | .error e => return .error e
      | .ok times => return .ok (some times)) fun times => do
  respondResult notif.id (← ask (.utimensat path times (asI32 (notif.data.args 3))))

-- ---------------------------------------------------------------------------
-- Dispatch
-- ---------------------------------------------------------------------------

/-- `dispatch::handle`. -/
def handle (state : State) (notif : SeccompNotif) : Sup (State × IoResult Unit) :=
  match notif.data.nr with
  | .sysExecve | .sysExecveat => answered state (handleExec state notif)
  | .sysOpen | .sysOpenat | .sysOpenat2 => handleOpen state notif
  | .sysNewfstatat => answered state (handleStat state notif)
  | .sysStatx => answered state (handleStatx state notif)
  | .sysAccess | .sysFaccessat | .sysFaccessat2 => answered state (handleAccess state notif)
  | .sysMkdir | .sysMkdirat => answered state (handleMkdir state notif)
  | .sysUnlink | .sysUnlinkat | .sysRmdir => answered state (handleUnlink state notif)
  | .sysRename | .sysRenameat | .sysRenameat2 => answered state (handleRename state notif)
  | .sysReadlink | .sysReadlinkat => answered state (handleReadlink state notif)
  | .sysSymlink | .sysSymlinkat => answered state (handleSymlink state notif)
  | .sysGetdents64 => handleGetdents state notif
  | .sysChdir | .sysFchdir => handleChdir state notif
  | .sysGetcwd => answered state (handleGetcwd state notif)
  | .sysTruncate => answered state (handleTruncate state notif)
  | .sysChmod | .sysFchmodat => answered state (handleChmod state notif)
  | .sysChown | .sysLchown | .sysFchownat => answered state (handleChown state notif)
  | .sysUtimensat => answered state (handleUtimensat state notif)
  | .other _ => answered state (respondContinue notif.id)

end PathShim
