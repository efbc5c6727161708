import Mathlib.Data.List.TakeWhile
import PathShim.Linux.Dirent
import PathShim.Linux.Reply

/-!
# The handlers with everything that could panic

Once more the code that `dispatch::handle` runs, with each `unwrap`, `expect`,
index, slice and `copy_from_slice` of the source as an operation that may
panic. All of them are within bounds: the programs are those without them.
Additions of lengths are left out; lengths stay below 2^63.
-/

namespace PathShim.Checked

open UnixPath Effects

-- ---------------------------------------------------------------------------
-- Operations that may panic
-- ---------------------------------------------------------------------------

/-- `unwrap` and `expect`. -/
def orPanic : Option α → Sup α
  | some a => .ret a
  | none => .panic

@[simp] theorem orPanic_some (a : α) : orPanic (some a) = (.ret a : Sup α) := rfl

/-- `bytes[..stop]` -/
def sliceTo (bytes : Bytes) (stop : Nat) : Option Bytes :=
  if stop ≤ bytes.length then some (bytes.take stop) else none

/-- `bytes[start..stop].copy_from_slice(source)` -/
def copyFromSlice (bytes : Bytes) (start stop : Nat) (source : Bytes) : Option Bytes :=
  if start ≤ stop ∧ stop ≤ bytes.length ∧ source.length = stop - start then
    some (bytes.take start ++ source ++ bytes.drop stop)
  else none

/-- `bytes[index] = b` -/
def setIndex (bytes : Bytes) (index : Nat) (b : UInt8) : Option Bytes :=
  if index < bytes.length then some (bytes.set index b) else none

-- ---------------------------------------------------------------------------
-- Directory records
-- ---------------------------------------------------------------------------

def direntRecord (entry : DirEntry) (nextOffset : Nat) : Option Bytes := do
  let name := entry.name.bytes
  let rawLength := 8 + 8 + 2 + 1 + name.length + 1
  let recordLength := (rawLength + 7) / 8 * 8
  let record := List.replicate recordLength (0 : UInt8)
  let record ← copyFromSlice record 0 8 (leBytes 8 entry.inode.toNat)
  let record ← copyFromSlice record 8 16 (leBytes 8 nextOffset)
  let record ← copyFromSlice record 16 18 (leBytes 2 recordLength)
  let record ← setIndex record 18 entry.fileType
  let record ← copyFromSlice record 19 (19 + name.length) name
  setIndex record (19 + name.length) 0

/-- The loop of `handle_getdents`. -/
def packEntries (capacity : Nat) (entries : List DirEntry) (cursor : Nat) (output : Bytes) :
    Option (Bytes × Nat) :=
  if cursor < entries.length then do
    let entry ← entries[cursor]?
    let record ← direntRecord entry (cursor + 1)
    if output.length + record.length > capacity then return (output, cursor)
    else packEntries capacity entries (cursor + 1) (output ++ record)
  else return (output, cursor)
termination_by entries.length - cursor

-- ---------------------------------------------------------------------------
-- Pathnames
-- ---------------------------------------------------------------------------

/-- A chunk is cut before its first NUL, so what is put together has none. -/
def readPathLoop (pid : Pid) (address : UInt64) : Nat → OsStr → Sup (IoResult OsStr)
  | 0, _ => .panic
  | turns + 1, bytes =>
    if bytes.bytes.length < MAX_PATH then do
      let start ← orPanic (checkedAdd address bytes.bytes.length)
      let chunkLen := min (MAX_PATH - bytes.bytes.length) 256
      match ← readMemory pid start chunkLen with
      | .error e => return .error e
      | .ok chunk =>
        match chunk.bytes.findIdx? (· == 0) with
        | some stop => do
          let head ← orPanic (sliceTo chunk.bytes stop)
          return .ok (.ofBytes (bytes.bytes ++ head))
        | none => readPathLoop pid address turns (.ofBytes (bytes.bytes ++ chunk.bytes))
    else return .error (.os ENAMETOOLONG)

def readPath (pid : Pid) (address : UInt64) : Sup (IoResult OsStr) :=
  if address = 0 then return .error (.os EFAULT)
  else readPathLoop pid address (MAX_PATH + 1) OsStr.empty

/-- `resolve_read`, and the other functions that are nothing but `resolve_projected`. -/
def resolveRead (view : BindView) (virtualPath : OsStr) : Sup OsStr :=
  orPanic (view.resolveProjected? virtualPath)

def directoryFdMatches (state : State) (pid : Pid) (fd : Fd) (directory : OpenDirectory) :
    Sup Bool := do
  match ← ask (.readFdLink pid fd) with
  | .error _ => return false
  | .ok actual => do
    let expected ← resolveRead state.view directory.path.toPath
    match ← ask (.canonicalize expected) with
    | .ok canonical => return samePath canonical actual
    | .error _ => return samePath expected actual

def trackedDirectory (state : State) (pid : Pid) (fd : Fd) : Sup (Option OpenDirectory) := do
  match state.directories (← processKey pid, fd) with
  | none => return none
  | some directory =>
    if ← directoryFdMatches state pid fd directory then return some directory else return none

def resolvePath (state : State) (pid : Pid) (dirfd : Fd) (path : OsStr) : Sup (IoResult AbsPath) :=
  if path.bytes = [] then return .error (.os ENOENT)
  else if path.isAbsolute then return .ok (normalize path)
  else if dirfd = AT_FDCWD then do
    let base ← match ← virtualCwd state pid with
      | some cwd => pure cwd.toPath
      | none => processCwd pid state
    return .ok (normalize (base.join path))
  else do
    match ← trackedDirectory state pid dirfd with
    | some directory => return .ok (normalize (directory.path.toPath.join path))
    | none =>
      match ← ask (.readFdLink pid dirfd) with
      | .error e => return .error e
      | .ok host => return .ok (normalize ((state.view.virtualForHost host).join path))

def readAndResolve (state : State) (notif : SeccompNotif) (dirfd : Fd) (address : UInt64) :
    Sup (IoResult AbsPath) := do
  match ← readPath notif.pid address with
  | .error e => return .error e
  | .ok path => resolvePath state notif.pid dirfd path

def onProjected (state : State) (notif : SeccompNotif) (dirfd : Fd) (address : UInt64)
    (next : AbsPath → Sup (IoResult Unit)) : Sup (IoResult Unit) :=
  orRespond notif.id (readAndResolve state notif dirfd address) fun virtualPath =>
    if state.view.projects virtualPath.toPath then next virtualPath
    else respondContinue notif.id

def onProjectedPath (state : State) (notif : SeccompNotif) (dirfd : Fd) (address : UInt64)
    (skip : OsStr → Bool) (next : OsStr → AbsPath → Sup (IoResult Unit)) : Sup (IoResult Unit) :=
  orRespond notif.id (readPath notif.pid address) fun rawPath =>
    if skip rawPath then respondContinue notif.id
    else orRespond notif.id (resolvePath state notif.pid dirfd rawPath) fun virtualPath =>
      if state.view.projects virtualPath.toPath then next rawPath virtualPath
      else respondContinue notif.id

-- ---------------------------------------------------------------------------
-- Operations of the bind view
-- ---------------------------------------------------------------------------

def mkdir (view : BindView) (virtualPath : OsStr) (mode : UInt32) : Sup (IoResult Unit) := do
  ask (.createDir (← resolveRead view virtualPath) mode)

def unlink (view : BindView) (virtualPath : OsStr) (removeDir : Bool) : Sup (IoResult Unit) := do
  let realPath ← resolveRead view virtualPath
  if removeDir then ask (.removeDir realPath) else ask (.removeFile realPath)

def symlink (view : BindView) (target link : OsStr) : Sup (IoResult Unit) := do
  ask (.symlink target (← resolveRead view link))

def listDir (view : BindView) (virtualPath : OsStr) : Sup (IoResult (List DirEntry)) := do
  let directory ← resolveRead view virtualPath
  match ← ask (.readDir directory) with
  | .error e => return .error e
  | .ok entries => listEntries directory entries

-- ---------------------------------------------------------------------------
-- Handlers
-- ---------------------------------------------------------------------------

def execProjected (state : State) (notif : SeccompNotif) (pathAddress : UInt64) (flags : Int32)
    (rawPath : OsStr) (virtualPath : AbsPath) : Sup (IoResult Unit) :=
  if flags &&& AT_SYMLINK_NOFOLLOW ≠ 0 then respondError notif.id ENOTSUP
  else do
    let realPath ← resolveRead state.view virtualPath.toPath
    orRespond notif.id (openExecutable realPath) fun sourceFd =>
      orRespond notif.id
        (addFd ⟨notif.id, 0, sourceFd.toUInt32, 0, O_CLOEXEC.toUInt32⟩) fun childFd =>
      orRespond notif.id
        (rewritePath notif.pid pathAddress rawPath (executableAlias childFd)) fun () =>
      respondContinue notif.id

def handleExec (state : State) (notif : SeccompNotif) : Sup (IoResult Unit) :=
  let (dirfd, pathAddress, flags) :=
    if notif.data.nr = .sysExecve then (AT_FDCWD, notif.data.args 0, (0 : Int32))
    else (asI32 (notif.data.args 0), notif.data.args 1, asI32 (notif.data.args 4))
  onProjectedPath state notif dirfd pathAddress (fun rawPath => rawPath.bytes = [])
    (execProjected state notif pathAddress flags)

def trackDirectory (state : State) (notif : SeccompNotif) (virtualPath : AbsPath) (childFd : Fd) :
    Sup (State × IoResult Unit) := do
  match ← listDir state.view virtualPath.toPath with
  | .ok entries =>
    let key := (← processKey notif.pid, childFd)
    return (state.insertDirectory key ⟨virtualPath, entries, 0⟩, .ok ())
  | .error _ => return (state, .ok ())

def trackOpened (state : State) (notif : SeccompNotif) (flags : Int32) (virtualPath : AbsPath)
    (realPath : OsStr) (childFd : Fd) : Sup (State × IoResult Unit) := do
  let isDirectory ←
    if flags &&& O_DIRECTORY ≠ 0 then pure true
    else match ← ask (.metadata realPath) with
      | .ok metadata => pure metadata.isDir
      | .error _ => pure false
  if isDirectory then trackDirectory state notif virtualPath childFd else return (state, .ok ())

def openProjected (state : State) (notif : SeccompNotif) (arguments : OpenArguments)
    (virtualPath : AbsPath) : Sup (State × IoResult Unit) := do
  let realPath ← resolveRead state.view virtualPath.toPath
  match cString realPath with
  | none => answered state (respondError notif.id EINVAL)
  | some path =>
    let parentFlags := arguments.flags &&& ~~~O_CLOEXEC
    orRespondIn state notif.id
      (do return osResult (← ask (.openFile path parentFlags arguments.mode))) fun sourceFd =>
    orRespondIn state notif.id
      (addFd ⟨notif.id, ADDFD_FLAG_SEND, sourceFd.toUInt32, 0,
        (arguments.flags &&& O_CLOEXEC).toUInt32⟩) fun childFd =>
    trackOpened state notif arguments.flags virtualPath realPath childFd

def handleOpen (state : State) (notif : SeccompNotif) : Sup (State × IoResult Unit) :=
  orRespondIn state notif.id (openArguments notif) fun arguments =>
  orRespondIn state notif.id
    (readAndResolve state notif arguments.dirfd arguments.pathAddress) fun virtualPath =>
  if state.view.projects virtualPath.toPath then openProjected state notif arguments virtualPath
  else answered state (respondContinue notif.id)

def handleStat (state : State) (notif : SeccompNotif) : Sup (IoResult Unit) :=
  let flags := asI32 (notif.data.args 3)
  onProjectedPath state notif (asI32 (notif.data.args 0)) (notif.data.args 1)
    (skipEmptyPath flags) fun _ virtualPath => do
  let realPath ← resolveRead state.view virtualPath.toPath
  withCString notif.id realPath fun path => do
    returnStruct notif (notif.data.args 2) (← ask (.fstatat path flags))

def handleStatx (state : State) (notif : SeccompNotif) : Sup (IoResult Unit) :=
  let flags := asI32 (notif.data.args 2)
  onProjectedPath state notif (asI32 (notif.data.args 0)) (notif.data.args 1)
    (skipEmptyPath flags) fun _ virtualPath => do
  let realPath ← resolveRead state.view virtualPath.toPath
  withCString notif.id realPath fun path => do
    returnStruct notif (notif.data.args 4)
      (← ask (.statx path flags (asU32 (notif.data.args 3))))

def handleAccess (state : State) (notif : SeccompNotif) : Sup (IoResult Unit) :=
  let (dirfd, pathAddress, mode, flags) :=
    if notif.data.nr = .sysAccess then
      (AT_FDCWD, notif.data.args 0, asI32 (notif.data.args 1), (0 : Int32))
    else
      (asI32 (notif.data.args 0), notif.data.args 1, asI32 (notif.data.args 2),
        asI32 (notif.data.args 3))
  onProjected state notif dirfd pathAddress fun virtualPath => do
    let realPath ← resolveRead state.view virtualPath.toPath
    let path ← orPanic (cString realPath)
    match ← ask (.faccessat path mode flags) with
    | .error e => respondError notif.id e
    | .ok () => respondValue notif.id 0

def handleMkdir (state : State) (notif : SeccompNotif) : Sup (IoResult Unit) :=
  let (dirfd, pathAddress, mode) :=
    if notif.data.nr = .sysMkdir then (AT_FDCWD, notif.data.args 0, asU32 (notif.data.args 1))
    else (asI32 (notif.data.args 0), notif.data.args 1, asU32 (notif.data.args 2))
  onProjected state notif dirfd pathAddress fun path =>
  orRespond notif.id (mkdir state.view path.toPath mode) fun () => respondValue notif.id 0

def handleUnlink (state : State) (notif : SeccompNotif) : Sup (IoResult Unit) :=
  let (dirfd, pathAddress, flags) :=
    if notif.data.nr = .sysUnlink then (AT_FDCWD, notif.data.args 0, (0 : Int32))
    else if notif.data.nr = .sysRmdir then (AT_FDCWD, notif.data.args 0, AT_REMOVEDIR)
    else (asI32 (notif.data.args 0), notif.data.args 1, asI32 (notif.data.args 2))
  onProjected state notif dirfd pathAddress fun path =>
  orRespond notif.id (unlink state.view path.toPath (flags &&& AT_REMOVEDIR != 0)) fun () =>
  respondValue notif.id 0

def handleRename (state : State) (notif : SeccompNotif) : Sup (IoResult Unit) :=
  let arguments := renameArguments notif
  if arguments.flags ≠ 0 then respondError notif.id ENOTSUP
  else
    orRespond notif.id
      (readAndResolve state notif arguments.oldDirfd arguments.oldAddress) fun old =>
    orRespond notif.id
      (readAndResolve state notif arguments.newDirfd arguments.newAddress) fun new =>
    let oldProjected := state.view.projects old.toPath
    let newProjected := state.view.projects new.toPath
    if !oldProjected && !newProjected then respondContinue notif.id
    else if !oldProjected || !newProjected || !state.view.sameProjection old.toPath new.toPath then
      respondError notif.id EXDEV
    else orRespond notif.id (state.view.rename old.toPath new.toPath) fun () =>
      respondValue notif.id 0

def returnLink (notif : SeccompNotif) (buffer : UInt64) (size : Nat) (target : OsStr) :
    Sup (IoResult Unit) := do
  let length := min size target.bytes.length
  let head ← orPanic (sliceTo target.bytes length)
  orRespond notif.id (writeMemory notif.pid buffer head) fun () => respondValue notif.id length

def handleReadlink (state : State) (notif : SeccompNotif) : Sup (IoResult Unit) :=
  let (dirfd, pathAddress, buffer, size) :=
    if notif.data.nr = .sysReadlink then
      (AT_FDCWD, notif.data.args 0, notif.data.args 1, (notif.data.args 2).toNat)
    else
      (asI32 (notif.data.args 0), notif.data.args 1, notif.data.args 2,
        (notif.data.args 3).toNat)
  orRespond notif.id (readAndResolve state notif dirfd pathAddress) fun virtualPath => do
    if ← isOwnProcCwd virtualPath notif.pid then
      match ← virtualCwd state notif.pid with
      | none => respondContinue notif.id
      | some target => returnLink notif buffer size target.toPath
    else if state.view.projects virtualPath.toPath then do
      let realPath ← resolveRead state.view virtualPath.toPath
      orRespond notif.id (ask (.readLink realPath)) (returnLink notif buffer size)
    else respondContinue notif.id

def handleSymlink (state : State) (notif : SeccompNotif) : Sup (IoResult Unit) :=
  orRespond notif.id (readPath notif.pid (notif.data.args 0)) fun target =>
  let (dirfd, linkAddress) :=
    if notif.data.nr = .sysSymlink then (AT_FDCWD, notif.data.args 1)
    else (asI32 (notif.data.args 1), notif.data.args 2)
  onProjected state notif dirfd linkAddress fun link =>
  orRespond notif.id (symlink state.view target link.toPath) fun () => respondValue notif.id 0

def handleGetdents (state : State) (notif : SeccompNotif) : Sup (State × IoResult Unit) := do
  let fd := asI32 (notif.data.args 0)
  let key := (← processKey notif.pid, fd)
  match state.directories key with
  | none => answered state (respondContinue notif.id)
  | some openDirectory =>
    if ← directoryFdMatches state notif.pid fd openDirectory then
      let directory ← orPanic (state.directories key)
      let (output, cursor) ← orPanic
        (packEntries (notif.data.args 2).toNat directory.entries directory.cursor [])
      let state := state.insertDirectory key { directory with cursor := cursor }
      answered state <|
        if output = [] ∧ cursor < directory.entries.length then respondError notif.id EINVAL
        else orRespond notif.id (writeMemory notif.pid (notif.data.args 1) output) fun () =>
          respondValue notif.id output.length
    else answered (state.removeDirectory key) (respondContinue notif.id)

def chdirTo (state : State) (notif : SeccompNotif) (virtualPath : AbsPath) :
    Sup (State × IoResult Unit) := do
  if state.view.projects virtualPath.toPath then
    let realPath ← resolveRead state.view virtualPath.toPath
    match ← ask (.metadata realPath) with
    | .error e => answered state (respondError notif.id (errno e))
    | .ok metadata =>
      if metadata.isDir then
        let key ← processKey notif.pid
        answered (state.insertCwd key virtualPath) <|
          if samePath realPath virtualPath.toPath then respondContinue notif.id
          else respondValue notif.id 0
      else answered state (respondError notif.id ENOTDIR)
  else
    let key ← processKey notif.pid
    answered (state.insertCwd key virtualPath) (respondContinue notif.id)

def handleChdir (state : State) (notif : SeccompNotif) : Sup (State × IoResult Unit) :=
  if notif.data.nr = .sysChdir then
    orRespondIn state notif.id (readAndResolve state notif AT_FDCWD (notif.data.args 0))
      (chdirTo state notif)
  else do
    let fd := asI32 (notif.data.args 0)
    let key := (← processKey notif.pid, fd)
    match state.directories key with
    | none => answered state (respondContinue notif.id)
    | some directory =>
      if ← directoryFdMatches state notif.pid fd directory then
        let directory ← orPanic (state.directories key)
        chdirTo state notif directory.path
      else answered (state.removeDirectory key) (respondContinue notif.id)

def mutate (state : State) (notif : SeccompNotif) (virtualPath : AbsPath)
    (call : OsStr → Sup (Except Errno Nat)) : Sup (IoResult Unit) := do
  let realPath ← resolveRead state.view virtualPath.toPath
  withCString notif.id realPath fun path => do
    respondResult notif.id (← call path)

def handleTruncate (state : State) (notif : SeccompNotif) : Sup (IoResult Unit) :=
  onProjected state notif AT_FDCWD (notif.data.args 0) fun virtualPath =>
  mutate state notif virtualPath fun path => ask (.truncate path (asI64 (notif.data.args 1)))

def handleChmod (state : State) (notif : SeccompNotif) : Sup (IoResult Unit) :=
  let (dirfd, pathAddress, mode) :=
    if notif.data.nr = .sysChmod then (AT_FDCWD, notif.data.args 0, notif.data.args 1)
    else (asI32 (notif.data.args 0), notif.data.args 1, notif.data.args 2)
  onProjected state notif dirfd pathAddress fun virtualPath =>
  mutate state notif virtualPath fun path => ask (.chmod path (asU32 mode))

def handleChown (state : State) (notif : SeccompNotif) : Sup (IoResult Unit) :=
  let (dirfd, pathAddress, owner, group, flags) :=
    if notif.data.nr = .sysFchownat then
      (asI32 (notif.data.args 0), notif.data.args 1, notif.data.args 2, notif.data.args 3,
        asI32 (notif.data.args 4))
    else
      (AT_FDCWD, notif.data.args 0, notif.data.args 1, notif.data.args 2,
        if notif.data.nr = .sysLchown then AT_SYMLINK_NOFOLLOW else 0)
  onProjected state notif dirfd pathAddress fun virtualPath =>
  mutate state notif virtualPath fun path =>
    ask (.fchownat path (asU32 owner) (asU32 group) flags)

def handleUtimensat (state : State) (notif : SeccompNotif) : Sup (IoResult Unit) :=
  onProjected state notif (asI32 (notif.data.args 0)) (notif.data.args 1) fun virtualPath => do
  let realPath ← resolveRead state.view virtualPath.toPath
  withCString notif.id realPath fun path =>
    orRespond notif.id
      (if notif.data.args 2 = 0 then return .ok none
       else do
        match ← readValue notif.pid (notif.data.args 2) sizeOfTimes with
        | .error e => return .error e
        | .ok times => return .ok (some times)) fun times => do
    respondResult notif.id (← ask (.utimensat path times (asI32 (notif.data.args 3))))

def handle (state : State) (notif : SeccompNotif) : Sup (State × IoResult Unit) :=
  match notif.data.nr with
  | .sysExecve | .sysExecveat => answered state (handleExec state notif)
  | .sysOpen | .sysOpenat | .sysOpenat2 => handleOpen state notif
  | .sysNewfstatat => answered state (handleStat state notif)
  | .sysStatx => answered state (handleStatx state notif)
  | .sysAccess | .sysFaccessat | .sysFaccessat2 => answered state (handleAccess state notif)
  | .sysMkdir | .sysMkdirat => answered state (handleMkdir state notif)
  | .sysUnlink | .sysUnlinkat | .sysRmdir => answered state (handleUnlink state notif)
  | .sysRename | .sysRenameat | .sysRenameat2 => answered state (handleRename state notif)
  | .sysReadlink | .sysReadlinkat => answered state (handleReadlink state notif)
  | .sysSymlink | .sysSymlinkat => answered state (handleSymlink state notif)
  | .sysGetdents64 => handleGetdents state notif
  | .sysChdir | .sysFchdir => handleChdir state notif
  | .sysGetcwd => answered state (handleGetcwd state notif)
  | .sysTruncate => answered state (handleTruncate state notif)
  | .sysChmod | .sysFchmodat => answered state (handleChmod state notif)
  | .sysChown | .sysLchown | .sysFchownat => answered state (handleChown state notif)
  | .sysUtimensat => answered state (handleUtimensat state notif)
  | .other _ => answered state (respondContinue notif.id)

-- ---------------------------------------------------------------------------
-- Records are within bounds
-- ---------------------------------------------------------------------------

/-- A field goes right behind those that are written, into the zeros that are left. -/
theorem copyFromSlice_zeros {done source : Bytes} {start stop room : Nat}
    (hstart : done.length = start) (hstop : start + source.length = stop)
    (hroom : source.length ≤ room) :
    copyFromSlice (done ++ List.replicate room 0) start stop source =
      some ((done ++ source) ++ List.replicate (room - source.length) 0) := by
  subst hstart hstop
  have hbounds : done.length ≤ done.length + source.length ∧
      done.length + source.length ≤ (done ++ List.replicate room (0 : UInt8)).length ∧
      source.length = done.length + source.length - done.length := by
    rw [List.length_append, List.length_replicate]
    omega
  rw [copyFromSlice, if_pos hbounds, List.take_left, List.drop_append, List.drop_replicate,
    List.drop_eq_nil_of_le (Nat.le_add_right _ _), Nat.add_sub_cancel_left, List.nil_append]

theorem setIndex_zeros {done : Bytes} {b : UInt8} {index room : Nat} (hindex : done.length = index)
    (hroom : 0 < room) :
    setIndex (done ++ List.replicate room 0) index b =
      some ((done ++ [b]) ++ List.replicate (room - 1) 0) := by
  obtain ⟨room, rfl⟩ := Nat.exists_eq_succ_of_ne_zero hroom.ne'
  subst hindex
  simp [setIndex, List.replicate_succ]

theorem direntRecord_eq (entry : DirEntry) (nextOffset : Nat) :
    direntRecord entry nextOffset = some (PathShim.direntRecord entry nextOffset) := by
  obtain ⟨hroom, -, -⟩ := recordLength_bounds entry
  have hlength : (8 + 8 + 2 + 1 + entry.name.bytes.length + 1 + 7) / 8 * 8 = recordLength entry :=
    rfl
  have h8 (n : Nat) : (leBytes 8 n).length = 8 := length_leBytes 8 n
  have h2 (n : Nat) : (leBytes 2 n).length = 2 := length_leBytes 2 n
  -- the last index writes a zero over a zero
  have hpad : [(0 : UInt8)] ++ List.replicate (recordLength entry - 8 - 8 - 2 - 1 -
      entry.name.bytes.length - 1) 0 =
      List.replicate (recordLength entry - 19 - entry.name.bytes.length) 0 := by
    rw [List.singleton_append, ← List.replicate_succ]
    congr 1
    omega
  simp only [direntRecord, PathShim.direntRecord, hlength, Option.bind_eq_bind]
  rw [← List.nil_append (List.replicate _ _),
    copyFromSlice_zeros (by simp) (by rw [h8]) (by rw [h8]; omega),
    Option.bind_some, h8, copyFromSlice_zeros (by simp) (by rw [h8]) (by rw [h8]; omega),
    Option.bind_some, h8, copyFromSlice_zeros (by simp) (by rw [h2]) (by rw [h2]; omega),
    Option.bind_some, h2, setIndex_zeros (by simp) (by omega),
    Option.bind_some, copyFromSlice_zeros (by simp) rfl (by omega),
    Option.bind_some, setIndex_zeros (by simp; omega) (by omega), List.append_assoc _ [0], hpad]
  simp only [List.nil_append]

/-- The loop stays inside the snapshot. -/
theorem packEntries_eq (capacity : Nat) (entries : List DirEntry) (cursor : Nat) (output : Bytes) :
    packEntries capacity entries cursor output =
      some (PathShim.packEntries capacity (entries.drop cursor) cursor output) := by
  induction hleft : entries.length - cursor generalizing cursor output with
  | zero =>
    have hend : entries.length ≤ cursor := by omega
    rw [packEntries, if_neg (Nat.not_lt.mpr hend), List.drop_eq_nil_of_le hend]
    rfl
  | succ left ih =>
    have hlt : cursor < entries.length := by omega
    rw [packEntries, if_pos hlt, List.drop_eq_getElem_cons hlt, PathShim.packEntries,
      List.getElem?_eq_getElem hlt]
    simp only [Option.bind_eq_bind, Option.bind_some, direntRecord_eq]
    split
    · rfl
    · exact ih (cursor + 1) _ (by omega)

-- ---------------------------------------------------------------------------
-- So is everything else
-- ---------------------------------------------------------------------------

theorem sliceTo_first_zero {bytes : Bytes} (h : (0 : UInt8) ∈ bytes) :
    ∃ stop, bytes.findIdx? (· == 0) = some stop ∧
      sliceTo bytes stop = some (bytes.takeWhile (· != 0)) := by
  induction bytes with
  | nil => cases h
  | cons b bytes ih =>
    by_cases hb : b = 0
    · exact ⟨0, by simp [List.findIdx?_cons, hb], by simp [sliceTo, hb]⟩
    · obtain ⟨stop, hstop, hslice⟩ := ih ((List.mem_cons.mp h).resolve_left (Ne.symm hb))
      refine ⟨stop + 1, by simp [List.findIdx?_cons, hb, hstop], ?_⟩
      unfold sliceTo at hslice ⊢
      split at hslice
      · rename_i hle
        rw [if_pos (by simpa using hle), List.take_succ_cons, Option.some.inj hslice]
        simp [hb]
      · cases hslice

theorem ofBytes_append (bytes : OsStr) (more : Bytes) (h : (0 : UInt8) ∉ more) :
    OsStr.ofBytes (bytes.bytes ++ more) = OsStr.append bytes more h := by
  have hall : ∀ b ∈ bytes.bytes ++ more, (b != 0) = true := by
    intro b hb
    rw [bne_iff_ne]
    rintro rfl
    exact (List.mem_append.mp hb).elim bytes.noNul h
  simp only [OsStr.ofBytes, OsStr.append, OsStr.mk.injEq]
  exact List.takeWhile_eq_self_iff.mpr hall

theorem readPathLoop_eq (pid : Pid) (address : UInt64) (turns : Nat) (bytes : OsStr) :
    readPathLoop pid address turns bytes = PathShim.readPathLoop pid address turns bytes := by
  induction turns generalizing bytes with
  | zero => rfl
  | succ turns ih =>
    unfold readPathLoop PathShim.readPathLoop
    split
    · cases checkedAdd address bytes.bytes.length with
      | none => rfl
      | some start =>
        refine congrArg (readMemory pid start _ >>= ·) (funext fun r => ?_)
        cases r with
        | error e => rfl
        | ok chunk =>
          dsimp only
          split
          · rename_i stop hstop
            have hzero : (0 : UInt8) ∈ chunk.bytes := by
              by_contra hnone
              have hnone' : chunk.bytes.findIdx? (· == 0) = none :=
                List.findIdx?_eq_none_iff.mpr fun b hb => by
                  rw [beq_eq_false_iff_ne]
                  rintro rfl
                  exact hnone hb
              rw [hnone'] at hstop
              cases hstop
            obtain ⟨stop', hstop', hslice⟩ := sliceTo_first_zero hzero
            obtain rfl := Option.some.inj (hstop.symm.trans hstop')
            rw [hslice, orPanic_some, ret_bind, dif_pos hzero,
              ofBytes_append _ _ (noNul_takeWhile _)]
          · rename_i hnone
            have hzero : (0 : UInt8) ∉ chunk.bytes := fun hzero => by
              have := List.findIdx?_eq_none_iff.mp hnone 0 hzero
              cases this
            rw [dif_neg hzero, ofBytes_append _ _ hzero, ih]
    · rfl

@[simp] theorem readPath_eq (pid : Pid) (address : UInt64) :
    readPath pid address = PathShim.readPath pid address := by
  simp only [readPath, PathShim.readPath, readPathLoop_eq]

/-- The projection that was selected is there, and its destination is a prefix. -/
@[simp] theorem resolveRead_eq (view : BindView) (virtualPath : OsStr) :
    resolveRead view virtualPath = .ret (view.resolveRead virtualPath) := by
  rw [resolveRead, BindView.resolveRead, BindView.resolveProjected, ← orPanic_some,
    Option.some_get]

@[simp] theorem directoryFdMatches_eq (state : State) (pid : Pid) (fd : Fd)
    (directory : OpenDirectory) :
    directoryFdMatches state pid fd directory =
      PathShim.directoryFdMatches state pid fd directory := by
  simp only [directoryFdMatches, resolveRead_eq, ret_bind]
  rfl

@[simp] theorem trackedDirectory_eq (state : State) (pid : Pid) (fd : Fd) :
    trackedDirectory state pid fd = PathShim.trackedDirectory state pid fd := by
  simp only [trackedDirectory, directoryFdMatches_eq]
  rfl

@[simp] theorem resolvePath_eq (state : State) (pid : Pid) (dirfd : Fd) (path : OsStr) :
    resolvePath state pid dirfd path = PathShim.resolvePath state pid dirfd path := by
  simp only [resolvePath, trackedDirectory_eq]
  rfl

@[simp] theorem readAndResolve_eq (state : State) (notif : SeccompNotif) (dirfd : Fd)
    (address : UInt64) :
    readAndResolve state notif dirfd address =
      PathShim.readAndResolve state notif dirfd address := by
  simp only [readAndResolve, readPath_eq, resolvePath_eq]
  rfl

@[simp] theorem onProjected_eq (state : State) (notif : SeccompNotif) (dirfd : Fd)
    (address : UInt64) (next : AbsPath → Sup (IoResult Unit)) :
    onProjected state notif dirfd address next =
      PathShim.onProjected state notif dirfd address next := by
  simp only [onProjected, PathShim.onProjected, readAndResolve_eq]

@[simp] theorem onProjectedPath_eq (state : State) (notif : SeccompNotif) (dirfd : Fd)
    (address : UInt64) (skip : OsStr → Bool) (next : OsStr → AbsPath → Sup (IoResult Unit)) :
    onProjectedPath state notif dirfd address skip next =
      PathShim.onProjectedPath state notif dirfd address skip next := by
  simp only [onProjectedPath, PathShim.onProjectedPath, readPath_eq, resolvePath_eq]

@[simp] theorem listDir_eq (view : BindView) (virtualPath : OsStr) :
    listDir view virtualPath = view.listDir virtualPath := by
  simp only [listDir, resolveRead_eq, ret_bind]
  rfl

section
variable (state : State) (notif : SeccompNotif)

theorem handleExec_eq : handleExec state notif = PathShim.handleExec state notif := by
  have hprojected : execProjected = PathShim.execProjected := by
    funext state notif pathAddress flags rawPath virtualPath
    simp only [execProjected, PathShim.execProjected, resolveRead_eq, ret_bind]
  simp only [handleExec, PathShim.handleExec, onProjectedPath_eq, hprojected]

theorem handleOpen_eq : handleOpen state notif = PathShim.handleOpen state notif := by
  have htrack : trackOpened = PathShim.trackOpened := by
    funext state notif flags virtualPath realPath childFd
    simp only [trackOpened, trackDirectory, listDir_eq]
    rfl
  have hprojected (arguments : OpenArguments) (virtualPath : AbsPath) :
      openProjected state notif arguments virtualPath =
        PathShim.openProjected state notif arguments virtualPath := by
    have hpath := cString_eq (state.view.prepareOpen virtualPath.toPath arguments.flags)
    simp only [openProjected, resolveRead_eq, ret_bind, cString_eq, htrack]
    unfold PathShim.openProjected
    dsimp only
    rw [hpath]
    rfl
  simp only [handleOpen, PathShim.handleOpen, readAndResolve_eq, hprojected]

theorem handleStat_eq : handleStat state notif = PathShim.handleStat state notif := by
  simp only [handleStat, PathShim.handleStat, onProjectedPath_eq, resolveRead_eq, ret_bind]

theorem handleStatx_eq : handleStatx state notif = PathShim.handleStatx state notif := by
  simp only [handleStatx, PathShim.handleStatx, onProjectedPath_eq, resolveRead_eq, ret_bind]

theorem handleAccess_eq : handleAccess state notif = PathShim.handleAccess state notif := by
  simp only [handleAccess, onProjected_eq, resolveRead_eq, ret_bind]
  refine congrArg (PathShim.onProjected state notif _ _) (funext fun virtualPath => ?_)
  cases cString (state.view.resolveRead virtualPath.toPath) <;> rfl

theorem handleMkdir_eq : handleMkdir state notif = PathShim.handleMkdir state notif := by
  simp only [handleMkdir, onProjected_eq, mkdir, resolveRead_eq, ret_bind]
  rfl

theorem handleUnlink_eq : handleUnlink state notif = PathShim.handleUnlink state notif := by
  simp only [handleUnlink, onProjected_eq, unlink, resolveRead_eq, ret_bind]
  rfl

theorem handleRename_eq : handleRename state notif = PathShim.handleRename state notif := by
  simp only [handleRename, PathShim.handleRename, readAndResolve_eq]

/-- As much of the target is copied as there is. -/
theorem returnLink_eq (buffer : UInt64) (size : Nat) (target : OsStr) :
    returnLink notif buffer size target = PathShim.returnLink notif buffer size target := by
  have hslice : sliceTo target.bytes (min size target.bytes.length) =
      some (target.bytes.take (min size target.bytes.length)) := if_pos (Nat.min_le_right _ _)
  simp only [returnLink, PathShim.returnLink, hslice, orPanic_some, ret_bind]

theorem handleReadlink_eq : handleReadlink state notif = PathShim.handleReadlink state notif := by
  have hreturn : returnLink = PathShim.returnLink := by
    funext notif buffer size target
    exact returnLink_eq notif buffer size target
  simp only [handleReadlink, readAndResolve_eq, resolveRead_eq, ret_bind, hreturn]
  rfl

theorem handleSymlink_eq : handleSymlink state notif = PathShim.handleSymlink state notif := by
  simp only [handleSymlink, readPath_eq, onProjected_eq, symlink, resolveRead_eq, ret_bind]
  rfl

/-- Nothing removes the directory between its validation and its second lookup. -/
theorem handleGetdents_eq : handleGetdents state notif = PathShim.handleGetdents state notif := by
  unfold handleGetdents PathShim.handleGetdents
  refine congrArg (processKey notif.pid >>= ·) (funext fun key => ?_)
  dsimp only
  cases state.directories (key, asI32 (notif.data.args 0)) with
  | none => rfl
  | some directory => simp only [directoryFdMatches_eq, orPanic_some, ret_bind, packEntries_eq]

theorem handleChdir_eq : handleChdir state notif = PathShim.handleChdir state notif := by
  have hto : chdirTo state notif = PathShim.chdirTo state notif := by
    funext virtualPath
    simp only [chdirTo, resolveRead_eq, ret_bind]
    rfl
  unfold handleChdir PathShim.handleChdir
  rw [readAndResolve_eq, hto]
  split
  · rfl
  · refine congrArg (processKey notif.pid >>= ·) (funext fun key => ?_)
    dsimp only
    cases state.directories (key, asI32 (notif.data.args 0)) with
    | none => rfl
    | some directory => simp only [directoryFdMatches_eq, orPanic_some, ret_bind]

theorem mutate_eq (virtualPath : AbsPath) (call : OsStr → Sup (Except Errno Nat)) :
    mutate state notif virtualPath call = PathShim.mutate state notif virtualPath call := by
  simp only [mutate, resolveRead_eq, ret_bind]
  rfl

theorem handleUtimensat_eq :
    handleUtimensat state notif = PathShim.handleUtimensat state notif := by
  simp only [handleUtimensat, onProjected_eq, resolveRead_eq, ret_bind]
  rfl

theorem handle_eq : handle state notif = PathShim.handle state notif := by
  simp only [handle, handleExec_eq, handleOpen_eq, handleStat_eq, handleStatx_eq,
    handleAccess_eq, handleMkdir_eq, handleUnlink_eq, handleRename_eq, handleReadlink_eq,
    handleSymlink_eq, handleGetdents_eq, handleChdir_eq, handleUtimensat_eq, handleTruncate,
    handleChmod, handleChown, onProjected_eq, mutate_eq]
  rfl

end

/-- Whatever the state, the notification and the answers, no execution panics. -/
theorem handle_never_panics (state : State) (notif : SeccompNotif) :
    Ensures Env.any (handle state notif) fun _ out => out.isSome := by
  rw [handle_eq]
  exact fun _ _ h => handle_returns h

end PathShim.Checked
