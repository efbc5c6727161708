import PathShim.Linux.Reply
import PathShim.Linux.Routing
import PathShim.Linux.StateFrame

/-!
# What the supervisor can reach

Whatever a tracee passes and whatever the kernel answers, a handler writes to
no memory but the buffer the call names, in the thread that made it; it names
no host path outside the sources, except to recognise a descriptor; and it
sends no reply that the kernel would refuse.
-/

namespace PathShim

open UnixPath Effects Mounts

-- ---------------------------------------------------------------------------
-- Bounds
-- ---------------------------------------------------------------------------

/-- The part of its memory that a call lets be written: the address and how many bytes. For a
structure that is what the host filled in, for exec the pathname with its NUL. -/
inductive Buffer (E : Env Op.Answer) (notif : SeccompNotif) : UInt64 → Nat → Prop
  | stat {path flags bytes} : notif.data.nr = .sysNewfstatat →
      E (.fstatat path flags) (.ok bytes) → Buffer E notif (notif.data.args 2) bytes.length
  | statx {path flags mask bytes} : notif.data.nr = .sysStatx →
      E (.statx path flags mask) (.ok bytes) → Buffer E notif (notif.data.args 4) bytes.length
  | readlink : notif.data.nr = .sysReadlink →
      Buffer E notif (notif.data.args 1) (notif.data.args 2).toNat
  | readlinkat : notif.data.nr = .sysReadlinkat →
      Buffer E notif (notif.data.args 2) (notif.data.args 3).toNat
  | getdents : notif.data.nr = .sysGetdents64 →
      Buffer E notif (notif.data.args 1) (notif.data.args 2).toNat
  | getcwd : notif.data.nr = .sysGetcwd →
      Buffer E notif (notif.data.args 0) (notif.data.args 1).toNat
  | execve {raw} : notif.data.nr = .sysExecve →
      Returns E (readPath notif.pid (notif.data.args 0)) (.ok raw) →
      Buffer E notif (notif.data.args 0) (raw.bytes.length + 1)
  | execveat {raw} : notif.data.nr = .sysExecveat →
      Returns E (readPath notif.pid (notif.data.args 1)) (.ok raw) →
      Buffer E notif (notif.data.args 1) (raw.bytes.length + 1)

/-- A path at or below a source, written without `..`. -/
def BindView.InSource (view : BindView) (path : OsStr) : Prop :=
  ∃ p ∈ view.projections, ∃ rest : AbsPath,
    path.components = (p.source ++ rest : AbsPath).toPath.components

/-- What the kernel takes as a response: an error or a value, or the permission to continue and
neither. -/
def SeccompNotifResp.WellFormed (response : SeccompNotifResp) : Prop :=
  response.flags = 0 ∧ (response.val = 0 ∨ response.error = 0) ∨
    response.flags = USER_NOTIF_FLAG_CONTINUE ∧ response.val = 0 ∧ response.error = 0

/-- What the kernel takes as a request to add a descriptor at no particular number. -/
def SeccompNotifAddfd.WellFormed (request : SeccompNotifAddfd) : Prop :=
  (request.flags = 0 ∨ request.flags = ADDFD_FLAG_SEND) ∧ request.newfd = 0 ∧
    (request.newfdFlags = 0 ∨ request.newfdFlags = O_CLOEXEC.toUInt32)

/-- A write to the tracee stays within the buffer. -/
def InBuffer (E : Env Op.Answer) (notif : SeccompNotif) (pid : Pid) (address : UInt64)
    (bytes : Bytes) : Prop :=
  pid = notif.pid ∧ ∃ size, Buffer E notif address size ∧ bytes.length ≤ size

/-- The calls a handler may make. -/
def Confined (E : Env Op.Answer) (view : BindView) (notif : SeccompNotif) (op : Op) : Prop :=
  match op with
  | .openProcMem pid => pid = notif.pid
  | .processVmWritev pid address bytes | .writeProcMem pid bytes address =>
    InBuffer E notif pid address bytes
  | .addFd request => request.id = notif.id ∧ request.WellFormed
  | .respond response => response.id = notif.id ∧ response.WellFormed
  | op => ∀ path ∈ op.hostPaths, view.InSource path

abbrev Confines (E : Env Op.Answer) (state : State) (notif : SeccompNotif) (p : Sup α) : Prop :=
  Keeps E (fun e => Confined E state.view notif e.op) p

-- ---------------------------------------------------------------------------
-- Paths in a source
-- ---------------------------------------------------------------------------

theorem BindView.inSource_resolveRead {view : BindView} {v : AbsPath}
    (h : view.projects v.toPath = true) : view.InSource (view.resolveRead v.toPath) := by
  obtain ⟨index, p, -, hp, hlongest⟩ := view.exists_projectionIndex (projects_toPath.mp h)
  obtain ⟨rest, rfl⟩ := hlongest.covers
  refine ⟨p, List.mem_of_getElem? hp, rest, ?_⟩
  rw [view.components_resolveRead, AbsPath.normalize_toPath, locate,
    locate_of_longest view.table_wellFormed hlongest]
  rfl

theorem BindView.inSource_resolveProjected {view : BindView} {v : AbsPath}
    (h : view.projects v.toPath = true) : view.InSource (view.resolveProjected v.toPath) :=
  view.inSource_resolveRead h

theorem BindView.inSource_prepareMutation {view : BindView} {v : AbsPath}
    (h : view.projects v.toPath = true) : view.InSource (view.prepareMutation v.toPath) :=
  view.inSource_resolveRead h

theorem isAbsolute_of_components {path : OsStr} {p : AbsPath}
    (h : path.components = p.toPath.components) : path.isAbsolute = true := by
  by_contra habs
  have hroot : Component.rootDir ∈ steps path.bytes := by
    rw [AbsPath.components_toPath, OsStr.components, if_neg habs] at h
    split at h
    · cases (List.cons.inj h).1
    · exact h ▸ List.mem_cons_self
  rcases steps_ne_root hroot with h | ⟨n, h⟩ <;> cases h

/-- A name joined to an absolute path. -/
theorem components_join_name {path : OsStr} {p : AbsPath}
    (h : path.components = p.toPath.components) (name : Name) :
    (path.join (relative [.normal name])).components =
      (p ++ [name] : AbsPath).toPath.components := by
  have habs : (path.join (relative [.normal name])).isAbsolute = true := by
    have hpath := isAbsolute_of_components h
    have hname : (relative [.normal name]).isAbsolute = false := relative_isAbsolute [name]
    simp only [OsStr.join, hname, Bool.false_eq_true, if_false]
    simp only [OsStr.isAbsolute, beq_iff_eq] at hpath
    obtain ⟨rest, hrest⟩ := List.head?_eq_some_iff.mp hpath
    split <;> simp [OsStr.isAbsolute, hrest]
  have hname : relative [.normal name] = relative ([name].map .normal) := rfl
  rw [OsStr.components, if_pos habs, hname, OsStr.steps_join (relative_isAbsolute _),
    steps_of_components h, steps_relative]
  simp

theorem BindView.InSource.entry {view : BindView} {path : OsStr} (h : view.InSource path)
    (name : Name) : view.InSource (path.join (relative [.normal name])) := by
  obtain ⟨p, hp, rest, hcomponents⟩ := h
  refine ⟨p, hp, rest ++ [name], ?_⟩
  rw [components_join_name hcomponents, List.append_assoc]

-- ---------------------------------------------------------------------------
-- Steps
-- ---------------------------------------------------------------------------

section
variable {E : Env Op.Answer} {state : State} {notif : SeccompNotif}

theorem confines_ask {op : Op} (h : Confined E state.view notif op) :
    Confines E state notif (ask op) := Keeps.of_calls (.perform h) fun _ h => h

theorem returns_ask {op : Op} {r : op.Answer} : Returns E (ask op) r ↔ E op r := by
  simp [Returns, ask, perform, exec_call]

theorem confines_calls {p : Sup α} (h : p.Calls (Confined E state.view notif)) :
    Confines E state notif p := Keeps.of_calls h fun _ h => h

theorem reads_confined {view : BindView} : Reads (Confined E view notif) := by
  constructor <;> simp [Confined, Op.hostPaths]

theorem confines_ret (a : α) : Confines E state notif (.ret a : Sup α) := by
  intro tr out hx e he
  obtain ⟨rfl, -⟩ := exec_ret.mp hx
  cases he

theorem confines_respond {response : SeccompNotifResp} (hid : response.id = notif.id)
    (h : response.WellFormed) : Confines E state notif (respond response) :=
  Keeps.bind (confines_ask ⟨hid, h⟩) fun _ _ => confines_ret _

theorem confines_continue : Confines E state notif (respondContinue notif.id) :=
  confines_respond rfl (.inr ⟨rfl, rfl, rfl⟩)

theorem confines_value (value : Int) : Confines E state notif (respondValue notif.id value) :=
  confines_respond rfl (.inl ⟨rfl, .inr rfl⟩)

theorem confines_error (e : Errno) : Confines E state notif (respondError notif.id e) :=
  confines_respond rfl (.inl ⟨rfl, .inl rfl⟩)

theorem confines_result (r : Except Errno Nat) :
    Confines E state notif (respondResult notif.id r) := by
  cases r with
  | error e => exact confines_error e
  | ok result => exact confines_value _

theorem confines_answered (s : State) {p : Sup (IoResult Unit)} (h : Confines E state notif p) :
    Confines E state notif (answered s p) := Keeps.bind h fun _ _ => confines_ret _

theorem confines_orRespond {x : Sup (IoResult α)} {next : α → Sup (IoResult Unit)}
    (hx : Confines E state notif x)
    (hnext : ∀ a, Returns E x (.ok a) → Confines E state notif (next a)) :
    Confines E state notif (orRespond notif.id x next) := by
  refine Keeps.bind hx fun r hr => ?_
  cases r with
  | error e => exact confines_error _
  | ok a => exact hnext a hr

theorem confines_orRespondIn (s : State) {x : Sup (IoResult α)}
    {next : α → Sup (State × IoResult Unit)} (hx : Confines E state notif x)
    (hnext : ∀ a, Returns E x (.ok a) → Confines E state notif (next a)) :
    Confines E state notif (orRespondIn s notif.id x next) := by
  refine Keeps.bind hx fun r hr => ?_
  cases r with
  | error e => exact confines_answered s (confines_error _)
  | ok a => exact hnext a hr

theorem confines_readPath (address : UInt64) :
    Confines E state notif (readPath notif.pid address) :=
  confines_calls (calls_readPath (reads_confined.memory _) _)

theorem confines_readValue (address : UInt64) (size : Nat) :
    Confines E state notif (readValue notif.pid address size) :=
  confines_calls (calls_readValue (reads_confined.memory _) _ _)

theorem confines_processKey (pid : Pid) : Confines E state notif (processKey pid) :=
  confines_calls (calls_processKey reads_confined pid)

theorem confines_virtualCwd (pid : Pid) : Confines E state notif (virtualCwd state pid) :=
  confines_calls (calls_virtualCwd reads_confined state pid)

theorem confines_withCString {path : OsStr} {next : OsStr → Sup (IoResult Unit)}
    (h : Confines E state notif (next path)) :
    Confines E state notif (withCString notif.id path next) := by
  simpa [withCString] using h

theorem confines_writeMemory {address : UInt64} {bytes : Bytes}
    (h : InBuffer E notif notif.pid address bytes) :
    Confines E state notif (writeMemory notif.pid address bytes) := by
  refine Keeps.bind (confines_ask h) fun r _ => ?_
  cases r with
  | error e => exact confines_ret _
  | ok written =>
    dsimp only
    split <;> exact confines_ret _

theorem confines_rewritePath {address : UInt64} {original : OsStr} (replacement : OsStr)
    (h : Buffer E notif address (original.bytes.length + 1)) :
    Confines E state notif (rewritePath notif.pid address original replacement) := by
  unfold rewritePath
  dsimp only
  split
  · exact confines_ret _
  · rename_i hshort
    have hbuffer : InBuffer E notif notif.pid address (replacement.bytes ++ [0]) :=
      ⟨rfl, _, h, Nat.le_of_not_lt hshort⟩
    refine Keeps.bind (confines_writeMemory hbuffer) fun r _ => ?_
    cases r with
    | ok _ => exact confines_ret _
    | error e =>
      refine Keeps.bind (confines_ask rfl) fun r _ => ?_
      cases r with
      | error e => exact confines_ret _
      | ok _ =>
        refine Keeps.bind (confines_ask hbuffer) fun r _ => ?_
        cases r with
        | error e => exact confines_ret _
        | ok written =>
          dsimp only
          split <;> exact confines_ret _

theorem confines_returnStruct {address : UInt64} {result : Except Errno Bytes}
    (hbuffer : ∀ bytes, result = .ok bytes → Buffer E notif address bytes.length) :
    Confines E state notif (returnStruct notif address result) := by
  cases result with
  | error e => exact confines_error e
  | ok bytes =>
    refine confines_orRespond (confines_writeMemory ?_) fun _ _ => confines_value 0
    exact ⟨rfl, bytes.length, hbuffer bytes rfl, le_rfl⟩

theorem confines_returnLink {buffer : UInt64} {size : Nat} (target : OsStr)
    (hbuffer : Buffer E notif buffer size) :
    Confines E state notif (returnLink notif buffer size target) := by
  refine confines_orRespond (confines_writeMemory ⟨rfl, size, hbuffer, ?_⟩) fun _ _ =>
    confines_value _
  rw [List.length_take]
  exact (Nat.min_le_left _ _).trans (Nat.min_le_left _ _)

theorem confines_mutate {v : AbsPath} {call : OsStr → Sup (Except Errno Nat)}
    (hv : state.view.projects v.toPath = true)
    (h : ∀ path, state.view.InSource path → Confines E state notif (call path)) :
    Confines E state notif (mutate state notif v call) :=
  confines_withCString
    (Keeps.bind (h _ (BindView.inSource_prepareMutation hv)) fun r _ => confines_result r)

-- ---------------------------------------------------------------------------
-- Parts of handlers
-- ---------------------------------------------------------------------------

theorem confines_openFile {path : OsStr} (h : state.view.InSource path) (flags : Int32)
    (mode : UInt32) :
    Confines E state notif (do return osResult (← ask (.openFile path flags mode))) :=
  Keeps.bind (confines_ask (by simpa [Confined, Op.hostPaths] using h)) fun _ _ => confines_ret _

theorem confines_addFd {request : SeccompNotifAddfd} (hid : request.id = notif.id)
    (h : request.WellFormed) : Confines E state notif (addFd request) :=
  Keeps.bind (confines_ask ⟨hid, h⟩) fun _ _ => confines_ret _

theorem cloexec_and (flags : Int32) : (flags &&& O_CLOEXEC).toUInt32 = 0 ∨
    (flags &&& O_CLOEXEC).toUInt32 = O_CLOEXEC.toUInt32 := by
  have h : (flags &&& O_CLOEXEC).toUInt32.toBitVec =
      if flags.toBitVec.getLsbD 19 then BitVec.twoPow 32 19 else 0#32 :=
    BitVec.and_twoPow flags.toBitVec 19
  cases hbit : flags.toBitVec.getLsbD 19 <;> rw [hbit] at h
  · exact .inl (UInt32.toBitVec_inj.mp h)
  · exact .inr (UInt32.toBitVec_inj.mp h)

theorem confines_openProjected (arguments : OpenArguments) {v : AbsPath}
    (hv : state.view.projects v.toPath = true) :
    Confines E state notif (openProjected state notif arguments v) := by
  have hsource : state.view.InSource (state.view.resolveRead v.toPath) :=
    BindView.inSource_resolveRead hv
  simp only [openProjected, cString_eq]
  refine confines_orRespondIn state (confines_openFile hsource _ _) fun sourceFd _ => ?_
  refine confines_orRespondIn state
    (confines_addFd rfl ⟨.inr rfl, rfl, cloexec_and arguments.flags⟩) fun childFd _ => ?_
  refine Keeps.of_calls (S := Confined E state.view notif) (calls_tracking ?_ ?_ ?_ ?_ _ _)
    fun _ h => h
  · simpa [Confined, Op.hostPaths] using hsource
  · exact fun name => by simpa [Confined, Op.hostPaths] using hsource.entry name
  · exact reads_confined.status
  · simpa [Confined, Op.hostPaths] using hsource

theorem confines_linkTarget {v : AbsPath} {buffer : UInt64} {size : Nat}
    (hbuffer : Buffer E notif buffer size) {own : Option AbsPath → Sup (IoResult Unit)}
    (hown : ∀ target, Confines E state notif (own target)) :
    Confines E state notif (do
      if ← isOwnProcCwd v notif.pid then own (← virtualCwd state notif.pid)
      else if state.view.projects v.toPath then
        orRespond notif.id (ask (.readLink (state.view.resolveRead v.toPath)))
          (returnLink notif buffer size)
      else respondContinue notif.id) := by
  refine Keeps.bind (confines_calls (calls_isOwnProcCwd reads_confined _ _)) fun isOwn _ => ?_
  cases isOwn with
  | true => exact Keeps.bind (confines_virtualCwd _) fun target _ => hown target
  | false =>
    simp only [Bool.false_eq_true, if_false]
    split
    · rename_i hv
      refine confines_orRespond (confines_ask ?_) fun target _ =>
        confines_returnLink target hbuffer
      simpa [Confined, Op.hostPaths] using BindView.inSource_resolveRead hv
    · exact confines_continue

theorem confines_unlink {v : AbsPath} (hv : state.view.projects v.toPath = true)
    (removeDir : Bool) : Confines E state notif (state.view.unlink v.toPath removeDir) := by
  have hsource := BindView.inSource_resolveProjected hv
  cases removeDir with
  | true => exact confines_ask (by simpa [Confined, Op.hostPaths] using hsource)
  | false => exact confines_ask (by simpa [Confined, Op.hostPaths] using hsource)

/-- Both operands of a rename are in a source, unless it is refused. -/
theorem confines_rename {old new : AbsPath} (hold : state.view.projects old.toPath = true)
    (hnew : state.view.projects new.toPath = true) :
    Confines E state notif (state.view.rename old.toPath new.toPath) := by
  simp only [BindView.rename, normalizeVirtual_eq, AbsPath.normalize_toPath]
  split
  · rename_i i j hi hj
    split
    · exact confines_ret _
    · simp only [BindView.resolve_selected hi, BindView.resolve_selected hj]
      refine confines_ask ?_
      simpa [Confined, Op.hostPaths] using
        ⟨BindView.inSource_resolveRead hold, BindView.inSource_resolveRead hnew⟩
  · exact confines_ret _

/-- What is packed fits. -/
theorem packEntries_length_le {capacity : Nat} (entries : List DirEntry) (cursor : Nat)
    {output : Bytes} (h : output.length ≤ capacity) :
    (packEntries capacity entries cursor output).1.length ≤ capacity := by
  induction entries generalizing cursor output with
  | nil => exact h
  | cons entry rest ih =>
    unfold packEntries
    dsimp only
    split
    · exact h
    · rename_i hfits
      exact ih _ (by simpa using hfits)

theorem confines_chdirTo (v : AbsPath) : Confines E state notif (chdirTo state notif v) := by
  unfold chdirTo
  split
  · rename_i hv
    refine Keeps.bind (confines_ask ?_) fun r _ => ?_
    · simpa [Confined, Op.hostPaths] using BindView.inSource_resolveRead hv
    · cases r with
      | error e => exact confines_answered state (confines_error _)
      | ok metadata =>
        dsimp only
        split
        · refine Keeps.bind (confines_processKey _) fun key _ => confines_answered _ ?_
          split
          · exact confines_continue
          · exact confines_value 0
        · exact confines_answered state (confines_error _)
  · exact Keeps.bind (confines_processKey _) fun key _ => confines_answered _ confines_continue

theorem confines_handleGetcwd (hnr : notif.data.nr = .sysGetcwd) :
    Confines E state notif (handleGetcwd state notif) := by
  refine Keeps.bind (confines_virtualCwd _) fun cwd _ => ?_
  cases cwd with
  | none => exact confines_continue
  | some path =>
    dsimp only
    split
    · exact confines_error _
    · rename_i hfits
      refine confines_orRespond (confines_writeMemory ?_) fun _ _ => confines_value _
      exact ⟨rfl, _, .getcwd hnr, Nat.le_of_not_lt hfits⟩

-- ---------------------------------------------------------------------------
-- Operands
-- ---------------------------------------------------------------------------

variable (htracks : state.TracksProjected)
include htracks

/-- A tracked directory lies in a source, so recognising a descriptor names nothing else. -/
theorem confines_directoryFdMatches {key : Pid × Fd}
    {directory : OpenDirectory} (h : state.directories key = some directory) (fd : Fd) :
    Confines E state notif (directoryFdMatches state notif.pid fd directory) := by
  refine confines_calls (calls_directoryFdMatches reads_confined ?_)
  have hsource := BindView.inSource_resolveRead (BindView.projects_toPath.mpr (htracks _ _ h))
  simpa [Confined, Op.hostPaths] using hsource

theorem confines_trackedDirectory (fd : Fd) :
    Confines E state notif (trackedDirectory state notif.pid fd) := by
  refine Keeps.bind (confines_processKey _) fun key _ => ?_
  cases hdirectory : state.directories (key, fd) with
  | none => exact confines_ret _
  | some directory =>
    refine Keeps.bind (confines_directoryFdMatches htracks hdirectory fd) fun valid _ => ?_
    cases valid <;> exact confines_ret _

theorem confines_resolvePath (dirfd : Fd) (path : OsStr) :
    Confines E state notif (resolvePath state notif.pid dirfd path) := by
  unfold resolvePath
  split
  · exact confines_ret _
  · split
    · exact confines_ret _
    · split
      · refine Keeps.bind (confines_virtualCwd _) fun cwd _ => ?_
        cases cwd with
        | none =>
          refine Keeps.bind (confines_calls (calls_processCwd reads_confined _ _)) fun _ _ => ?_
          exact confines_ret _
        | some cwd => exact confines_ret _
      · refine Keeps.bind (confines_trackedDirectory htracks _) fun directory _ => ?_
        cases directory with
        | none =>
          refine Keeps.bind (confines_ask (reads_confined.fdLink _ _)) fun host _ => ?_
          cases host <;> exact confines_ret _
        | some directory => exact confines_ret _

theorem confines_operand (dirfd : Fd) (address : UInt64) :
    Confines E state notif (readAndResolve state notif dirfd address) := by
  refine Keeps.bind (confines_readPath _) fun path _ => ?_
  cases path with
  | error e => exact confines_ret _
  | ok path => exact confines_resolvePath htracks _ _

theorem confines_onProjected {dirfd : Fd} {address : UInt64}
    {next : AbsPath → Sup (IoResult Unit)}
    (h : ∀ v, state.view.projects v.toPath = true → Confines E state notif (next v)) :
    Confines E state notif (onProjected state notif dirfd address next) := by
  refine confines_orRespond (confines_operand htracks _ _) fun v _ => ?_
  split
  · rename_i hprojects
    exact h v hprojects
  · exact confines_continue

theorem confines_onProjectedPath {dirfd : Fd} {address : UInt64} {skip : OsStr → Bool}
    {next : OsStr → AbsPath → Sup (IoResult Unit)}
    (h : ∀ raw v, Returns E (readPath notif.pid address) (.ok raw) →
      state.view.projects v.toPath = true → Confines E state notif (next raw v)) :
    Confines E state notif (onProjectedPath state notif dirfd address skip next) := by
  refine confines_orRespond (confines_readPath address) fun raw hraw => ?_
  split
  · exact confines_continue
  · refine confines_orRespond (confines_resolvePath htracks _ _) fun v _ => ?_
    split
    · rename_i hprojects
      exact h raw v hraw hprojects
    · exact confines_continue

-- ---------------------------------------------------------------------------
-- Handlers
-- ---------------------------------------------------------------------------

theorem confines_handleExec (hnr : notif.data.nr = .sysExecve ∨ notif.data.nr = .sysExecveat) :
    Confines E state notif (handleExec state notif) := by
  have hrest (dirfd : Fd) (address : UInt64) (flags : Int32)
      (hbuffer : ∀ raw, Returns E (readPath notif.pid address) (.ok raw) →
        Buffer E notif address (raw.bytes.length + 1)) :
      Confines E state notif (onProjectedPath state notif dirfd address
        (fun rawPath => rawPath.bytes = []) (execProjected state notif address flags)) := by
    refine confines_onProjectedPath htracks fun raw v hraw hv => ?_
    unfold execProjected
    split
    · exact confines_error _
    · simp only [openExecutable, cString_eq]
      refine confines_orRespond (confines_openFile (BindView.inSource_resolveRead hv) _ _)
        fun sourceFd _ => ?_
      refine confines_orRespond (confines_addFd rfl ⟨.inl rfl, rfl, .inr rfl⟩) fun childFd _ => ?_
      refine confines_orRespond (confines_rewritePath _ (hbuffer raw hraw)) fun _ _ => ?_
      exact confines_continue
  unfold handleExec
  rcases hnr with hnr | hnr
  · simp only [hnr, if_true]
    exact hrest _ _ _ fun raw hraw => .execve hnr hraw
  · simp only [hnr, reduceCtorEq, if_false]
    exact hrest _ _ _ fun raw hraw => .execveat hnr hraw

theorem confines_handleOpen : Confines E state notif (handleOpen state notif) := by
  refine confines_orRespondIn state
    (confines_calls (calls_openArguments (reads_confined.memory _))) fun arguments _ => ?_
  refine confines_orRespondIn state (confines_operand htracks _ _) fun v _ => ?_
  split
  · rename_i hv
    exact confines_openProjected arguments hv
  · exact confines_answered state confines_continue

theorem confines_handleStat (hnr : notif.data.nr = .sysNewfstatat) :
    Confines E state notif (handleStat state notif) := by
  refine confines_onProjectedPath htracks fun raw v _ hv => confines_withCString ?_
  refine Keeps.bind (confines_ask ?_) fun r hr => ?_
  · simpa [Confined, Op.hostPaths] using BindView.inSource_resolveRead hv
  · refine confines_returnStruct fun bytes hbytes => ?_
    subst hbytes
    exact .stat hnr (returns_ask.mp hr)

theorem confines_handleStatx (hnr : notif.data.nr = .sysStatx) :
    Confines E state notif (handleStatx state notif) := by
  refine confines_onProjectedPath htracks fun raw v _ hv => confines_withCString ?_
  refine Keeps.bind (confines_ask ?_) fun r hr => ?_
  · simpa [Confined, Op.hostPaths] using BindView.inSource_resolveRead hv
  · refine confines_returnStruct fun bytes hbytes => ?_
    subst hbytes
    exact .statx hnr (returns_ask.mp hr)

theorem confines_handleAccess : Confines E state notif (handleAccess state notif) := by
  refine confines_onProjected htracks fun v hv => ?_
  simp only [cString_eq]
  refine Keeps.bind (confines_ask ?_) fun r _ => ?_
  · simpa [Confined, Op.hostPaths] using BindView.inSource_resolveRead hv
  · cases r with
    | error e => exact confines_error e
    | ok _ => exact confines_value 0

theorem confines_handleMkdir : Confines E state notif (handleMkdir state notif) := by
  refine confines_onProjected htracks fun v hv => ?_
  refine confines_orRespond (confines_ask ?_) fun _ _ => confines_value 0
  simpa [Confined, Op.hostPaths] using BindView.inSource_resolveProjected hv

theorem confines_handleUnlink : Confines E state notif (handleUnlink state notif) :=
  confines_onProjected htracks fun _ hv =>
    confines_orRespond (confines_unlink hv _) fun _ _ => confines_value 0

theorem confines_handleRename : Confines E state notif (handleRename state notif) := by
  unfold handleRename
  dsimp only
  split
  · exact confines_error _
  · refine confines_orRespond (confines_operand htracks _ _) fun old _ => ?_
    refine confines_orRespond (confines_operand htracks _ _) fun new _ => ?_
    split
    · exact confines_continue
    · split
      · exact confines_error _
      · rename_i hboth
        simp only [Bool.or_eq_true, Bool.not_eq_true', not_or, Bool.not_eq_false] at hboth
        exact confines_orRespond (confines_rename hboth.1.1 hboth.1.2) fun _ _ => confines_value 0

theorem confines_handleReadlink
    (hnr : notif.data.nr = .sysReadlink ∨ notif.data.nr = .sysReadlinkat) :
    Confines E state notif (handleReadlink state notif) := by
  unfold handleReadlink
  rcases hnr with hnr | hnr
  · have hbuffer := Buffer.readlink (E := E) hnr
    simp only [hnr, if_true]
    refine confines_orRespond (confines_operand htracks _ _) fun v _ => ?_
    refine confines_linkTarget hbuffer fun target => ?_
    cases target with
    | none => exact confines_continue
    | some target => exact confines_returnLink _ hbuffer
  · have hbuffer := Buffer.readlinkat (E := E) hnr
    simp only [hnr, reduceCtorEq, if_false]
    refine confines_orRespond (confines_operand htracks _ _) fun v _ => ?_
    refine confines_linkTarget hbuffer fun target => ?_
    cases target with
    | none => exact confines_continue
    | some target => exact confines_returnLink _ hbuffer

theorem confines_handleSymlink : Confines E state notif (handleSymlink state notif) := by
  refine confines_orRespond (confines_readPath _) fun target _ => ?_
  refine confines_onProjected htracks fun v hv => ?_
  refine confines_orRespond (confines_ask ?_) fun _ _ => confines_value 0
  simpa [Confined, Op.hostPaths] using BindView.inSource_resolveProjected hv

theorem confines_handleGetdents (hnr : notif.data.nr = .sysGetdents64) :
    Confines E state notif (handleGetdents state notif) := by
  refine Keeps.bind (confines_processKey _) fun key _ => ?_
  dsimp only
  split
  · exact confines_answered state confines_continue
  · rename_i directory hdirectory
    refine Keeps.bind (confines_directoryFdMatches htracks hdirectory _) fun valid _ => ?_
    cases valid with
    | false => exact confines_answered _ confines_continue
    | true =>
      refine confines_answered _ ?_
      split
      · exact confines_error _
      · refine confines_orRespond (confines_writeMemory ?_) fun _ _ => confines_value _
        exact ⟨rfl, _, .getdents hnr, packEntries_length_le _ _ (Nat.zero_le _)⟩

theorem confines_handleChdir : Confines E state notif (handleChdir state notif) := by
  unfold handleChdir
  split
  · exact confines_orRespondIn state (confines_operand htracks _ _) fun v _ => confines_chdirTo v
  · refine Keeps.bind (confines_processKey _) fun key _ => ?_
    dsimp only
    split
    · exact confines_answered state confines_continue
    · rename_i directory hdirectory
      refine Keeps.bind (confines_directoryFdMatches htracks hdirectory _) fun valid _ => ?_
      cases valid with
      | true => exact confines_chdirTo _
      | false => exact confines_answered _ confines_continue

theorem confines_handleTruncate : Confines E state notif (handleTruncate state notif) :=
  confines_onProjected htracks fun _ hv => confines_mutate hv fun _ h =>
    confines_ask (by simpa [Confined, Op.hostPaths] using h)

theorem confines_handleChmod : Confines E state notif (handleChmod state notif) :=
  confines_onProjected htracks fun _ hv => confines_mutate hv fun _ h =>
    confines_ask (by simpa [Confined, Op.hostPaths] using h)

theorem confines_handleChown : Confines E state notif (handleChown state notif) :=
  confines_onProjected htracks fun _ hv => confines_mutate hv fun _ h =>
    confines_ask (by simpa [Confined, Op.hostPaths] using h)

theorem confines_handleUtimensat : Confines E state notif (handleUtimensat state notif) := by
  refine confines_onProjected htracks fun v hv => confines_withCString ?_
  refine confines_orRespond ?_ fun times _ => Keeps.bind (confines_ask ?_) fun r _ =>
    confines_result r
  · split
    · exact confines_ret _
    · refine Keeps.bind (confines_readValue _ _) fun r _ => ?_
      cases r <;> exact confines_ret _
  · simpa [Confined, Op.hostPaths] using BindView.inSource_prepareMutation hv

theorem confines_handle : Confines E state notif (handle state notif) := by
  cases hnr : notif.data.nr <;> simp only [handle, hnr]
  case sysExecve => exact confines_answered state (confines_handleExec htracks (.inl hnr))
  case sysExecveat => exact confines_answered state (confines_handleExec htracks (.inr hnr))
  case sysOpen | sysOpenat | sysOpenat2 => exact confines_handleOpen htracks
  case sysNewfstatat => exact confines_answered state (confines_handleStat htracks hnr)
  case sysStatx => exact confines_answered state (confines_handleStatx htracks hnr)
  case sysAccess | sysFaccessat | sysFaccessat2 =>
    exact confines_answered state (confines_handleAccess htracks)
  case sysMkdir | sysMkdirat => exact confines_answered state (confines_handleMkdir htracks)
  case sysUnlink | sysUnlinkat | sysRmdir =>
    exact confines_answered state (confines_handleUnlink htracks)
  case sysRename | sysRenameat | sysRenameat2 =>
    exact confines_answered state (confines_handleRename htracks)
  case sysReadlink => exact confines_answered state (confines_handleReadlink htracks (.inl hnr))
  case sysReadlinkat => exact confines_answered state (confines_handleReadlink htracks (.inr hnr))
  case sysSymlink | sysSymlinkat => exact confines_answered state (confines_handleSymlink htracks)
  case sysGetdents64 => exact confines_handleGetdents htracks hnr
  case sysChdir | sysFchdir => exact confines_handleChdir htracks
  case sysGetcwd => exact confines_answered state (confines_handleGetcwd hnr)
  case sysTruncate => exact confines_answered state (confines_handleTruncate htracks)
  case sysChmod | sysFchmodat => exact confines_answered state (confines_handleChmod htracks)
  case sysChown | sysLchown | sysFchownat =>
    exact confines_answered state (confines_handleChown htracks)
  case sysUtimensat => exact confines_answered state (confines_handleUtimensat htracks)
  case other => exact confines_answered state confines_continue

end

end PathShim
