import PathShim.Bind.Forward
import PathShim.Linux.Dispatch

/-!
# Where a projected operand leads

A call with an operand inside a bind is never handed to the kernel under its
raw pathname, and what the supervisor does in its place names the projected
host path. What the supervisor observes about the tracee is fixed during one
call; every other answer is arbitrary.
-/

namespace PathShim

open UnixPath Effects

-- ---------------------------------------------------------------------------
-- Operands
-- ---------------------------------------------------------------------------

/-- The pathname operands of a call, with the descriptor each is relative to. Of
`symlink` it is the link; its target is only text. -/
def pathOperands (notif : SeccompNotif) : List (Fd × UInt64) :=
  let args := notif.data.args
  match notif.data.nr with
  | .sysExecve | .sysOpen | .sysAccess | .sysMkdir | .sysUnlink | .sysRmdir | .sysReadlink
  | .sysChdir | .sysTruncate | .sysChmod | .sysChown | .sysLchown => [(AT_FDCWD, args 0)]
  | .sysExecveat | .sysOpenat | .sysOpenat2 | .sysNewfstatat | .sysStatx | .sysFaccessat
  | .sysFaccessat2 | .sysMkdirat | .sysUnlinkat | .sysReadlinkat | .sysFchmodat | .sysFchownat
  | .sysUtimensat => [(asI32 (args 0), args 1)]
  | .sysRename => [(AT_FDCWD, args 0), (AT_FDCWD, args 1)]
  | .sysRenameat | .sysRenameat2 => [(asI32 (args 0), args 1), (asI32 (args 2), args 3)]
  | .sysSymlink => [(AT_FDCWD, args 1)]
  | .sysSymlinkat => [(asI32 (args 1), args 2)]
  | .sysGetdents64 | .sysFchdir | .sysGetcwd | .other _ => []

/-- Observations have fixed answers, other calls any. -/
def Observed (ans : (op : Op) → op.Answer) : Env Op.Answer := fun op r => op.Observes → r = ans op

/-- `v` is the guest path of an operand. -/
def Resolves (state : State) (notif : SeccompNotif) (ans : (op : Op) → op.Answer)
    (operand : Fd × UInt64) (v : AbsPath) : Prop :=
  (readAndResolve state notif operand.1 operand.2).eval ans = some (.ok v)

/-- The thread group of a process. -/
def keyOf (ans : (op : Op) → op.Answer) (pid : Pid) : Pid :=
  Option.getD (ans (.processStatusField pid .tgid)) pid

def Op.continues : Op → Bool
  | .respond response => response.flags &&& USER_NOTIF_FLAG_CONTINUE != 0
  | _ => false

theorem Op.Observes.silent {op : Op} (h : op.Observes) : op.continues = false := by
  cases op <;> first | rfl | exact absurd h id

/-- Permission for the kernel to execute the call itself. -/
def isContinue (e : Event Op.Answer) : Bool := e.op.continues

/-- An error response was sent. -/
def Refused (tr : Trace) : Prop := ∃ response r, ⟨.respond response, r⟩ ∈ tr ∧ response.error ≠ 0

/-- The kernel was allowed to go on. -/
def Continued (tr : Trace) : Prop := ∃ e ∈ tr, isContinue e = true

/-- What a host call made for a notification may name: a path operand; the directory
tracked for a descriptor operand, which is only canonicalised; and when `open` takes a
snapshot, an entry of the opened directory. -/
inductive Names (state : State) (notif : SeccompNotif) (ans : (op : Op) → op.Answer) :
    Op → OsStr → Prop
  | operand {operand v op} : operand ∈ pathOperands notif → Resolves state notif ans operand v →
      Names state notif ans op (state.view.resolveRead v.toPath)
  | descriptor {operand directory} : operand ∈ pathOperands notif →
      state.directories (keyOf ans notif.pid, operand.1) = some directory →
      Names state notif ans (.canonicalize (state.view.resolveRead directory.path.toPath))
        (state.view.resolveRead directory.path.toPath)
  | entry {operand v name} : notif.data.nr ∈ [.sysOpen, .sysOpenat, .sysOpenat2] →
      operand ∈ pathOperands notif → Resolves state notif ans operand v →
      Names state notif ans
        (.symlinkMetadata ((state.view.resolveRead v.toPath).join (relative [.normal name])))
        ((state.view.resolveRead v.toPath).join (relative [.normal name]))

/-- All of `bytes` have been written at an address of the tracee. -/
def Overwrote (tr : Trace) (pid : Pid) (address : UInt64) (bytes : Bytes) : Prop :=
  (∃ n : Written bytes, n.val = bytes.length ∧
    ⟨.processVmWritev pid address bytes, .ok n⟩ ∈ tr) ∨
  ∃ n : Written bytes, n.val = bytes.length ∧ ⟨.writeProcMem pid bytes address, .ok n⟩ ∈ tr

/-- The pathname has been replaced by the alias of a descriptor opened at `real`. -/
def AliasWritten (notif : SeccompNotif) (address : UInt64) (real : OsStr) (tr : Trace) : Prop :=
  ∃ flags mode sourceFd request childFd,
    ⟨.openFile real flags mode, .ok sourceFd⟩ ∈ tr ∧ ⟨.addFd request, .ok childFd⟩ ∈ tr ∧
    request.id = notif.id ∧ request.srcfd = sourceFd.toUInt32 ∧
    Overwrote tr notif.pid address ((executableAlias childFd).bytes ++ [0])

/-- When the kernel may go on although an operand is projected. -/
inductive MayContinue (state : State) (notif : SeccompNotif) (ans : (op : Op) → op.Answer)
    (before : Trace) : Prop
  | exec {operand v} : notif.data.nr ∈ [.sysExecve, .sysExecveat] →
      operand ∈ pathOperands notif → Resolves state notif ans operand v →
      AliasWritten notif operand.2 (state.view.resolveRead v.toPath) before →
      MayContinue state notif ans before
  | chdir {operand v} : notif.data.nr = .sysChdir → operand ∈ pathOperands notif →
      Resolves state notif ans operand v →
      (state.view.resolveRead v.toPath).components = v.toPath.components →
      MayContinue state notif ans before

-- ---------------------------------------------------------------------------
-- Quiet and routed programs
-- ---------------------------------------------------------------------------

abbrev Naming := Op → OsStr → Prop

/-- A call that is no permission to continue and names only what it may. -/
def Plain (names : Naming) (op : Op) : Prop :=
  op.continues = false ∧ ∀ path ∈ op.hostPaths, names op path

def Quiet (E : Env Op.Answer) (names : Naming) (p : Sup α) : Prop :=
  Keeps E (fun e => isContinue e = false ∧ ∀ path ∈ e.op.hostPaths, names e.op path) p

/-- Names only what it may, and continues only after a trace that satisfies `G`. -/
structure Routed (E : Env Op.Answer) (names : Naming) (G : Trace → Prop) (p : Sup α) : Prop where
  paths : ∀ tr out, Exec E p tr out → ∀ e ∈ tr, ∀ path ∈ e.op.hostPaths, names e.op path
  continues : ∀ tr out, Exec E p tr out → ∀ before e after, tr = before ++ e :: after →
    isContinue e = true → G before

variable {E : Env Op.Answer} {names : Naming} {G : Trace → Prop}

theorem Quiet.of_calls {p : Sup α} (h : p.Calls (Plain names)) : Quiet E names p :=
  Keeps.of_calls h fun _ he => he

theorem Quiet.bind {p : Sup α} {f : α → Sup β} (hp : Quiet E names p)
    (hf : ∀ a, Returns E p a → Quiet E names (f a)) : Quiet E names (p >>= f) :=
  Keeps.bind hp hf

theorem Quiet.routed {p : Sup α} (h : Quiet E names p) : Routed E names G p where
  paths tr out hx e he := (h tr out hx e he).2
  continues tr out hx before e after htr he := by
    have hquiet := (h tr out hx e (by simp [htr])).1
    rw [he] at hquiet
    cases hquiet

theorem Routed.bind {p : Sup α} {f : α → Sup β} (hp : Quiet E names p)
    (hf : ∀ a first, Exec E p first (some a) →
      Routed E names (fun before => G (first ++ before)) (f a)) : Routed E names G (p >>= f) where
  paths tr out hx e he := by
    rcases exec_bind.mp hx with ⟨a, first, rest, hfirst, hrest, rfl⟩ | ⟨hnone, -⟩
    · rcases List.mem_append.mp he with he | he
      · exact (hp _ _ hfirst e he).2
      · exact (hf a first hfirst).paths _ _ hrest e he
    · exact (hp _ _ hnone e he).2
  continues tr out hx before e after htr he := by
    rcases exec_bind.mp hx with ⟨a, first, rest, hfirst, hrest, rfl⟩ | ⟨hnone, -⟩
    · rcases List.append_eq_append_iff.mp htr with ⟨more, rfl, hrest'⟩ | ⟨more, hfirst', hmore⟩
      · exact (hf a first hfirst).continues _ _ hrest _ _ _ hrest' he
      · -- the permission would be among the quiet part's events
        cases more with
        | nil =>
          obtain rfl : before = first := by simpa using hfirst'.symm
          have h := (hf a before hfirst).continues rest out hrest [] e after
            (by simpa using hmore.symm)
          simpa using h he
        | cons e' more =>
          obtain ⟨rfl, -⟩ := List.cons.inj hmore
          have hquiet := (hp _ _ hfirst e (by simp [hfirst'])).1
          rw [he] at hquiet
          cases hquiet
    · have hquiet := (hp _ _ hnone e (by simp [htr])).1
      rw [he] at hquiet
      cases hquiet

theorem Routed.mono {p : Sup α} {G' : Trace → Prop} (h : Routed E names G p)
    (hG : ∀ before, G before → G' before) : Routed E names G' p where
  paths := h.paths
  continues tr out hx before e after htr he := hG _ (h.continues tr out hx before e after htr he)

-- ---------------------------------------------------------------------------
-- Calls of the parts
-- ---------------------------------------------------------------------------

/-- `S` has every call that only looks at memory and `/proc`. -/
structure Reads (S : Op → Prop) : Prop where
  memory : ∀ pid address length, S (.processVmReadv pid address length)
  status : ∀ pid field, S (.processStatusField pid field)
  fdLink : ∀ pid fd, S (.readFdLink pid fd)
  cwdLink : ∀ pid, S (.readCwdLink pid)

section
variable {S : Op → Prop} {pid : Pid}
  (hmemory : ∀ address length, S (.processVmReadv pid address length))
include hmemory

theorem calls_readMemory (address : UInt64) (length : Nat) :
    (readMemory pid address length).Calls S :=
  Prog.Calls.bind (.perform (hmemory _ _)) fun r => by cases r <;> trivial

theorem calls_readPathLoop (address : UInt64) (turns : Nat) (bytes : OsStr) :
    (readPathLoop pid address turns bytes).Calls S := by
  induction turns generalizing bytes with
  | zero => trivial
  | succ turns ih =>
    unfold readPathLoop
    split
    · split
      · trivial
      · refine Prog.Calls.bind (calls_readMemory hmemory _ _) fun r => ?_
        cases r with
        | error e => trivial
        | ok chunk =>
          dsimp only
          split
          · trivial
          · exact ih _
    · trivial

theorem calls_readPath (address : UInt64) : (readPath pid address).Calls S := by
  unfold readPath
  split
  · trivial
  · exact calls_readPathLoop hmemory _ _ _

theorem calls_readValue (address : UInt64) (size : Nat) : (readValue pid address size).Calls S :=
  Prog.Calls.bind (calls_readMemory hmemory _ _) fun r => by cases r <;> trivial
end

theorem calls_openArguments {S : Op → Prop} {notif : SeccompNotif}
    (hmemory : ∀ address length, S (.processVmReadv notif.pid address length)) :
    (openArguments notif).Calls S := by
  unfold openArguments
  split
  · trivial
  · split
    · trivial
    · exact Prog.Calls.bind (calls_readValue hmemory _ _) fun r => by cases r <;> trivial

section
variable {S : Op → Prop} (hS : Reads S)
include hS

theorem calls_processKey (pid : Pid) : (processKey pid).Calls S :=
  Prog.Calls.bind (.perform (hS.status _ _)) fun _ => trivial

theorem calls_virtualCwdLoop (state : State) (turns : Nat) (current : Pid) :
    (virtualCwdLoop state turns current).Calls S := by
  induction turns generalizing current with
  | zero => trivial
  | succ turns ih =>
    unfold virtualCwdLoop
    split
    · trivial
    · refine Prog.Calls.bind (.perform (hS.status _ _)) fun r => ?_
      cases r with
      | none => trivial
      | some parent =>
        dsimp only
        split
        · trivial
        · exact Prog.Calls.bind (calls_processKey hS _) ih

theorem calls_virtualCwd (state : State) (pid : Pid) : (virtualCwd state pid).Calls S :=
  Prog.Calls.bind (calls_processKey hS pid) fun _ => calls_virtualCwdLoop hS state _ _

theorem calls_processCwd (pid : Pid) (state : State) : (processCwd pid state).Calls S :=
  Prog.Calls.bind (.perform (hS.cwdLink pid)) fun _ => trivial

theorem calls_isOwnProcCwd (path : AbsPath) (pid : Pid) : (isOwnProcCwd path pid).Calls S := by
  unfold isOwnProcCwd
  split
  · trivial
  · split
    · trivial
    · split
      · split
        · trivial
        · exact Prog.Calls.bind (calls_processKey hS pid) fun _ => trivial
      · trivial

theorem calls_directoryFdMatches {state : State} {pid : Pid} {fd : Fd} {directory : OpenDirectory}
    (h : S (.canonicalize (state.view.resolveRead directory.path.toPath))) :
    (directoryFdMatches state pid fd directory).Calls S := by
  refine Prog.Calls.bind (.perform (hS.fdLink _ _)) fun r => ?_
  cases r with
  | error e => trivial
  | ok actual => exact Prog.Calls.bind (.perform h) fun r => by cases r <;> trivial

theorem calls_trackedDirectory {state : State} {pid : Pid} {fd : Fd}
    (h : ∀ path, S (.canonicalize path)) : (trackedDirectory state pid fd).Calls S := by
  refine Prog.Calls.bind (calls_processKey hS pid) fun key => ?_
  split
  · trivial
  · refine Prog.Calls.bind (calls_directoryFdMatches hS (h _)) fun valid => ?_
    cases valid <;> trivial

theorem calls_resolvePath {state : State} {pid : Pid} {dirfd : Fd} {path : OsStr}
    (h : ∀ path, S (.canonicalize path)) : (resolvePath state pid dirfd path).Calls S := by
  unfold resolvePath
  split
  · trivial
  · split
    · trivial
    · split
      · refine Prog.Calls.bind (calls_virtualCwd hS state pid) fun r => ?_
        cases r with
        | none => exact Prog.Calls.bind (calls_processCwd hS pid state) fun _ => trivial
        | some cwd => trivial
      · refine Prog.Calls.bind (calls_trackedDirectory hS h) fun r => ?_
        cases r with
        | none => exact Prog.Calls.bind (.perform (hS.fdLink _ _)) fun r => by cases r <;> trivial
        | some directory => trivial

theorem calls_readAndResolve {state : State} {notif : SeccompNotif} {dirfd : Fd} {address : UInt64}
    (h : ∀ path, S (.canonicalize path)) : (readAndResolve state notif dirfd address).Calls S := by
  refine Prog.Calls.bind (calls_readPath (hS.memory _) _) fun r => ?_
  cases r with
  | error e => trivial
  | ok path => exact calls_resolvePath hS h

end

section
variable {S : Op → Prop} {state : State} {notif : SeccompNotif} {v : AbsPath}
  (hread : S (.readDir (state.view.resolveRead v.toPath)))
  (hentry : ∀ name, S (.symlinkMetadata
    ((state.view.resolveRead v.toPath).join (relative [.normal name]))))
include hread hentry

theorem calls_snapshot : (state.view.listDir v.toPath).Calls S := by
  have hentries (entries : List (IoResult Name)) :
      (listEntries (state.view.resolveRead v.toPath) entries).Calls S := by
    induction entries with
    | nil => trivial
    | cons entry entries ih =>
      cases entry with
      | error e => trivial
      | ok name =>
        refine Prog.Calls.bind (.perform (hentry name)) fun r => ?_
        cases r with
        | error e => trivial
        | ok metadata => exact Prog.Calls.bind ih fun r => by cases r <;> trivial
  refine Prog.Calls.bind (.perform hread) fun r => ?_
  cases r with
  | error e => trivial
  | ok entries => exact hentries entries

theorem calls_tracking (hstatus : ∀ pid field, S (.processStatusField pid field))
    (hmetadata : S (.metadata (state.view.resolveRead v.toPath))) (flags : Int32) (childFd : Fd) :
    (trackOpened state notif flags v (state.view.resolveRead v.toPath) childFd).Calls S := by
  have htrack : (trackDirectory state notif v childFd).Calls S := by
    refine Prog.Calls.bind (calls_snapshot hread hentry) fun r => ?_
    cases r with
    | error e => trivial
    | ok entries =>
      exact Prog.Calls.bind (Prog.Calls.bind (.perform (hstatus _ _)) fun _ => trivial)
        fun _ => trivial
  have hrest (isDirectory : Bool) : (if isDirectory then trackDirectory state notif v childFd
      else return (state, .ok ())).Calls S := by
    cases isDirectory with
    | true => exact htrack
    | false => trivial
  unfold trackOpened
  split
  · exact hrest true
  · refine Prog.Calls.bind (.perform hmetadata) fun r => ?_
    cases r with
    | error e => exact hrest false
    | ok metadata => exact hrest metadata.isDir

end

theorem reads_observes : Reads Op.Observes := ⟨by simp [Op.Observes], by simp [Op.Observes],
  by simp [Op.Observes], by simp [Op.Observes]⟩

theorem reads_plain : Reads (Plain names) where
  memory _ _ _ := ⟨rfl, by simp [Op.hostPaths]⟩
  status _ _ := ⟨rfl, by simp [Op.hostPaths]⟩
  fdLink _ _ := ⟨rfl, by simp [Op.hostPaths]⟩
  cwdLink _ := ⟨rfl, by simp [Op.hostPaths]⟩

section
variable {p : Sup (IoResult Unit)} {id : UInt64}

theorem calls_respond {response : SeccompNotifResp} (h : response.flags = 0) :
    (respond response).Calls (Plain names) :=
  Prog.Calls.bind (.perform ⟨by simp [Op.continues, h], by simp [Op.hostPaths]⟩) fun _ => trivial

theorem calls_value (value : Int) : (respondValue id value).Calls (Plain names) := calls_respond rfl
theorem calls_error (e : Errno) : (respondError id e).Calls (Plain names) := calls_respond rfl

theorem calls_result (r : Except Errno Nat) : (respondResult id r).Calls (Plain names) := by
  cases r with
  | error e => exact calls_error e
  | ok result => exact calls_value _

theorem calls_orRespond {x : Sup (IoResult α)} {next : α → Sup (IoResult Unit)}
    (hx : x.Calls (Plain names)) (hnext : ∀ a, (next a).Calls (Plain names)) :
    (orRespond id x next).Calls (Plain names) := by
  refine Prog.Calls.bind hx fun r => ?_
  cases r with
  | error e => exact calls_error _
  | ok a => exact hnext a

theorem calls_answered {state : State} (h : p.Calls (Plain names)) :
    (answered state p).Calls (Plain names) := Prog.Calls.bind h fun _ => trivial

theorem calls_withCString {path : OsStr} {next : OsStr → Sup (IoResult Unit)}
    (h : (next path).Calls (Plain names)) : (withCString id path next).Calls (Plain names) := by
  simpa [withCString] using h

theorem calls_writeMemory (pid : Pid) (address : UInt64) (bytes : Bytes) :
    (writeMemory pid address bytes).Calls (Plain names) := by
  refine Prog.Calls.bind (.perform ⟨rfl, by simp [Op.hostPaths]⟩) fun r => ?_
  cases r with
  | error e => trivial
  | ok written =>
    dsimp only
    split <;> trivial

theorem calls_rewritePath (pid : Pid) (address : UInt64) (original replacement : OsStr) :
    (rewritePath pid address original replacement).Calls (Plain names) := by
  unfold rewritePath
  dsimp only
  split
  · trivial
  · refine Prog.Calls.bind (calls_writeMemory _ _ _) fun r => ?_
    cases r with
    | ok _ => trivial
    | error e =>
      refine Prog.Calls.bind (.perform ⟨rfl, by simp [Op.hostPaths]⟩) fun r => ?_
      cases r with
      | error e => trivial
      | ok _ =>
        refine Prog.Calls.bind (.perform ⟨rfl, by simp [Op.hostPaths]⟩) fun r => ?_
        cases r with
        | error e => trivial
        | ok written =>
          dsimp only
          split <;> trivial

end

-- ---------------------------------------------------------------------------
-- Permissions
-- ---------------------------------------------------------------------------

theorem Routed.orRespond {id : UInt64}
    {x : Sup (IoResult α)} {next : α → Sup (IoResult Unit)} (hx : Quiet E names x)
    (hnext : ∀ a first, Exec E x first (some (.ok a)) →
      Routed E names (fun before => G (first ++ before)) (next a)) :
    Routed E names G (orRespond id x next) := by
  refine Routed.bind hx fun r first hfirst => ?_
  cases r with
  | error e => exact (Quiet.of_calls (calls_error _)).routed
  | ok a => exact hnext a first hfirst

theorem exec_orRespond {id : UInt64} {x : Sup (IoResult α)} {next : α → Sup (IoResult Unit)}
    {tr : Trace} {out : Option (IoResult Unit)} (hx : Exec E (orRespond id x next) tr out) :
    (∃ a first rest, Exec E x first (some (.ok a)) ∧ Exec E (next a) rest out ∧
      tr = first ++ rest) ∨
    (∃ e first rest, Exec E x first (some (.error e)) ∧
      Exec E (respondError id (errno e)) rest out ∧ tr = first ++ rest) ∨
    (Exec E x tr none ∧ out = none) := by
  rcases exec_bind.mp hx with ⟨r, first, rest, hfirst, hrest, rfl⟩ | hnone
  · cases r with
    | ok a => exact .inl ⟨a, first, rest, hfirst, hrest, rfl⟩
    | error e => exact .inr (.inl ⟨e, first, rest, hfirst, hrest, rfl⟩)
  · exact .inr (.inr hnone)

theorem exec_openFile {path : OsStr} {flags : Int32} {mode : UInt32} {tr : Trace}
    {out : Option (IoResult Fd)}
    (hx : Exec E (do return osResult (← ask (.openFile path flags mode))) tr out) :
    ∃ r, tr = [⟨.openFile path flags mode, r⟩] ∧ out = some (osResult r) := by
  obtain ⟨r, rest, -, hrest, rfl⟩ := exec_perform_bind.mp hx
  obtain ⟨rfl, rfl⟩ := exec_ret.mp hrest
  exact ⟨r, rfl, rfl⟩

theorem exec_openExecutable {path : OsStr} {tr : Trace} {out : Option (IoResult Fd)}
    (hx : Exec E (openExecutable path) tr out) :
    ∃ r, tr = [⟨.openFile path (O_RDONLY ||| O_CLOEXEC) 0, r⟩] ∧ out = some (osResult r) := by
  rw [openExecutable, cString_eq] at hx
  exact exec_openFile hx

theorem exec_addFd {request : SeccompNotifAddfd} {tr : Trace} {out : Option (IoResult Fd)}
    (hx : Exec E (addFd request) tr out) :
    ∃ r, E (.addFd request) r ∧ tr = [⟨.addFd request, r⟩] ∧ out = some (osResult r) := by
  obtain ⟨r, rest, hr, hrest, rfl⟩ := exec_perform_bind.mp hx
  obtain ⟨rfl, rfl⟩ := exec_ret.mp hrest
  exact ⟨r, hr, rfl, rfl⟩

/-- One response and nothing else. -/
theorem exec_respond_eq {response : SeccompNotifResp} {tr : Trace}
    {out : Option (IoResult Unit)} (hx : Exec E (respond response) tr out) :
    ∃ a, tr = [⟨.respond response, a⟩] ∧ out = some (osResult a) := by
  obtain ⟨a, rest, -, hrest, rfl⟩ := exec_perform_bind.mp hx
  obtain ⟨rfl, rfl⟩ := exec_ret.mp hrest
  exact ⟨a, rfl, rfl⟩

theorem exec_answered {s : State} {reply : Sup (IoResult Unit)} {tr : Trace}
    {out : Option (State × IoResult Unit)} : Exec E (answered s reply) tr out ↔
      ∃ out', Exec E reply tr out' ∧ out = out'.map fun r => (s, r) := by
  constructor
  · intro hx
    rcases exec_bind.mp hx with ⟨r, first, rest, hfirst, hrest, rfl⟩ | ⟨hnone, rfl⟩
    · obtain ⟨rfl, rfl⟩ := exec_ret.mp hrest
      rw [List.append_nil]
      exact ⟨some r, hfirst, rfl⟩
    · exact ⟨none, hnone, rfl⟩
  · rintro ⟨out', hx, rfl⟩
    cases out' with
    | none => exact exec_bind.mpr (.inr ⟨hx, rfl⟩)
    | some r =>
      exact exec_bind.mpr (.inl ⟨r, tr, [], hx, .ret, (List.append_nil tr).symm⟩)

theorem Routed.answered {s : State}
    {reply : Sup (IoResult Unit)} (h : Routed E names G reply) :
    Routed E names G (answered s reply) := by
  constructor
  · intro tr out hx
    obtain ⟨out', hx', -⟩ := exec_answered.mp hx
    exact h.paths tr out' hx'
  · intro tr out hx
    obtain ⟨out', hx', -⟩ := exec_answered.mp hx
    exact h.continues tr out' hx'

theorem routed_continue {id : UInt64}
    (h : G []) : Routed E names G (respondContinue id) := by
  have htrace (tr : Trace) (out : Option (IoResult Unit))
      (hx : Exec E (respondContinue id) tr out) :
      ∃ r, tr = [⟨.respond ⟨id, 0, 0, USER_NOTIF_FLAG_CONTINUE⟩, r⟩] := by
    obtain ⟨r, rest, -, hrest, rfl⟩ := exec_call.mp hx
    obtain ⟨rfl, -⟩ := exec_ret.mp hrest
    exact ⟨r, rfl⟩
  constructor
  · intro tr out hx e he path hpath
    obtain ⟨r, rfl⟩ := htrace tr out hx
    obtain rfl := List.mem_singleton.mp he
    cases hpath
  · intro tr out hx before e after htr _
    obtain ⟨r, rfl⟩ := htrace tr out hx
    cases before with
    | nil => exact h
    | cons e' before => simp at htr

theorem exec_writeMemory {pid : Pid} {address : UInt64} {bytes : Bytes}
    {tr : Trace} (h : Exec E (writeMemory pid address bytes) tr (some (.ok ()))) :
    Overwrote tr pid address bytes := by
  obtain ⟨r, rest, -, hrest, rfl⟩ := exec_perform_bind.mp h
  cases r with
  | error e => simp at hrest
  | ok written =>
    dsimp only at hrest
    split at hrest
    · simp at hrest
    · rename_i hall
      exact .inl ⟨written, by simpa using hall, by simp⟩

theorem exec_writeProcessMemory {pid : Pid} {address : UInt64} {bytes : Bytes}
    {tr : Trace} (h : Exec E (writeProcessMemory pid address bytes) tr (some (.ok ()))) :
    Overwrote tr pid address bytes := by
  obtain ⟨r, rest, -, hrest, rfl⟩ := exec_perform_bind.mp h
  cases r with
  | error e => simp at hrest
  | ok _ =>
    obtain ⟨r', rest', -, hwrite, rfl⟩ := exec_perform_bind.mp hrest
    cases r' with
    | error e => simp at hwrite
    | ok written =>
      dsimp only at hwrite
      split at hwrite
      · rename_i hall
        exact .inr ⟨written, hall, by simp⟩
      · simp at hwrite

theorem Overwrote.mono {tr tr' : Trace} {pid : Pid} {address : UInt64} {bytes : Bytes}
    (h : Overwrote tr pid address bytes) (hsub : ∀ e ∈ tr, e ∈ tr') :
    Overwrote tr' pid address bytes := by
  rcases h with ⟨n, hn, hmem⟩ | ⟨n, hn, hmem⟩
  · exact .inl ⟨n, hn, hsub _ hmem⟩
  · exact .inr ⟨n, hn, hsub _ hmem⟩

/-- Success of `rewrite_path` means that one of the two ways wrote all of it. -/
theorem exec_rewritePath {pid : Pid} {address : UInt64}
    {original replacement : OsStr} {tr : Trace}
    (h : Exec E (rewritePath pid address original replacement) tr (some (.ok ()))) :
    Overwrote tr pid address (replacement.bytes ++ [0]) := by
  unfold rewritePath at h
  dsimp only at h
  split at h
  · simp at h
  · rcases exec_bind.mp h with ⟨r, first, rest, hfirst, hrest, rfl⟩ | ⟨-, hnone⟩
    · cases r with
      | ok _ => exact (exec_writeMemory hfirst).mono (by simp_all)
      | error e => exact (exec_writeProcessMemory hrest).mono (by simp_all)
    · cases hnone

end PathShim
