import PathShim.Linux.Memory
import PathShim.Linux.Routing

/-!
# No fall-through

Every handler with a path operand, on every branch, when one of its operands
resolves to a projected guest path.
-/

namespace PathShim

open UnixPath Effects

section
variable {state : State} {notif : SeccompNotif} {ans : (op : Op) → op.Answer}

-- ---------------------------------------------------------------------------
-- Resolving an operand
-- ---------------------------------------------------------------------------

/-- A program that only observes ends in one way. -/
theorem eval_of_returns {p : Sup α} {a : α} (hcalls : p.Calls Op.Observes)
    (h : Returns (Observed ans) p a) : p.eval ans = some a :=
  h.eval hcalls fun _ _ ho hr => hr ho

theorem calls_operand (dirfd : Fd) (address : UInt64) :
    (readAndResolve state notif dirfd address).Calls Op.Observes :=
  calls_readAndResolve reads_observes fun _ => trivial

/-- Under fixed observations an operand resolves in one way. -/
theorem resolves_of_returns {operand : Fd × UInt64} {v : AbsPath}
    (h : Returns (Observed ans) (readAndResolve state notif operand.1 operand.2) (.ok v)) :
    Resolves state notif ans operand v := eval_of_returns (calls_operand _ _) h

theorem returns_of_resolves {operand : Fd × UInt64} {v : AbsPath} {r : IoResult AbsPath}
    (hv : Resolves state notif ans operand v)
    (h : Returns (Observed ans) (readAndResolve state notif operand.1 operand.2) r) :
    r = .ok v := Option.some.inj ((eval_of_returns (calls_operand _ _) h).symm.trans hv)

theorem Resolves.unique {operand : Fd × UInt64} {v w : AbsPath}
    (hv : Resolves state notif ans operand v) (hw : Resolves state notif ans operand w) :
    v = w := by
  simpa using Option.some.inj (hv.symm.trans hw)

/-- A first part that only observes ends as its evaluation says, and the rest runs from there. -/
theorem exec_observing {E : Env Op.Answer} (hE : ∀ op r, op.Observes → E op r → r = ans op)
    {p : Sup α} {f : α → Sup β} {a : α} {tr : Trace} {out : Option β}
    (hcalls : p.Calls Op.Observes) (ha : p.eval ans = some a) (hx : Exec E (p >>= f) tr out) :
    ∃ looks rest, tr = looks ++ rest ∧ (∀ e ∈ looks, e.op.Observes) ∧ Exec E (f a) rest out := by
  have heval {tr' : Trace} {out' : Option α} (hx' : Exec E p tr' out') : out' = some a :=
    (hx'.eq_eval hcalls hE).2.trans ha
  rcases exec_bind.mp hx with ⟨b, looks, rest, hlooks, hrest, rfl⟩ | ⟨hnone, -⟩
  · obtain rfl := Option.some.inj (heval hlooks)
    exact ⟨looks, rest, rfl, hlooks.calls hcalls, hrest⟩
  · cases heval hnone

theorem exec_resolved {E : Env Op.Answer} (hE : ∀ op r, op.Observes → E op r → r = ans op)
    {operand : Fd × UInt64} {v : AbsPath} {f : IoResult AbsPath → Sup β} {tr : Trace}
    {out : Option β} (hv : Resolves state notif ans operand v)
    (hx : Exec E (readAndResolve state notif operand.1 operand.2 >>= f) tr out) :
    ∃ looks rest, tr = looks ++ rest ∧ (∀ e ∈ looks, e.op.Observes) ∧
      Exec E (f (.ok v)) rest out :=
  exec_observing hE (calls_operand operand.1 operand.2) hv hx

/-- A part that only observes runs to its value. -/
theorem exec_of_eval {E : Env Op.Answer} (hE : ∀ op, op.Observes → E op (ans op)) {p : Sup α}
    {a : α} (hcalls : p.Calls Op.Observes) (ha : p.eval ans = some a) :
    ∃ tr, Exec E p tr (some a) := ⟨p.trace ans, ha ▸ hcalls.exec_eval hE⟩

theorem observed_ans (op : Op) (_ : op.Observes) : Observed ans op (ans op) := fun _ => rfl

theorem observed_eq (op : Op) (r : op.Answer) (hop : op.Observes) (hr : Observed ans op r) :
    r = ans op := hr hop

theorem returns_processKey {pid key : Pid} (h : Returns (Observed ans) (processKey pid) key) :
    key = keyOf ans pid := by
  obtain ⟨tr, hx⟩ := h
  obtain ⟨r, rest, hr, hrest, -⟩ := exec_call.mp hx
  obtain rfl := hr trivial
  obtain ⟨-, hkey⟩ := exec_ret.mp hrest
  exact Option.some.inj hkey

section
variable {names : Naming} {dirfd : Fd}
  (hnames : ∀ directory, state.directories (keyOf ans notif.pid, dirfd) = some directory →
    names (.canonicalize (state.view.resolveRead directory.path.toPath))
      (state.view.resolveRead directory.path.toPath))
include hnames

/-- The one host path that resolving an operand names is that of the directory tracked for its
descriptor. -/
theorem quiet_trackedDirectory : Quiet (Observed ans) names
    (trackedDirectory state notif.pid dirfd) := by
  refine Quiet.bind (Quiet.of_calls (calls_processKey reads_plain _)) fun key hkey => ?_
  obtain rfl := returns_processKey hkey
  split
  · exact Quiet.of_calls trivial
  · rename_i directory hdirectory
    refine Quiet.bind (Quiet.of_calls (calls_directoryFdMatches reads_plain ?_)) fun valid _ => ?_
    · refine ⟨rfl, fun path hpath => ?_⟩
      obtain rfl := List.mem_singleton.mp hpath
      exact hnames directory hdirectory
    · cases valid <;> exact Quiet.of_calls trivial

theorem quiet_resolvePath (path : OsStr) : Quiet (Observed ans) names
    (resolvePath state notif.pid dirfd path) := by
  unfold resolvePath
  split
  · exact Quiet.of_calls trivial
  · split
    · exact Quiet.of_calls trivial
    · split
      · refine Quiet.of_calls (Prog.Calls.bind (calls_virtualCwd reads_plain _ _) fun r => ?_)
        cases r with
        | none => exact Prog.Calls.bind (calls_processCwd reads_plain _ _) fun _ => trivial
        | some cwd => trivial
      · refine Quiet.bind (quiet_trackedDirectory hnames) fun r _ => ?_
        cases r with
        | none =>
          exact Quiet.of_calls (Prog.Calls.bind (.perform (reads_plain.fdLink _ _))
            fun r => by cases r <;> trivial)
        | some directory => exact Quiet.of_calls trivial

theorem quiet_readAndResolve (address : UInt64) : Quiet (Observed ans) names
    (readAndResolve state notif dirfd address) := by
  refine Quiet.bind (Quiet.of_calls (calls_readPath (reads_plain.memory _) _)) fun r _ => ?_
  cases r with
  | error e => exact Quiet.of_calls trivial
  | ok path => exact quiet_resolvePath hnames path

end

variable {operand : Fd × UInt64} (hmem : operand ∈ pathOperands notif)
include hmem

theorem quiet_operand : Quiet (Observed ans) (Names state notif ans)
    (readAndResolve state notif operand.1 operand.2) :=
  quiet_readAndResolve (fun _ => Names.descriptor hmem) _

variable {v : AbsPath} (hv : Resolves state notif ans operand v)
include hv

/-- A call on nothing but the host path of the operand. -/
theorem plain_operand {op : Op} (hc : op.continues = false)
    (h : op.hostPaths = [state.view.resolveRead v.toPath]) : Plain (Names state notif ans) op := by
  refine ⟨hc, fun path hpath => ?_⟩
  rw [h, List.mem_singleton] at hpath
  rw [hpath]
  exact Names.operand hmem hv

variable (hprojects : state.view.projects v.toPath = true)
include hprojects

theorem routed_onProjected {G : Trace → Prop} {next : AbsPath → Sup (IoResult Unit)}
    (hnext : (next v).Calls (Plain (Names state notif ans))) :
    Routed (Observed ans) (Names state notif ans) G
      (onProjected state notif operand.1 operand.2 next) := by
  refine Routed.bind (quiet_operand hmem) fun r first hfirst => ?_
  obtain rfl := returns_of_resolves hv ⟨first, hfirst⟩
  simp only [hprojects, if_true]
  exact (Quiet.of_calls hnext).routed

/-- The pathname of a projected operand is not empty, so it is never skipped for that. -/
theorem routed_onProjectedPath {G : Trace → Prop} {skip : OsStr → Bool}
    {next : OsStr → AbsPath → Sup (IoResult Unit)}
    (hskip : ∀ raw, raw.bytes ≠ [] → skip raw = false)
    (hnext : ∀ raw first, Routed (Observed ans) (Names state notif ans)
      (fun before => G (first ++ before)) (next raw v)) :
    Routed (Observed ans) (Names state notif ans) G
      (onProjectedPath state notif operand.1 operand.2 skip next) := by
  refine Routed.bind (Quiet.of_calls (calls_readPath (reads_plain.memory _) _))
    fun r first hfirst => ?_
  cases r with
  | error e => exact (Quiet.of_calls (calls_error _)).routed
  | ok raw =>
    have hresolve (r : IoResult AbsPath) (rest : Trace)
        (hrest : Exec (Observed ans) (resolvePath state notif.pid operand.1 raw) rest (some r)) :
        r = .ok v := by
      refine returns_of_resolves hv ⟨first ++ rest, exec_bind.mpr (.inl ⟨.ok raw, first, rest, ?_⟩)⟩
      exact ⟨hfirst, hrest, rfl⟩
    have hraw : raw.bytes ≠ [] := by
      intro hempty
      have h := hresolve (.error (.os ENOENT)) [] (by simp [resolvePath, hempty])
      cases h
    simp only [hskip raw hraw]
    refine Routed.bind (quiet_resolvePath (fun _ => Names.descriptor hmem) raw)
      fun r second hsecond => ?_
    obtain rfl := hresolve r second hsecond
    simp only [hprojects, if_true]
    exact (hnext raw (first ++ second)).mono fun before h => by simpa [List.append_assoc] using h

-- ---------------------------------------------------------------------------
-- In place of the kernel
-- ---------------------------------------------------------------------------

omit hprojects

theorem calls_host {op : Op} {next : op.Answer → Sup α} (hc : op.continues = false)
    (h : op.hostPaths = [state.view.resolveRead v.toPath])
    (hnext : ∀ r, (next r).Calls (Plain (Names state notif ans))) :
    (ask op >>= next).Calls (Plain (Names state notif ans)) :=
  Prog.Calls.bind (.perform (plain_operand hmem hv hc h)) hnext

theorem calls_mkdir (mode : UInt32) :
    (state.view.mkdir v.toPath mode).Calls (Plain (Names state notif ans)) :=
  Prog.Calls.perform (plain_operand hmem hv rfl rfl)

theorem calls_unlink (removeDir : Bool) :
    (state.view.unlink v.toPath removeDir).Calls (Plain (Names state notif ans)) := by
  unfold BindView.unlink
  dsimp only
  split <;> exact Prog.Calls.perform (plain_operand hmem hv rfl rfl)

theorem calls_symlink (target : OsStr) :
    (state.view.symlink target v.toPath).Calls (Plain (Names state notif ans)) :=
  Prog.Calls.perform (plain_operand hmem hv rfl rfl)

omit hmem hv in
theorem calls_mutate {call : OsStr → Sup (Except Errno Nat)}
    (h : (call (state.view.resolveRead v.toPath)).Calls (Plain (Names state notif ans))) :
    (mutate state notif v call).Calls (Plain (Names state notif ans)) :=
  calls_withCString (Prog.Calls.bind h calls_result)

omit hmem hv in
theorem calls_returnStruct (address : UInt64) (result : Except Errno Bytes) :
    (returnStruct notif address result).Calls (Plain (Names state notif ans)) := by
  cases result with
  | error e => exact calls_error e
  | ok bytes => exact calls_orRespond (calls_writeMemory _ _ _) fun _ => calls_value 0

omit hmem hv in
theorem calls_returnLink (buffer : UInt64) (size : Nat) (target : OsStr) :
    (returnLink notif buffer size target).Calls (Plain (Names state notif ans)) :=
  calls_orRespond (calls_writeMemory _ _ _) fun _ => calls_value _

theorem calls_trackOpened (hopen : notif.data.nr ∈ [.sysOpen, .sysOpenat, .sysOpenat2])
    (flags : Int32) (childFd : Fd) :
    (trackOpened state notif flags v (state.view.resolveRead v.toPath) childFd).Calls
      (Plain (Names state notif ans)) := by
  refine calls_tracking (plain_operand hmem hv rfl rfl) (fun name => ⟨rfl, fun path hpath => ?_⟩)
    reads_plain.status (plain_operand hmem hv rfl rfl) flags childFd
  obtain rfl := List.mem_singleton.mp hpath
  exact Names.entry hopen hmem hv

theorem calls_openProjected (hopen : notif.data.nr ∈ [.sysOpen, .sysOpenat, .sysOpenat2])
    (arguments : OpenArguments) :
    (openProjected state notif arguments v).Calls (Plain (Names state notif ans)) := by
  simp only [openProjected, cString_eq, orRespondIn]
  refine Prog.Calls.bind (calls_host hmem hv rfl rfl fun _ => trivial) fun r => ?_
  cases r with
  | error e => exact calls_answered (calls_error _)
  | ok sourceFd =>
    refine Prog.Calls.bind (Prog.Calls.bind (.perform ⟨rfl, by simp [Op.hostPaths]⟩)
      fun _ => trivial) fun r => ?_
    cases r with
    | error e => exact calls_answered (calls_error _)
    | ok childFd => exact calls_trackOpened hmem hv hopen _ _

-- ---------------------------------------------------------------------------
-- Handlers with a permission of their own
-- ---------------------------------------------------------------------------

theorem routed_execProjected (hexec : notif.data.nr ∈ [.sysExecve, .sysExecveat]) (flags : Int32)
    (raw : OsStr) (pre : Trace) :
    Routed (Observed ans) (Names state notif ans)
      (fun before => MayContinue state notif ans (pre ++ before))
      (execProjected state notif operand.2 flags raw v) := by
  unfold execProjected
  split
  · exact (Quiet.of_calls (calls_error _)).routed
  · have hopen : (openExecutable (state.view.resolveRead v.toPath)).Calls
        (Plain (Names state notif ans)) := by
      rw [openExecutable, cString_eq]
      exact calls_host hmem hv rfl rfl fun _ => trivial
    refine Routed.orRespond (Quiet.of_calls hopen) fun sourceFd opened hopened => ?_
    have hadd (request : SeccompNotifAddfd) :
        (addFd request).Calls (Plain (Names state notif ans)) :=
      Prog.Calls.bind (.perform ⟨rfl, by simp [Op.hostPaths]⟩) fun _ => trivial
    refine Routed.orRespond (Quiet.of_calls (hadd _)) fun childFd added hadded => ?_
    refine Routed.orRespond (Quiet.of_calls (calls_rewritePath _ _ _ _))
      fun _ written hwritten => ?_
    refine routed_continue (MayContinue.exec hexec hmem hv ?_)
    -- the trace so far holds the three successes
    obtain ⟨r, rfl, hr⟩ := exec_openExecutable hopened
    obtain rfl := osResult_ok (Option.some.inj hr).symm
    obtain ⟨r', -, rfl, hr'⟩ := exec_addFd hadded
    obtain rfl := osResult_ok (Option.some.inj hr').symm
    refine ⟨O_RDONLY ||| O_CLOEXEC, 0, sourceFd,
      ⟨notif.id, 0, sourceFd.toUInt32, 0, O_CLOEXEC.toUInt32⟩, childFd, ?_, ?_, rfl, rfl, ?_⟩
    · simp
    · simp
    · exact (exec_rewritePath hwritten).mono fun e he => by simp [he]

include hprojects

theorem routed_handleExec (hexec : notif.data.nr ∈ [.sysExecve, .sysExecveat]) :
    Routed (Observed ans) (Names state notif ans) (MayContinue state notif ans)
      (handleExec state notif) := by
  have hbody (flags : Int32) : Routed (Observed ans) (Names state notif ans)
      (MayContinue state notif ans) (onProjectedPath state notif operand.1 operand.2
        (fun rawPath => rawPath.bytes = []) (execProjected state notif operand.2 flags)) :=
    routed_onProjectedPath hmem hv hprojects (by simp)
      fun raw first => routed_execProjected hmem hv hexec flags raw first
  simp only [List.mem_cons, List.not_mem_nil, or_false] at hexec
  rcases hexec with hnr | hnr
  · obtain rfl : operand = (AT_FDCWD, notif.data.args 0) := by simpa [pathOperands, hnr] using hmem
    simpa [handleExec, hnr] using hbody 0
  · obtain rfl : operand = (asI32 (notif.data.args 0), notif.data.args 1) := by
      simpa [pathOperands, hnr] using hmem
    simpa [handleExec, hnr] using hbody (asI32 (notif.data.args 4))

omit hv hprojects in
theorem openArguments_operand {E : Env Op.Answer} {arguments : OpenArguments} {tr : Trace}
    (hopen : notif.data.nr ∈ [.sysOpen, .sysOpenat, .sysOpenat2])
    (hx : Exec E (openArguments notif) tr (some (.ok arguments))) :
    operand = (arguments.dirfd, arguments.pathAddress) := by
  simp only [List.mem_cons, List.not_mem_nil, or_false] at hopen
  rcases hopen with hnr | hnr | hnr <;>
    simp only [openArguments, hnr, if_true, reduceCtorEq, if_false] at hx <;>
    simp only [pathOperands, hnr, List.mem_singleton] at hmem
  · obtain ⟨-, h⟩ := exec_ret.mp hx
    cases h
    exact hmem
  · obtain ⟨-, h⟩ := exec_ret.mp hx
    cases h
    exact hmem
  · rcases exec_bind.mp hx with ⟨r, first, rest, -, hrest, -⟩ | ⟨-, hnone⟩
    · cases r with
      | error e => simp at hrest
      | ok how =>
        obtain ⟨-, h⟩ := exec_ret.mp hrest
        cases h
        exact hmem
    · cases hnone

theorem routed_handleOpen (hopen : notif.data.nr ∈ [.sysOpen, .sysOpenat, .sysOpenat2])
    {G : Trace → Prop} :
    Routed (Observed ans) (Names state notif ans) G (handleOpen state notif) := by
  refine Routed.bind (Quiet.of_calls (calls_openArguments (reads_plain.memory _)))
    fun r first hfirst => ?_
  cases r with
  | error e => exact (Quiet.of_calls (calls_answered (calls_error _))).routed
  | ok arguments =>
    obtain rfl := openArguments_operand hmem hopen hfirst
    refine Routed.bind (quiet_operand hmem) fun r second hsecond => ?_
    obtain rfl := returns_of_resolves hv ⟨second, hsecond⟩
    simp only [hprojects, if_true]
    exact (Quiet.of_calls (calls_openProjected hmem hv hopen _)).routed

theorem routed_handleChdir (hchdir : notif.data.nr = .sysChdir) :
    Routed (Observed ans) (Names state notif ans) (MayContinue state notif ans)
      (handleChdir state notif) := by
  obtain rfl : operand = (AT_FDCWD, notif.data.args 0) := by simpa [pathOperands, hchdir] using hmem
  simp only [handleChdir, hchdir, if_true]
  refine Routed.bind (quiet_operand hmem) fun r first hfirst => ?_
  obtain rfl := returns_of_resolves hv ⟨first, hfirst⟩
  simp only [chdirTo, hprojects, if_true]
  refine Routed.bind (Quiet.of_calls (.perform (plain_operand hmem hv rfl rfl)))
    fun r second _ => ?_
  cases r with
  | error e => exact (Quiet.of_calls (calls_answered (calls_error _))).routed
  | ok metadata =>
    dsimp only
    split
    · refine Routed.bind (Quiet.of_calls (calls_processKey reads_plain _)) fun key third _ => ?_
      refine Routed.answered ?_
      split
      · rename_i hsame
        exact routed_continue (MayContinue.chdir hchdir hmem hv (samePath_iff.mp hsame))
      · exact (Quiet.of_calls (calls_value 0)).routed
    · exact (Quiet.of_calls (calls_answered (calls_error _))).routed

omit hmem hv hprojects in
theorem calls_rename {first second : Fd × UInt64} {old new : AbsPath}
    (hfirst : first ∈ pathOperands notif) (hsecond : second ∈ pathOperands notif)
    (hold : Resolves state notif ans first old) (hnew : Resolves state notif ans second new) :
    (state.view.rename old.toPath new.toPath).Calls (Plain (Names state notif ans)) := by
  simp only [BindView.rename, normalizeVirtual_eq, AbsPath.normalize_toPath]
  split
  · rename_i i j hi hj
    split
    · trivial
    · simp only [BindView.resolve_selected hi, BindView.resolve_selected hj]
      refine Prog.Calls.perform ⟨rfl, fun path hpath => ?_⟩
      rcases List.mem_pair.mp hpath with rfl | rfl
      · exact Names.operand hfirst hold
      · exact Names.operand hsecond hnew
  · trivial

omit hmem hv hprojects in
theorem pathOperands_rename
    (hrename : notif.data.nr ∈ [.sysRename, .sysRenameat, .sysRenameat2]) :
    pathOperands notif = [((renameArguments notif).oldDirfd, (renameArguments notif).oldAddress),
      ((renameArguments notif).newDirfd, (renameArguments notif).newAddress)] := by
  simp only [List.mem_cons, List.not_mem_nil, or_false] at hrename
  rcases hrename with hnr | hnr | hnr <;> simp [pathOperands, renameArguments, hnr]

theorem routed_handleRename (hrename : notif.data.nr ∈ [.sysRename, .sysRenameat, .sysRenameat2])
    {G : Trace → Prop} :
    Routed (Observed ans) (Names state notif ans) G (handleRename state notif) := by
  have hoperands := pathOperands_rename hrename
  unfold handleRename
  generalize renameArguments notif = arguments at hoperands ⊢
  have hfirst : (arguments.oldDirfd, arguments.oldAddress) ∈ pathOperands notif := by
    simp [hoperands]
  have hsecond : (arguments.newDirfd, arguments.newAddress) ∈ pathOperands notif := by
    simp [hoperands]
  dsimp only
  split
  · exact (Quiet.of_calls (calls_error _)).routed
  · refine Routed.orRespond (quiet_operand hfirst) fun old tr htr => ?_
    have hold : Resolves state notif ans (arguments.oldDirfd, arguments.oldAddress) old :=
      resolves_of_returns ⟨tr, htr⟩
    refine Routed.orRespond (quiet_operand hsecond) fun new tr' htr' => ?_
    have hnew : Resolves state notif ans (arguments.newDirfd, arguments.newAddress) new :=
      resolves_of_returns ⟨tr', htr'⟩
    have heither :
        state.view.projects old.toPath = true ∨ state.view.projects new.toPath = true := by
      rw [hoperands] at hmem
      rcases List.mem_pair.mp hmem with rfl | rfl
      · exact .inl (hold.unique hv ▸ hprojects)
      · exact .inr (hnew.unique hv ▸ hprojects)
    split
    · rename_i hneither
      simp only [Bool.and_eq_true, Bool.not_eq_true'] at hneither
      rcases heither with h | h <;> simp [h] at hneither
    · split
      · exact (Quiet.of_calls (calls_error _)).routed
      · exact (Quiet.of_calls (calls_orRespond (calls_rename hfirst hsecond hold hnew)
          fun _ => calls_value 0)).routed

-- ---------------------------------------------------------------------------
-- The other handlers
-- ---------------------------------------------------------------------------

variable {G : Trace → Prop}

omit hmem hv hprojects in
theorem skipEmptyPath_eq {flags : Int32} {raw : OsStr} (h : raw.bytes ≠ []) :
    skipEmptyPath flags raw = false := by
  simp [skipEmptyPath, h]

theorem routed_handleStat (hnr : notif.data.nr = .sysNewfstatat) :
    Routed (Observed ans) (Names state notif ans) G (handleStat state notif) := by
  obtain rfl : operand = (asI32 (notif.data.args 0), notif.data.args 1) := by
    simpa [pathOperands, hnr] using hmem
  refine routed_onProjectedPath hmem hv hprojects (fun _ => skipEmptyPath_eq) fun raw first => ?_
  refine (Quiet.of_calls (calls_withCString ?_)).routed
  exact calls_host hmem hv rfl rfl (calls_returnStruct _)

theorem routed_handleStatx (hnr : notif.data.nr = .sysStatx) :
    Routed (Observed ans) (Names state notif ans) G (handleStatx state notif) := by
  obtain rfl : operand = (asI32 (notif.data.args 0), notif.data.args 1) := by
    simpa [pathOperands, hnr] using hmem
  refine routed_onProjectedPath hmem hv hprojects (fun _ => skipEmptyPath_eq) fun raw first => ?_
  refine (Quiet.of_calls (calls_withCString ?_)).routed
  exact calls_host hmem hv rfl rfl (calls_returnStruct _)

theorem routed_handleAccess
    (haccess : notif.data.nr ∈ [.sysAccess, .sysFaccessat, .sysFaccessat2]) :
    Routed (Observed ans) (Names state notif ans) G (handleAccess state notif) := by
  have hoperand := hmem
  simp only [List.mem_cons, List.not_mem_nil, or_false] at haccess
  rcases haccess with hnr | hnr | hnr <;>
    simp only [pathOperands, hnr, List.mem_singleton] at hoperand <;>
    subst hoperand <;>
    simp only [handleAccess, hnr, if_true, reduceCtorEq, if_false, cString_eq] <;>
    refine routed_onProjected hmem hv hprojects (calls_host hmem hv rfl rfl fun r => ?_) <;>
    cases r with
    | error e => exact calls_error e
    | ok _ => exact calls_value 0

theorem routed_handleMkdir (hmkdir : notif.data.nr ∈ [.sysMkdir, .sysMkdirat]) :
    Routed (Observed ans) (Names state notif ans) G (handleMkdir state notif) := by
  have hoperand := hmem
  simp only [List.mem_cons, List.not_mem_nil, or_false] at hmkdir
  rcases hmkdir with hnr | hnr <;>
    simp only [pathOperands, hnr, List.mem_singleton] at hoperand <;>
    subst hoperand <;>
    simp only [handleMkdir, hnr, if_true, reduceCtorEq, if_false] <;>
    exact routed_onProjected hmem hv hprojects
      (calls_orRespond (calls_mkdir hmem hv _) fun _ => calls_value 0)

theorem routed_handleUnlink (hunlink : notif.data.nr ∈ [.sysUnlink, .sysUnlinkat, .sysRmdir]) :
    Routed (Observed ans) (Names state notif ans) G (handleUnlink state notif) := by
  have hoperand := hmem
  simp only [List.mem_cons, List.not_mem_nil, or_false] at hunlink
  rcases hunlink with hnr | hnr | hnr <;>
    simp only [pathOperands, hnr, List.mem_singleton] at hoperand <;>
    subst hoperand <;>
    simp only [handleUnlink, hnr, if_true, reduceCtorEq, if_false] <;>
    exact routed_onProjected hmem hv hprojects
      (calls_orRespond (calls_unlink hmem hv _) fun _ => calls_value 0)

theorem routed_handleSymlink (hsymlink : notif.data.nr ∈ [.sysSymlink, .sysSymlinkat]) :
    Routed (Observed ans) (Names state notif ans) G (handleSymlink state notif) := by
  have hoperand := hmem
  refine Routed.orRespond (Quiet.of_calls (calls_readPath (reads_plain.memory _) _))
    fun target first _ => ?_
  simp only [List.mem_cons, List.not_mem_nil, or_false] at hsymlink
  rcases hsymlink with hnr | hnr <;>
    simp only [pathOperands, hnr, List.mem_singleton] at hoperand <;>
    subst hoperand <;>
    simp only [hnr, if_true, reduceCtorEq, if_false] <;>
    exact routed_onProjected hmem hv hprojects
      (calls_orRespond (calls_symlink hmem hv _) fun _ => calls_value 0)

omit hmem hv in
/-- The shortcut for the caller's own `/proc` link does not apply below a bind. -/
theorem not_ownProcCwd {E : Env Op.Answer} {pid : Pid} {tr : Trace} {own : Bool}
    (hx : Exec E (isOwnProcCwd v pid) tr (some own)) : own = false := by
  have hproc (rest : AbsPath) : v ≠ nameProc :: rest := by
    rintro rfl
    have hp := BindView.projects_iff.mp hprojects
    rw [AbsPath.normalize_toPath] at hp
    refine state.view.not_projected_of_isReserved (isReserved_iff.mpr (.inr (.inl ?_))) hp
    simp
  have hfalse : isOwnProcCwd v pid = return false := by
    unfold isOwnProcCwd
    rw [if_neg (by simp [hproc])]
    split
    · rfl
    · rw [if_neg (hproc _)]
  rw [hfalse] at hx
  exact Option.some.inj (exec_ret.mp hx).2

theorem routed_handleReadlink (hreadlink : notif.data.nr ∈ [.sysReadlink, .sysReadlinkat]) :
    Routed (Observed ans) (Names state notif ans) G (handleReadlink state notif) := by
  have hoperand := hmem
  simp only [List.mem_cons, List.not_mem_nil, or_false] at hreadlink
  rcases hreadlink with hnr | hnr <;>
    simp only [pathOperands, hnr, List.mem_singleton] at hoperand <;>
    subst hoperand <;>
    simp only [handleReadlink, hnr, if_true, reduceCtorEq, if_false]
  all_goals
    refine Routed.orRespond (quiet_operand hmem) fun path first hfirst => ?_
    obtain rfl := Except.ok.inj (returns_of_resolves hv ⟨first, hfirst⟩)
    refine Routed.bind (Quiet.of_calls (calls_isOwnProcCwd reads_plain _ _))
      fun own second hown => ?_
    obtain rfl := not_ownProcCwd hprojects hown
    simp only [Bool.false_eq_true, if_false, hprojects, if_true]
    exact (Quiet.of_calls (calls_orRespond (.perform (plain_operand hmem hv rfl rfl))
      (calls_returnLink _ _))).routed

theorem routed_handleTruncate (hnr : notif.data.nr = .sysTruncate) :
    Routed (Observed ans) (Names state notif ans) G (handleTruncate state notif) := by
  obtain rfl : operand = (AT_FDCWD, notif.data.args 0) := by simpa [pathOperands, hnr] using hmem
  exact routed_onProjected hmem hv hprojects
    (calls_mutate (.perform (plain_operand hmem hv rfl rfl)))

theorem routed_handleChmod (hchmod : notif.data.nr ∈ [.sysChmod, .sysFchmodat]) :
    Routed (Observed ans) (Names state notif ans) G (handleChmod state notif) := by
  have hoperand := hmem
  simp only [List.mem_cons, List.not_mem_nil, or_false] at hchmod
  rcases hchmod with hnr | hnr <;>
    simp only [pathOperands, hnr, List.mem_singleton] at hoperand <;>
    subst hoperand <;>
    simp only [handleChmod, hnr, if_true, reduceCtorEq, if_false] <;>
    exact routed_onProjected hmem hv hprojects
      (calls_mutate (.perform (plain_operand hmem hv rfl rfl)))

theorem routed_handleChown (hchown : notif.data.nr ∈ [.sysChown, .sysLchown, .sysFchownat]) :
    Routed (Observed ans) (Names state notif ans) G (handleChown state notif) := by
  have hoperand := hmem
  simp only [List.mem_cons, List.not_mem_nil, or_false] at hchown
  rcases hchown with hnr | hnr | hnr <;>
    simp only [pathOperands, hnr, List.mem_singleton] at hoperand <;>
    subst hoperand <;>
    simp only [handleChown, hnr, if_true, reduceCtorEq, if_false] <;>
    exact routed_onProjected hmem hv hprojects
      (calls_mutate (.perform (plain_operand hmem hv rfl rfl)))

theorem routed_handleUtimensat (hnr : notif.data.nr = .sysUtimensat) :
    Routed (Observed ans) (Names state notif ans) G (handleUtimensat state notif) := by
  obtain rfl : operand = (asI32 (notif.data.args 0), notif.data.args 1) := by
    simpa [pathOperands, hnr] using hmem
  refine routed_onProjected hmem hv hprojects (calls_withCString ?_)
  refine calls_orRespond ?_ fun times => calls_host hmem hv rfl rfl calls_result
  split
  · trivial
  · exact Prog.Calls.bind (calls_readValue (reads_plain.memory _) _ _) fun r => by
      cases r <;> trivial

theorem routed_handle : Routed (Observed ans) (Names state notif ans)
    (MayContinue state notif ans) (handle state notif) := by
  have hoperand := hmem
  cases hnr : notif.data.nr <;> simp only [handle, hnr]
  case sysExecve | sysExecveat =>
    exact Routed.answered (routed_handleExec hmem hv hprojects (by simp [hnr]))
  case sysOpen | sysOpenat | sysOpenat2 =>
    exact routed_handleOpen hmem hv hprojects (by simp [hnr])
  case sysNewfstatat => exact Routed.answered (routed_handleStat hmem hv hprojects hnr)
  case sysStatx => exact Routed.answered (routed_handleStatx hmem hv hprojects hnr)
  case sysAccess | sysFaccessat | sysFaccessat2 =>
    exact Routed.answered (routed_handleAccess hmem hv hprojects (by simp [hnr]))
  case sysMkdir | sysMkdirat =>
    exact Routed.answered (routed_handleMkdir hmem hv hprojects (by simp [hnr]))
  case sysUnlink | sysUnlinkat | sysRmdir =>
    exact Routed.answered (routed_handleUnlink hmem hv hprojects (by simp [hnr]))
  case sysRename | sysRenameat | sysRenameat2 =>
    exact Routed.answered (routed_handleRename hmem hv hprojects (by simp [hnr]))
  case sysReadlink | sysReadlinkat =>
    exact Routed.answered (routed_handleReadlink hmem hv hprojects (by simp [hnr]))
  case sysSymlink | sysSymlinkat =>
    exact Routed.answered (routed_handleSymlink hmem hv hprojects (by simp [hnr]))
  case sysChdir => exact routed_handleChdir hmem hv hprojects hnr
  case sysTruncate => exact Routed.answered (routed_handleTruncate hmem hv hprojects hnr)
  case sysChmod | sysFchmodat =>
    exact Routed.answered (routed_handleChmod hmem hv hprojects (by simp [hnr]))
  case sysChown | sysLchown | sysFchownat =>
    exact Routed.answered (routed_handleChown hmem hv hprojects (by simp [hnr]))
  case sysUtimensat => exact Routed.answered (routed_handleUtimensat hmem hv hprojects hnr)
  -- these name no path
  case sysGetdents64 | sysFchdir | sysGetcwd | other => simp [pathOperands, hnr] at hoperand

/-- A projected operand is never left to the kernel under its raw pathname, and host calls
name only what the operands of the call resolve to. -/
theorem no_fall_through : Ensures (Observed ans) (handle state notif) fun tr _ =>
    (∀ before e after, tr = before ++ e :: after → isContinue e = true →
      MayContinue state notif ans before) ∧
    ∀ e ∈ tr, ∀ path ∈ e.op.hostPaths, Names state notif ans e.op path := by
  have hrouted := routed_handle hmem hv hprojects
  exact fun tr out hx => ⟨hrouted.continues tr out hx, hrouted.paths tr out hx⟩

end

def oneBind : BindView where
  projections := [⟨[⟨ascii ['s'], by decide⟩], [⟨ascii ['a'], by decide⟩], by decide, by decide⟩]
  deepestFirst := by simp
  distinct := by simp

def mkdirNotif : SeccompNotif := ⟨7, 100, .sysMkdir, fun i => if i = 0 then 64 else 0⟩

def projectedMemory : Memory := .ofBytes 64 (ascii ['/', 'a', '/', 'x'] ++ [0])

theorem no_fall_through_mkdir : Ensures (Observed projectedMemory.answers)
    (handle (State.new oneBind) mkdirNotif) fun tr _ =>
      (∀ before e after, tr = before ++ e :: after → isContinue e = true →
        MayContinue (State.new oneBind) mkdirNotif projectedMemory.answers before) ∧
      ∀ e ∈ tr, ∀ path ∈ e.op.hostPaths,
        Names (State.new oneBind) mkdirNotif projectedMemory.answers e.op path :=
  no_fall_through (show (AT_FDCWD, 64) ∈ pathOperands mkdirNotif by decide)
    (show Resolves _ _ _ _ [⟨ascii ['a'], by decide⟩, ⟨ascii ['x'], by decide⟩] from rfl)
    (by decide)

end PathShim
