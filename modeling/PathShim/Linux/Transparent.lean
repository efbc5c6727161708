import PathShim.Linux.Delivered
import PathShim.Linux.FallThrough
import PathShim.Linux.Reply

/-!
# Outside every bind

A call whose operands all lie outside the binds is the kernel's: the handlers
look at the tracee, recognise descriptors and let the call go on. Two of them
decide about an argument before they know where the operands are.
-/

namespace PathShim

open UnixPath Effects

section
variable {state : State} {notif : SeccompNotif} {ans : (op : Op) → op.Answer}

-- ---------------------------------------------------------------------------
-- Calls that are left alone
-- ---------------------------------------------------------------------------

/-- The directory tracked for a descriptor operand is canonicalised, which is how it is recognised
while the operand is resolved. -/
def Recognises (state : State) (notif : SeccompNotif) (ans : (op : Op) → op.Answer) (op : Op)
    (path : OsStr) : Prop :=
  op = .canonicalize path ∧ ∃ operand ∈ pathOperands notif, ∃ directory,
    state.directories (keyOf ans notif.pid, operand.1) = some directory ∧
      path = state.view.resolveRead directory.path.toPath

/-- An observation. -/
def Aside (state : State) (notif : SeccompNotif) (ans : (op : Op) → op.Answer)
    (e : Event Op.Answer) : Prop :=
  e.op.Observes ∧ ∀ path ∈ e.op.hostPaths, Recognises state notif ans e.op path

/-- The supervisor says that the kernel may go on, and does nothing else but observe. -/
structure LeftAlone (state : State) (notif : SeccompNotif) (ans : (op : Op) → op.Answer)
    (tr : Trace) : Prop where
  reply : tr.filterMap responseOf = [⟨notif.id, 0, 0, USER_NOTIF_FLAG_CONTINUE⟩]
  aside : ∀ e ∈ tr, e.op.isRespond = true ∨ Aside state notif ans e

theorem looks_of_observes {op : Op} (h : op.Observes) : op.looks = true := by
  cases op <;> first | rfl | cases h

theorem LeftAlone.after {first tr : Trace} (h : LeftAlone state notif ans tr)
    (hfirst : ∀ e ∈ first, Aside state notif ans e) : LeftAlone state notif ans (first ++ tr) where
  reply := by
    rw [List.filterMap_append, responses_looks fun e he => looks_of_observes (hfirst e he).1,
      List.nil_append, h.reply]
  aside e he := by
    rcases List.mem_append.mp he with he | he
    · exact .inr (hfirst e he)
    · exact h.aside e he

/-- Programs that only observe, and programs that leave the call alone. -/
def Looking (state : State) (notif : SeccompNotif) (ans : (op : Op) → op.Answer) (p : Sup α) :
    Prop := Keeps (Observed ans) (Aside state notif ans) p

def Leaving (state : State) (notif : SeccompNotif) (ans : (op : Op) → op.Answer) (p : Sup α) :
    Prop := Ensures (Observed ans) p fun tr out => out.isSome → LeftAlone state notif ans tr

theorem leaving_continue : Leaving state notif ans (respondContinue notif.id) := by
  intro tr out hx _
  obtain ⟨answer, rest, -, hrest, rfl⟩ := exec_perform_bind.mp hx
  obtain ⟨rfl, -⟩ := exec_ret.mp hrest
  refine ⟨rfl, fun e he => ?_⟩
  rw [List.mem_singleton.mp he]
  exact .inl rfl

theorem leaving_answered (s : State) {reply : Sup (IoResult Unit)}
    (h : Leaving state notif ans reply) : Leaving state notif ans (answered s reply) := by
  intro tr out hx hsome
  obtain ⟨out', hreply, rfl⟩ := exec_answered.mp hx
  exact h tr out' hreply (by simpa using hsome)

/-- Look first, then leave the call alone. -/
theorem leaving_bind {p : Sup α} {f : α → Sup β} (hp : Looking state notif ans p)
    (hf : ∀ a, Returns (Observed ans) p a → Leaving state notif ans (f a)) :
    Leaving state notif ans (p >>= f) := by
  intro tr out hx hsome
  rcases exec_bind.mp hx with ⟨a, first, rest, hfirst, hrest, rfl⟩ | ⟨-, rfl⟩
  · exact (hf a ⟨first, hfirst⟩ rest out hrest hsome).after (hp first _ hfirst)
  · cases hsome

/-- A first part that ends with a known value. -/
theorem leaving_ok {p : Sup α} {f : α → Sup β} {a : α} (hp : Looking state notif ans p)
    (hcalls : p.Calls Op.Observes) (ha : p.eval ans = some a) (hf : Leaving state notif ans (f a)) :
    Leaving state notif ans (p >>= f) := by
  refine leaving_bind hp fun b hb => ?_
  obtain rfl := Option.some.inj ((eval_of_returns hcalls hb).symm.trans ha)
  exact hf

-- ---------------------------------------------------------------------------
-- Looking
-- ---------------------------------------------------------------------------

/-- An observation that names no host path. -/
def Op.Glances (op : Op) : Prop := op.Observes ∧ op.hostPaths = []

theorem reads_glances : Reads Op.Glances :=
  ⟨fun _ _ _ => ⟨trivial, rfl⟩, fun _ _ => ⟨trivial, rfl⟩, fun _ _ => ⟨trivial, rfl⟩,
    fun _ => ⟨trivial, rfl⟩⟩

theorem looking_of_glances {p : Sup α} (h : p.Calls Op.Glances) : Looking state notif ans p :=
  Keeps.of_calls h fun e he => ⟨he.1, by simp [he.2]⟩

theorem looking_of_quiet {p : Sup α} (hcalls : p.Calls Op.Observes)
    (h : Quiet (Observed ans) (Recognises state notif ans) p) : Looking state notif ans p :=
  fun tr out hx e he => ⟨hx.calls hcalls e he, (h tr out hx e he).2⟩

variable {dirfd : Fd} {address : UInt64} {v : AbsPath}

theorem recognises_descriptor (hmem : (dirfd, address) ∈ pathOperands notif)
    (directory : OpenDirectory)
    (hdirectory : state.directories (keyOf ans notif.pid, dirfd) = some directory) :
    Recognises state notif ans (.canonicalize (state.view.resolveRead directory.path.toPath))
      (state.view.resolveRead directory.path.toPath) :=
  ⟨rfl, (dirfd, address), hmem, directory, hdirectory, rfl⟩

theorem looking_operand (hmem : (dirfd, address) ∈ pathOperands notif) :
    Looking state notif ans (readAndResolve state notif dirfd address) :=
  looking_of_quiet (calls_operand _ _) (quiet_readAndResolve (recognises_descriptor hmem) _)

theorem looking_readPath : Looking state notif ans (readPath notif.pid address) :=
  looking_of_glances (calls_readPath (reads_glances.memory _) _)

-- ---------------------------------------------------------------------------
-- Operands outside the binds
-- ---------------------------------------------------------------------------

variable (hmem : (dirfd, address) ∈ pathOperands notif)
  (hv : Resolves state notif ans (dirfd, address) v) (hout : state.view.projects v.toPath = false)
include hmem hv

theorem leaving_operand {f : IoResult AbsPath → Sup β} (hf : Leaving state notif ans (f (.ok v))) :
    Leaving state notif ans (readAndResolve state notif dirfd address >>= f) :=
  leaving_ok (looking_operand hmem) (calls_operand _ _) hv hf

include hout

theorem leaving_onProjected (next : AbsPath → Sup (IoResult Unit)) :
    Leaving state notif ans (onProjected state notif dirfd address next) := by
  refine leaving_operand hmem hv ?_
  simp only [hout]
  exact leaving_continue

theorem leaving_onProjectedPath (skip : OsStr → Bool)
    (next : OsStr → AbsPath → Sup (IoResult Unit)) :
    Leaving state notif ans (onProjectedPath state notif dirfd address skip next) := by
  refine leaving_bind looking_readPath fun r hr => ?_
  have hread := eval_of_returns (calls_readPath (reads_observes.memory _) _) hr
  have hv' : (readAndResolve state notif dirfd address).eval ans = some (.ok v) := hv
  rw [readAndResolve, eval_bind, hread, Option.bind_some] at hv'
  cases r with
  | error e => cases hv'
  | ok raw =>
    dsimp only
    split
    · exact leaving_continue
    · refine leaving_ok (looking_of_quiet ?_ (quiet_resolvePath (recognises_descriptor hmem) _)) ?_
        hv' ?_
      · exact calls_resolvePath reads_observes fun _ => trivial
      · exact calls_resolvePath reads_observes fun _ => trivial
      · simp only [hout]
        exact leaving_continue

end

-- ---------------------------------------------------------------------------
-- Handlers
-- ---------------------------------------------------------------------------

/-- All pathnames can be read, and those that are operands resolve outside the binds. A `readlink`
of the caller's own working directory is not among these calls. -/
structure Outside (state : State) (notif : SeccompNotif) (ans : (op : Op) → op.Answer) : Prop where
  pathname : pathOperands notif ≠ []
  operands : ∀ operand ∈ pathOperands notif, ∃ v, Resolves state notif ans operand v ∧
    state.view.projects v.toPath = false
  target : notif.data.nr ∈ [.sysSymlink, .sysSymlinkat] →
    ∃ target, (readPath notif.pid (notif.data.args 0)).eval ans = some (.ok target)
  notOwnCwd : notif.data.nr ∈ [.sysReadlink, .sysReadlinkat] → ∀ operand ∈ pathOperands notif,
    ∀ v, Resolves state notif ans operand v → (isOwnProcCwd v notif.pid).eval ans = some false

/-- A `renameat2` has no flags, and the argument structure of an `openat2` can be read. -/
structure KernelDecides (notif : SeccompNotif) (ans : (op : Op) → op.Answer) : Prop where
  renameat2 : notif.data.nr = .sysRenameat2 → asU32 (notif.data.args 4) = 0
  openat2 : notif.data.nr = .sysOpenat2 →
    ∃ how, ans (.processVmReadv notif.pid (notif.data.args 2) sizeOfOpenHow) = .ok how

section
variable {state : State} {notif : SeccompNotif} {ans : (op : Op) → op.Answer} {dirfd : Fd}
  {address : UInt64} (h : Outside state notif ans)
include h

theorem Outside.onProjected (hmem : (dirfd, address) ∈ pathOperands notif)
    (next : AbsPath → Sup (IoResult Unit)) :
    Leaving state notif ans (onProjected state notif dirfd address next) := by
  obtain ⟨v, hv, hout⟩ := h.operands _ hmem
  exact leaving_onProjected hmem hv hout next

theorem Outside.onProjectedPath (hmem : (dirfd, address) ∈ pathOperands notif)
    (skip : OsStr → Bool) (next : OsStr → AbsPath → Sup (IoResult Unit)) :
    Leaving state notif ans (onProjectedPath state notif dirfd address skip next) := by
  obtain ⟨v, hv, hout⟩ := h.operands _ hmem
  exact leaving_onProjectedPath hmem hv hout skip next

theorem leaving_handleExec (hexec : notif.data.nr ∈ [.sysExecve, .sysExecveat]) :
    Leaving state notif ans (handleExec state notif) := by
  rcases List.mem_pair.mp hexec with hnr | hnr <;>
    simp only [handleExec, hnr, if_true, reduceCtorEq, if_false] <;>
    exact h.onProjectedPath (by simp [pathOperands, hnr]) _ _

theorem leaving_handleOpen (hopen : notif.data.nr ∈ [.sysOpen, .sysOpenat, .sysOpenat2])
    (hdecides : KernelDecides notif ans) : Leaving state notif ans (handleOpen state notif) := by
  have hcalls : (openArguments notif).Calls Op.Glances := by
    unfold openArguments
    split
    · trivial
    · split
      · trivial
      · exact Prog.Calls.bind (calls_readValue (reads_glances.memory _) _ _) fun r => by
          cases r <;> trivial
  have harguments : ∃ arguments, (openArguments notif).eval ans = some (.ok arguments) ∧
      (arguments.dirfd, arguments.pathAddress) ∈ pathOperands notif := by
    simp only [List.mem_cons, List.not_mem_nil, or_false] at hopen
    rcases hopen with hnr | hnr | hnr
    · exact ⟨_, by simp only [openArguments, hnr, if_true]; rfl, by simp [pathOperands, hnr]⟩
    · exact ⟨_, by simp only [openArguments, hnr, reduceCtorEq, if_true, if_false]; rfl,
        by simp [pathOperands, hnr]⟩
    · obtain ⟨how, hhow⟩ := hdecides.openat2 hnr
      let bytes := how.bytes ++ List.replicate (sizeOfOpenHow - how.bytes.length) 0
      have hread : (readValue notif.pid (notif.data.args 2) sizeOfOpenHow).eval ans =
          some (.ok bytes) := by
        rw [readValue, readMemory, eval_bind, eval_bind, ask, eval_perform, hhow]
        rfl
      refine ⟨⟨asI32 (notif.data.args 0), notif.data.args 1, asI32 (leU64 bytes 0),
        asU32 (leU64 bytes 8)⟩, ?_, by simp [pathOperands, hnr]⟩
      simp only [openArguments, hnr, reduceCtorEq, if_false, eval_bind, hread, Option.bind_some]
      rfl
  obtain ⟨arguments, heval, hmem⟩ := harguments
  obtain ⟨v, hv, hout⟩ := h.operands _ hmem
  refine leaving_ok (looking_of_glances hcalls) (hcalls.mono fun _ hop => hop.1) heval ?_
  refine leaving_operand hmem hv ?_
  simp only [hout]
  exact leaving_answered state leaving_continue

theorem leaving_handleAccess
    (haccess : notif.data.nr ∈ [.sysAccess, .sysFaccessat, .sysFaccessat2]) :
    Leaving state notif ans (handleAccess state notif) := by
  simp only [List.mem_cons, List.not_mem_nil, or_false] at haccess
  rcases haccess with hnr | hnr | hnr <;>
    simp only [handleAccess, hnr, if_true, reduceCtorEq, if_false] <;>
    exact h.onProjected (by simp [pathOperands, hnr]) _

theorem leaving_handleMkdir (hmkdir : notif.data.nr ∈ [.sysMkdir, .sysMkdirat]) :
    Leaving state notif ans (handleMkdir state notif) := by
  rcases List.mem_pair.mp hmkdir with hnr | hnr <;>
    simp only [handleMkdir, hnr, if_true, reduceCtorEq, if_false] <;>
    exact h.onProjected (by simp [pathOperands, hnr]) _

theorem leaving_handleUnlink (hunlink : notif.data.nr ∈ [.sysUnlink, .sysUnlinkat, .sysRmdir]) :
    Leaving state notif ans (handleUnlink state notif) := by
  simp only [List.mem_cons, List.not_mem_nil, or_false] at hunlink
  rcases hunlink with hnr | hnr | hnr <;>
    simp only [handleUnlink, hnr, if_true, reduceCtorEq, if_false] <;>
    exact h.onProjected (by simp [pathOperands, hnr]) _

theorem leaving_handleRename (hrename : notif.data.nr ∈ [.sysRename, .sysRenameat, .sysRenameat2])
    (hdecides : KernelDecides notif ans) : Leaving state notif ans (handleRename state notif) := by
  simp only [List.mem_cons, List.not_mem_nil, or_false] at hrename
  have hflags : (renameArguments notif).flags = 0 := by
    rcases hrename with hnr | hnr | hnr
    · simp [renameArguments, hnr]
    · simp [renameArguments, hnr]
    · simpa [renameArguments, hnr] using hdecides.renameat2 hnr
  have hmem : ((renameArguments notif).oldDirfd, (renameArguments notif).oldAddress) ∈
        pathOperands notif ∧
      ((renameArguments notif).newDirfd, (renameArguments notif).newAddress) ∈
        pathOperands notif := by
    rcases hrename with hnr | hnr | hnr <;> simp [pathOperands, renameArguments, hnr]
  obtain ⟨old, hold, holdOut⟩ := h.operands _ hmem.1
  obtain ⟨new, hnew, hnewOut⟩ := h.operands _ hmem.2
  unfold handleRename
  dsimp only
  rw [if_neg (not_not_intro hflags)]
  refine leaving_operand hmem.1 hold (leaving_operand hmem.2 hnew ?_)
  simp only [holdOut, hnewOut]
  exact leaving_continue

theorem leaving_handleReadlink (hreadlink : notif.data.nr ∈ [.sysReadlink, .sysReadlinkat]) :
    Leaving state notif ans (handleReadlink state notif) := by
  have hoperand {dirfd : Fd} {address : UInt64} {next : AbsPath → Sup (IoResult Unit)}
      (hmem : (dirfd, address) ∈ pathOperands notif)
      (hnext : ∀ v, (isOwnProcCwd v notif.pid).eval ans = some false →
        state.view.projects v.toPath = false → Leaving state notif ans (next v)) :
      Leaving state notif ans
        (orRespond notif.id (readAndResolve state notif dirfd address) next) := by
    obtain ⟨v, hv, hout⟩ := h.operands _ hmem
    exact leaving_operand hmem hv (hnext v (h.notOwnCwd hreadlink _ hmem v hv) hout)
  rcases List.mem_pair.mp hreadlink with hnr | hnr
  all_goals
    simp only [handleReadlink, hnr, if_true, reduceCtorEq, if_false]
    refine hoperand (by simp [pathOperands, hnr]) fun v hown hout => ?_
    refine leaving_ok (looking_of_glances (calls_isOwnProcCwd reads_glances _ _))
      (calls_isOwnProcCwd reads_observes _ _) hown ?_
    simp only [hout, Bool.false_eq_true, if_false]
    exact leaving_continue

theorem leaving_handleSymlink (hsymlink : notif.data.nr ∈ [.sysSymlink, .sysSymlinkat]) :
    Leaving state notif ans (handleSymlink state notif) := by
  obtain ⟨target, htarget⟩ := h.target hsymlink
  refine leaving_ok looking_readPath (calls_readPath (reads_observes.memory _) _) htarget ?_
  rcases List.mem_pair.mp hsymlink with hnr | hnr <;>
    simp only [hnr, if_true, reduceCtorEq, if_false] <;>
    exact h.onProjected (by simp [pathOperands, hnr]) _

theorem leaving_handleChdir (hnr : notif.data.nr = .sysChdir) :
    Leaving state notif ans (handleChdir state notif) := by
  have hmem : (AT_FDCWD, notif.data.args 0) ∈ pathOperands notif := by simp [pathOperands, hnr]
  obtain ⟨v, hv, hout⟩ := h.operands _ hmem
  rw [handleChdir, if_pos hnr]
  refine leaving_operand hmem hv ?_
  simp only [chdirTo, hout, Bool.false_eq_true, if_false]
  exact leaving_bind (looking_of_glances (calls_processKey reads_glances _)) fun key _ =>
    leaving_answered _ leaving_continue

theorem leaving_handleChmod (hchmod : notif.data.nr ∈ [.sysChmod, .sysFchmodat]) :
    Leaving state notif ans (handleChmod state notif) := by
  rcases List.mem_pair.mp hchmod with hnr | hnr <;>
    simp only [handleChmod, hnr, if_true, reduceCtorEq, if_false] <;>
    exact h.onProjected (by simp [pathOperands, hnr]) _

theorem leaving_handleChown (hchown : notif.data.nr ∈ [.sysChown, .sysLchown, .sysFchownat]) :
    Leaving state notif ans (handleChown state notif) := by
  simp only [List.mem_cons, List.not_mem_nil, or_false] at hchown
  rcases hchown with hnr | hnr | hnr <;>
    simp only [handleChown, hnr, if_true, reduceCtorEq, if_false] <;>
    exact h.onProjected (by simp [pathOperands, hnr]) _

theorem leaving_handle (hdecides : KernelDecides notif ans) :
    Leaving state notif ans (handle state notif) := by
  have hpathname := h.pathname
  cases hnr : notif.data.nr <;> simp only [handle, hnr]
  case sysExecve | sysExecveat =>
    exact leaving_answered state (leaving_handleExec h (by simp [hnr]))
  case sysOpen | sysOpenat | sysOpenat2 => exact leaving_handleOpen h (by simp [hnr]) hdecides
  case sysNewfstatat | sysStatx =>
    exact leaving_answered state (h.onProjectedPath (by simp [pathOperands, hnr]) _ _)
  case sysAccess | sysFaccessat | sysFaccessat2 =>
    exact leaving_answered state (leaving_handleAccess h (by simp [hnr]))
  case sysMkdir | sysMkdirat =>
    exact leaving_answered state (leaving_handleMkdir h (by simp [hnr]))
  case sysUnlink | sysUnlinkat | sysRmdir =>
    exact leaving_answered state (leaving_handleUnlink h (by simp [hnr]))
  case sysRename | sysRenameat | sysRenameat2 =>
    exact leaving_answered state (leaving_handleRename h (by simp [hnr]) hdecides)
  case sysReadlink | sysReadlinkat =>
    exact leaving_answered state (leaving_handleReadlink h (by simp [hnr]))
  case sysSymlink | sysSymlinkat =>
    exact leaving_answered state (leaving_handleSymlink h (by simp [hnr]))
  case sysChdir => exact leaving_handleChdir h hnr
  case sysTruncate | sysUtimensat =>
    exact leaving_answered state (h.onProjected (by simp [pathOperands, hnr]) _)
  case sysChmod | sysFchmodat =>
    exact leaving_answered state (leaving_handleChmod h (by simp [hnr]))
  case sysChown | sysLchown | sysFchownat =>
    exact leaving_answered state (leaving_handleChown h (by simp [hnr]))
  -- these name no path
  case sysGetdents64 | sysFchdir | sysGetcwd | other => simp [pathOperands, hnr] at hpathname

omit h

-- ---------------------------------------------------------------------------
-- Decided too early
-- ---------------------------------------------------------------------------

theorem not_leftAlone_of_error {first rest : Trace} {e : Errno} {r : IoResult Unit}
    (hfirst : ∀ event ∈ first, event.op.looks = true)
    (hx : Exec (Observed ans) (respondError notif.id e) rest (some r)) :
    ¬ LeftAlone state notif ans (first ++ rest) := by
  intro h
  have hreply := h.reply
  have herror : Delivered notif 0 rest (.error e) := delivered_error hx
  rw [List.filterMap_append, responses_looks hfirst, herror.1] at hreply
  simp [USER_NOTIF_FLAG_CONTINUE] at hreply

theorem renameat2_refused {tr : Trace} {s' : State} {r : IoResult Unit}
    (hnr : notif.data.nr = .sysRenameat2) (hflags : asU32 (notif.data.args 4) ≠ 0)
    (hx : Exec (Observed ans) (handle state notif) tr (some (s', r))) :
    ¬ LeftAlone state notif ans tr := by
  have hrefused : handleRename state notif = respondError notif.id ENOTSUP := by
    rw [handleRename, renameArguments]
    simp [hnr, hflags]
  rw [show handle state notif = answered state (handleRename state notif) by simp [handle, hnr],
    hrefused] at hx
  show ¬ LeftAlone state notif ans ([] ++ tr)
  exact not_leftAlone_of_error (by simp) (exec_answered_ok hx).2

theorem openat2_refused {tr : Trace} {s' : State} {r : IoResult Unit} {e : Errno}
    (hnr : notif.data.nr = .sysOpenat2)
    (hhow : ans (.processVmReadv notif.pid (notif.data.args 2) sizeOfOpenHow) = .error e)
    (hx : Exec (Observed ans) (handle state notif) tr (some (s', r))) :
    ¬ LeftAlone state notif ans tr := by
  have hcalls : (openArguments notif).Calls fun op => op.Observes := by
    simp only [openArguments, hnr, reduceCtorEq, if_false]
    exact Prog.Calls.bind (calls_readValue (reads_observes.memory _) _ _) fun r => by
      cases r <;> trivial
  have heval : (openArguments notif).eval ans = some (.error (.os e)) := by
    simp only [openArguments, hnr, reduceCtorEq, if_false, readValue, readMemory, eval_bind, ask,
      eval_perform, hhow]
    rfl
  rw [show handle state notif = handleOpen state notif by simp [handle, hnr]] at hx
  rcases exec_orRespondIn hx with ⟨arguments, first, rest, hfirst, -, -⟩ |
    ⟨error, first, rest, hfirst, -, hreply, rfl⟩
  · cases Option.some.inj ((eval_of_returns hcalls ⟨first, hfirst⟩).symm.trans heval)
  · refine not_leftAlone_of_error (fun event he => ?_) hreply
    exact looks_of_observes (hfirst.calls hcalls event he)

include h in
/-- Outside the binds calls are left alone, except for the two decisions above. -/
theorem left_alone_iff {tr : Trace} {out : Option (State × IoResult Unit)}
    (hx : Exec (Observed ans) (handle state notif) tr out) :
    LeftAlone state notif ans tr ↔ KernelDecides notif ans := by
  have hsome := handle_returns (hx.mono fun _ _ _ => trivial)
  obtain ⟨⟨s', r⟩, rfl⟩ := Option.isSome_iff_exists.mp hsome
  constructor
  · intro hleft
    refine ⟨fun hnr => ?_, fun hnr => ?_⟩
    · by_contra hflags
      exact renameat2_refused hnr hflags hx hleft
    · cases hhow : ans (.processVmReadv notif.pid (notif.data.args 2) sizeOfOpenHow) with
      | error e => exact absurd hleft (openat2_refused hnr hhow hx)
      | ok how => exact ⟨how, rfl⟩
  · intro hdecides
    exact leaving_handle h hdecides tr _ hx hsome

end

-- ---------------------------------------------------------------------------
-- An exchange outside the binds
-- ---------------------------------------------------------------------------

def renameat2Notif (flags : UInt64) : SeccompNotif :=
  ⟨7, 100, .sysRenameat2, fun i =>
    if i = 1 then 64 else if i = 3 then 67 else if i = 4 then flags else 0⟩

def twoPathsMemory : Memory :=
  .ofBytes 64 (ascii ['/', 'x'] ++ [0] ++ ascii ['/', 'y'] ++ [0])

theorem outside_renameat2 (flags : UInt64) :
    Outside (State.new oneBind) (renameat2Notif flags) twoPathsMemory.answers where
  pathname := by simp [pathOperands, renameat2Notif]
  operands operand hoperand := by
    rcases List.mem_pair.mp hoperand with rfl | rfl
    · exact ⟨[⟨ascii ['x'], by decide⟩], rfl, by decide⟩
    · exact ⟨[⟨ascii ['y'], by decide⟩], rfl, by decide⟩
  target h := by cases List.mem_pair.mp h <;> contradiction
  notOwnCwd h := by cases List.mem_pair.mp h <;> contradiction

theorem left_alone_rename : Ensures (Observed twoPathsMemory.answers)
    (handle (State.new oneBind) (renameat2Notif 0)) fun tr _ =>
      LeftAlone (State.new oneBind) (renameat2Notif 0) twoPathsMemory.answers tr :=
  fun _ _ hx => (left_alone_iff (outside_renameat2 0) hx).mpr
    ⟨fun _ => by decide, fun h => by cases h⟩

/-- `RENAME_NOREPLACE` outside every bind. -/
theorem noreplace_not_left_alone :
    Outside (State.new oneBind) (renameat2Notif 1) twoPathsMemory.answers ∧
      Ensures (Observed twoPathsMemory.answers) (handle (State.new oneBind) (renameat2Notif 1))
        fun tr _ =>
          ¬ LeftAlone (State.new oneBind) (renameat2Notif 1) twoPathsMemory.answers tr := by
  refine ⟨outside_renameat2 1, fun tr out hx => ?_⟩
  obtain ⟨⟨s', r⟩, rfl⟩ := Option.isSome_iff_exists.mp
    (handle_returns (hx.mono fun _ _ _ => trivial))
  exact renameat2_refused rfl (by decide) hx

end PathShim
