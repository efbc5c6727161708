import PathShim.Histories
import PathShim.Linux.FailedOpen

/-!
# The umask of the caller

What is created below a bind is created by the supervisor, and the kernel
clears the bits of the supervisor's umask. A call outside every bind is left to
the kernel, which clears those of the caller. The two agree as long as both
umasks clear the same bits of the mode that was asked for.
-/

namespace PathShim

open UnixPath Effects Histories

/-- The permission bits of a new file or directory. -/
def permissions (mode umask : UInt32) : UInt32 := mode &&& 0o777 &&& ~~~umask

/-- The permission bits of what there is. -/
abbrev HostModes := AbsPath → Option UInt32

def HostModes.created (modes : HostModes) (location : AbsPath) (bits : UInt32) : HostModes :=
  if modes location = none then Function.update modes location (some bits) else modes

/-- The supervisor's umask, and where the kernel finds a host path. -/
structure MaskHost where
  umask : UInt32
  location : OsStr → AbsPath

def MaskHost.step (host : MaskHost) (modes : HostModes) (e : Event Op.Answer) : HostModes :=
  match e with
  | ⟨.openFile path flags mode, .ok _⟩ =>
    if flags &&& O_CREAT ≠ 0 ∧ flags &&& O_PATH = 0 then
      modes.created (host.location path) (permissions mode host.umask)
    else modes
  | ⟨.createDir path mode, .ok ()⟩ =>
    modes.created (host.location path) (permissions mode host.umask)
  | _ => modes

-- ---------------------------------------------------------------------------
-- Runs
-- ---------------------------------------------------------------------------

/-- The umask of each guest process, and the permission bits on the host. -/
structure MaskConfig where
  state : State
  umask : Pid → UInt32
  modes : HostModes

def mkdirArguments (notif : SeccompNotif) : (Fd × UInt64) × UInt32 :=
  if notif.data.nr = .sysMkdir then
    ((AT_FDCWD, notif.data.args 0), asU32 (notif.data.args 1))
  else ((asI32 (notif.data.args 0), notif.data.args 1), asU32 (notif.data.args 2))

/-- A call that asks for a file or a directory with some mode, and its path operand. -/
inductive Requests (notif : SeccompNotif) (ans : (op : Op) → op.Answer) :
    UInt32 → Fd × UInt64 → Prop
  | opens {arguments} : notif.data.nr ∈ [.sysOpen, .sysOpenat, .sysOpenat2] →
      (openArguments notif).eval ans = some (.ok arguments) →
      arguments.flags &&& O_CREAT ≠ 0 →
      Requests notif ans arguments.mode (arguments.dirfd, arguments.pathAddress)
  | makes : notif.data.nr ∈ [.sysMkdir, .sysMkdirat] →
      Requests notif ans (mkdirArguments notif).2 (mkdirArguments notif).1

inductive MaskLabel where
  | umask (key : Pid) (mask : UInt32)
  | fork (key child : Pid)
  | create (notif : SeccompNotif) (ans : (op : Op) → op.Answer) (mode : UInt32) (v : AbsPath)
    (tr : Trace)

/-- What is there after a call: what the supervisor has created, and what the kernel creates for
the caller if it is let through and accepts. -/
inductive MaskHost.Leaves (host : MaskHost) (modes : HostModes) (tr : Trace) (v : AbsPath)
    (bits : UInt32) : HostModes → Prop
  | supervisor : host.Leaves modes tr v bits (tr.foldl host.step modes)
  | kernel : Continued tr →
      host.Leaves modes tr v bits
        ((tr.foldl host.step modes).created (host.location v.toPath) bits)

/-- `umask` and `fork` are not intercepted. -/
inductive MaskStep (host : MaskHost) : MaskConfig → MaskLabel → MaskConfig → Prop
  | umask {c key mask} : MaskStep host c (.umask key mask)
      { c with umask := Function.update c.umask key (mask &&& 0o777) }
  | fork {c key child} : MaskStep host c (.fork key child)
      { c with umask := Function.update c.umask child (c.umask key) }
  | create {c notif ans operand mode v tr s' r modes'} : Requests notif ans mode operand →
      Resolves c.state notif ans operand v →
      Exec (Observed ans) (handle c.state notif) tr (some (s', r)) →
      host.Leaves c.modes tr v (permissions mode (c.umask (keyOf ans notif.pid))) modes' →
      MaskStep host c (.create notif ans mode v tr) ⟨s', c.umask, modes'⟩

/-- Everything that is new has the requested mode without the bits of the caller's umask. -/
def Masked (t : Move MaskConfig MaskLabel) : Prop :=
  match t.label with
  | .create notif ans mode _ _ => ∀ path bits, t.before.modes path = none →
      t.after.modes path = some bits →
      bits = permissions mode (t.before.umask (keyOf ans notif.pid))
  | _ => True

/-- Below a bind, the supervisor's umask clears the same bits of the mode as the caller's. -/
def SameBits (host : MaskHost) (c : MaskConfig) : MaskLabel → Prop
  | .create notif ans mode v _ => c.state.view.Projected v →
      permissions mode host.umask = permissions mode (c.umask (keyOf ans notif.pid))
  | _ => True

-- ---------------------------------------------------------------------------
-- What the supervisor creates
-- ---------------------------------------------------------------------------

/-- The mode with which a call may create something. -/
def Op.newMode : Op → Option UInt32
  | .openFile _ _ mode | .createDir _ mode => some mode
  | _ => none

section
variable {host : MaskHost} {modes : HostModes} {path location : AbsPath} {bits bits' mode : UInt32}
  {e : Event Op.Answer} {tr : Trace}

theorem HostModes.created_new (hnone : modes path = none)
    (h : modes.created location bits path = some bits') : bits' = bits := by
  unfold created at h
  split at h
  · by_cases hpath : path = location
    · subst hpath
      rw [Function.update_self] at h
      exact (Option.some.inj h).symm
    · rw [Function.update_of_ne hpath, hnone] at h
      cases h
  · rw [hnone] at h
    cases h

theorem HostModes.created_old (hsome : modes path = some bits') :
    modes.created location bits path = some bits' := by
  unfold created
  split
  · rename_i hnone
    have hpath : path ≠ location := by
      rintro rfl
      cases hsome.symm.trans hnone
    rwa [Function.update_of_ne hpath]
  · exact hsome

theorem MaskHost.step_cases (host : MaskHost) (modes : HostModes) (e : Event Op.Answer) :
    host.step modes e = modes ∨ ∃ mode ∈ e.op.newMode, ∃ location,
      host.step modes e = modes.created location (permissions mode host.umask) := by
  obtain ⟨op, answer⟩ := e
  cases op with
  | openFile real flags mode =>
    cases answer with
    | error e => exact .inl rfl
    | ok fd =>
      by_cases hcreate : flags &&& O_CREAT ≠ 0 ∧ flags &&& O_PATH = 0
      · exact .inr ⟨mode, rfl, host.location real, if_pos hcreate⟩
      · exact .inl (if_neg hcreate)
  | createDir real mode =>
    cases answer with
    | error e => exact .inl rfl
    | ok value => exact .inr ⟨mode, rfl, host.location real, rfl⟩
  | _ => exact .inl rfl

theorem MaskHost.foldl_old (hsome : modes path = some bits) :
    tr.foldl host.step modes path = some bits := by
  induction tr generalizing modes with
  | nil => exact hsome
  | cons e tr ih =>
    refine ih ?_
    rcases host.step_cases modes e with hstep | ⟨mode, -, location, hstep⟩
    · rwa [hstep]
    · rw [hstep]
      exact HostModes.created_old hsome

/-- If only one mode is ever asked for, everything new was created with it. -/
theorem MaskHost.foldl_new (hmode : ∀ e ∈ tr, ∀ m ∈ e.op.newMode, m = mode)
    (hnone : modes path = none) (h : tr.foldl host.step modes path = some bits) :
    bits = permissions mode host.umask := by
  induction tr generalizing modes with
  | nil => cases hnone.symm.trans h
  | cons e tr ih =>
    have hrest := fun e' he' => hmode e' (List.mem_cons_of_mem _ he')
    rw [List.foldl_cons] at h
    rcases host.step_cases modes e with hstep | ⟨mode', hmem, location, hstep⟩
    · rw [hstep] at h
      exact ih hrest hnone h
    · obtain rfl := hmode e List.mem_cons_self mode' hmem
      cases hnew : host.step modes e path with
      | none => exact ih hrest hnew h
      | some bits' =>
        rw [MaskHost.foldl_old hnew] at h
        rw [← Option.some.inj h]
        exact HostModes.created_new hnone (hstep ▸ hnew)

end

section
variable {host : MaskHost} {state : State} {notif : SeccompNotif} {ans : (op : Op) → op.Answer}
  {arguments : OpenArguments} {mode : UInt32} {operand : Fd × UInt64} {v : AbsPath} {tr : Trace}
  {out : Option (State × IoResult Unit)}

/-- A call for `v` with `mode` creates only below a bind, and is let through only elsewhere. -/
structure AsksFor (view : BindView) (v : AbsPath) (mode : UInt32) (op : Op) : Prop where
  newMode : ∀ m ∈ op.newMode, m = mode ∧ view.Projected v
  continues : op.continues = true → ¬ view.Projected v

section
variable {view : BindView}

theorem asksFor_observes {op : Op} (h : op.Observes) : AsksFor view v mode op := by
  constructor <;> cases op <;> simp [Op.newMode, Op.continues, Op.Observes] at h ⊢

theorem asksFor_snapshots {op : Op} (h : op.Snapshots) : AsksFor view v mode op := by
  constructor <;> cases op <;> simp [Op.newMode, Op.continues, Op.Snapshots] at h ⊢

theorem asksFor_addFd {request : SeccompNotifAddfd} : AsksFor view v mode (.addFd request) := by
  constructor <;> simp [Op.newMode, Op.continues]

theorem asksFor_respond {response : SeccompNotifResp}
    (h : view.Projected v → response.flags = 0) :
    (respond response).Calls (AsksFor view v mode) := by
  refine Prog.Calls.bind (.perform ⟨by simp [Op.newMode], fun hcontinues hp => ?_⟩)
    fun _ => trivial
  simp [Op.continues, h hp] at hcontinues

theorem asksFor_continue {id : UInt64} (hp : ¬ view.Projected v) :
    (respondContinue id).Calls (AsksFor view v mode) := asksFor_respond fun h => absurd h hp

end

theorem asksFor_openProjected (hp : state.view.Projected v) :
    (openProjected state notif arguments v).Calls (AsksFor state.view v arguments.mode) := by
  have hrefused (e : Errno) :
      (answered state (respondError notif.id e)).Calls (AsksFor state.view v arguments.mode) :=
    Prog.Calls.bind (asksFor_respond fun _ => rfl) fun _ => trivial
  have hopen : AsksFor state.view v arguments.mode (openOp state arguments v) := by
    refine ⟨?_, by rintro ⟨⟩⟩
    rintro m ⟨⟩
    exact ⟨rfl, hp⟩
  simp only [openProjected, cString_eq, orRespondIn]
  refine Prog.Calls.bind (Prog.Calls.bind (.perform hopen) fun _ => trivial) fun r => ?_
  cases r with
  | error e => exact hrefused _
  | ok sourceFd =>
    refine Prog.Calls.bind (Prog.Calls.bind (.perform asksFor_addFd) fun _ => trivial) fun r => ?_
    cases r with
    | error e => exact hrefused _
    | ok childFd => exact snapshots_trackOpened.mono fun _ => asksFor_snapshots

theorem asksFor_mkdir (hp : state.view.Projected v) :
    (orRespond notif.id (state.view.mkdir v.toPath mode) fun () =>
      respondValue notif.id 0).Calls (AsksFor state.view v mode) := by
  have hmkdir : AsksFor state.view v mode (.createDir (state.view.resolveRead v.toPath) mode) := by
    refine ⟨?_, by rintro ⟨⟩⟩
    rintro m ⟨⟩
    exact ⟨rfl, hp⟩
  refine Prog.Calls.bind (.perform hmkdir) fun r => ?_
  cases r <;> exact asksFor_respond fun _ => rfl

theorem handle_mkdir (h : notif.data.nr ∈ [.sysMkdir, .sysMkdirat]) :
    handle state notif = answered state (onProjected state notif (mkdirArguments notif).1.1
      (mkdirArguments notif).1.2 fun path => orRespond notif.id
        (state.view.mkdir path.toPath (mkdirArguments notif).2) fun () =>
          respondValue notif.id 0) := by
  rcases List.mem_pair.mp h with hnr | hnr <;>
    simp only [handle, handleMkdir, mkdirArguments, hnr, if_true, reduceCtorEq, if_false]

/-- A call asks the host for something new only below a bind, and then with its own mode. -/
theorem Requests.asksFor (h : Requests notif ans mode operand)
    (hv : Resolves state notif ans operand v)
    (hx : Exec (Observed ans) (handle state notif) tr out) :
    ∀ e ∈ tr, AsksFor state.view v mode e.op := by
  cases h with
  | @opens arguments hnr hreads _ =>
    rw [handle_open hnr] at hx
    obtain ⟨first, rest, rfl, hfirst, hx⟩ := exec_observing observed_eq calls_arguments hreads hx
    obtain ⟨second, rest, rfl, hsecond, hx⟩ := exec_resolved observed_eq hv hx
    have hrest : ∀ e ∈ rest, AsksFor state.view v arguments.mode e.op := by
      by_cases hp : state.view.Projected v
      · simp only [BindView.projects_toPath.mpr hp, if_true] at hx
        exact hx.calls (asksFor_openProjected hp)
      · simp only [BindView.projects_toPath, hp, if_false] at hx
        exact hx.calls (Prog.Calls.bind (asksFor_continue hp) fun _ => trivial)
    intro e he
    rcases List.mem_append.mp he with he | he
    · exact asksFor_observes (hfirst e he)
    · exact (List.mem_append.mp he).elim (fun he => asksFor_observes (hsecond e he)) (hrest e)
  | makes hnr =>
    rw [handle_mkdir hnr] at hx
    obtain ⟨out', hx, -⟩ := exec_answered.mp hx
    obtain ⟨looks, rest, rfl, hlooks, hx⟩ := exec_resolved observed_eq hv hx
    have hrest : ∀ e ∈ rest, AsksFor state.view v (mkdirArguments notif).2 e.op := by
      by_cases hp : state.view.Projected v
      · simp only [BindView.projects_toPath.mpr hp, if_true] at hx
        exact hx.calls (asksFor_mkdir hp)
      · simp only [BindView.projects_toPath, hp, if_false] at hx
        exact hx.calls (asksFor_continue hp)
    intro e he
    exact (List.mem_append.mp he).elim (fun he => asksFor_observes (hlooks e he)) (hrest e)

end

-- ---------------------------------------------------------------------------
-- Whose umask it is
-- ---------------------------------------------------------------------------

section
variable {host : MaskHost} {c c' : MaskConfig} {notif : SeccompNotif}
  {ans : (op : Op) → op.Answer} {mode bits : UInt32} {v path : AbsPath} {tr : Trace}
  {t : Move MaskConfig MaskLabel}

theorem MaskStep.new (hstep : MaskStep host c (.create notif ans mode v tr) c')
    (hnone : c.modes path = none) (hsome : c'.modes path = some bits) :
    (c.state.view.Projected v → bits = permissions mode host.umask) ∧
      (¬ c.state.view.Projected v → bits = permissions mode (c.umask (keyOf ans notif.pid))) := by
  cases hstep with
  | create hrequests hv hx hleaves =>
    have hasks := hrequests.asksFor hv hx
    constructor
    · intro hp
      cases hleaves with
      | supervisor =>
        exact MaskHost.foldl_new (fun e he m hm => ((hasks e he).newMode m hm).1) hnone hsome
      | kernel hcontinued =>
        obtain ⟨e, he, hcontinues⟩ := hcontinued
        exact absurd hp ((hasks e he).continues hcontinues)
    · intro hp
      have hmodes : tr.foldl host.step c.modes = c.modes := by
        refine foldl_unchanged fun e he => ?_
        refine (host.step_cases c.modes e).resolve_right ?_
        rintro ⟨m, hm, -⟩
        exact hp ((hasks e he).newMode m hm).2
      cases hleaves with
      | supervisor =>
        rw [hmodes] at hsome
        cases hnone.symm.trans hsome
      | kernel _ =>
        rw [hmodes] at hsome
        exact HostModes.created_new hnone hsome

theorem MaskStep.masked (hstep : MaskStep host t.before t.label t.after)
    (hsame : SameBits host t.before t.label) : Masked t := by
  obtain ⟨c, label, c'⟩ := t
  cases label with
  | umask | fork => trivial
  | create notif ans mode v tr =>
    intro path bits hnone hsome
    obtain ⟨hprojected, helsewhere⟩ := MaskStep.new hstep hnone hsome
    by_cases hp : c.state.view.Projected v
    · exact (hprojected hp).trans (hsame hp)
    · exact helsewhere hp

theorem MaskStep.sameBits (hstep : MaskStep host t.before t.label t.after) (hmasked : Masked t)
    (hnew : ∃ path bits, t.before.modes path = none ∧ t.after.modes path = some bits) :
    SameBits host t.before t.label := by
  obtain ⟨c, label, c'⟩ := t
  cases label with
  | umask | fork => trivial
  | create notif ans mode v tr =>
    intro hp
    obtain ⟨path, bits, hnone, hsome⟩ := hnew
    exact ((MaskStep.new hstep hnone hsome).1 hp).symm.trans (hmasked path bits hnone hsome)

/-- In every run, whatever is created has the mode the caller's umask leaves of the requested one,
if below the binds the supervisor's umask leaves the same. A call that does create something is
masked properly only then, and always outside the binds. -/
theorem umask_honoured {ts : List (Move MaskConfig MaskLabel)} {start : MaskConfig}
    (hrun : Moves (MaskStep host) start ts c) :
    ((∀ t ∈ ts, SameBits host t.before t.label) → ∀ t ∈ ts, Masked t) ∧
      ∀ t ∈ ts, (∃ path bits, t.before.modes path = none ∧ t.after.modes path = some bits) →
        (Masked t ↔ SameBits host t.before t.label) := by
  have hsteps := hrun.steps
  exact ⟨fun hsame t ht => (hsteps t ht).masked (hsame t ht), fun t ht hnew =>
    ⟨fun hmasked => (hsteps t ht).sameBits hmasked hnew, (hsteps t ht).masked⟩⟩

end

-- ---------------------------------------------------------------------------
-- A private file
-- ---------------------------------------------------------------------------

/-- `open("/a/x", O_WRONLY | O_CREAT, 0666)`. -/
def createX : SeccompNotif :=
  ⟨7, 100, .sysOpen, fun i => if i = 0 then 64 else if i = 1 then 0x41 else 0o666⟩

def creatingAnswers : (op : Op) → op.Answer
  | .openFile .. => .ok 5
  | .addFd _ => .ok 4
  | .respond _ => .ok ()
  | op => projectedMemory.answers op

def host022 : MaskHost := ⟨0o22, OsStr.normalize⟩

/-- An empty host, and guests with the supervisor's umask. -/
def emptyHost : MaskConfig := ⟨State.new oneBind, fun _ => 0o22, fun _ => none⟩

def withMask (mask : UInt32) : MaskConfig :=
  { emptyHost with umask := Function.update emptyHost.umask 100 (mask &&& 0o777) }

def traceX : Trace := (handle (State.new oneBind) createX).trace creatingAnswers

def withX (mask : UInt32) : MaskConfig :=
  { withMask mask with modes := traceX.foldl host022.step emptyHost.modes }

/-- The caller sets its umask and creates the file. -/
def maskRun (mask : UInt32) : List (Move MaskConfig MaskLabel) :=
  [⟨emptyHost, .umask 100 mask, withMask mask⟩,
    ⟨withMask mask, .create createX creatingAnswers 0o666 [nameA, nameX] traceX, withX mask⟩]

theorem maskRun_moves (mask : UInt32) :
    Moves (MaskStep host022) emptyHost (maskRun mask) (withX mask) := by
  have hrequests : Requests createX creatingAnswers 0o666 (AT_FDCWD, 64) :=
    @Requests.opens createX creatingAnswers ⟨AT_FDCWD, 64, 0x41, 0o666⟩ List.mem_cons_self rfl
      (by decide)
  have hx : Exec (Observed creatingAnswers) (handle (State.new oneBind) createX) traceX
      (some (State.new oneBind, .ok ())) :=
    exec_eval creatingAnswers (fun _ _ => rfl) _
  have hcreate : MaskStep host022 (withMask mask)
      (.create createX creatingAnswers 0o666 [nameA, nameX] traceX) (withX mask) :=
    .create hrequests rfl hx .supervisor
  exact .snoc (.snoc .nil .umask) hcreate

theorem umask_honoured_022 : Moves (MaskStep host022) emptyHost (maskRun 0o22) (withX 0o22) ∧
    ∀ t ∈ maskRun 0o22, Masked t := by
  refine ⟨maskRun_moves 0o22, (umask_honoured (maskRun_moves 0o22)).1 fun t ht => ?_⟩
  rcases List.mem_cons.mp ht with rfl | ht
  · trivial
  · rw [List.mem_singleton.mp ht]
    exact fun _ => rfl

/-- With umask 077 the file is created with mode 0644, and everybody can read it. -/
theorem umask_ignored : Moves (MaskStep host022) emptyHost (maskRun 0o77) (withX 0o77) ∧
    (withX 0o77).modes [nameS, nameX] = some 0o644 ∧ permissions 0o666 0o77 = 0o600 ∧
    ¬ ∀ t ∈ maskRun 0o77, Masked t := by
  have hbits : (withX 0o77).modes [nameS, nameX] = some 0o644 := by decide
  refine ⟨maskRun_moves 0o77, hbits, by decide, fun h => ?_⟩
  have hmasked := h _ (List.mem_of_getElem? (i := 1) rfl) _ _ rfl hbits
  exact absurd hmasked (by decide)

end PathShim
