import PathShim.Inherit
import PathShim.Bind.Reverse
import PathShim.Linux.Memory
import PathShim.Linux.Routing

/-!
# The kernel beside the supervisor

Processes with a working directory and descriptors of their own, all naming
host directories of a tree without symbolic links. What the supervisor reads
from `/proc` is fixed by such a world, and so is the guest path an operand
resolves to; the kernel itself takes the raw pathname from its own directory.
-/

namespace PathShim

open UnixPath Effects

-- ---------------------------------------------------------------------------
-- Worlds
-- ---------------------------------------------------------------------------

/-- `cwd` and `fds` belong to a thread group, `tgid` and `parent` are what the status file
of a task says, and `isDirectory` is about host paths. -/
structure World where
  tgid : Pid → Option Pid
  parent : Pid → Option Pid
  cwd : Pid → AbsPath
  fds : Pid → Fd → Option AbsPath
  isDirectory : AbsPath → Bool

namespace World

variable {w : World} {s : State} {m : Memory} {pid : Pid}

def key (w : World) (pid : Pid) : Pid := (w.tgid pid).getD pid

def Alive (w : World) (pid : Pid) : Prop := w.tgid pid ≠ none

instance : Decidable (w.Alive pid) := inferInstanceAs (Decidable (w.tgid pid ≠ none))

/-- The kernel's answers to what the supervisor asks about task `pid`, whose memory is `m`. -/
def Answers (w : World) (m : Memory) (pid : Pid) : Env Op.Answer
  | .processVmReadv target address length, r => target = pid → r = m.read address length
  | .processStatusField target .tgid, r => r = w.tgid target
  | .processStatusField target .ppid, r => r = w.parent target
  | .readFdLink target fd, r =>
    (∀ host, w.fds (w.key target) fd = some host → r = .ok host.toPath) ∧
      (w.fds (w.key target) fd = none → ∃ e, r = .error e)
  | .readCwdLink target, r => r = .ok (w.cwd (w.key target)).toPath
  | .canonicalize path, r => r = .ok path.normalize.toPath ∨ ∃ e, r = .error e
  | .metadata path, r => (∀ e, r = .error e → errno e ≠ 0) ∧
    (w.isDirectory path.normalize = true ↔ ∃ metadata, r = .ok metadata ∧ metadata.isDir = true)
  | _, _ => True

/-- Such answers, with every response delivered. -/
def answers (w : World) (m : Memory) : (op : Op) → op.Answer
  | .processStatusField target .tgid => w.tgid target
  | .processStatusField target .ppid => w.parent target
  | .readFdLink target fd =>
    match w.fds (w.key target) fd with
    | some host => .ok host.toPath
    | none => .error (.os ENOENT)
  | .readCwdLink target => .ok (w.cwd (w.key target)).toPath
  | .canonicalize path => .ok path.normalize.toPath
  | .metadata path => if w.isDirectory path.normalize then .ok ⟨0, .dir⟩ else .error (.os ENOENT)
  | .respond _ => .ok ()
  | op => m.answers op

theorem answers_allowed (op : Op) : w.Answers m pid op (w.answers m op) := by
  cases op with
  | processVmReadv => exact fun _ => rfl
  | processStatusField target field => cases field <;> rfl
  | readFdLink target fd =>
    constructor
    · intro host h
      simp [answers, h]
    · intro h
      exact ⟨.os ENOENT, by simp [answers, h]⟩
  | readCwdLink => rfl
  | canonicalize => exact .inl rfl
  | metadata path =>
    by_cases hdir : w.isDirectory path.normalize = true
    · simp [Answers, answers, hdir, Metadata.isDir]
    · simp [Answers, answers, hdir, errno, IoError.rawOsError, ENOENT]
  | _ => trivial

theorem answers_memory : m.Answers pid (w.Answers m pid) := fun _ _ _ h => h rfl

/-- The process whose record `virtual_cwd` looks at after that of `current`. -/
def up (w : World) (current : Pid) : Option Pid :=
  match w.parent current with
  | none => none
  | some parent => if parent = 0 ∨ parent = current then none else some (w.key parent)

/-- What `virtual_cwd` returns in this world. -/
def virtualCwd (w : World) (s : State) (pid : Pid) : Option AbsPath :=
  Inherit.find w.up s.virtualCwds 16 (w.key pid)

/-- `pid` would see a record of process `key`. -/
def Inherits (w : World) (s : State) (key pid : Pid) : Bool :=
  Inherit.reaches w.up s.virtualCwds key 16 (w.key pid)

theorem exec_processKey {target key : Pid} {tr : Trace}
    (h : Exec (w.Answers m pid) (processKey target) tr (some key)) : key = w.key target := by
  obtain ⟨r, rest, hr, hrest, -⟩ := exec_perform_bind.mp h
  obtain rfl : r = w.tgid target := hr
  exact Option.some.inj (exec_ret.mp hrest).2

theorem exec_virtualCwdLoop {turns : Nat} {current : Pid} {tr : Trace} {c : Option AbsPath}
    (h : Exec (w.Answers m pid) (virtualCwdLoop s turns current) tr (some c)) :
    c = Inherit.find w.up s.virtualCwds turns current := by
  induction turns generalizing current tr with
  | zero => exact Option.some.inj (exec_ret.mp h).2
  | succ turns ih =>
    unfold virtualCwdLoop at h
    unfold Inherit.find
    cases hown : s.virtualCwds current with
    | some path =>
      rw [hown] at h
      exact Option.some.inj (exec_ret.mp h).2
    | none =>
      rw [hown] at h
      obtain ⟨r, rest, hr, hrest, -⟩ := exec_perform_bind.mp h
      obtain rfl : r = w.parent current := hr
      unfold up
      cases hparent : w.parent current with
      | none =>
        rw [hparent] at hrest
        exact Option.some.inj (exec_ret.mp hrest).2
      | some parent =>
        rw [hparent] at hrest
        dsimp only at hrest ⊢
        split at hrest
        · rename_i htop
          rw [if_pos htop]
          exact Option.some.inj (exec_ret.mp hrest).2
        · rename_i htop
          rw [if_neg htop]
          rcases exec_bind.mp hrest with ⟨key, first, last, hkey, hlast, -⟩ | ⟨-, hnone⟩
          · obtain rfl := exec_processKey hkey
            exact ih hlast
          · cases hnone

theorem exec_virtualCwd {target : Pid} {tr : Trace} {c : Option AbsPath}
    (h : Exec (w.Answers m pid) (PathShim.virtualCwd s target) tr (some c)) :
    c = w.virtualCwd s target := by
  rcases exec_bind.mp h with ⟨key, first, rest, hkey, hrest, -⟩ | ⟨-, hnone⟩
  · obtain rfl := exec_processKey hkey
    exact exec_virtualCwdLoop hrest
  · cases hnone

-- ---------------------------------------------------------------------------
-- Descriptors and bases
-- ---------------------------------------------------------------------------

/-- The directory tracked for a descriptor that still is that directory. -/
def tracked (w : World) (s : State) (pid : Pid) (fd : Fd) : Option OpenDirectory :=
  (s.directories (w.key pid, fd)).filter fun directory =>
    w.fds (w.key pid) fd = some (s.view.locate directory.path)

theorem exec_directoryFdMatches {target : Pid} {fd : Fd} {directory : OpenDirectory} {tr : Trace}
    {matching : Bool}
    (h : Exec (w.Answers m pid) (directoryFdMatches s target fd directory) tr (some matching)) :
    matching = decide (w.fds (w.key target) fd = some (s.view.locate directory.path)) := by
  obtain ⟨r, rest, ⟨hsome, hnone⟩, hrest, -⟩ := exec_perform_bind.mp h
  cases hfd : w.fds (w.key target) fd with
  | none =>
    obtain ⟨e, rfl⟩ := hnone hfd
    simpa using (exec_ret.mp hrest).2
  | some host =>
    obtain rfl := hsome host hfd
    obtain ⟨r', rest', hr', hrest', -⟩ := exec_perform_bind.mp hrest
    -- the host tree has no links, so both ways of comparing agree
    have hsame (path : OsStr)
        (hpath : path.components = (s.view.locate directory.path).toPath.components) :
        samePath path host.toPath = decide (some host = some (s.view.locate directory.path)) := by
      rw [Bool.eq_iff_iff, samePath_iff, hpath, decide_eq_true_eq, Option.some.injEq]
      exact ⟨fun h => (components_toPath_inj h).symm, fun h => by rw [h]⟩
    have hexpected := s.view.components_resolveRead directory.path.toPath
    rw [AbsPath.normalize_toPath] at hexpected
    rcases hr' with rfl | ⟨e, rfl⟩
    · have hmatching := Option.some.inj (exec_ret.mp hrest').2
      rw [hmatching, hsame]
      rw [s.view.normalize_resolveRead, AbsPath.normalize_toPath]
    · have hmatching := Option.some.inj (exec_ret.mp hrest').2
      rw [hmatching, hsame _ hexpected]

theorem exec_trackedDirectory {target : Pid} {fd : Fd} {tr : Trace} {d : Option OpenDirectory}
    (h : Exec (w.Answers m pid) (trackedDirectory s target fd) tr (some d)) :
    d = w.tracked s target fd := by
  rcases exec_bind.mp h with ⟨key, first, rest, hkey, hrest, -⟩ | ⟨-, hnone⟩
  · obtain rfl := exec_processKey hkey
    unfold tracked
    cases hdirectory : s.directories (w.key target, fd) with
    | none =>
      rw [hdirectory] at hrest
      exact Option.some.inj (exec_ret.mp hrest).2
    | some directory =>
      rw [hdirectory] at hrest
      rcases exec_bind.mp hrest with ⟨matching, second, last, hmatch, hlast, -⟩ | ⟨-, hnone⟩
      · rw [exec_directoryFdMatches hmatch] at hlast
        rw [Option.filter]
        split at hlast <;> simp_all
      · cases hnone
  · cases hnone

end World

/-- The guest path the supervisor gives a host directory. -/
def BindView.guestOf (view : BindView) (host : AbsPath) : AbsPath :=
  (view.virtualForHost host.toPath).normalize

namespace World

variable {w : World} {s : State} {m : Memory} {pid : Pid}

/-- The guest directory a relative pathname starts from. -/
def base (w : World) (s : State) (pid : Pid) (dirfd : Fd) : Option AbsPath :=
  if dirfd = AT_FDCWD then
    some ((w.virtualCwd s pid).getD (s.view.guestOf (w.cwd (w.key pid))))
  else
    match w.tracked s pid dirfd with
    | some directory => some directory.path
    | none => (w.fds (w.key pid) dirfd).map s.view.guestOf

/-- What `resolve_path` makes of a pathname; `none` when it is an error. -/
def resolve (w : World) (s : State) (pid : Pid) (dirfd : Fd) (raw : OsStr) : Option AbsPath :=
  if raw.bytes = [] then none
  else if raw.isAbsolute then some raw.normalize
  else (w.base s pid dirfd).map fun base => lexical base (steps raw.bytes)

theorem exec_processCwd {target : Pid} {base : OsStr} {tr : Trace}
    (h : Exec (w.Answers m pid) (processCwd target s) tr (some base)) :
    base = s.view.virtualForHost (w.cwd (w.key target)).toPath := by
  obtain ⟨r, rest, hr, hrest, -⟩ := exec_perform_bind.mp h
  obtain rfl : r = .ok (w.cwd (w.key target)).toPath := hr
  exact Option.some.inj (exec_ret.mp hrest).2

theorem exec_resolvePath {target : Pid} {dirfd : Fd} {raw : OsStr} {tr : Trace}
    {r : IoResult AbsPath}
    (h : Exec (w.Answers m pid) (resolvePath s target dirfd raw) tr (some r)) :
    r.toOption = w.resolve s target dirfd raw := by
  unfold resolvePath at h
  unfold resolve
  split at h
  · rename_i hempty
    rw [if_pos hempty, Option.some.inj (exec_ret.mp h).2]
    rfl
  · rename_i hempty
    rw [if_neg hempty]
    split at h
    · rename_i habs
      rw [if_pos habs, Option.some.inj (exec_ret.mp h).2]
      simp [Except.toOption]
    · rename_i habs
      rw [if_neg habs]
      have hjoin (base : OsStr) :
          (base.join raw).normalize = lexical base.normalize (steps raw.bytes) :=
        OsStr.normalize_join (by simpa using habs)
      unfold base
      split at h
      · rename_i hcwd
        rw [if_pos hcwd]
        rcases exec_bind.mp h with ⟨c, first, rest, hc, hrest, -⟩ | ⟨-, hnone⟩
        · obtain rfl := exec_virtualCwd hc
          cases hown : w.virtualCwd s target with
          | some cwd =>
            rw [hown] at hrest
            rw [Option.some.inj (exec_ret.mp hrest).2]
            simp [Except.toOption, hjoin]
          | none =>
            rw [hown] at hrest
            rcases exec_bind.mp hrest with ⟨cwd, second, last, hcwd, hlast, -⟩ | ⟨-, hnone⟩
            · obtain rfl := exec_processCwd hcwd
              rw [Option.some.inj (exec_ret.mp hlast).2]
              simp [Except.toOption, hjoin, BindView.guestOf]
            · cases hnone
        · cases hnone
      · rename_i hcwd
        rw [if_neg hcwd]
        rcases exec_bind.mp h with ⟨d, first, rest, hd, hrest, -⟩ | ⟨-, hnone⟩
        · obtain rfl := exec_trackedDirectory hd
          cases htracked : w.tracked s target dirfd with
          | some directory =>
            rw [htracked] at hrest
            rw [Option.some.inj (exec_ret.mp hrest).2]
            simp [Except.toOption, hjoin]
          | none =>
            rw [htracked] at hrest
            obtain ⟨r', last, ⟨hsome, hnone⟩, hlast, -⟩ := exec_perform_bind.mp hrest
            cases hfd : w.fds (w.key target) dirfd with
            | none =>
              obtain ⟨e, rfl⟩ := hnone hfd
              rw [Option.some.inj (exec_ret.mp hlast).2]
              rfl
            | some host =>
              obtain rfl := hsome host hfd
              rw [Option.some.inj (exec_ret.mp hlast).2]
              simp [Except.toOption, hjoin, BindView.guestOf]
        · cases hnone

end World

/-- The pathname the supervisor reads at an address. -/
def Memory.pathname (m : Memory) (pid : Pid) (address : UInt64) : Option OsStr :=
  ((readPath pid address).eval m.answers).bind Except.toOption

theorem exec_pathname {E : Env Op.Answer} {m : Memory} {pid : Pid} {address : UInt64} {tr : Trace}
    {r : IoResult OsStr} (hE : m.Answers pid E) (h : Exec E (readPath pid address) tr (some r)) :
    r.toOption = m.pathname pid address := by
  have hcalls : (readPath pid address).Calls
      fun op => ∃ start length, op = .processVmReadv pid start length :=
    calls_readPath (fun start length => ⟨start, length, rfl⟩) address
  have heval : some r = (readPath pid address).eval m.answers := by
    refine (h.eq_eval hcalls ?_).2
    rintro _ r ⟨start, length, rfl⟩ hr
    exact hE _ _ _ hr
  rw [Memory.pathname, ← heval]
  rfl

/-- It is the one the kernel finds there. -/
theorem Memory.holds_pathname {m : Memory} {pid : Pid} {address : UInt64} {raw : OsStr}
    (h : m.pathname pid address = some raw) : m.Holds address raw := by
  obtain ⟨r, heval, hr⟩ := Option.bind_eq_some_iff.mp h
  have hx := exec_eval (E := fun op r => r = m.answers op) m.answers (fun _ => rfl)
    (readPath pid address)
  rw [heval] at hx
  cases r with
  | error e => cases hr
  | ok raw' =>
    obtain rfl := Option.some.inj hr
    exact Memory.exec_readPath (fun _ _ _ h => h) hx

namespace World

variable {w : World} {s : State} {m : Memory} {pid : Pid}

/-- The guest path of an operand; `none` when it is an error. -/
def operand (w : World) (m : Memory) (s : State) (pid : Pid) (dirfd : Fd) (address : UInt64) :
    Option AbsPath := (m.pathname pid address).bind (w.resolve s pid dirfd)

theorem exec_readAndResolve {notif : SeccompNotif} {dirfd : Fd} {address : UInt64} {tr : Trace}
    {r : IoResult AbsPath}
    (h : Exec (w.Answers m notif.pid) (readAndResolve s notif dirfd address) tr (some r)) :
    r.toOption = w.operand m s notif.pid dirfd address := by
  unfold operand
  rcases exec_bind.mp h with ⟨raw, first, rest, hread, hrest, -⟩ | ⟨-, hnone⟩
  · rw [← exec_pathname answers_memory hread]
    cases raw with
    | error e =>
      rw [Option.some.inj (exec_ret.mp hrest).2]
      rfl
    | ok raw => exact exec_resolvePath hrest
  · cases hnone

-- ---------------------------------------------------------------------------
-- The kernel's own resolution
-- ---------------------------------------------------------------------------

/-- The directory the kernel itself starts from. -/
def directory (w : World) (pid : Pid) (dirfd : Fd) : Option AbsPath :=
  if dirfd = AT_FDCWD then some (w.cwd (w.key pid)) else w.fds (w.key pid) dirfd

/-- The host path the kernel reaches from a raw pathname. -/
def kernelPath (w : World) (pid : Pid) (dirfd : Fd) (raw : OsStr) : Option AbsPath :=
  if raw.isAbsolute then some raw.normalize
  else (w.directory pid dirfd).map fun directory => lexical directory (steps raw.bytes)

/-- A relative pathname that starts inside a bind and leads out of it climbs to a directory
that the kernel comes to as well, from its own directory and by as many levels. -/
def ClimbsAlike (w : World) (s : State) (pid : Pid) (dirfd : Fd) (raw : OsStr) : Prop :=
  raw.isAbsolute = false → ∀ base directory, w.base s pid dirfd = some base →
    w.directory pid dirfd = some directory → s.view.Projected base →
    ¬ s.view.Projected (lexical base (steps raw.bytes)) →
    base.up (climb (steps raw.bytes)).1 = directory.up (climb (steps raw.bytes)).1

end World

/-- A host directory is its own guest path, or lies in a source and comes back inside a bind. -/
theorem BindView.guestOf_cases (view : BindView) (host : AbsPath) :
    view.guestOf host = host ∨ view.Projected (view.guestOf host) := by
  by_cases hsource : ∃ p ∈ view.projections, p.source <+: host
  · obtain ⟨q, hq, hqc⟩ := hsource
    obtain ⟨p, hback⟩ := BindView.Back.exists hq hqc
    obtain ⟨hp, rest, rfl⟩ := hback.covers
    right
    rw [guestOf, normalize_virtualForHost rfl hback]
    exact ⟨p.mount, List.mem_map_of_mem hp, List.prefix_append _ _⟩
  · left
    have hno : ∀ p ∈ view.projections, ¬ p.source <+: host := fun p hp hc => hsource ⟨p, hp, hc⟩
    rw [guestOf, virtualForHost_of_no_source rfl hno, AbsPath.normalize_toPath]

/-- Only directories inside binds are tracked. -/
def State.TracksProjected (s : State) : Prop :=
  ∀ key directory, s.directories key = some directory → s.view.Projected directory.path

namespace World

variable {w : World} {s : State} {m : Memory} {pid : Pid}

/-- What the supervisor believes about working directories outside the binds is true. -/
def CwdAgrees (w : World) (s : State) : Prop :=
  ∀ pid c, w.Alive pid → w.virtualCwd s pid = some c → ¬ s.view.Projected c → w.cwd (w.key pid) = c

/-- The supervisor's base for a relative pathname lies in a bind or is the kernel's. -/
theorem base_cases {dirfd : Fd} {base : AbsPath} (hcwd : w.CwdAgrees s)
    (htracks : s.TracksProjected) (halive : w.Alive pid) (h : w.base s pid dirfd = some base) :
    s.view.Projected base ∨ w.directory pid dirfd = some base := by
  unfold World.base at h
  unfold World.directory
  split at h
  · rename_i hfd
    rw [if_pos hfd]
    obtain rfl := Option.some.inj h
    cases hown : w.virtualCwd s pid with
    | some c =>
      by_cases hp : s.view.Projected c
      · exact .inl hp
      · exact .inr (congrArg some (hcwd pid c halive hown hp))
    | none =>
      rcases s.view.guestOf_cases (w.cwd (w.key pid)) with heq | hp
      · exact .inr (congrArg some heq.symm)
      · exact .inl hp
  · rename_i hfd
    rw [if_neg hfd]
    cases htracked : w.tracked s pid dirfd with
    | some directory =>
      rw [htracked] at h
      obtain rfl := Option.some.inj h
      exact .inl (htracks _ _ (Option.mem_filter_iff.mp htracked).1)
    | none =>
      rw [htracked] at h
      obtain ⟨host, hhost, rfl⟩ := Option.map_eq_some_iff.mp h
      rcases s.view.guestOf_cases host with heq | hp
      · exact .inr (hhost.trans (congrArg some heq.symm))
      · exact .inl hp

theorem exists_directory {dirfd : Fd} {base : AbsPath} (h : w.base s pid dirfd = some base) :
    ∃ directory, w.directory pid dirfd = some directory := by
  unfold World.base at h
  unfold World.directory
  split at h
  · rename_i hfd
    exact ⟨_, if_pos hfd⟩
  · rename_i hfd
    rw [if_neg hfd]
    cases htracked : w.tracked s pid dirfd with
    | some directory =>
      exact ⟨_, of_decide_eq_true (Option.mem_filter_iff.mp htracked).2⟩
    | none =>
      rw [htracked] at h
      obtain ⟨host, hhost, -⟩ := Option.map_eq_some_iff.mp h
      exact ⟨host, hhost⟩

/-- An operand outside the binds is where the kernel looks for it. -/
theorem kernelPath_of_resolve {dirfd : Fd} {raw : OsStr} {v : AbsPath} (hcwd : w.CwdAgrees s)
    (htracks : s.TracksProjected) (halive : w.Alive pid)
    (hclimb : w.ClimbsAlike s pid dirfd raw)
    (hv : w.resolve s pid dirfd raw = some v) (hout : ¬ s.view.Projected v) :
    w.kernelPath pid dirfd raw = some v := by
  unfold World.resolve at hv
  unfold World.kernelPath
  split at hv
  · cases hv
  · split at hv
    · rename_i habs
      rw [if_pos habs]
      exact hv
    · rename_i habs
      rw [if_neg habs]
      obtain ⟨base, hbase, rfl⟩ := Option.map_eq_some_iff.mp hv
      obtain ⟨directory, hdir⟩ := exists_directory hbase
      rw [hdir, Option.map_some]
      rcases base_cases hcwd htracks halive hbase with hp | hsame
      · have hup := hclimb (by simpa using habs) base directory hbase hdir hp hout
        rw [lexical_eq_climb, lexical_eq_climb, hup]
      · obtain rfl := Option.some.inj (hdir.symm.trans hsame)
        rfl

end World

end PathShim
