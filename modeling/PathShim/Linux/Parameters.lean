import PathShim.Linux.FallThrough

/-!
# Declared parameters

The registers of a notification hold more than the system call declares: ones it
does not take, and the upper parts of those it does. Two notifications that
differ only there make most handlers do the same.
-/

namespace PathShim

open UnixPath Effects

-- ---------------------------------------------------------------------------
-- Declared parameters
-- ---------------------------------------------------------------------------

/-- What the kernel takes of a register. -/
inductive Width where
  | long
  | int
  | umode

def Width.Same : Width → UInt64 → UInt64 → Prop
  | .long, x, y => x = y
  | .int, x, y => x.toUInt32 = y.toUInt32
  | .umode, x, y => x.toUInt16 = y.toUInt16

/-- The parameters that the system calls of x86_64 declare. -/
def parameters : Syscall → List Width
  | .sysExecve => [.long, .long, .long]
  | .sysExecveat => [.int, .long, .long, .long, .int]
  | .sysOpen => [.long, .int, .umode]
  | .sysOpenat => [.int, .long, .int, .umode]
  | .sysOpenat2 => [.int, .long, .long, .long]
  | .sysNewfstatat => [.int, .long, .long, .int]
  | .sysStatx => [.int, .long, .int, .int, .long]
  | .sysAccess => [.long, .int]
  | .sysFaccessat => [.int, .long, .int]
  | .sysFaccessat2 => [.int, .long, .int, .int]
  | .sysMkdir | .sysChmod => [.long, .umode]
  | .sysMkdirat | .sysFchmodat => [.int, .long, .umode]
  | .sysUnlink | .sysRmdir | .sysChdir => [.long]
  | .sysUnlinkat => [.int, .long, .int]
  | .sysRename | .sysSymlink | .sysGetcwd | .sysTruncate => [.long, .long]
  | .sysRenameat => [.int, .long, .int, .long]
  | .sysRenameat2 => [.int, .long, .int, .long, .int]
  | .sysReadlink => [.long, .long, .int]
  | .sysReadlinkat => [.int, .long, .long, .int]
  | .sysSymlinkat => [.long, .int, .long]
  | .sysGetdents64 => [.int, .long, .int]
  | .sysFchdir => [.int]
  | .sysChown | .sysLchown => [.long, .int, .int]
  | .sysFchownat => [.int, .long, .int, .int, .int]
  | .sysUtimensat => [.int, .long, .long, .int]
  | .other _ => []

/-- The same call of the same process, as far as the kernel looks. -/
structure SameParameters (notif notif' : SeccompNotif) : Prop where
  pid : notif'.pid = notif.pid
  nr : notif'.data.nr = notif.data.nr
  args : ∀ (i : Fin 6) (width : Width), (parameters notif.data.nr)[i.val]? = some width →
    width.Same (notif.data.args i) (notif'.data.args i)

section
variable {notif notif' : SeccompNotif} (h : SameParameters notif notif') {i : Fin 6}
include h

theorem SameParameters.symm : SameParameters notif' notif where
  pid := h.pid.symm
  nr := h.nr.symm
  args i width hwidth := by
    rw [h.nr] at hwidth
    have hsame := h.args i width hwidth
    cases width <;> exact hsame.symm

theorem SameParameters.long (hwidth : (parameters notif.data.nr)[i.val]? = some .long) :
    notif'.data.args i = notif.data.args i := (h.args i .long hwidth).symm

theorem SameParameters.int (hwidth : (parameters notif.data.nr)[i.val]? = some .int) :
    asI32 (notif'.data.args i) = asI32 (notif.data.args i) :=
  congrArg UInt32.toInt32 (h.args i .int hwidth).symm

theorem SameParameters.unsigned (hwidth : (parameters notif.data.nr)[i.val]? = some .int) :
    asU32 (notif'.data.args i) = asU32 (notif.data.args i) := (h.args i .int hwidth).symm

theorem SameParameters.umode (hwidth : (parameters notif.data.nr)[i.val]? = some .umode) :
    (asU32 (notif'.data.args i)).toUInt16 = (asU32 (notif.data.args i)).toUInt16 := by
  have hsame : (notif.data.args i).toUInt16 = (notif'.data.args i).toUInt16 :=
    h.args i .umode hwidth
  simp only [asU32, UInt64.toUInt16_toUInt32]
  exact hsame.symm

end

-- ---------------------------------------------------------------------------
-- Programs that are seen alike
-- ---------------------------------------------------------------------------

/-- A call as the kernel sees it: file modes have sixteen bits, and the id of a notification is
only the address of the reply. -/
def seen : Event Op.Answer → Event Op.Answer
  | ⟨.openFile path flags mode, r⟩ => ⟨.openFile path flags mode.toUInt16.toUInt32, r⟩
  | ⟨.createDir path mode, r⟩ => ⟨.createDir path mode.toUInt16.toUInt32, r⟩
  | ⟨.chmod path mode, r⟩ => ⟨.chmod path mode.toUInt16.toUInt32, r⟩
  | ⟨.addFd request, r⟩ => ⟨.addFd { request with id := 0 }, r⟩
  | ⟨.respond response, r⟩ => ⟨.respond { response with id := 0 }, r⟩
  | e => e

/-- Calls that only look, of which links are read for the tracee. -/
def Op.Reveals : Op → Prop
  | .readLink _ => True
  | op => op.Observes

/-- What is looked at is fixed, other answers are any. -/
def Revealed (ans : (op : Op) → op.Answer) : Env Op.Answer := fun op r => op.Reveals → r = ans op

/-- Whatever `p` can do, `q` can do alike, with the same result. -/
def Follows (ans : (op : Op) → op.Answer) (p q : Sup α) : Prop :=
  ∀ tr out, Exec (Revealed ans) p tr out →
    ∃ tr', Exec (Revealed ans) q tr' out ∧ tr'.map seen = tr.map seen

/-- The same host operations, the same reply and the same change of state. -/
def HandledAlike (ans : (op : Op) → op.Answer) (p q : Sup α) : Prop :=
  Follows ans p q ∧ Follows ans q p

section
variable {ans : (op : Op) → op.Answer}

theorem reads_reveals : Reads Op.Reveals :=
  ⟨fun _ _ _ => trivial, fun _ _ => trivial, fun _ _ => trivial, fun _ => trivial⟩

/-- A program that only looks ends in one way. -/
theorem eval_of_revealed {p : Sup α} {a : α} (hcalls : p.Calls Op.Reveals)
    (h : Returns (Revealed ans) p a) : p.eval ans = some a :=
  h.eval hcalls fun _ _ ho hr => hr ho

theorem Follows.refl (p : Sup α) : Follows ans p p := fun tr _ hx => ⟨tr, hx, rfl⟩

theorem Follows.bind {p q : Sup α} {f g : α → Sup β} (hp : Follows ans p q)
    (hf : ∀ a, Returns (Revealed ans) p a → Follows ans (f a) (g a)) :
    Follows ans (p >>= f) (q >>= g) := by
  intro tr out hx
  rcases exec_bind.mp hx with ⟨a, first, rest, hfirst, hrest, rfl⟩ | ⟨hnone, rfl⟩
  · obtain ⟨first', hfirst', hseen⟩ := hp first _ hfirst
    obtain ⟨rest', hrest', hseen'⟩ := hf a ⟨first, hfirst⟩ rest out hrest
    refine ⟨first' ++ rest', exec_bind.mpr (.inl ⟨a, first', rest', hfirst', hrest', rfl⟩), ?_⟩
    rw [List.map_append, List.map_append, hseen, hseen']
  · obtain ⟨tr', hnone', hseen⟩ := hp tr _ hnone
    exact ⟨tr', exec_bind.mpr (.inr ⟨hnone', rfl⟩), hseen⟩

/-- The same first part. -/
theorem Follows.after {p : Sup α} {f g : α → Sup β}
    (hf : ∀ a, Returns (Revealed ans) p a → Follows ans (f a) (g a)) :
    Follows ans (p >>= f) (p >>= g) := .bind (.refl p) hf

/-- The same looks, with one result: what comes next decides. -/
theorem Follows.rest {p : Sup α} {f g : α → Sup β} {a : α} (h : Follows ans (p >>= f) (p >>= g))
    (hcalls : p.Calls Op.Reveals) (ha : p.eval ans = some a) : Follows ans (f a) (g a) := by
  intro tr out hx
  have hfirst : Exec (Revealed ans) p (p.trace ans) (some a) := by
    rw [← ha]
    exact exec_eval ans (fun _ _ => rfl) p
  obtain ⟨tr', hx', hseen⟩ := h _ out (exec_bind.mpr (.inl ⟨a, _, tr, hfirst, hx, rfl⟩))
  have hfixed {first : Trace} {r : Option α} (hp : Exec (Revealed ans) p first r) :
      first = p.trace ans ∧ r = some a := by
    rw [← ha]
    exact hp.eq_eval hcalls fun _ _ ho hr => hr ho
  rcases exec_bind.mp hx' with ⟨b, first, rest, hp, hrest, rfl⟩ | ⟨hp, -⟩
  · obtain ⟨rfl, hb⟩ := hfixed hp
    obtain rfl := Option.some.inj hb
    rw [List.map_append, List.map_append] at hseen
    exact ⟨rest, hrest, List.append_cancel_left hseen⟩
  · exact absurd (hfixed hp).2.symm (Option.some_ne_none a)

/-- Programs that begin with a call begin alike. -/
theorem Follows.head {op op' : Op} {f : op.Answer → Sup α} {f' : op'.Answer → Sup α}
    (h : Follows ans (ask op >>= f) (ask op' >>= f')) :
    ∃ r r', seen ⟨op', r'⟩ = seen ⟨op, r⟩ := by
  have hx := exec_eval ans (E := Revealed ans) (fun _ _ => rfl) (ask op >>= f)
  obtain ⟨tr', hx', hseen⟩ := h _ _ hx
  obtain ⟨r', rest, -, -, rfl⟩ := exec_perform_bind.mp hx'
  exact ⟨ans op, r', (List.cons.inj hseen).1⟩

/-- A call that is seen alike, and reveals nothing. -/
theorem follows_ask {op op' : Op} {f : op.Answer → Sup α} {f' : op'.Answer → Sup α}
    (same : op.Answer → op'.Answer) (hop : ¬ op'.Reveals)
    (hseen : ∀ r, seen ⟨op', same r⟩ = seen ⟨op, r⟩)
    (hnext : ∀ r, Follows ans (f r) (f' (same r))) :
    Follows ans (ask op >>= f) (ask op' >>= f') := by
  intro tr out hx
  obtain ⟨r, rest, -, hrest, rfl⟩ := exec_perform_bind.mp hx
  obtain ⟨rest', hrest', hsame⟩ := hnext r rest out hrest
  refine ⟨⟨op', same r⟩ :: rest', exec_perform_bind.mpr ⟨same r, rest', ?_, hrest', rfl⟩, ?_⟩
  · exact fun h => absurd h hop
  · rw [List.map_cons, List.map_cons, hseen, hsame]

theorem follows_respond (id id' : UInt64) (value error : Int) (flags : UInt32) :
    Follows ans (respond ⟨id, value, error, flags⟩)
      (respond ⟨id', value, error, flags⟩) :=
  follows_ask (fun r => r) not_false (fun _ => rfl) fun _ => .refl _

theorem follows_result (id id' : UInt64) (r : Except Errno Nat) :
    Follows ans (respondResult id r) (respondResult id' r) := by
  cases r <;> exact follows_respond _ _ _ _ _

theorem follows_orRespond (id id' : UInt64) {x x' : Sup (IoResult α)}
    {next next' : α → Sup (IoResult Unit)} (hx : Follows ans x x')
    (hnext : ∀ a, Returns (Revealed ans) x (.ok a) → Follows ans (next a) (next' a)) :
    Follows ans (orRespond id x next) (orRespond id' x' next') := by
  refine hx.bind fun r hr => ?_
  cases r with
  | error e => exact follows_respond _ _ _ _ _
  | ok a => exact hnext a hr

theorem follows_answered (s : State) {reply reply' : Sup (IoResult Unit)}
    (h : Follows ans reply reply') :
    Follows ans (answered s reply) (answered s reply') := h.bind fun _ _ => .refl _

theorem follows_orRespondIn (s : State) (id id' : UInt64) {x x' : Sup (IoResult α)}
    {next next' : α → Sup (State × IoResult Unit)} (hx : Follows ans x x')
    (hnext : ∀ a, Returns (Revealed ans) x (.ok a) → Follows ans (next a) (next' a)) :
    Follows ans (orRespondIn s id x next) (orRespondIn s id' x' next') := by
  refine hx.bind fun r hr => ?_
  cases r with
  | error e => exact follows_answered s (follows_respond _ _ _ _ _)
  | ok a => exact hnext a hr

end

-- ---------------------------------------------------------------------------
-- Operands
-- ---------------------------------------------------------------------------

section
variable {state : State} {notif notif' : SeccompNotif} {ans : (op : Op) → op.Answer}
  (h : SameParameters notif notif')
include h

theorem readAndResolve_congr (dirfd : Fd) (address : UInt64) :
    readAndResolve state notif' dirfd address = readAndResolve state notif dirfd address := by
  simp only [readAndResolve, h.pid]

omit h in
theorem resolves_of_revealed {dirfd : Fd} {address : UInt64} {v : AbsPath}
    (hv : Returns (Revealed ans) (readAndResolve state notif dirfd address) (.ok v)) :
    Resolves state notif ans (dirfd, address) v :=
  eval_of_revealed (calls_readAndResolve reads_reveals fun _ => trivial) hv

theorem follows_onProjected {dirfd : Fd} {address : UInt64}
    {next next' : AbsPath → Sup (IoResult Unit)}
    (hnext : ∀ v, Resolves state notif ans (dirfd, address) v →
      state.view.projects v.toPath = true → Follows ans (next v) (next' v)) :
    Follows ans (onProjected state notif dirfd address next)
      (onProjected state notif' dirfd address next') := by
  simp only [onProjected, readAndResolve_congr h]
  refine follows_orRespond _ _ (.refl _) fun v hv => ?_
  split
  · rename_i hprojects
    exact hnext v (resolves_of_revealed hv) hprojects
  · exact follows_respond _ _ _ _ _

theorem follows_onProjectedPath {dirfd : Fd} {address : UInt64} {skip : OsStr → Bool}
    {next next' : OsStr → AbsPath → Sup (IoResult Unit)}
    (hnext : ∀ raw v, Follows ans (next raw v) (next' raw v)) :
    Follows ans (onProjectedPath state notif dirfd address skip next)
      (onProjectedPath state notif' dirfd address skip next') := by
  simp only [onProjectedPath, h.pid]
  refine follows_orRespond _ _ (.refl _) fun raw _ => ?_
  split
  · exact follows_respond _ _ _ _ _
  · refine follows_orRespond _ _ (.refl _) fun v _ => ?_
    split
    · exact hnext raw v
    · exact follows_respond _ _ _ _ _

theorem follows_returnStruct (address : UInt64) (result : Except Errno Bytes) :
    Follows ans (returnStruct notif address result)
      (returnStruct notif' address result) := by
  cases result with
  | error e => exact follows_respond _ _ _ _ _
  | ok bytes =>
    simp only [returnStruct, h.pid]
    exact follows_orRespond _ _ (.refl _) fun _ _ => follows_respond _ _ _ _ _

theorem follows_returnLink (buffer : UInt64) {size size' : Nat} {target : OsStr}
    (hsize : min size' target.bytes.length = min size target.bytes.length) :
    Follows ans (returnLink notif buffer size target)
      (returnLink notif' buffer size' target) := by
  simp only [returnLink, h.pid, hsize]
  exact follows_orRespond _ _ (.refl _) fun _ _ => follows_respond _ _ _ _ _

omit h in
theorem follows_mutate (v : AbsPath) {call call' : OsStr → Sup (Except Errno Nat)}
    (hcall : ∀ path, Follows ans (call path) (call' path)) :
    Follows ans (mutate state notif v call) (mutate state notif' v call') := by
  simp only [mutate, withCString, cString_eq]
  exact (hcall _).bind fun r _ => follows_result _ _ r

-- ---------------------------------------------------------------------------
-- Handlers
-- ---------------------------------------------------------------------------

theorem follows_execProjected (address : UInt64) (flags : Int32) (raw : OsStr) (v : AbsPath) :
    Follows ans (execProjected state notif address flags raw v)
      (execProjected state notif' address flags raw v) := by
  simp only [execProjected, h.pid]
  split
  · exact follows_respond _ _ _ _ _
  · refine follows_orRespond _ _ (.refl _) fun sourceFd _ => ?_
    refine follows_orRespond _ _ ?_ fun childFd _ => ?_
    · exact follows_ask (fun r => r) not_false (fun _ => rfl) fun _ => .refl _
    · exact follows_orRespond _ _ (.refl _) fun _ _ => follows_respond _ _ _ _ _

theorem follows_handleExec (hexec : notif.data.nr ∈ [.sysExecve, .sysExecveat]) :
    Follows ans (handleExec state notif) (handleExec state notif') := by
  rcases List.mem_pair.mp hexec with hnr | hnr
  · have h0 := h.long (i := 0) (by simp [parameters, hnr])
    simp only [handleExec, h.nr, hnr, if_true, h0]
    exact follows_onProjectedPath h (follows_execProjected h _ _)
  · have h0 := h.int (i := 0) (by simp [parameters, hnr])
    have h1 := h.long (i := 1) (by simp [parameters, hnr])
    have h4 := h.int (i := 4) (by simp [parameters, hnr])
    simp only [handleExec, h.nr, hnr, reduceCtorEq, if_false, h0, h1, h4]
    exact follows_onProjectedPath h (follows_execProjected h _ _)

theorem follows_openProjected {arguments arguments' : OpenArguments} (v : AbsPath)
    (hflags : arguments'.flags = arguments.flags)
    (hmode : arguments'.mode.toUInt16 = arguments.mode.toUInt16) :
    Follows ans (openProjected state notif arguments v)
      (openProjected state notif' arguments' v) := by
  obtain ⟨dirfd', pathAddress', flags', mode'⟩ := arguments'
  obtain rfl : flags' = arguments.flags := hflags
  have htrack (realPath : OsStr) (childFd : Fd) :
      trackOpened state notif' arguments.flags v realPath childFd =
        trackOpened state notif arguments.flags v realPath childFd := by
    simp only [trackOpened, trackDirectory, h.pid]
  simp only [openProjected, cString_eq, htrack]
  refine follows_orRespondIn state _ _ ?_ fun sourceFd _ => ?_
  · refine follows_ask (fun r => r) not_false (fun r => ?_) fun _ => .refl _
    simp only [seen]
    rw [hmode]
  · refine follows_orRespondIn state _ _ ?_ fun childFd _ => .refl _
    exact follows_ask (fun r => r) not_false (fun _ => rfl) fun _ => .refl _

theorem follows_handleOpen (hopen : notif.data.nr ∈ [.sysOpen, .sysOpenat, .sysOpenat2]) :
    Follows ans (handleOpen state notif) (handleOpen state notif') := by
  have hrest {arguments arguments' : OpenArguments} (hdirfd : arguments'.dirfd = arguments.dirfd)
      (haddress : arguments'.pathAddress = arguments.pathAddress)
      (hflags : arguments'.flags = arguments.flags)
      (hmode : arguments'.mode.toUInt16 = arguments.mode.toUInt16) :
      Follows ans
        (orRespondIn state notif.id
          (readAndResolve state notif arguments.dirfd arguments.pathAddress) fun v =>
          if state.view.projects v.toPath then openProjected state notif arguments v
          else answered state (respondContinue notif.id))
        (orRespondIn state notif'.id
          (readAndResolve state notif' arguments'.dirfd arguments'.pathAddress) fun v =>
          if state.view.projects v.toPath then openProjected state notif' arguments' v
          else answered state (respondContinue notif'.id)) := by
    rw [hdirfd, haddress, readAndResolve_congr h]
    refine follows_orRespondIn state _ _ (.refl _) fun v _ => ?_
    split
    · exact follows_openProjected h v hflags hmode
    · exact follows_answered state (follows_respond _ _ _ _ _)
  simp only [List.mem_cons, List.not_mem_nil, or_false] at hopen
  unfold handleOpen
  rcases hopen with hnr | hnr | hnr
  · have h0 := h.long (i := 0) (by simp [parameters, hnr])
    have h1 := h.int (i := 1) (by simp [parameters, hnr])
    have h2 := h.umode (i := 2) (by simp [parameters, hnr])
    simp only [openArguments, h.nr, hnr, if_true]
    exact hrest rfl h0 h1 h2
  · have h0 := h.int (i := 0) (by simp [parameters, hnr])
    have h1 := h.long (i := 1) (by simp [parameters, hnr])
    have h2 := h.int (i := 2) (by simp [parameters, hnr])
    have h3 := h.umode (i := 3) (by simp [parameters, hnr])
    simp only [openArguments, h.nr, hnr, reduceCtorEq, if_false, if_true]
    exact hrest h0 h1 h2 h3
  · have h0 := h.int (i := 0) (by simp [parameters, hnr])
    have h1 := h.long (i := 1) (by simp [parameters, hnr])
    have h2 := h.long (i := 2) (by simp [parameters, hnr])
    have harguments : openArguments notif' = openArguments notif := by
      simp only [openArguments, h.nr, hnr, reduceCtorEq, if_false, h.pid, h0, h1, h2]
    rw [harguments]
    exact follows_orRespondIn state _ _ (.refl _) fun _ _ => hrest rfl rfl rfl rfl

theorem follows_handleStat (hnr : notif.data.nr = .sysNewfstatat) :
    Follows ans (handleStat state notif) (handleStat state notif') := by
  have h0 := h.int (i := 0) (by simp [parameters, hnr])
  have h1 := h.long (i := 1) (by simp [parameters, hnr])
  have h2 := h.long (i := 2) (by simp [parameters, hnr])
  have h3 := h.int (i := 3) (by simp [parameters, hnr])
  unfold handleStat
  rw [h0, h1, h2, h3]
  refine follows_onProjectedPath h fun raw v => ?_
  simp only [withCString, cString_eq]
  exact .after fun r _ => follows_returnStruct h _ r

theorem follows_handleStatx (hnr : notif.data.nr = .sysStatx) :
    Follows ans (handleStatx state notif) (handleStatx state notif') := by
  have h0 := h.int (i := 0) (by simp [parameters, hnr])
  have h1 := h.long (i := 1) (by simp [parameters, hnr])
  have h2 := h.int (i := 2) (by simp [parameters, hnr])
  have h3 := h.unsigned (i := 3) (by simp [parameters, hnr])
  have h4 := h.long (i := 4) (by simp [parameters, hnr])
  unfold handleStatx
  rw [h0, h1, h2, h3, h4]
  refine follows_onProjectedPath h fun raw v => ?_
  simp only [withCString, cString_eq]
  exact .after fun r _ => follows_returnStruct h _ r

theorem follows_handleAccess
    (haccess : notif.data.nr ∈ [.sysAccess, .sysFaccessat, .sysFaccessat2])
    (hflags : notif.data.nr = .sysFaccessat →
      ∀ v, Resolves state notif ans (asI32 (notif.data.args 0), notif.data.args 1) v →
        state.view.projects v.toPath = true →
          asI32 (notif'.data.args 3) = asI32 (notif.data.args 3)) :
    Follows ans (handleAccess state notif) (handleAccess state notif') := by
  simp only [List.mem_cons, List.not_mem_nil, or_false] at haccess
  unfold handleAccess
  rcases haccess with hnr | hnr | hnr
  · have h0 := h.long (i := 0) (by simp [parameters, hnr])
    have h1 := h.int (i := 1) (by simp [parameters, hnr])
    rw [if_pos hnr, if_pos (h.nr.trans hnr), h0, h1]
    refine follows_onProjected h fun v _ _ => ?_
    simp only [cString_eq]
    refine .after fun r _ => ?_
    rcases r with e | ⟨⟩ <;> exact follows_respond _ _ _ _ _
  all_goals
    have h0 := h.int (i := 0) (by simp [parameters, hnr])
    have h1 := h.long (i := 1) (by simp [parameters, hnr])
    have h2 := h.int (i := 2) (by simp [parameters, hnr])
    rw [if_neg (by simp [hnr]), if_neg (by simp [h.nr, hnr]), h0, h1, h2]
    refine follows_onProjected h fun v hv hprojects => ?_
    simp only [cString_eq]
  · rw [hflags hnr v hv hprojects]
    refine .after fun r _ => ?_
    rcases r with e | ⟨⟩ <;> exact follows_respond _ _ _ _ _
  · rw [h.int (i := 3) (by simp [parameters, hnr])]
    refine .after fun r _ => ?_
    rcases r with e | ⟨⟩ <;> exact follows_respond _ _ _ _ _

theorem follows_handleMkdir (hmkdir : notif.data.nr ∈ [.sysMkdir, .sysMkdirat]) :
    Follows ans (handleMkdir state notif) (handleMkdir state notif') := by
  have hnext {mode mode' : UInt32} (hmode : mode'.toUInt16 = mode.toUInt16) (v : AbsPath) :
      Follows ans
        (orRespond notif.id (state.view.mkdir v.toPath mode) fun () => respondValue notif.id 0)
        (orRespond notif'.id (state.view.mkdir v.toPath mode') fun () =>
          respondValue notif'.id 0) := by
    refine follows_orRespond _ _ ?_ fun _ _ => follows_respond _ _ _ _ _
    refine follows_ask (f := .ret) (fun r => r) not_false (fun r => ?_) fun _ => .refl _
    simp only [seen]
    rw [hmode]
  rcases List.mem_pair.mp hmkdir with hnr | hnr
  · have h0 := h.long (i := 0) (by simp [parameters, hnr])
    simp only [handleMkdir, h.nr, hnr, if_true, h0]
    exact follows_onProjected h fun v _ _ => hnext (h.umode (by simp [parameters, hnr])) v
  · have h0 := h.int (i := 0) (by simp [parameters, hnr])
    have h1 := h.long (i := 1) (by simp [parameters, hnr])
    simp only [handleMkdir, h.nr, hnr, reduceCtorEq, if_false, h0, h1]
    exact follows_onProjected h fun v _ _ => hnext (h.umode (by simp [parameters, hnr])) v

theorem follows_handleUnlink (hunlink : notif.data.nr ∈ [.sysUnlink, .sysUnlinkat, .sysRmdir]) :
    Follows ans (handleUnlink state notif) (handleUnlink state notif') := by
  have hnext (removeDir : Bool) (v : AbsPath) : Follows ans
      (orRespond notif.id (state.view.unlink v.toPath removeDir) fun () => respondValue notif.id 0)
      (orRespond notif'.id (state.view.unlink v.toPath removeDir) fun () =>
        respondValue notif'.id 0) :=
    follows_orRespond _ _ (.refl _) fun _ _ => follows_respond _ _ _ _ _
  simp only [List.mem_cons, List.not_mem_nil, or_false] at hunlink
  rcases hunlink with hnr | hnr | hnr
  · have h0 := h.long (i := 0) (by simp [parameters, hnr])
    simp only [handleUnlink, h.nr, hnr, if_true, h0]
    exact follows_onProjected h fun v _ _ => hnext _ v
  · have h0 := h.int (i := 0) (by simp [parameters, hnr])
    have h1 := h.long (i := 1) (by simp [parameters, hnr])
    have h2 := h.int (i := 2) (by simp [parameters, hnr])
    simp only [handleUnlink, h.nr, hnr, reduceCtorEq, if_false, h0, h1, h2]
    exact follows_onProjected h fun v _ _ => hnext _ v
  · have h0 := h.long (i := 0) (by simp [parameters, hnr])
    simp only [handleUnlink, h.nr, hnr, reduceCtorEq, if_false, if_true, h0]
    exact follows_onProjected h fun v _ _ => hnext _ v

theorem renameArguments_congr
    (hrename : notif.data.nr ∈ [.sysRename, .sysRenameat, .sysRenameat2]) :
    renameArguments notif' = renameArguments notif := by
  simp only [List.mem_cons, List.not_mem_nil, or_false] at hrename
  rcases hrename with hnr | hnr | hnr
  · have h0 := h.long (i := 0) (by simp [parameters, hnr])
    have h1 := h.long (i := 1) (by simp [parameters, hnr])
    simp only [renameArguments, h.nr, hnr, if_true, h0, h1]
  · have h0 := h.int (i := 0) (by simp [parameters, hnr])
    have h1 := h.long (i := 1) (by simp [parameters, hnr])
    have h2 := h.int (i := 2) (by simp [parameters, hnr])
    have h3 := h.long (i := 3) (by simp [parameters, hnr])
    simp only [renameArguments, h.nr, hnr, reduceCtorEq, if_false, h0, h1, h2, h3]
  · have h0 := h.int (i := 0) (by simp [parameters, hnr])
    have h1 := h.long (i := 1) (by simp [parameters, hnr])
    have h2 := h.int (i := 2) (by simp [parameters, hnr])
    have h3 := h.long (i := 3) (by simp [parameters, hnr])
    have h4 := h.unsigned (i := 4) (by simp [parameters, hnr])
    simp only [renameArguments, h.nr, hnr, reduceCtorEq, if_false, if_true, h0, h1, h2, h3, h4]

theorem follows_handleRename (hrename : notif.data.nr ∈ [.sysRename, .sysRenameat, .sysRenameat2]) :
    Follows ans (handleRename state notif) (handleRename state notif') := by
  simp only [handleRename, renameArguments_congr h hrename, readAndResolve_congr h]
  split
  · exact follows_respond _ _ _ _ _
  · refine follows_orRespond _ _ (.refl _) fun old _ => ?_
    refine follows_orRespond _ _ (.refl _) fun new _ => ?_
    split
    · exact follows_respond _ _ _ _ _
    · split
      · exact follows_respond _ _ _ _ _
      · exact follows_orRespond _ _ (.refl _) fun _ _ => follows_respond _ _ _ _ _

theorem follows_handleSymlink (hsymlink : notif.data.nr ∈ [.sysSymlink, .sysSymlinkat]) :
    Follows ans (handleSymlink state notif) (handleSymlink state notif') := by
  have h0 := h.long (i := 0) (by rcases List.mem_pair.mp hsymlink with hnr | hnr <;>
    simp [parameters, hnr])
  simp only [handleSymlink, h.pid, h0]
  refine follows_orRespond _ _ (.refl _) fun target _ => ?_
  have hnext (link : AbsPath) : Follows ans
      (orRespond notif.id (state.view.symlink target link.toPath) fun () => respondValue notif.id 0)
      (orRespond notif'.id (state.view.symlink target link.toPath) fun () =>
        respondValue notif'.id 0) :=
    follows_orRespond _ _ (.refl _) fun _ _ => follows_respond _ _ _ _ _
  rcases List.mem_pair.mp hsymlink with hnr | hnr
  · have h1 := h.long (i := 1) (by simp [parameters, hnr])
    simp only [h.nr, hnr, if_true, h1]
    exact follows_onProjected h fun link _ _ => hnext link
  · have h1 := h.int (i := 1) (by simp [parameters, hnr])
    have h2 := h.long (i := 2) (by simp [parameters, hnr])
    simp only [h.nr, hnr, reduceCtorEq, if_false, h1, h2]
    exact follows_onProjected h fun link _ _ => hnext link

theorem follows_chdirTo (v : AbsPath) :
    Follows ans (chdirTo state notif v) (chdirTo state notif' v) := by
  simp only [chdirTo, h.pid]
  split
  · refine .after fun r _ => ?_
    rcases r with e | metadata
    · exact follows_answered state (follows_respond _ _ _ _ _)
    · dsimp only
      split
      · refine .after fun key _ => follows_answered _ ?_
        split <;> exact follows_respond _ _ _ _ _
      · exact follows_answered state (follows_respond _ _ _ _ _)
  · exact .after fun key _ => follows_answered _ (follows_respond _ _ _ _ _)

theorem follows_handleChdir (hchdir : notif.data.nr ∈ [.sysChdir, .sysFchdir]) :
    Follows ans (handleChdir state notif) (handleChdir state notif') := by
  rcases List.mem_pair.mp hchdir with hnr | hnr
  · have h0 := h.long (i := 0) (by simp [parameters, hnr])
    simp only [handleChdir, h.nr, hnr, if_true, h0, readAndResolve_congr h]
    exact follows_orRespondIn state _ _ (.refl _) fun v _ => follows_chdirTo h v
  · have h0 := h.int (i := 0) (by simp [parameters, hnr])
    simp only [handleChdir, h.nr, hnr, reduceCtorEq, if_false, h.pid, h0]
    refine .after fun key _ => ?_
    split
    · exact follows_answered state (follows_respond _ _ _ _ _)
    · refine .after fun matching _ => ?_
      split
      · exact follows_chdirTo h _
      · exact follows_answered _ (follows_respond _ _ _ _ _)

theorem follows_handleGetcwd (hnr : notif.data.nr = .sysGetcwd) :
    Follows ans (handleGetcwd state notif) (handleGetcwd state notif') := by
  have h0 := h.long (i := 0) (by simp [parameters, hnr])
  have h1 := h.long (i := 1) (by simp [parameters, hnr])
  simp only [handleGetcwd, h.pid, h0, h1]
  refine .after fun cwd _ => ?_
  rcases cwd with _ | path
  · exact follows_respond _ _ _ _ _
  · dsimp only
    split
    · exact follows_respond _ _ _ _ _
    · exact follows_orRespond _ _ (.refl _) fun _ _ => follows_respond _ _ _ _ _

theorem follows_handleTruncate (hnr : notif.data.nr = .sysTruncate) :
    Follows ans (handleTruncate state notif) (handleTruncate state notif') := by
  have h0 := h.long (i := 0) (by simp [parameters, hnr])
  have h1 := h.long (i := 1) (by simp [parameters, hnr])
  unfold handleTruncate
  rw [h0, h1]
  exact follows_onProjected h fun v _ _ => follows_mutate v fun _ => .refl _

theorem follows_handleChmod (hchmod : notif.data.nr ∈ [.sysChmod, .sysFchmodat]) :
    Follows ans (handleChmod state notif) (handleChmod state notif') := by
  have hcall {mode mode' : UInt64} (hmode : (asU32 mode').toUInt16 = (asU32 mode).toUInt16)
      (path : OsStr) :
      Follows ans (ask (.chmod path (asU32 mode))) (ask (.chmod path (asU32 mode'))) := by
    refine follows_ask (f := .ret) (fun r => r) not_false (fun r => ?_) fun _ => .refl _
    simp only [seen]
    rw [hmode]
  rcases List.mem_pair.mp hchmod with hnr | hnr
  · have h0 := h.long (i := 0) (by simp [parameters, hnr])
    have h1 := h.umode (i := 1) (by simp [parameters, hnr])
    unfold handleChmod
    rw [if_pos hnr, if_pos (h.nr.trans hnr), h0]
    exact follows_onProjected h fun v _ _ => follows_mutate v (hcall h1)
  · have h0 := h.int (i := 0) (by simp [parameters, hnr])
    have h1 := h.long (i := 1) (by simp [parameters, hnr])
    have h2 := h.umode (i := 2) (by simp [parameters, hnr])
    unfold handleChmod
    rw [if_neg (by simp [hnr]), if_neg (by simp [h.nr, hnr]), h0, h1]
    exact follows_onProjected h fun v _ _ => follows_mutate v (hcall h2)

theorem follows_handleChown (hchown : notif.data.nr ∈ [.sysChown, .sysLchown, .sysFchownat]) :
    Follows ans (handleChown state notif) (handleChown state notif') := by
  simp only [List.mem_cons, List.not_mem_nil, or_false] at hchown
  unfold handleChown
  rw [h.nr]
  rcases hchown with hnr | hnr | hnr
  · have h0 := h.long (i := 0) (by simp [parameters, hnr])
    have h1 := h.unsigned (i := 1) (by simp [parameters, hnr])
    have h2 := h.unsigned (i := 2) (by simp [parameters, hnr])
    have hnot : Syscall.sysChown ≠ .sysFchownat := by simp
    rw [hnr, if_neg hnot, if_neg hnot, h0]
    refine follows_onProjected h fun v _ _ => follows_mutate v fun path => ?_
    rw [h1, h2]
    exact .refl _
  · have h0 := h.long (i := 0) (by simp [parameters, hnr])
    have h1 := h.unsigned (i := 1) (by simp [parameters, hnr])
    have h2 := h.unsigned (i := 2) (by simp [parameters, hnr])
    have hnot : Syscall.sysLchown ≠ .sysFchownat := by simp
    rw [hnr, if_neg hnot, if_neg hnot, h0]
    refine follows_onProjected h fun v _ _ => follows_mutate v fun path => ?_
    rw [h1, h2]
    exact .refl _
  · have h0 := h.int (i := 0) (by simp [parameters, hnr])
    have h1 := h.long (i := 1) (by simp [parameters, hnr])
    have h2 := h.unsigned (i := 2) (by simp [parameters, hnr])
    have h3 := h.unsigned (i := 3) (by simp [parameters, hnr])
    have h4 := h.int (i := 4) (by simp [parameters, hnr])
    rw [hnr, if_pos rfl, if_pos rfl, h0, h1, h4]
    refine follows_onProjected h fun v _ _ => follows_mutate v fun path => ?_
    rw [h2, h3]
    exact .refl _

theorem follows_handleUtimensat (hnr : notif.data.nr = .sysUtimensat) :
    Follows ans (handleUtimensat state notif) (handleUtimensat state notif') := by
  have h0 := h.int (i := 0) (by simp [parameters, hnr])
  have h1 := h.long (i := 1) (by simp [parameters, hnr])
  have h2 := h.long (i := 2) (by simp [parameters, hnr])
  have h3 := h.int (i := 3) (by simp [parameters, hnr])
  unfold handleUtimensat
  rw [h0, h1, h2, h3, h.pid]
  refine follows_onProjected h fun v _ _ => ?_
  simp only [withCString, cString_eq]
  exact follows_orRespond _ _ (.refl _) fun times _ => .after fun r _ => follows_result _ _ r

end

end PathShim
