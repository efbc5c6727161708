import PathShim.Linux.Tracking

/-!
# One reply per notification

Whatever the memory accesses, `/proc` reads, host calls and descriptor
injections return, a handler runs to its end and replies exactly once, to the
notification it was called for.
-/

namespace PathShim

open UnixPath Effects

/-- `R` marks the replies to `id` and nothing else a handler does. -/
structure Marks (R : Event Op.Answer → Bool) (id : UInt64) : Prop where
  respond : ∀ response answer, response.id = id → R ⟨.respond response, answer⟩ = true
  sent : ∀ request fd, request.id = id → request.flags = ADDFD_FLAG_SEND →
    R ⟨.addFd request, .ok fd⟩ = true
  refused : ∀ request e, R ⟨.addFd request, .error e⟩ = false
  installed : ∀ request answer, request.flags = 0 → R ⟨.addFd request, answer⟩ = false
  silent : ∀ e : Event Op.Answer, (∀ response, e.op ≠ .respond response) →
    (∀ request, e.op ≠ .addFd request) → R e = false

abbrev Silent (R : Event Op.Answer → Bool) (p : Sup α) : Prop := Emits Env.any R 0 p
abbrev Once (R : Event Op.Answer → Bool) (p : Sup α) : Prop := Emits Env.any R 1 p

section
variable {R : Event Op.Answer → Bool} {id : UInt64} (hR : Marks R id)
include hR

theorem Marks.ask {op : Op} (h : ∀ response, op ≠ .respond response)
    (h' : ∀ request, op ≠ .addFd request) : Silent R (ask op) :=
  Emits.perform fun r => hR.silent ⟨op, r⟩ h h'

-- ---------------------------------------------------------------------------
-- Reading the tracee
-- ---------------------------------------------------------------------------

theorem silent_readMemory (pid : Pid) (address : UInt64) (length : Nat) :
    Silent R (readMemory pid address length) := by
  refine Emits.after (hR.ask (by simp) (by simp)) ?_
  intro r
  cases r <;> exact Emits.ret

/-- The turns suffice and the address does not wrap: what has been read so far ends
below the middle of the address space, and every turn adds a byte at least. -/
theorem silent_readPathLoop (pid : Pid) (address : UInt64) (turns : Nat) (bytes : OsStr)
    (hlen : bytes.bytes.length ≤ MAX_PATH) (hturns : MAX_PATH < bytes.bytes.length + turns)
    (hmapped : address.toNat + bytes.bytes.length < 2 ^ 64) :
    Silent R (readPathLoop pid address turns bytes) := by
  induction turns generalizing bytes with
  | zero => omega
  | succ turns ih =>
    unfold readPathLoop
    split
    · obtain ⟨start, hstart, hnat⟩ := checkedAdd_eq hmapped
      simp only [hstart]
      refine Emits.after (silent_readMemory hR _ _ _) ?_
      rintro (e | chunk)
      · exact Emits.ret
      · dsimp only
        split
        · exact Emits.ret
        · have hpos := List.length_pos_iff.mpr chunk.nonempty
          have hle := chunk.length_le
          have hend := chunk.mapped
          apply ih
          · simp only [OsStr.append, List.length_append]
            omega
          · simp only [OsStr.append, List.length_append]
            omega
          · simp only [OsStr.append, List.length_append]
            omega
    · exact Emits.ret

theorem silent_readPath (pid : Pid) (address : UInt64) : Silent R (readPath pid address) := by
  unfold readPath
  split
  · exact Emits.ret
  · refine silent_readPathLoop hR pid address _ OsStr.empty (by simp [OsStr.empty])
      (by simp [OsStr.empty]) ?_
    simpa [OsStr.empty] using address.toNat_lt

theorem silent_readValue (pid : Pid) (address : UInt64) (size : Nat) :
    Silent R (readValue pid address size) := by
  refine Emits.after (silent_readMemory hR _ _ _) ?_
  rintro (e | chunk) <;> exact Emits.ret

theorem silent_writeMemory (pid : Pid) (address : UInt64) (bytes : Bytes) :
    Silent R (writeMemory pid address bytes) := by
  refine Emits.after (hR.ask (by simp) (by simp)) ?_
  rintro (e | written)
  · exact Emits.ret
  · dsimp only
    split <;> exact Emits.ret

theorem silent_writeProcessMemory (pid : Pid) (address : UInt64) (bytes : Bytes) :
    Silent R (writeProcessMemory pid address bytes) := by
  refine Emits.after (hR.ask (by simp) (by simp)) ?_
  rintro (e | ⟨⟩)
  · exact Emits.ret
  · refine Emits.after (hR.ask (by simp) (by simp)) ?_
    rintro (e | written)
    · exact Emits.ret
    · dsimp only
      split <;> exact Emits.ret

theorem silent_rewritePath (pid : Pid) (address : UInt64) (original replacement : OsStr) :
    Silent R (rewritePath pid address original replacement) := by
  unfold rewritePath
  dsimp only
  split
  · exact Emits.ret
  · refine Emits.after (silent_writeMemory hR _ _ _) ?_
    rintro (e | ⟨⟩)
    · exact silent_writeProcessMemory hR _ _ _
    · exact Emits.ret

-- ---------------------------------------------------------------------------
-- Processes and pathnames
-- ---------------------------------------------------------------------------

theorem silent_processKey (pid : Pid) : Silent R (processKey pid) :=
  Emits.after (hR.ask (by simp) (by simp)) fun _ => Emits.ret

theorem silent_virtualCwdLoop (state : State) (turns : Nat) (current : Pid) :
    Silent R (virtualCwdLoop state turns current) := by
  induction turns generalizing current with
  | zero => exact Emits.ret
  | succ turns ih =>
    unfold virtualCwdLoop
    split
    · exact Emits.ret
    · refine Emits.after (hR.ask (by simp) (by simp)) ?_
      rintro (_ | parent)
      · exact Emits.ret
      · dsimp only
        split
        · exact Emits.ret
        · exact Emits.after (silent_processKey hR _) ih

theorem silent_virtualCwd (state : State) (pid : Pid) : Silent R (virtualCwd state pid) :=
  Emits.after (silent_processKey hR pid) fun _ => silent_virtualCwdLoop hR state _ _

theorem silent_processCwd (pid : Pid) (state : State) : Silent R (processCwd pid state) :=
  Emits.after (hR.ask (by simp) (by simp)) fun _ => Emits.ret

theorem silent_isOwnProcCwd (path : AbsPath) (pid : Pid) : Silent R (isOwnProcCwd path pid) := by
  unfold isOwnProcCwd
  split
  · exact Emits.ret
  · split
    · exact Emits.ret
    · split
      · split
        · exact Emits.ret
        · exact Emits.after (silent_processKey hR pid) fun _ => Emits.ret
      · exact Emits.ret

theorem silent_directoryFdMatches (state : State) (pid : Pid) (fd : Fd)
    (directory : OpenDirectory) : Silent R (directoryFdMatches state pid fd directory) := by
  refine Emits.after (hR.ask (by simp) (by simp)) ?_
  rintro (e | actual)
  · exact Emits.ret
  · refine Emits.after (hR.ask (by simp) (by simp)) ?_
    rintro (e | canonical) <;> exact Emits.ret

theorem silent_trackedDirectory (state : State) (pid : Pid) (fd : Fd) :
    Silent R (trackedDirectory state pid fd) := by
  refine Emits.after (silent_processKey hR pid) fun key => ?_
  split
  · exact Emits.ret
  · refine Emits.after (silent_directoryFdMatches hR state pid fd _) fun b => ?_
    cases b <;> exact Emits.ret

theorem silent_resolvePath (state : State) (pid : Pid) (dirfd : Fd) (path : OsStr) :
    Silent R (resolvePath state pid dirfd path) := by
  unfold resolvePath
  split
  · exact Emits.ret
  · split
    · exact Emits.ret
    · split
      · refine Emits.after (silent_virtualCwd hR state pid) ?_
        rintro (_ | cwd)
        · exact Emits.after (silent_processCwd hR pid state) fun _ => Emits.ret
        · exact Emits.ret
      · refine Emits.after (silent_trackedDirectory hR state pid dirfd) ?_
        rintro (_ | directory)
        · refine Emits.after (hR.ask (by simp) (by simp)) ?_
          rintro (e | host) <;> exact Emits.ret
        · exact Emits.ret

theorem silent_readAndResolve (state : State) (notif : SeccompNotif) (dirfd : Fd)
    (address : UInt64) : Silent R (readAndResolve state notif dirfd address) := by
  refine Emits.after (silent_readPath hR _ _) ?_
  rintro (e | path)
  · exact Emits.ret
  · exact silent_resolvePath hR _ _ _ _

-- ---------------------------------------------------------------------------
-- Host files
-- ---------------------------------------------------------------------------

theorem silent_listEntries (directory : OsStr) (entries : List (IoResult Name)) :
    Silent R (listEntries directory entries) := by
  induction entries with
  | nil => exact Emits.ret
  | cons entry entries ih =>
    cases entry with
    | error e => exact Emits.ret
    | ok name =>
      refine Emits.after (hR.ask (by simp) (by simp)) ?_
      rintro (e | metadata)
      · exact Emits.ret
      · refine Emits.after ih ?_
        rintro (e | entries) <;> exact Emits.ret

theorem silent_listDir (view : BindView) (path : OsStr) : Silent R (view.listDir path) := by
  refine Emits.after (hR.ask (by simp) (by simp)) ?_
  rintro (e | entries)
  · exact Emits.ret
  · exact silent_listEntries hR _ _

theorem silent_unlink (view : BindView) (path : OsStr) (removeDir : Bool) :
    Silent R (view.unlink path removeDir) := by
  unfold BindView.unlink
  dsimp only
  split <;> exact hR.ask (by simp) (by simp)

theorem silent_rename (view : BindView) (old new : OsStr) : Silent R (view.rename old new) := by
  unfold BindView.rename
  dsimp only
  split
  · rename_i oldIndex newIndex hold hnew
    split
    · exact Emits.ret
    · simp only [BindView.resolve_selected hold, BindView.resolve_selected hnew]
      exact hR.ask (by simp) (by simp)
  · exact Emits.ret

theorem silent_openExecutable (path : OsStr) : Silent R (openExecutable path) := by
  rw [openExecutable, cString_eq]
  exact Emits.after (hR.ask (by simp) (by simp)) fun _ => Emits.ret

theorem silent_openArguments (notif : SeccompNotif) : Silent R (openArguments notif) := by
  unfold openArguments
  split
  · exact Emits.ret
  · split
    · exact Emits.ret
    · refine Emits.after (silent_readValue hR _ _ _) ?_
      rintro (e | how) <;> exact Emits.ret

theorem silent_trackDirectory (state : State) (notif : SeccompNotif) (virtualPath : AbsPath)
    (childFd : Fd) : Silent R (trackDirectory state notif virtualPath childFd) := by
  refine Emits.after (silent_listDir hR _ _) fun r => ?_
  cases r with
  | error e => exact Emits.ret
  | ok entries => exact Emits.after (silent_processKey hR _) fun _ => Emits.ret

theorem silent_trackOpened (state : State) (notif : SeccompNotif) (flags : Int32)
    (virtualPath : AbsPath) (realPath : OsStr) (childFd : Fd) :
    Silent R (trackOpened state notif flags virtualPath realPath childFd) := by
  have hrest (isDirectory : Bool) : Silent R (if isDirectory then
      trackDirectory state notif virtualPath childFd else return (state, .ok ())) := by
    split
    · exact silent_trackDirectory hR _ _ _ _
    · exact Emits.ret
  unfold trackOpened
  split
  · exact hrest true
  · refine Emits.after (hR.ask (by simp) (by simp)) fun r => ?_
    cases r with
    | error e => exact hrest false
    | ok metadata => exact hrest metadata.isDir

end

-- ---------------------------------------------------------------------------
-- Replies
-- ---------------------------------------------------------------------------

/-- Nothing that the program does replies to `id`, and it does not panic. -/
def Silently (id : UInt64) (p : Sup α) : Prop := ∀ R, Marks R id → Silent R p

/-- Whatever it does before, the program ends with a response to `id`. -/
inductive Responds (id : UInt64) : Sup (IoResult Unit) → Prop
  | respond {response : SeccompNotifResp} : response.id = id → Responds id (respond response)
  | after {α : Type} {p : Sup α} {f : α → Sup (IoResult Unit)} : Silently id p →
      (∀ a, Responds id (f a)) → Responds id (p >>= f)

/-- A handler that ends with a response, or has sent a descriptor and cannot fail any more. -/
inductive Settles (id : UInt64) : Sup (State × IoResult Unit) → Prop
  | answered (state : State) {reply : Sup (IoResult Unit)} : Responds id reply →
      Settles id (answered state reply)
  | after {α : Type} {p : Sup α} {f : α → Sup (State × IoResult Unit)} : Silently id p →
      (∀ a, Settles id (f a)) → Settles id (p >>= f)
  | sent {request : SeccompNotifAddfd} {f : Except Errno Fd → Sup (State × IoResult Unit)} :
      request.id = id → request.flags = ADDFD_FLAG_SEND → (∀ e, Settles id (f (.error e))) →
      (∀ fd, Silently id (f (.ok fd))) →
      (∀ fd a, Returns Env.any (f (.ok fd)) a → a.2 = .ok ()) →
      Settles id (.call (.addFd request) f)

section
variable {id : UInt64}

theorem silently_ask {op : Op} (h : ∀ response, op ≠ .respond response)
    (h' : ∀ request, op ≠ .addFd request) : Silently id (ask op) := fun _ hR => hR.ask h h'

theorem silently_addFd {request : SeccompNotifAddfd} (h : request.flags = 0) :
    Silently id (addFd request) := fun _ hR =>
  Emits.after (Emits.perform fun r => hR.installed request r h) fun _ => Emits.ret

theorem responds_continue : Responds id (respondContinue id) := .respond rfl
theorem responds_value (value : Int) : Responds id (respondValue id value) := .respond rfl
theorem responds_error (e : Errno) : Responds id (respondError id e) := .respond rfl

theorem responds_result (r : Except Errno Nat) : Responds id (respondResult id r) := by
  cases r with
  | error e => exact responds_error e
  | ok result => exact responds_value result

theorem responds_orRespond {x : Sup (IoResult α)} {next : α → Sup (IoResult Unit)}
    (hx : Silently id x) (hnext : ∀ a, Responds id (next a)) :
    Responds id (orRespond id x next) := by
  refine .after hx ?_
  rintro (e | a)
  · exact responds_error _
  · exact hnext a

theorem settles_orRespondIn (state : State) {x : Sup (IoResult α)}
    {next : α → Sup (State × IoResult Unit)} (hx : Silently id x)
    (hnext : ∀ a, Settles id (next a)) : Settles id (orRespondIn state id x next) := by
  refine .after hx ?_
  rintro (e | a)
  · exact .answered state (responds_error _)
  · exact hnext a

theorem responds_withCString {path : OsStr} {next : OsStr → Sup (IoResult Unit)}
    (h : Responds id (next path)) : Responds id (withCString id path next) := by
  simpa [withCString] using h

end

section
variable {state : State} {notif : SeccompNotif}

theorem silently_operand (dirfd : Fd) (address : UInt64) :
    Silently notif.id (readAndResolve state notif dirfd address) :=
  fun _ hR => silent_readAndResolve hR _ _ _ _

theorem silently_writeMemory (address : UInt64) (bytes : Bytes) :
    Silently notif.id (writeMemory notif.pid address bytes) :=
  fun _ hR => silent_writeMemory hR _ _ _

theorem responds_onProjected {dirfd : Fd} {address : UInt64}
    {next : AbsPath → Sup (IoResult Unit)} (h : ∀ path, Responds notif.id (next path)) :
    Responds notif.id (onProjected state notif dirfd address next) := by
  refine responds_orRespond (silently_operand _ _) fun path => ?_
  split
  · exact h path
  · exact responds_continue

theorem responds_onProjectedPath {dirfd : Fd} {address : UInt64} {skip : OsStr → Bool}
    {next : OsStr → AbsPath → Sup (IoResult Unit)}
    (h : ∀ raw path, Responds notif.id (next raw path)) :
    Responds notif.id (onProjectedPath state notif dirfd address skip next) := by
  refine responds_orRespond (fun _ hR => silent_readPath hR _ _) fun raw => ?_
  split
  · exact responds_continue
  · refine responds_orRespond (fun _ hR => silent_resolvePath hR _ _ _ _) fun path => ?_
    split
    · exact h raw path
    · exact responds_continue

theorem responds_returnStruct (address : UInt64) (result : Except Errno Bytes) :
    Responds notif.id (returnStruct notif address result) := by
  cases result with
  | error e => exact responds_error e
  | ok bytes => exact responds_orRespond (silently_writeMemory _ _) fun _ => responds_value 0

theorem responds_returnLink (buffer : UInt64) (size : Nat) (target : OsStr) :
    Responds notif.id (returnLink notif buffer size target) :=
  responds_orRespond (silently_writeMemory _ _) fun _ => responds_value _

theorem responds_mutate {path : AbsPath} {call : OsStr → Sup (Except Errno Nat)}
    (h : ∀ path, Silently notif.id (call path)) :
    Responds notif.id (mutate state notif path call) :=
  responds_withCString (.after (h _) responds_result)

-- ---------------------------------------------------------------------------
-- Handlers
-- ---------------------------------------------------------------------------

theorem responds_execProjected (pathAddress : UInt64) (flags : Int32) (raw : OsStr)
    (path : AbsPath) :
    Responds notif.id (execProjected state notif pathAddress flags raw path) := by
  unfold execProjected
  split
  · exact responds_error _
  · refine responds_orRespond (fun _ hR => silent_openExecutable hR _) fun sourceFd => ?_
    refine responds_orRespond (silently_addFd rfl) fun childFd => ?_
    refine responds_orRespond (fun _ hR => silent_rewritePath hR _ _ _ _) fun _ => ?_
    exact responds_continue

theorem responds_handleExec : Responds notif.id (handleExec state notif) :=
  responds_onProjectedPath (responds_execProjected _ _)

/-- Once the descriptor has been sent nothing can fail. -/
theorem ok_trackOpened {flags : Int32} {v : AbsPath} {realPath : OsStr} {childFd : Fd}
    {a : State × IoResult Unit}
    (h : Returns Env.any (trackOpened state notif flags v realPath childFd) a) : a.2 = .ok () := by
  obtain ⟨tr, hx⟩ := h
  exact (exec_trackOpened.mp hx).1

/-- A descriptor that was sent is the reply; only a refused one is followed by another. -/
theorem settles_openProjected (arguments : OpenArguments) (path : AbsPath) :
    Settles notif.id (openProjected state notif arguments path) := by
  simp only [openProjected, cString_eq]
  refine settles_orRespondIn state ?_ fun sourceFd => ?_
  · exact fun _ hR => Emits.after (hR.ask (by simp) (by simp)) fun _ => Emits.ret
  · refine .sent rfl rfl (fun e => ?_) (fun childFd => ?_) (fun childFd a h => ?_)
    · exact .answered state (responds_error _)
    · exact fun _ hR => silent_trackOpened hR _ _ _ _ _ _
    · exact ok_trackOpened h

theorem settles_handleOpen : Settles notif.id (handleOpen state notif) := by
  refine settles_orRespondIn state (fun _ hR => silent_openArguments hR notif) fun arguments => ?_
  refine settles_orRespondIn state (silently_operand _ _) fun path => ?_
  split
  · exact settles_openProjected _ _
  · exact .answered state responds_continue

theorem responds_handleStat : Responds notif.id (handleStat state notif) := by
  refine responds_onProjectedPath fun raw path => responds_withCString ?_
  exact .after (silently_ask (by simp) (by simp)) (responds_returnStruct _)

theorem responds_handleStatx : Responds notif.id (handleStatx state notif) := by
  refine responds_onProjectedPath fun raw path => responds_withCString ?_
  exact .after (silently_ask (by simp) (by simp)) (responds_returnStruct _)

theorem responds_handleAccess : Responds notif.id (handleAccess state notif) := by
  refine responds_onProjected fun path => ?_
  simp only [cString_eq]
  refine .after (silently_ask (by simp) (by simp)) ?_
  rintro (e | ⟨⟩)
  · exact responds_error e
  · exact responds_value 0

theorem responds_handleMkdir : Responds notif.id (handleMkdir state notif) :=
  responds_onProjected fun _ =>
    responds_orRespond (silently_ask (by simp) (by simp)) fun _ => responds_value 0

theorem responds_handleUnlink : Responds notif.id (handleUnlink state notif) :=
  responds_onProjected fun _ =>
    responds_orRespond (fun _ hR => silent_unlink hR _ _ _) fun _ => responds_value 0

theorem responds_handleRename : Responds notif.id (handleRename state notif) := by
  unfold handleRename
  dsimp only
  split
  · exact responds_error _
  · refine responds_orRespond (silently_operand _ _) fun old => ?_
    refine responds_orRespond (silently_operand _ _) fun new => ?_
    split
    · exact responds_continue
    · split
      · exact responds_error _
      · exact responds_orRespond (fun _ hR => silent_rename hR _ _ _) fun _ => responds_value 0

theorem responds_handleReadlink : Responds notif.id (handleReadlink state notif) := by
  refine responds_orRespond (silently_operand _ _) fun path => ?_
  refine .after (fun _ hR => silent_isOwnProcCwd hR _ _) fun own => ?_
  split
  · refine .after (fun _ hR => silent_virtualCwd hR _ _) ?_
    rintro (_ | target)
    · exact responds_continue
    · exact responds_returnLink _ _ _
  · split
    · exact responds_orRespond (silently_ask (by simp) (by simp)) (responds_returnLink _ _)
    · exact responds_continue

theorem responds_handleSymlink : Responds notif.id (handleSymlink state notif) := by
  refine responds_orRespond (fun _ hR => silent_readPath hR _ _) fun target => ?_
  refine responds_onProjected fun link => ?_
  exact responds_orRespond (silently_ask (by simp) (by simp)) fun _ => responds_value 0

theorem settles_handleGetdents : Settles notif.id (handleGetdents state notif) := by
  refine .after (fun _ hR => silent_processKey hR _) fun key => ?_
  dsimp only
  split
  · exact .answered state responds_continue
  · refine .after (fun _ hR => silent_directoryFdMatches hR _ _ _ _) fun valid => ?_
    split
    · refine .answered _ ?_
      split
      · exact responds_error _
      · exact responds_orRespond (silently_writeMemory _ _) fun _ => responds_value _
    · exact .answered _ responds_continue

theorem settles_chdirTo (path : AbsPath) : Settles notif.id (chdirTo state notif path) := by
  unfold chdirTo
  split
  · refine .after (silently_ask (by simp) (by simp)) ?_
    rintro (e | metadata)
    · exact .answered state (responds_error _)
    · dsimp only
      split
      · refine .after (fun _ hR => silent_processKey hR _) fun key => .answered _ ?_
        split
        · exact responds_continue
        · exact responds_value 0
      · exact .answered state (responds_error _)
  · exact .after (fun _ hR => silent_processKey hR _) fun key => .answered _ responds_continue

theorem settles_handleChdir : Settles notif.id (handleChdir state notif) := by
  unfold handleChdir
  split
  · exact settles_orRespondIn state (silently_operand _ _) settles_chdirTo
  · refine .after (fun _ hR => silent_processKey hR _) fun key => ?_
    dsimp only
    split
    · exact .answered state responds_continue
    · refine .after (fun _ hR => silent_directoryFdMatches hR _ _ _ _) fun valid => ?_
      split
      · exact settles_chdirTo _
      · exact .answered _ responds_continue

theorem responds_handleGetcwd : Responds notif.id (handleGetcwd state notif) := by
  refine .after (fun _ hR => silent_virtualCwd hR _ _) ?_
  rintro (_ | path)
  · exact responds_continue
  · dsimp only
    split
    · exact responds_error _
    · exact responds_orRespond (silently_writeMemory _ _) fun _ => responds_value _

theorem responds_handleTruncate : Responds notif.id (handleTruncate state notif) :=
  responds_onProjected fun _ => responds_mutate fun _ => silently_ask (by simp) (by simp)

theorem responds_handleChmod : Responds notif.id (handleChmod state notif) :=
  responds_onProjected fun _ => responds_mutate fun _ => silently_ask (by simp) (by simp)

theorem responds_handleChown : Responds notif.id (handleChown state notif) :=
  responds_onProjected fun _ => responds_mutate fun _ => silently_ask (by simp) (by simp)

theorem responds_handleUtimensat : Responds notif.id (handleUtimensat state notif) := by
  refine responds_onProjected fun path => responds_withCString ?_
  refine responds_orRespond (fun R hR => ?_) fun times =>
    .after (silently_ask (by simp) (by simp)) responds_result
  split
  · exact Emits.ret
  · refine Emits.after (silent_readValue hR _ _ _) ?_
    rintro (e | times) <;> exact Emits.ret

theorem settles_handle : Settles notif.id (handle state notif) := by
  cases hnr : notif.data.nr <;> simp only [handle, hnr]
  case sysExecve | sysExecveat => exact .answered state responds_handleExec
  case sysOpen | sysOpenat | sysOpenat2 => exact settles_handleOpen
  case sysNewfstatat => exact .answered state responds_handleStat
  case sysStatx => exact .answered state responds_handleStatx
  case sysAccess | sysFaccessat | sysFaccessat2 => exact .answered state responds_handleAccess
  case sysMkdir | sysMkdirat => exact .answered state responds_handleMkdir
  case sysUnlink | sysUnlinkat | sysRmdir => exact .answered state responds_handleUnlink
  case sysRename | sysRenameat | sysRenameat2 => exact .answered state responds_handleRename
  case sysReadlink | sysReadlinkat => exact .answered state responds_handleReadlink
  case sysSymlink | sysSymlinkat => exact .answered state responds_handleSymlink
  case sysGetdents64 => exact settles_handleGetdents
  case sysChdir | sysFchdir => exact settles_handleChdir
  case sysGetcwd => exact .answered state responds_handleGetcwd
  case sysTruncate => exact .answered state responds_handleTruncate
  case sysChmod | sysFchmodat => exact .answered state responds_handleChmod
  case sysChown | sysLchown | sysFchownat => exact .answered state responds_handleChown
  case sysUtimensat => exact .answered state responds_handleUtimensat
  case other => exact .answered state responds_continue

end

-- ---------------------------------------------------------------------------
-- The reply
-- ---------------------------------------------------------------------------

/-- A reply to the notification `id`. -/
def isReplyTo (id : UInt64) (e : Event Op.Answer) : Bool :=
  match e with
  | ⟨.respond response, _⟩ => response.id == id
  | ⟨.addFd request, .ok _⟩ => request.flags &&& ADDFD_FLAG_SEND != 0 && request.id == id
  | _ => false

theorem isReply_marks (id : UInt64) : Marks isReply id where
  respond _ _ _ := rfl
  sent request fd _ hflags := by simp [isReply, hflags, ADDFD_FLAG_SEND]
  refused _ _ := rfl
  installed request answer hflags := by cases answer <;> simp [isReply, hflags]
  silent e h h' := by
    obtain ⟨op, answer⟩ := e
    cases op with
    | respond response => exact absurd rfl (h response)
    | addFd request => exact absurd rfl (h' request)
    | _ => rfl

theorem isReplyTo_marks (id : UInt64) : Marks (isReplyTo id) id where
  respond response answer hid := by simp [isReplyTo, hid]
  sent request fd hid hflags := by simp [isReplyTo, hid, hflags, ADDFD_FLAG_SEND]
  refused _ _ := rfl
  installed request answer hflags := by cases answer <;> simp [isReplyTo, hflags]
  silent e h h' := by
    obtain ⟨op, answer⟩ := e
    cases op with
    | respond response => exact absurd rfl (h response)
    | addFd request => exact absurd rfl (h' request)
    | _ => rfl

section
variable {R : Event Op.Answer → Bool} {id : UInt64} (hR : Marks R id)
include hR

theorem Responds.once {p : Sup (IoResult Unit)} (h : Responds id p) : Once R p := by
  induction h with
  | respond hid =>
    refine Emits.call fun r _ => ⟨0, Emits.ret, ?_⟩
    simp [hR.respond _ r hid]
  | after hp _ ih => exact Emits.after (hp R hR) ih

theorem Settles.once {p : Sup (State × IoResult Unit)} (h : Settles id p) : Once R p := by
  induction h with
  | answered state hreply => exact Emits.before (hreply.once hR) fun _ => Emits.ret
  | after hp _ ih => exact Emits.after (hp R hR) ih
  | sent hid hflags _ hsilent _ ih =>
    refine Emits.call fun r _ => ?_
    cases r with
    | error e => exact ⟨1, ih e, by simp [hR.refused]⟩
    | ok fd => exact ⟨0, hsilent fd R hR, by simp [hR.sent _ fd hid hflags]⟩

end

theorem handle_returns {state : State} {notif : SeccompNotif} {tr : Trace}
    {out : Option (State × IoResult Unit)} (h : Exec Env.any (handle state notif) tr out) :
    out.isSome := (settles_handle.once (isReply_marks notif.id) tr out h).1

/-- A handler runs to its end, with one replying action in all, which is for its own
notification. -/
theorem handle_replies_once (state : State) (notif : SeccompNotif) :
    Ensures Env.any (handle state notif) fun tr out =>
      out.isSome ∧ tr.countP isReply = 1 ∧ tr.countP (isReplyTo notif.id) = 1 := by
  intro tr out h
  obtain ⟨hsome, hcount⟩ := settles_handle.once (isReply_marks notif.id) tr out h
  exact ⟨hsome, hcount, (settles_handle.once (isReplyTo_marks notif.id) tr out h).2⟩

end PathShim
