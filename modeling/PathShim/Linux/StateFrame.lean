import PathShim.Linux.Kernel
import PathShim.Linux.Tracking

/-!
# What a notification changes in the supervisor

Most handlers leave the state alone; `open` and `getdents64` touch only the
tracked directories, and what they track lies in a bind. `chdir` and `fchdir`
have three outcomes, and only one of them records a working directory.
-/

namespace PathShim

open UnixPath Effects

variable {E : Env Op.Answer} {s s' : State} {notif : SeccompNotif} {tr : Trace}
  {r : IoResult Unit}

-- ---------------------------------------------------------------------------
-- The one response of a trace
-- ---------------------------------------------------------------------------

def Op.isRespond : Op → Bool
  | .respond _ => true
  | _ => false

/-- `response` was sent, and no other. -/
def Replied (tr : Trace) (response : SeccompNotifResp) : Prop :=
  (∃ r, ⟨.respond response, r⟩ ∈ tr) ∧ ∀ response' r, ⟨.respond response', r⟩ ∈ tr →
    response' = response

theorem exec_respond {response : SeccompNotifResp} {out : Option (IoResult Unit)}
    (hx : Exec E (respond response) tr out) : Replied tr response := by
  obtain ⟨r, rfl, -⟩ := exec_respond_eq hx
  refine ⟨⟨r, by simp⟩, fun response' r' hmem => ?_⟩
  cases List.mem_singleton.mp hmem
  rfl

theorem Replied.after {response : SeccompNotifResp} {first : Trace} (h : Replied tr response)
    (hfirst : ∀ e ∈ first, e.op.isRespond = false) : Replied (first ++ tr) response := by
  obtain ⟨⟨r, hr⟩, hunique⟩ := h
  refine ⟨⟨r, List.mem_append_right _ hr⟩, fun response' r' hmem => ?_⟩
  rcases List.mem_append.mp hmem with hmem | hmem
  · have hrespond := hfirst _ hmem
    cases hrespond
  · exact hunique response' r' hmem

theorem Replied.continued_iff {response : SeccompNotifResp} (h : Replied tr response) :
    Continued tr ↔ response.flags &&& USER_NOTIF_FLAG_CONTINUE ≠ 0 := by
  constructor
  · rintro ⟨⟨op, r⟩, hmem, hcontinue⟩
    cases op with
    | respond response' =>
      obtain rfl := h.2 response' r hmem
      simpa [isContinue, Op.continues] using hcontinue
    | _ => cases hcontinue
  · intro hflags
    obtain ⟨r, hmem⟩ := h.1
    exact ⟨_, hmem, by simpa [isContinue, Op.continues] using hflags⟩

theorem Replied.continued {id : UInt64} {val error : Int}
    (h : Replied tr ⟨id, val, error, USER_NOTIF_FLAG_CONTINUE⟩) : Continued tr :=
  h.continued_iff.mpr (show USER_NOTIF_FLAG_CONTINUE &&& USER_NOTIF_FLAG_CONTINUE ≠ 0 by decide)

theorem Replied.not_continued {id : UInt64} {val error : Int}
    (h : Replied tr ⟨id, val, error, 0⟩) : ¬ Continued tr := by
  simp [h.continued_iff]

theorem Replied.refused_iff {response : SeccompNotifResp} (h : Replied tr response) :
    Refused tr ↔ response.error ≠ 0 := by
  constructor
  · rintro ⟨response', r, hmem, herror⟩
    rwa [h.2 response' r hmem] at herror
  · intro herror
    obtain ⟨r, hmem⟩ := h.1
    exact ⟨response, r, hmem, herror⟩

theorem continued_append {first : Trace} :
    Continued (first ++ tr) ↔ Continued first ∨ Continued tr := by
  simp only [Continued, List.mem_append, or_and_right, exists_or]

theorem continued_cons {e : Event Op.Answer} :
    Continued (e :: tr) ↔ isContinue e = true ∨ Continued tr := by
  simp only [Continued, List.mem_cons, or_and_right, exists_or, exists_eq_left]

theorem not_continued (h : ∀ e ∈ tr, e.op.continues = false) : ¬ Continued tr := by
  rintro ⟨e, he, hcontinue⟩
  cases (h e he).symm.trans hcontinue

theorem reads_noRespond : Reads fun op => op.isRespond = false :=
  ⟨fun _ _ _ => rfl, fun _ _ => rfl, fun _ _ => rfl, fun _ => rfl⟩

-- ---------------------------------------------------------------------------
-- Handlers that keep the working directories
-- ---------------------------------------------------------------------------

theorem exec_answered_ok {reply : Sup (IoResult Unit)}
    (hx : Exec E (answered s reply) tr (some (s', r))) : s' = s ∧ Exec E reply tr (some r) := by
  obtain ⟨out', hreply, hout⟩ := exec_answered.mp hx
  cases out' with
  | none => cases hout
  | some r =>
    cases hout
    exact ⟨rfl, hreply⟩

theorem exec_orRespondIn {id : UInt64} {x : Sup (IoResult α)}
    {next : α → Sup (State × IoResult Unit)}
    (hx : Exec E (orRespondIn s id x next) tr (some (s', r))) :
    (∃ a first rest, Exec E x first (some (.ok a)) ∧ Exec E (next a) rest (some (s', r)) ∧
      tr = first ++ rest) ∨
    ∃ e first rest, Exec E x first (some (.error e)) ∧ s' = s ∧
      Exec E (respondError id (errno e)) rest (some r) ∧ tr = first ++ rest := by
  rcases exec_bind.mp hx with ⟨a, first, rest, hfirst, hrest, rfl⟩ | ⟨-, hnone⟩
  · cases a with
    | ok a => exact .inl ⟨a, first, rest, hfirst, hrest, rfl⟩
    | error e =>
      obtain ⟨hs, hreply⟩ := exec_answered_ok hrest
      exact .inr ⟨e, first, rest, hfirst, hs, hreply, rfl⟩
  · cases hnone

section
variable {κ : Type} [DecidableEq κ] {f : κ → Option α} {k k' : κ} {a a' : α}

theorem update_some : Function.update f k (some a) k' = some a' ↔
    k' = k ∧ a' = a ∨ k' ≠ k ∧ f k' = some a' := by
  by_cases hk : k' = k
  · subst hk
    simp [eq_comm]
  · simp [hk]

theorem update_none : Function.update f k none k' = some a' ↔ k' ≠ k ∧ f k' = some a' := by
  by_cases hk : k' = k
  · subst hk
    simp
  · simp [hk]

end

/-- `s'` differs from `s` at most in tracked directories, and tracks nothing new outside the
binds. -/
structure Kept (s s' : State) : Prop where
  view : s'.view = s.view
  cwds : s'.virtualCwds = s.virtualCwds
  tracks : s.TracksProjected → s'.TracksProjected

theorem Kept.refl (s : State) : Kept s s := ⟨rfl, rfl, id⟩

theorem kept_insertDirectory {key : Pid × Fd} {directory : OpenDirectory}
    (h : s.TracksProjected → s.view.Projected directory.path) :
    Kept s (s.insertDirectory key directory) := by
  refine ⟨rfl, rfl, fun htracks key' directory' hdirectory => ?_⟩
  rcases update_some.mp hdirectory with ⟨-, rfl⟩ | ⟨-, hold⟩
  · exact h htracks
  · exact htracks key' directory' hold

theorem kept_removeDirectory (key : Pid × Fd) : Kept s (s.removeDirectory key) := by
  refine ⟨rfl, rfl, fun htracks key' directory' hdirectory => ?_⟩
  exact htracks key' directory' (update_none.mp hdirectory).2

theorem kept_trackOpened {v : AbsPath} {flags : Int32} {realPath : OsStr} {childFd : Fd}
    (hp : s.view.Projected v)
    (hx : Exec E (trackOpened s notif flags v realPath childFd) tr (some (s', r))) : Kept s s' := by
  obtain ⟨-, listing, htrack⟩ := exec_trackOpened.mp hx
  rcases htrack.state with rfl | ⟨key, entries, rfl, -, -⟩
  · exact .refl _
  · exact kept_insertDirectory fun _ => hp

/-- The call by which `handle_open` opens the source, and the request that sends the descriptor. -/
abbrev openOp (s : State) (arguments : OpenArguments) (v : AbsPath) : Op :=
  .openFile (s.view.resolveRead v.toPath) (arguments.flags &&& ~~~O_CLOEXEC) arguments.mode

def sendRequest (id : UInt64) (sourceFd : Fd) (flags : Int32) : SeccompNotifAddfd :=
  ⟨id, ADDFD_FLAG_SEND, sourceFd.toUInt32, 0, (flags &&& O_CLOEXEC).toUInt32⟩

/-- The three ways through `handle_open` for a projected path. -/
inductive OpenRun (E : Env Op.Answer) (s : State) (notif : SeccompNotif)
    (arguments : OpenArguments) (v : AbsPath) (s' : State) (r : IoResult Unit) : Trace → Prop
  | notOpened {e reply} : E (openOp s arguments v) (.error e) →
      Exec E (respondError notif.id e) reply (some r) → s' = s →
      OpenRun E s notif arguments v s' r
        (⟨openOp s arguments v, .error e⟩ :: reply)
  | notSent {sourceFd e reply} : E (openOp s arguments v) (.ok sourceFd) →
      E (.addFd (sendRequest notif.id sourceFd arguments.flags)) (.error e) →
      Exec E (respondError notif.id e) reply (some r) → s' = s →
      OpenRun E s notif arguments v s' r
        (⟨openOp s arguments v, .ok sourceFd⟩ ::
          ⟨.addFd (sendRequest notif.id sourceFd arguments.flags), .error e⟩ :: reply)
  | sent {sourceFd childFd rest} : E (openOp s arguments v) (.ok sourceFd) →
      E (.addFd (sendRequest notif.id sourceFd arguments.flags)) (.ok childFd) →
      Exec E (trackOpened s notif arguments.flags v (s.view.resolveRead v.toPath) childFd) rest
        (some (s', r)) →
      OpenRun E s notif arguments v s' r
        (⟨openOp s arguments v, .ok sourceFd⟩ ::
          ⟨.addFd (sendRequest notif.id sourceFd arguments.flags), .ok childFd⟩ :: rest)

theorem exec_openProjected {v : AbsPath} {arguments : OpenArguments} :
    Exec E (openProjected s notif arguments v) tr (some (s', r)) ↔
      OpenRun E s notif arguments v s' r tr := by
  have hprogram : openProjected s notif arguments v = .call (openOp s arguments v) fun opened =>
      match opened with
      | .error e => answered s (respondError notif.id e)
      | .ok sourceFd => .call (.addFd (sendRequest notif.id sourceFd arguments.flags)) fun added =>
        match added with
        | .error e => answered s (respondError notif.id e)
        | .ok childFd =>
          trackOpened s notif arguments.flags v (s.view.resolveRead v.toPath) childFd := by
    simp only [openProjected, cString_eq]
    refine congrArg (Prog.call (openOp s arguments v)) (funext fun opened => ?_)
    cases opened with
    | error e => rfl
    | ok sourceFd =>
      refine congrArg (Prog.call (Op.addFd _)) (funext fun added => ?_)
      cases added <;> rfl
  rw [hprogram]
  constructor
  · intro hx
    obtain ⟨opened, rest, hopened, hrest, rfl⟩ := exec_call.mp hx
    cases opened with
    | error e =>
      obtain ⟨hs, hreply⟩ := exec_answered_ok hrest
      exact .notOpened hopened hreply hs
    | ok sourceFd =>
      obtain ⟨added, rest, hadded, hlast, rfl⟩ := exec_call.mp hrest
      cases added with
      | error e =>
        obtain ⟨hs, hreply⟩ := exec_answered_ok hlast
        exact .notSent hopened hadded hreply hs
      | ok childFd => exact .sent hopened hadded hlast
  · intro hrun
    cases hrun with
    | notOpened hopened hreply hs =>
      exact .call hopened (exec_answered.mpr ⟨some r, hreply, by rw [hs]; rfl⟩)
    | notSent hopened hadded hreply hs =>
      exact .call hopened (.call hadded (exec_answered.mpr ⟨some r, hreply, by rw [hs]; rfl⟩))
    | sent hopened hadded htrack => exact .call hopened (.call hadded htrack)

theorem kept_openProjected {v : AbsPath} {arguments : OpenArguments} (hp : s.view.Projected v)
    (hx : Exec E (openProjected s notif arguments v) tr (some (s', r))) : Kept s s' := by
  cases exec_openProjected.mp hx with
  | notOpened _ _ hs | notSent _ _ _ hs => exact hs ▸ .refl s
  | sent _ _ htrack => exact kept_trackOpened hp htrack

theorem kept_handleOpen (hx : Exec E (handleOpen s notif) tr (some (s', r))) : Kept s s' := by
  rcases exec_orRespondIn hx with ⟨arguments, first, rest, -, hresolve, -⟩ |
    ⟨e, first, rest, -, rfl, -⟩
  · rcases exec_orRespondIn hresolve with ⟨v, second, last, -, hopen, -⟩ |
      ⟨e, second, last, -, rfl, -⟩
    · split at hopen
      · rename_i hprojects
        exact kept_openProjected (BindView.projects_toPath.mp hprojects) hopen
      · obtain ⟨rfl, -⟩ := exec_answered_ok hopen
        exact .refl _
    · exact .refl _
  · exact .refl _

theorem kept_handleGetdents (hx : Exec E (handleGetdents s notif) tr (some (s', r))) :
    Kept s s' := by
  rcases exec_bind.mp hx with ⟨key, first, rest, -, hrest, -⟩ | ⟨-, hnone⟩
  · dsimp only at hrest
    split at hrest
    · obtain ⟨rfl, -⟩ := exec_answered_ok hrest
      exact .refl _
    · rename_i directory hdirectory
      rcases exec_bind.mp hrest with ⟨matching, second, last, -, hlast, -⟩ | ⟨-, hnone⟩
      · cases matching with
        | true =>
          obtain ⟨rfl, -⟩ := exec_answered_ok hlast
          exact kept_insertDirectory fun htracks => htracks _ directory hdirectory
        | false =>
          obtain ⟨rfl, -⟩ := exec_answered_ok hlast
          exact kept_removeDirectory _
      · cases hnone
  · cases hnone

/-- No other call touches the recorded working directories. -/
theorem kept_handle (hchdir : notif.data.nr ∉ [.sysChdir, .sysFchdir])
    (hx : Exec E (handle s notif) tr (some (s', r))) : Kept s s' := by
  have hanswered {reply : Sup (IoResult Unit)}
      (h : Exec E (answered s reply) tr (some (s', r))) : Kept s s' := by
    obtain ⟨rfl, -⟩ := exec_answered_ok h
    exact .refl _
  cases hnr : notif.data.nr <;> simp only [handle, hnr] at hx
  case sysOpen | sysOpenat | sysOpenat2 => exact kept_handleOpen hx
  case sysGetdents64 => exact kept_handleGetdents hx
  case sysChdir | sysFchdir => simp [hnr] at hchdir
  all_goals exact hanswered hx

-- ---------------------------------------------------------------------------
-- Changing directory
-- ---------------------------------------------------------------------------

/-- The guest directory a `chdir` or `fchdir` is about. -/
inductive ChdirTarget (w : World) (m : Memory) (s : State) (notif : SeccompNotif) :
    AbsPath → Prop
  | path {v} : notif.data.nr = .sysChdir →
      w.operand m s notif.pid AT_FDCWD (notif.data.args 0) = some v → ChdirTarget w m s notif v
  | descriptor {directory} : notif.data.nr ≠ .sysChdir →
      w.tracked s notif.pid (asI32 (notif.data.args 0)) = some directory →
      ChdirTarget w m s notif directory.path

/-- Continue where guest and host path are the same, answer otherwise. -/
def enterReply (s : State) (id : UInt64) (v : AbsPath) : SeccompNotifResp :=
  if s.view.locate v = v then ⟨id, 0, 0, USER_NOTIF_FLAG_CONTINUE⟩ else ⟨id, 0, 0, 0⟩

/-- A target inside a bind has to be a directory, one outside is left to the kernel. -/
def Enterable (w : World) (s : State) (v : AbsPath) : Prop :=
  s.view.Projected v → w.isDirectory (s.view.locate v) = true

/-- The call is refused; or the descriptor is not a tracked directory and the kernel goes on; or
the target is recorded. -/
inductive ChdirOutcome (w : World) (m : Memory) (s : State) (notif : SeccompNotif) (tr : Trace)
    (s' : State) : Prop
  | refused {e : Errno} : (notif.data.nr ≠ .sysChdir → e ≠ 0) →
      (∀ v, ChdirTarget w m s notif v → ¬ Enterable w s v) → s' = s →
      Replied tr ⟨notif.id, 0, -e, 0⟩ → ChdirOutcome w m s notif tr s'
  | untracked : notif.data.nr ≠ .sysChdir →
      w.tracked s notif.pid (asI32 (notif.data.args 0)) = none → Kept s s' →
      Replied tr ⟨notif.id, 0, 0, USER_NOTIF_FLAG_CONTINUE⟩ → ChdirOutcome w m s notif tr s'
  | entered {v : AbsPath} : ChdirTarget w m s notif v → Enterable w s v →
      s' = s.insertCwd (w.key notif.pid) v → Replied tr (enterReply s notif.id v) →
      ChdirOutcome w m s notif tr s'

section
variable {w : World} {m : Memory}

theorem samePath_locate (v : AbsPath) :
    samePath (s.view.resolveRead v.toPath) v.toPath = true ↔ s.view.locate v = v := by
  rw [samePath_iff, s.view.components_resolveRead, AbsPath.normalize_toPath]
  exact ⟨components_toPath_inj, fun h => by rw [h]⟩

theorem exec_processKey_bind {f : Pid → Sup α} {out : Option α} {target : Pid}
    (hx : Exec (w.Answers m notif.pid) (processKey target >>= f) tr out) :
    ∃ first rest, Exec (w.Answers m notif.pid) (f (w.key target)) rest out ∧ tr = first ++ rest ∧
      ∀ e ∈ first, e.op.isRespond = false := by
  rcases exec_bind.mp hx with ⟨key, first, rest, hkey, hrest, rfl⟩ | ⟨hnone, -⟩
  · obtain rfl := World.exec_processKey hkey
    exact ⟨first, rest, hrest, rfl, hkey.calls (calls_processKey reads_noRespond _)⟩
  · obtain ⟨r, rest, -, hrest, -⟩ := exec_perform_bind.mp hnone
    cases (exec_ret.mp hrest).2

theorem ChdirTarget.unique {v v' : AbsPath} (h : ChdirTarget w m s notif v)
    (h' : ChdirTarget w m s notif v') : v = v' := by
  cases h with
  | path hnr hv =>
    cases h' with
    | path _ hv' => exact Option.some.inj (hv.symm.trans hv')
    | descriptor hne => exact absurd hnr hne
  | descriptor hne htracked =>
    cases h' with
    | path hnr => exact absurd hnr hne
    | descriptor _ htracked' =>
      obtain rfl := Option.some.inj (htracked.symm.trans htracked')
      rfl

theorem exec_chdirTo {v : AbsPath}
    (hx : Exec (w.Answers m notif.pid) (chdirTo s notif v) tr (some (s', r))) :
    (∃ e, e ≠ 0 ∧ ¬ Enterable w s v ∧ s' = s ∧ Replied tr ⟨notif.id, 0, -e, 0⟩) ∨
      (Enterable w s v ∧ s' = s.insertCwd (w.key notif.pid) v ∧
        Replied tr (enterReply s notif.id v)) := by
  unfold chdirTo at hx
  split at hx
  · rename_i hprojects
    have hp := BindView.projects_toPath.mp hprojects
    obtain ⟨answer, rest, ⟨herror, hdirectory⟩, hrest, rfl⟩ := exec_perform_bind.mp hx
    rw [s.view.normalize_resolveRead, AbsPath.normalize_toPath] at hdirectory
    have hfirst : ∀ e ∈ [(⟨.metadata (s.view.resolveRead v.toPath), answer⟩ : Event Op.Answer)],
        e.op.isRespond = false := by simp [Op.isRespond]
    rw [← List.singleton_append]
    cases answer with
    | error e =>
      obtain ⟨hs, hreply⟩ := exec_answered_ok hrest
      refine .inl ⟨errno e, herror e rfl, fun h => ?_, hs, (exec_respond hreply).after hfirst⟩
      obtain ⟨metadata, hmetadata, -⟩ := hdirectory.mp (h hp)
      cases hmetadata
    | ok metadata =>
      dsimp only at hrest
      split at hrest
      · rename_i hdir
        obtain ⟨first, last, hlast, rfl, hsilent⟩ := exec_processKey_bind hrest
        obtain ⟨hs, hreply⟩ := exec_answered_ok hlast
        refine .inr ⟨fun _ => hdirectory.mpr ⟨metadata, rfl, hdir⟩, hs,
          Replied.after (Replied.after ?_ hsilent) hfirst⟩
        unfold enterReply
        split at hreply
        · rename_i hsame
          rw [if_pos ((samePath_locate v).mp hsame)]
          exact exec_respond hreply
        · rename_i hsame
          rw [if_neg fun h => hsame ((samePath_locate v).mpr h)]
          exact exec_respond hreply
      · rename_i hdir
        obtain ⟨hs, hreply⟩ := exec_answered_ok hrest
        refine .inl ⟨ENOTDIR, by decide, fun h => ?_, hs, (exec_respond hreply).after hfirst⟩
        obtain ⟨metadata', hmetadata, hdir'⟩ := hdirectory.mp (h hp)
        cases hmetadata
        exact hdir hdir'
  · rename_i hprojects
    have hout : ¬ s.view.Projected v := fun hp => hprojects (BindView.projects_toPath.mpr hp)
    obtain ⟨first, last, hlast, rfl, hsilent⟩ := exec_processKey_bind hx
    obtain ⟨hs, hreply⟩ := exec_answered_ok hlast
    refine .inr ⟨fun hp => absurd hp hout, hs, Replied.after ?_ hsilent⟩
    have hlocate : s.view.locate v = v := Mounts.locate_of_not_covered hout
    rw [enterReply, if_pos hlocate]
    exact exec_respond hreply

/-- Once there is a target, entering it is all that is left. -/
theorem ChdirOutcome.ofTarget {v : AbsPath} {first rest : Trace}
    (htarget : ChdirTarget w m s notif v)
    (hfirst : ∀ e ∈ first, e.op.isRespond = false)
    (hx : Exec (w.Answers m notif.pid) (chdirTo s notif v) rest (some (s', r))) :
    ChdirOutcome w m s notif (first ++ rest) s' := by
  rcases exec_chdirTo hx with ⟨e, he, henter, hs, hreply⟩ | ⟨henter, hs, hreply⟩
  · refine .refused (fun _ => he) (fun v' hv' => ?_) hs (hreply.after hfirst)
    rwa [hv'.unique htarget]
  · exact .entered htarget henter hs (hreply.after hfirst)

/-- Everything `chdir` and `fchdir` can do. -/
theorem exec_handleChdir
    (hx : Exec (w.Answers m notif.pid) (handleChdir s notif) tr (some (s', r))) :
    ChdirOutcome w m s notif tr s' := by
  unfold handleChdir at hx
  split at hx
  · rename_i hnr
    have hsilent : (readAndResolve s notif AT_FDCWD (notif.data.args 0)).Calls
        fun op => op.isRespond = false := calls_readAndResolve reads_noRespond fun _ => rfl
    rcases exec_orRespondIn hx with ⟨v, first, rest, hv, hrest, rfl⟩ |
      ⟨e, first, rest, hv, hs, hreply, rfl⟩
    · have hoperand := World.exec_readAndResolve hv
      exact .ofTarget (.path hnr hoperand.symm) (hv.calls hsilent) hrest
    · refine .refused (fun hne => absurd hnr hne) (fun v hv' => ?_) hs
        ((exec_respond hreply).after (hv.calls hsilent))
      have hoperand := World.exec_readAndResolve hv
      cases hv' with
      | path _ hsome => cases hoperand.trans hsome
      | descriptor hne => exact absurd hnr hne
  · rename_i hnr
    obtain ⟨first, rest, hrest, rfl, hsilent⟩ := exec_processKey_bind hx
    dsimp only at hrest
    split at hrest
    · rename_i hdirectory
      obtain ⟨rfl, hreply⟩ := exec_answered_ok hrest
      refine .untracked hnr ?_ (.refl _) ((exec_respond hreply).after hsilent)
      simp [World.tracked, hdirectory]
    · rename_i directory hdirectory
      have hcalls : (directoryFdMatches s notif.pid (asI32 (notif.data.args 0)) directory).Calls
          fun op => op.isRespond = false := calls_directoryFdMatches reads_noRespond rfl
      rcases exec_bind.mp hrest with ⟨matching, second, last, hmatch, hlast, rfl⟩ | ⟨-, hnone⟩
      · have hsecond := hmatch.calls hcalls
        have hmatching := World.exec_directoryFdMatches hmatch
        split at hlast
        · rename_i htrue
          rw [htrue] at hmatching
          have htracked : w.tracked s notif.pid (asI32 (notif.data.args 0)) = some directory := by
            simpa [World.tracked, hdirectory, Option.filter] using hmatching.symm
          rw [← List.append_assoc]
          refine .ofTarget (.descriptor hnr htracked) (fun e he => ?_) hlast
          exact (List.mem_append.mp he).elim (hsilent e) (hsecond e)
        · rename_i hfalse
          obtain ⟨rfl, hreply⟩ := exec_answered_ok hlast
          refine .untracked hnr ?_ (kept_removeDirectory _)
            (((exec_respond hreply).after hsecond).after hsilent)
          rw [hmatching] at hfalse
          simpa [World.tracked, hdirectory, Option.filter] using hfalse
      · cases hnone

end

end PathShim
