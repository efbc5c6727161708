import PathShim.Linux.Continue
import PathShim.Linux.Delivered

/-!
# Failing and succeeding to change directory

What a process can see of its working directory, who still sees the same after
a `chdir` or `fchdir` that failed, and when a successful `fchdir` leads where
the descriptor points.
-/

namespace PathShim

open UnixPath Effects

-- ---------------------------------------------------------------------------
-- What a process sees
-- ---------------------------------------------------------------------------

/-- What `getcwd` and the link `/proc/self/cwd` say: the record, or what the kernel knows. -/
def World.reportedCwd (w : World) (s : State) (pid : Pid) : AbsPath :=
  (w.virtualCwd s pid).getD (w.cwd (w.key pid))

/-- How a process is told its `record`, written as `text`: without one the answer is left to the
kernel, and else the record is copied or the call refused. -/
inductive Tells (record : Option AbsPath) (notif : SeccompNotif) (buffer : UInt64)
    (text : OsStr → Bytes) (tr : Trace) : Prop
  | kernel : record = none → Replied tr ⟨notif.id, 0, 0, USER_NOTIF_FLAG_CONTINUE⟩ →
      Tells record notif buffer text tr
  | copied {cwd value} : record = some cwd → Overwrote tr notif.pid buffer (text cwd.toPath) →
      Replied tr ⟨notif.id, value, 0, 0⟩ → Tells record notif buffer text tr
  | refused {cwd e} : record = some cwd → Replied tr ⟨notif.id, 0, -e, 0⟩ →
      Tells record notif buffer text tr

def ownCwdLink : AbsPath := [nameProc, nameSelf, nameCwd]

/-- Every `getcwd` of the process and every `readlink` of its `/proc/self/cwd` tell it `record`. -/
structure ToldCwd (c : Config) (pid : Pid) (record : Option AbsPath) : Prop where
  getcwd : ∀ {notif m tr s' r}, notif.pid = pid → notif.data.nr = .sysGetcwd →
    Exec (c.world.Answers m notif.pid) (handle c.state notif) tr (some (s', r)) →
    Tells record notif (notif.data.args 0) (fun cwd => cwd.bytes ++ [0]) tr
  readlink : ∀ {notif m tr s' r}, notif.pid = pid → notif.data.nr = .sysReadlink →
    c.world.operand m c.state notif.pid AT_FDCWD (notif.data.args 0) = some ownCwdLink →
    Exec (c.world.Answers m notif.pid) (handle c.state notif) tr (some (s', r)) →
    Tells record notif (notif.data.args 1)
      (fun cwd => cwd.bytes.take (min (notif.data.args 2).toNat cwd.bytes.length)) tr

section
variable {E : Env Op.Answer} {w : World} {s s' : State} {notif : SeccompNotif} {m : Memory}
  {tr : Trace} {r : IoResult Unit}

theorem exec_handle_getcwd (hnr : notif.data.nr = .sysGetcwd)
    (hx : Exec E (handle s notif) tr (some (s', r))) :
    Exec E (handleGetcwd s notif) tr (some r) := by
  have hhandle : handle s notif = answered s (handleGetcwd s notif) := by simp only [handle, hnr]
  rw [hhandle] at hx
  exact (exec_answered_ok hx).2

theorem exec_handle_readlink (hnr : notif.data.nr = .sysReadlink)
    (hx : Exec E (handle s notif) tr (some (s', r))) :
    Exec E (handleReadlink s notif) tr (some r) := by
  have hhandle : handle s notif = answered s (handleReadlink s notif) := by
    simp only [handle, hnr]
  rw [hhandle] at hx
  exact (exec_answered_ok hx).2

/-- The record is looked up before anything is done with it. -/
theorem exec_virtualCwd_bind {f : Option AbsPath → Sup (IoResult Unit)}
    (hE : ∀ op r, E op r → w.Answers m notif.pid op r)
    (hx : Exec E (virtualCwd s notif.pid >>= f) tr (some r)) :
    ∃ first rest, Exec E (f (w.virtualCwd s notif.pid)) rest (some r) ∧ tr = first ++ rest ∧
      ∀ e ∈ first, e.op.looks = true := by
  rcases exec_bind.mp hx with ⟨cwd, first, rest, hcwd, hrest, rfl⟩ | ⟨-, hnone⟩
  · obtain rfl := World.exec_virtualCwd (hcwd.mono hE)
    exact ⟨first, rest, hrest, rfl, hcwd.calls (calls_virtualCwd reads_looks _ _)⟩
  · cases hnone

/-- A `readlink` whose operand is the process's own `/proc/self/cwd`. -/
theorem exec_readlink_own (hnr : notif.data.nr = .sysReadlink)
    (hown : w.operand m s notif.pid AT_FDCWD (notif.data.args 0) = some ownCwdLink)
    (hE : ∀ op r, E op r → w.Answers m notif.pid op r)
    (hx : Exec E (handleReadlink s notif) tr (some r)) :
    ∃ first rest, Exec E (match w.virtualCwd s notif.pid with
      | none => respondContinue notif.id
      | some target =>
        returnLink notif (notif.data.args 1) (notif.data.args 2).toNat target.toPath)
      rest (some r) ∧ tr = first ++ rest ∧ ∀ e ∈ first, e.op.looks = true := by
  have hlooks : (readAndResolve s notif AT_FDCWD (notif.data.args 0)).Calls
      fun op => op.looks = true := calls_readAndResolve reads_looks fun _ => rfl
  simp only [handleReadlink, hnr, if_true] at hx
  rcases exec_orRespond hx with ⟨v, first, rest, hv, hrest, rfl⟩ |
    ⟨e, first, rest, hv, -, -⟩ | ⟨-, hnone⟩
  · obtain rfl := Option.some.inj ((World.exec_readAndResolve (hv.mono hE)).trans hown)
    have hyes : isOwnProcCwd ownCwdLink notif.pid = .ret true := if_pos (.inl rfl)
    rw [hyes, ret_bind, if_pos rfl] at hrest
    obtain ⟨second, last, hlast, rfl, hquiet⟩ := exec_virtualCwd_bind hE hrest
    refine ⟨first ++ second, last, hlast, (List.append_assoc ..).symm, fun e he => ?_⟩
    exact (List.mem_append.mp he).elim (hv.calls hlooks e) (hquiet e)
  · cases (World.exec_readAndResolve (hv.mono hE)).trans hown
  · cases hnone

/-- Copying a record to the process. -/
theorem tells_record {cwd : AbsPath} {buffer : UInt64} {text : OsStr → Bytes} {value : Int}
    (hx : Exec (w.Answers m notif.pid)
      (orRespond notif.id (writeMemory notif.pid buffer (text cwd.toPath)) fun () =>
        respondValue notif.id value) tr (some r)) : Tells (some cwd) notif buffer text tr := by
  have hsilent : (writeMemory notif.pid buffer (text cwd.toPath)).Calls
      fun op => op.isRespond = false :=
    Prog.Calls.bind (.perform rfl) fun r => by
      cases r with
      | error e => trivial
      | ok written =>
        dsimp only
        split <;> trivial
  rcases exec_orRespond hx with ⟨⟨⟩, first, rest, hwrite, hreply, rfl⟩ |
    ⟨e, first, rest, hwrite, hreply, rfl⟩ | ⟨-, hnone⟩
  · refine .copied rfl ?_ ((exec_respond hreply).after (hwrite.calls hsilent))
    exact (exec_writeMemory hwrite).mono fun e he => List.mem_append_left _ he
  · exact .refused rfl ((exec_respond hreply).after (hwrite.calls hsilent))
  · cases hnone

theorem Tells.after {record : Option AbsPath} {buffer : UInt64} {text : OsStr → Bytes}
    {first : Trace} (h : Tells record notif buffer text tr)
    (hlooks : ∀ e ∈ first, e.op.looks = true) : Tells record notif buffer text (first ++ tr) := by
  have hfirst (e : Event Op.Answer) (he : e ∈ first) : e.op.isRespond = false :=
    noRespond_looks (hlooks e he)
  cases h with
  | kernel hcwd hreply => exact .kernel hcwd (hreply.after hfirst)
  | copied hcwd hwrote hreply =>
    exact .copied hcwd (hwrote.mono fun e he => List.mem_append_right _ he) (hreply.after hfirst)
  | refused hcwd hreply => exact .refused hcwd (hreply.after hfirst)

theorem exec_handleGetcwd
    (hx : Exec (w.Answers m notif.pid) (handleGetcwd s notif) tr (some r)) :
    Tells (w.virtualCwd s notif.pid) notif (notif.data.args 0) (fun cwd => cwd.bytes ++ [0])
      tr := by
  obtain ⟨first, rest, hrest, rfl, hlooks⟩ := exec_virtualCwd_bind (fun _ _ h => h) hx
  refine Tells.after ?_ hlooks
  cases hcwd : w.virtualCwd s notif.pid with
  | none =>
    rw [hcwd] at hrest
    exact .kernel rfl (exec_respond hrest)
  | some cwd =>
    rw [hcwd] at hrest
    dsimp only at hrest
    split at hrest
    · exact .refused rfl (exec_respond hrest)
    · exact tells_record hrest

theorem exec_handleReadlink (hnr : notif.data.nr = .sysReadlink)
    (hown : w.operand m s notif.pid AT_FDCWD (notif.data.args 0) = some ownCwdLink)
    (hx : Exec (w.Answers m notif.pid) (handleReadlink s notif) tr (some r)) :
    Tells (w.virtualCwd s notif.pid) notif (notif.data.args 1)
      (fun cwd => cwd.bytes.take (min (notif.data.args 2).toNat cwd.bytes.length)) tr := by
  obtain ⟨first, rest, hrest, rfl, hlooks⟩ := exec_readlink_own hnr hown (fun _ _ h => h) hx
  refine Tells.after ?_ hlooks
  cases hcwd : w.virtualCwd s notif.pid with
  | none =>
    rw [hcwd] at hrest
    exact .kernel rfl (exec_respond hrest)
  | some cwd =>
    rw [hcwd] at hrest
    exact tells_record hrest

/-- A process is told what the supervisor has recorded for it. -/
theorem told_virtualCwd (c : Config) (pid : Pid) :
    ToldCwd c pid (c.world.virtualCwd c.state pid) where
  getcwd {notif m tr s' r} hpid hnr hx := by
    subst hpid
    exact exec_handleGetcwd (exec_handle_getcwd hnr hx)
  readlink {notif m tr s' r} hpid hnr hown hx := by
    subst hpid
    exact exec_handleReadlink hnr hown (exec_handle_readlink hnr hx)

end

-- ---------------------------------------------------------------------------
-- Failed calls
-- ---------------------------------------------------------------------------

/-- A process sees in `after` what it saw in `before`, and the supervisor tells it so. -/
structure SameCwd (before after : Config) (pid : Pid) : Prop where
  told : ToldCwd after pid (before.world.virtualCwd before.state pid)
  record : after.world.virtualCwd after.state pid = before.world.virtualCwd before.state pid
  reported : after.world.reportedCwd after.state pid = before.world.reportedCwd before.state pid
  base : after.world.base after.state pid AT_FDCWD = before.world.base before.state pid AT_FDCWD

/-- The supervisor answers with an error, or leaves the call to the kernel, which rejects it. -/
def Failed (tr : Trace) (verdict : Verdict) : Prop :=
  Refused tr ∨ (Continued tr ∧ verdict = .rejected)

/-- A target that would be left to the kernel is what all the processes that would see it recorded
have recorded already. -/
def RecordedBefore (c : Config) (notif : SeccompNotif) (m : Memory) : Prop :=
  ∀ v, ChdirTarget c.world m c.state notif v → Enterable c.world c.state v →
    c.state.view.locate v = v → ∀ pid, c.world.Alive pid →
    c.world.Inherits c.state (c.world.key notif.pid) pid = true →
    c.world.virtualCwd c.state pid = some v

theorem SameCwd.of_record {s s' : State} {w : World} {pid : Pid} (hview : s'.view = s.view)
    (h : w.virtualCwd s' pid = w.virtualCwd s pid) : SameCwd ⟨s, w⟩ ⟨s', w⟩ pid := by
  refine ⟨?_, h, ?_, ?_⟩
  · have htold := told_virtualCwd ⟨s', w⟩ pid
    simp only [h] at htold
    exact htold
  · simp only [World.reportedCwd, h]
  · simp only [World.base, if_true, h, hview]

/-- One failed `chdir` or `fchdir`. -/
theorem same_iff_recordedBefore {s s' : State} {w w' : World} {notif : SeccompNotif} {m : Memory}
    {tr : Trace} {verdict : Verdict} (hnr : notif.data.nr ∈ [.sysChdir, .sysFchdir])
    (hcall : CallOutcome s w notif m tr verdict s' w') (hfailed : Failed tr verdict) :
    (∀ pid, w.Alive pid → SameCwd ⟨s, w⟩ ⟨s', w'⟩ pid) ↔ RecordedBefore ⟨s, w⟩ notif m := by
  have hrejected (hreply : Replied tr ⟨notif.id, 0, 0, USER_NOTIF_FLAG_CONTINUE⟩) :
      verdict = .rejected := by
    rcases hfailed with hrefused | ⟨-, hverdict⟩
    · exact absurd rfl (hreply.refused_iff.mp hrefused)
    · exact hverdict
  cases hcall with
  | kept h => exact absurd hnr h
  | refused _ _ hno hs hw _ =>
    subst hs hw
    exact ⟨fun _ v htarget henter => absurd henter (hno v htarget),
      fun _ pid _ => .of_record rfl rfl⟩
  | untracked hfchdir htracked hk hexec hreply =>
    obtain rfl := hrejected hreply
    cases hexec
    refine ⟨fun _ v htarget => ?_, fun _ pid _ =>
      .of_record hk.view (World.virtualCwd_congr hk.cwds)⟩
    cases htarget with
    | path h =>
      rw [hfchdir] at h
      cases h
    | descriptor _ h => cases htracked.symm.trans h
  | emulated _ _ _ _ _ _ hreply =>
    rcases hfailed with hrefused | ⟨hcontinued, -⟩
    · exact absurd rfl (hreply.refused_iff.mp hrefused)
    · exact absurd hcontinued hreply.not_continued
  | @continued v _ htarget henter hsame hs hexec hreply =>
    obtain rfl := hrejected hreply
    cases hexec
    subst hs
    constructor
    · intro h v' htarget' _ _ pid halive hinherits
      obtain rfl := htarget.unique htarget'
      have hrecord := (h pid halive).record
      rw [World.virtualCwd_insertCwd, if_pos hinherits] at hrecord
      exact hrecord.symm
    · intro h pid halive
      refine .of_record rfl ?_
      rw [World.virtualCwd_insertCwd]
      split
      · rename_i hinherits
        exact (h v htarget henter hsame pid halive hinherits).symm
      · rfl

/-- In every run, a failed `chdir` or `fchdir` leaves what every process sees as it was exactly if
the target is outside what the supervisor records, or recorded before. -/
theorem failed_chdir_unchanged {view : BindView} {c₀ c : Config} {ts : List Transition}
    (hstart : c₀.Start view) (hrun : Run c₀ ts c) {t : Transition} (ht : t ∈ ts)
    {notif : SeccompNotif} {m : Memory} {tr : Trace} {verdict : Verdict}
    (hlabel : t.label = .call notif m tr verdict)
    (hnr : notif.data.nr ∈ [.sysChdir, .sysFchdir]) (hfailed : Failed tr verdict) :
    (∀ pid, t.before.world.Alive pid → SameCwd t.before t.after pid) ↔
      RecordedBefore t.before notif m := by
  have hstep := (Run.coherent hstart hrun t ht).2
  obtain ⟨before, label, after⟩ := t
  subst hlabel
  exact same_iff_recordedBefore hnr (call_cases hstep).2 hfailed

theorem failed_chdir_unchanged_rejected : ∃ tr, Run loneStart [rejectX tr] ⟨atX, loneWorld⟩ ∧
    ((∀ pid, loneWorld.Alive pid → SameCwd loneStart ⟨atX, loneWorld⟩ pid) ↔
      RecordedBefore loneStart chdirNotif (pathMemory ['/', 'x'])) := by
  obtain ⟨tr, hcontinued, hstep⟩ := rejectX_step
  have hrun : Run loneStart [rejectX tr] ⟨atX, loneWorld⟩ := .snoc .nil hstep
  exact ⟨tr, hrun, failed_chdir_unchanged loneStart_start hrun List.mem_cons_self rfl
    List.mem_cons_self (.inr ⟨hcontinued, rfl⟩)⟩

/-- The rejected target is reported from then on. -/
theorem failed_chdir_changes : ∃ tr, Run loneStart [rejectX tr] ⟨atX, loneWorld⟩ ∧
    Failed tr .rejected ∧ loneWorld.Alive 100 ∧
    ¬ SameCwd (rejectX tr).before (rejectX tr).after 100 := by
  obtain ⟨tr, hcontinued, hstep⟩ := rejectX_step
  refine ⟨tr, .snoc .nil hstep, .inr ⟨hcontinued, rfl⟩, by decide, fun h => ?_⟩
  cases h.record

-- ---------------------------------------------------------------------------
-- Successful `fchdir`
-- ---------------------------------------------------------------------------

/-- What a process is told and where its relative pathnames start are both the directory `host`. -/
structure Denotes (c : Config) (pid : Pid) (host : AbsPath) : Prop where
  told : ToldCwd c pid (c.world.virtualCwd c.state pid)
  reported : c.state.view.locate (c.world.reportedCwd c.state pid) = host
  base : (c.world.base c.state pid AT_FDCWD).map c.state.view.locate = some host

/-- The supervisor answers with a value, or leaves the call to the kernel, which accepts it. -/
def Succeeded (tr : Trace) (verdict : Verdict) : Prop :=
  (¬ Refused tr ∧ ¬ Continued tr) ∨ (Continued tr ∧ verdict = .accepted)

/-- The descriptor is tracked; or the recorded directory is the one it refers to; or none is
recorded, and the names the kernel and the reverse mapping give the directory lead to it. -/
def Followed (c : Config) (notif : SeccompNotif) (host : AbsPath) : Prop :=
  c.world.tracked c.state notif.pid (asI32 (notif.data.args 0)) ≠ none ∨
  ((∀ cwd, c.world.virtualCwd c.state notif.pid = some cwd → c.state.view.locate cwd = host) ∧
    (c.world.virtualCwd c.state notif.pid = none →
      c.state.view.locate host = host ∧ c.state.view.locate (c.state.view.guestOf host) = host))

section
variable {s s' : State} {w w' : World} {pid : Pid} {host : AbsPath}

theorem denotes_record {cwd : AbsPath} (h : w.virtualCwd s pid = some cwd) :
    Denotes ⟨s, w⟩ pid host ↔ s.view.locate cwd = host := by
  have hreported : w.reportedCwd s pid = cwd := by rw [World.reportedCwd, h, Option.getD_some]
  have hbase : w.base s pid AT_FDCWD = some cwd := by
    rw [World.base, if_pos rfl, h, Option.getD_some]
  constructor
  · intro hdenotes
    rw [← hdenotes.reported, hreported]
  · intro hlocate
    exact ⟨told_virtualCwd _ _, by rw [hreported, hlocate],
      by rw [hbase, Option.map_some, hlocate]⟩

theorem denotes_kernel (h : w.virtualCwd s pid = none) (hcwd : w.cwd (w.key pid) = host) :
    Denotes ⟨s, w⟩ pid host ↔
      s.view.locate host = host ∧ s.view.locate (s.view.guestOf host) = host := by
  have hreported : w.reportedCwd s pid = host := by
    rw [World.reportedCwd, h, Option.getD_none, hcwd]
  have hbase : w.base s pid AT_FDCWD = some (s.view.guestOf host) := by
    rw [World.base, if_pos rfl, h, Option.getD_none, hcwd]
  constructor
  · intro hdenotes
    have hmap := hdenotes.base
    rw [hbase, Option.map_some] at hmap
    exact ⟨hreported ▸ hdenotes.reported, Option.some.inj hmap⟩
  · rintro ⟨hhost, hguest⟩
    exact ⟨told_virtualCwd _ _, by rw [hreported, hhost], by rw [hbase, Option.map_some, hguest]⟩

/-- One successful `fchdir`. -/
theorem denotes_iff_followed {notif : SeccompNotif} {m : Memory} {tr : Trace} {verdict : Verdict}
    (hnr : notif.data.nr = .sysFchdir) (hcall : CallOutcome s w notif m tr verdict s' w')
    (hsucceeded : Succeeded tr verdict)
    (hhost : w.fds (w.key notif.pid) (asI32 (notif.data.args 0)) = some host) :
    Denotes ⟨s', w'⟩ notif.pid host ↔ Followed ⟨s, w⟩ notif host := by
  have hne : notif.data.nr ≠ .sysChdir := by simp [hnr]
  -- a tracked directory is entered under its guest path
  have hentered {v : AbsPath} (htarget : ChdirTarget w m s notif v)
      (hrecord : w'.virtualCwd (s.insertCwd (w.key notif.pid) v) notif.pid = some v) :
      Denotes ⟨s.insertCwd (w.key notif.pid) v, w'⟩ notif.pid host ↔
        Followed ⟨s, w⟩ notif host := by
    cases htarget with
    | path h => exact absurd h hne
    | @descriptor directory _ htracked =>
      have hfd := of_decide_eq_true (Option.mem_filter_iff.mp htracked).2
      obtain rfl := Option.some.inj (hfd.symm.trans hhost)
      refine ⟨fun _ => .inl fun hnone => ?_, fun _ => (denotes_record hrecord).mpr rfl⟩
      cases htracked.symm.trans hnone
  have hself {v : AbsPath} :
      w.virtualCwd (s.insertCwd (w.key notif.pid) v) notif.pid = some v := by
    rw [World.virtualCwd_insertCwd, if_pos World.inherits_self]
  cases hcall with
  | kept h => simp [hnr] at h
  | refused _ he _ _ _ hreply =>
    rcases hsucceeded with ⟨hok, -⟩ | ⟨hcontinued, -⟩
    · exact absurd (hreply.refused_iff.mpr (Int.neg_ne_zero.mpr (he hne))) hok
    · exact absurd hcontinued hreply.not_continued
  | untracked _ htracked hk hexec hreply =>
    rcases hsucceeded with ⟨-, hstop⟩ | ⟨-, rfl⟩
    · exact absurd hreply.continued hstop
    · cases hexec with
      | chdir h => exact absurd h hne
      | other h => simp [hnr] at h
      | @fchdir host' _ hfd =>
        obtain rfl := Option.some.inj (hfd.symm.trans hhost)
        have hview := hk.view
        have hsame : (w.enter (w.key notif.pid) host').virtualCwd s' notif.pid =
            w.virtualCwd s notif.pid := World.virtualCwd_congr hk.cwds
        have hmoved : (w.enter (w.key notif.pid) host').cwd
            ((w.enter (w.key notif.pid) host').key notif.pid) = host' := Function.update_self _ _ _
        cases hcwd : w.virtualCwd s notif.pid with
        | some cwd =>
          rw [denotes_record (hsame.trans hcwd), hview]
          simp [Followed, htracked, hcwd]
        | none =>
          rw [denotes_kernel (hsame.trans hcwd) hmoved, hview]
          simp [Followed, htracked, hcwd]
  | emulated _ htarget _ _ hs hw _ =>
    subst hs hw
    exact hentered htarget hself
  | continued _ htarget _ _ hs hexec _ =>
    subst hs
    refine hentered htarget ?_
    cases hexec <;> exact hself

end

/-- In every run, a successful `fchdir` leads where the descriptor points exactly if the supervisor
followed it or had no other directory recorded. -/
theorem fchdir_moves {view : BindView} {c₀ c : Config} {ts : List Transition}
    (hstart : c₀.Start view) (hrun : Run c₀ ts c) {t : Transition} (ht : t ∈ ts)
    {notif : SeccompNotif} {m : Memory} {tr : Trace} {verdict : Verdict} {host : AbsPath}
    (hlabel : t.label = .call notif m tr verdict) (hnr : notif.data.nr = .sysFchdir)
    (hsucceeded : Succeeded tr verdict)
    (hhost : t.before.world.fds (t.before.world.key notif.pid) (asI32 (notif.data.args 0)) =
      some host) :
    Denotes t.after notif.pid host ↔ Followed t.before notif host := by
  have hstep := (Run.coherent hstart hrun t ht).2
  obtain ⟨before, label, after⟩ := t
  subst hlabel
  exact denotes_iff_followed hnr (call_cases hstep).2 hsucceeded hhost

def worldWithD : World := loneWorld.withDescriptors 100 openD

def movedToD : World := worldWithD.enter 100 (osStr ['/', 'd']).normalize

/-- `fchdir` to the open `/d`, from a state without tracked descriptors. -/
def moveD (s : State) (tr : Trace) : Transition where
  before := ⟨s, worldWithD⟩
  label := .call fchdirNotif (pathMemory []) tr .accepted
  after := ⟨s, movedToD⟩

theorem openD_step : Step loneStart (.descriptors 100 openD) ⟨State.new deepBind, worldWithD⟩ :=
  .descriptors

theorem moveD_step : ∃ tr, Continued tr ∧
    Step (moveD (State.new deepBind) tr).before (moveD (State.new deepBind) tr).label
      (moveD (State.new deepBind) tr).after :=
  ⟨_, List.any_eq_true.mp rfl, .continued (r := .ok ()) (by decide) rfl rfl (.fchdir rfl rfl)⟩

theorem fchdir_moves_start : ∃ ts tr, Run loneStart ts ⟨State.new deepBind, movedToD⟩ ∧
    moveD (State.new deepBind) tr ∈ ts ∧
    Denotes ⟨State.new deepBind, movedToD⟩ 100 (osStr ['/', 'd']).normalize := by
  obtain ⟨tr, hcontinued, hstep⟩ := moveD_step
  have hmem : moveD (State.new deepBind) tr ∈
      [⟨loneStart, .descriptors 100 openD, ⟨State.new deepBind, worldWithD⟩⟩] ++
        [moveD (State.new deepBind) tr] := List.mem_append_right _ List.mem_cons_self
  have hrun := Run.snoc (.snoc .nil openD_step) hstep
  refine ⟨_, tr, hrun, hmem, ?_⟩
  refine (fchdir_moves loneStart_start hrun hmem rfl rfl (.inr ⟨hcontinued, rfl⟩) rfl).mpr ?_
  exact .inr ⟨fun cwd h => (by cases h), fun _ => ⟨rfl, rfl⟩⟩

theorem moveD_inBind_step : ∃ tr, Continued tr ∧
    Step (moveD inBind tr).before (moveD inBind tr).label (moveD inBind tr).after :=
  ⟨_, List.any_eq_true.mp rfl, .continued (r := .ok ()) (by decide) rfl rfl (.fchdir rfl rfl)⟩

theorem chdirBind_worldWithD_step : ∃ tr, Step ⟨State.new deepBind, worldWithD⟩
    (.call chdirNotif (pathMemory ['/', 'a', '/', 'b']) tr .accepted) ⟨inBind, worldWithD⟩ :=
  ⟨_, .answered (r := .ok ()) (by decide) rfl rfl⟩

/-- After `chdir` into the bind, `fchdir` back to the open `/d` is granted and has no effect on what
the process sees. -/
theorem fchdir_stays : ∃ ts tr, Run loneStart ts ⟨inBind, movedToD⟩ ∧ moveD inBind tr ∈ ts ∧
    Succeeded tr .accepted ∧
    worldWithD.fds 100 (asI32 (fchdirNotif.data.args 0)) = some (osStr ['/', 'd']).normalize ∧
    ¬ Denotes (moveD inBind tr).after 100 (osStr ['/', 'd']).normalize := by
  obtain ⟨tr₁, h₁⟩ := chdirBind_worldWithD_step
  obtain ⟨tr₂, hcontinued, h₂⟩ := moveD_inBind_step
  refine ⟨_, tr₂, .snoc (.snoc (.snoc .nil openD_step) h₁) h₂, List.mem_append_right _
    List.mem_cons_self, .inr ⟨hcontinued, rfl⟩, rfl, fun h => ?_⟩
  have hreported : inBind.view.locate (movedToD.reportedCwd inBind 100) =
    (osStr ['/', 'd']).normalize := h.reported
  exact absurd hreported (by decide)

end PathShim
