import PathShim.Linux.StateFrame

/-!
# Runs of supervised processes

The supervisor and the kernel side by side: calls that are notified and
answered, descriptors that come and go, processes and threads that start. What
the supervisor believes about working directories agrees with the kernel as
long as no step of the run is one of those that pull the two apart.
-/

namespace PathShim

open UnixPath Effects

-- ---------------------------------------------------------------------------
-- Steps
-- ---------------------------------------------------------------------------

structure Config where
  state : State
  world : World

/-- What the kernel makes of a call it was allowed to go on with. -/
inductive Verdict where
  | accepted
  | rejected
  deriving DecidableEq

/-- `descriptors` stands for everything that gives a process another descriptor table: an open, a
descriptor that was injected, `close`, `dup`, close-on-exec, a message. `tree` is whatever anybody
does to the host's directories. -/
inductive Label where
  | call (notif : SeccompNotif) (m : Memory) (tr : Trace) (verdict : Verdict)
  | descriptors (key : Pid) (table : Fd → Option AbsPath)
  | tree (isDirectory : AbsPath → Bool)
  | fork (pid child : Pid)
  | thread (pid tid : Pid)

namespace World

def enter (w : World) (key : Pid) (directory : AbsPath) : World :=
  { w with cwd := Function.update w.cwd key directory }

def withDescriptors (w : World) (key : Pid) (table : Fd → Option AbsPath) : World :=
  { w with fds := Function.update w.fds key table }

def forked (w : World) (pid child : Pid) : World where
  tgid := Function.update w.tgid child (some child)
  parent := Function.update w.parent child (some (w.key pid))
  cwd := Function.update w.cwd child (w.cwd (w.key pid))
  fds := Function.update w.fds child (w.fds (w.key pid))
  isDirectory := w.isDirectory

def threaded (w : World) (pid tid : Pid) : World :=
  { w with
    tgid := Function.update w.tgid tid (some (w.key pid))
    parent := Function.update w.parent tid (w.parent (w.key pid)) }

/-- The kernel's part of a call, as far as working directories go. -/
inductive Executes (w : World) (m : Memory) (notif : SeccompNotif) : Verdict → World → Prop
  | rejected : Executes w m notif .rejected w
  | chdir {raw target} : notif.data.nr = .sysChdir → m.Holds (notif.data.args 0) raw →
      w.kernelPath notif.pid AT_FDCWD raw = some target →
      Executes w m notif .accepted (w.enter (w.key notif.pid) target)
  | fchdir {host} : notif.data.nr = .sysFchdir →
      w.fds (w.key notif.pid) (asI32 (notif.data.args 0)) = some host →
      Executes w m notif .accepted (w.enter (w.key notif.pid) host)
  | other : notif.data.nr ∉ [.sysChdir, .sysFchdir] → Executes w m notif .accepted w

/-- Thread group leaders are in their own group, and parents are alive or outside. -/
structure WellFormed (w : World) : Prop where
  zero : ¬ w.Alive 0
  leader : ∀ pid key, w.tgid pid = some key → w.tgid key = some key
  parent : ∀ pid parent, w.Alive pid → w.parent pid = some parent → parent = 0 ∨ w.Alive parent

end World

inductive Step : Config → Label → Config → Prop
  | call {s w notif m tr verdict s' w' r} : w.Alive notif.pid →
      Exec (w.Answers m notif.pid) (handle s notif) tr (some (s', r)) →
      (Continued tr → w.Executes m notif verdict w') → (¬ Continued tr → w' = w) →
      Step ⟨s, w⟩ (.call notif m tr verdict) ⟨s', w'⟩
  | descriptors {s w key table} :
      Step ⟨s, w⟩ (.descriptors key table) ⟨s, w.withDescriptors key table⟩
  | tree {s w isDirectory} :
      Step ⟨s, w⟩ (.tree isDirectory) ⟨s, { w with isDirectory := isDirectory }⟩
  | fork {s w pid child} : w.Alive pid → ¬ w.Alive child → child ≠ 0 →
      Step ⟨s, w⟩ (.fork pid child) ⟨s, w.forked pid child⟩
  | thread {s w pid tid} : w.Alive pid → ¬ w.Alive tid → tid ≠ 0 →
      Step ⟨s, w⟩ (.thread pid tid) ⟨s, w.threaded pid tid⟩

structure Transition where
  before : Config
  label : Label
  after : Config

section
variable {s s' : State} {w w' : World} {notif : SeccompNotif} {m : Memory} {verdict : Verdict}
  {r : IoResult Unit}

/-- Under the answers of such a world, a call that is answered in full. -/
theorem Step.answered (halive : w.Alive notif.pid)
    (heval : (handle s notif).eval (w.answers m) = some (s', r))
    (hstop : ((handle s notif).trace (w.answers m)).any isContinue = false) :
    Step ⟨s, w⟩ (.call notif m ((handle s notif).trace (w.answers m)) verdict) ⟨s', w⟩ := by
  refine .call (r := r) halive ?_ (fun h => ?_) fun _ => rfl
  · rw [← heval]
    exact exec_eval _ World.answers_allowed _
  · have hany := List.any_eq_true.mpr h
    rw [hstop] at hany
    cases hany

/-- And one that the kernel goes on with. -/
theorem Step.continued (halive : w.Alive notif.pid)
    (heval : (handle s notif).eval (w.answers m) = some (s', r))
    (hcontinue : ((handle s notif).trace (w.answers m)).any isContinue = true)
    (hexec : w.Executes m notif verdict w') :
    Step ⟨s, w⟩ (.call notif m ((handle s notif).trace (w.answers m)) verdict) ⟨s', w'⟩ := by
  refine .call (r := r) halive ?_ (fun _ => hexec) fun h => ?_
  · rw [← heval]
    exact exec_eval _ World.answers_allowed _
  · exact absurd (List.any_eq_true.mp hcontinue) h

end

/-- A run and its steps in order. -/
inductive Run (start : Config) : List Transition → Config → Prop
  | nil : Run start [] start
  | snoc {ts c label c'} : Run start ts c → Step c label c' →
      Run start (ts ++ [⟨c, label, c'⟩]) c'

/-- Nothing is recorded when the supervisor starts. -/
def Config.Start (view : BindView) (c : Config) : Prop :=
  c.state = State.new view ∧ c.world.WellFormed

-- ---------------------------------------------------------------------------
-- Processes and their ancestors
-- ---------------------------------------------------------------------------

namespace World

variable {w : World} {s : State} {pid child : Pid}

theorem key_eq {key : Pid} (h : w.tgid pid = some key) : w.key pid = key := by
  rw [World.key, h, Option.getD_some]

theorem alive_key (hw : w.WellFormed) (h : w.Alive pid) : w.Alive (w.key pid) := by
  obtain ⟨key, hkey⟩ := Option.ne_none_iff_exists'.mp h
  rw [key_eq hkey, Alive, hw.leader pid key hkey]
  simp

theorem key_key (hw : w.WellFormed) (h : w.Alive pid) : w.key (w.key pid) = w.key pid := by
  obtain ⟨key, hkey⟩ := Option.ne_none_iff_exists'.mp h
  rw [key_eq hkey, key_eq (hw.leader pid key hkey)]

/-- The chain of ancestors stays among live processes. -/
theorem alive_up {current above : Pid} (hw : w.WellFormed) (h : w.Alive current)
    (hup : w.up current = some above) : w.Alive above := by
  unfold up at hup
  cases hparent : w.parent current with
  | none =>
    rw [hparent] at hup
    cases hup
  | some parent =>
    rw [hparent] at hup
    dsimp only at hup
    split at hup
    · cases hup
    · rename_i htop
      obtain rfl := Option.some.inj hup
      have hzero : parent ≠ 0 := fun h0 => htop (.inl h0)
      exact alive_key hw ((hw.parent current parent h hparent).resolve_left hzero)

theorem virtualCwd_insertCwd (key : Pid) (v : AbsPath) :
    w.virtualCwd (s.insertCwd key v) pid =
      if w.Inherits s key pid then some v else w.virtualCwd s pid :=
  Inherit.find_update 16 (w.key pid)

theorem inherits_self : w.Inherits s (w.key pid) pid = true := Inherit.reaches_self

theorem virtualCwd_congr {s' : State} (h : s'.virtualCwds = s.virtualCwds) :
    w.virtualCwd s' pid = w.virtualCwd s pid := by
  rw [virtualCwd, virtualCwd, h]

-- ---------------------------------------------------------------------------
-- New tasks
-- ---------------------------------------------------------------------------

section
variable (hw : w.WellFormed) (hpid : w.Alive pid) (hchild : ¬ w.Alive child)
include hchild

theorem key_forked {task : Pid} (h : w.Alive task) :
    (w.forked pid child).key task = w.key task := by
  have hne : task ≠ child := fun heq => hchild (heq ▸ h)
  simp [World.key, forked, Function.update_of_ne hne]

theorem alive_forked {task : Pid} :
    (w.forked pid child).Alive task ↔ task = child ∨ w.Alive task := by
  by_cases htask : task = child
  · subst htask
    simp [Alive, forked]
  · simp [Alive, forked, htask]

theorem key_threaded {task : Pid} (h : w.Alive task) :
    (w.threaded pid child).key task = w.key task := by
  have hne : task ≠ child := fun heq => hchild (heq ▸ h)
  simp [World.key, threaded, Function.update_of_ne hne]

theorem alive_threaded {task : Pid} :
    (w.threaded pid child).Alive task ↔ task = child ∨ w.Alive task := by
  by_cases htask : task = child
  · subst htask
    simp [Alive, threaded]
  · simp [Alive, threaded, htask]

include hw

/-- A new task does not change the ancestors of the others. -/
theorem up_new {w' : World} {current : Pid} (h : w.Alive current)
    (hparent : ∀ task, task ≠ child → w'.parent task = w.parent task)
    (hkey : ∀ task, w.Alive task → w'.key task = w.key task) : w'.up current = w.up current := by
  have hne : current ≠ child := fun heq => hchild (heq ▸ h)
  unfold up
  rw [hparent current hne]
  cases hp : w.parent current with
  | none => rfl
  | some parent =>
    dsimp only
    split
    · rfl
    · rename_i htop
      have hzero : parent ≠ 0 := fun h0 => htop (.inl h0)
      rw [hkey parent ((hw.parent current parent h hp).resolve_left hzero)]

theorem virtualCwd_new {w' : World} {task : Pid} (h : w.Alive task)
    (hparent : ∀ task, task ≠ child → w'.parent task = w.parent task)
    (hkey : ∀ task, w.Alive task → w'.key task = w.key task) :
    w'.virtualCwd s task = w.virtualCwd s task := by
  rw [virtualCwd, virtualCwd, hkey task h]
  exact Inherit.find_congr (fun _ _ => alive_up hw)
    (fun _ hi => up_new hw hchild hi hparent hkey) (alive_key hw h)

theorem virtualCwd_forked {task : Pid} (h : w.Alive task) :
    (w.forked pid child).virtualCwd s task = w.virtualCwd s task :=
  virtualCwd_new hw hchild h (fun _ hne => Function.update_of_ne hne _ _)
    fun _ => key_forked hchild

theorem virtualCwd_threaded {task : Pid} (h : w.Alive task) :
    (w.threaded pid child).virtualCwd s task = w.virtualCwd s task :=
  virtualCwd_new hw hchild h (fun _ hne => Function.update_of_ne hne _ _)
    fun _ => key_threaded hchild

include hpid

/-- A forked process sees what its parent sees, or nothing if the chain is too long. -/
theorem virtualCwd_child {c : AbsPath} (hnone : s.virtualCwds child = none)
    (h : (w.forked pid child).virtualCwd s child = some c) : w.virtualCwd s pid = some c := by
  have hkey := alive_key hw hpid
  have hkeychild : (w.forked pid child).key child = child := by simp [World.key, forked]
  have hup : (w.forked pid child).up child = some (w.key pid) := by
    have hzero : w.key pid ≠ 0 := fun h0 => hw.zero (h0 ▸ hkey)
    have hself : w.key pid ≠ child := fun heq => hchild (heq ▸ hkey)
    unfold up
    simp only [forked, Function.update_self]
    rw [if_neg (by simp [hzero, hself])]
    exact congrArg some ((key_forked hchild hkey).trans (key_key hw hpid))
  rw [virtualCwd, hkeychild, Inherit.find_up hnone hup] at h
  rw [Inherit.find_congr (S := w.Alive) (fun _ _ => alive_up hw)
    (fun _ hi => up_new hw hchild hi (fun _ hne => Function.update_of_ne hne _ _)
      fun _ => key_forked hchild) hkey] at h
  exact Inherit.find_mono h

theorem virtualCwd_tid :
    (w.threaded pid child).virtualCwd s child = w.virtualCwd s pid := by
  have hkeychild : (w.threaded pid child).key child = w.key pid := by
    simp [World.key, threaded]
  rw [virtualCwd, virtualCwd, hkeychild]
  exact Inherit.find_congr (fun _ _ => alive_up hw)
    (fun _ hi => up_new hw hchild hi (fun _ hne => Function.update_of_ne hne _ _)
      fun _ => key_threaded hchild) (alive_key hw hpid)

theorem wellFormed_forked (hzero : child ≠ 0) : (w.forked pid child).WellFormed where
  zero h := by
    rcases (alive_forked hchild).mp h with h | h
    · exact hzero h.symm
    · exact hw.zero h
  leader task key h := by
    by_cases htask : task = child
    · subst htask
      obtain rfl : task = key := by simpa [forked] using h
      exact h
    · have h' : w.tgid task = some key := by simpa [forked, Function.update_of_ne htask] using h
      have hne : key ≠ child := fun heq => hchild (by simp [Alive, ← heq, hw.leader task key h'])
      simpa [forked, Function.update_of_ne hne] using hw.leader task key h'
  parent task parent halive h := by
    by_cases htask : task = child
    · subst htask
      obtain rfl : w.key pid = parent := by simpa [forked] using h
      exact .inr ((alive_forked hchild).mpr (.inr (alive_key hw hpid)))
    · have h' : w.parent task = some parent := by
        simpa [forked, Function.update_of_ne htask] using h
      have hold := ((alive_forked hchild).mp halive).resolve_left htask
      exact (hw.parent task parent hold h').imp_right fun hp => (alive_forked hchild).mpr (.inr hp)

theorem wellFormed_threaded (hzero : child ≠ 0) : (w.threaded pid child).WellFormed where
  zero h := by
    rcases (alive_threaded hchild).mp h with h | h
    · exact hzero h.symm
    · exact hw.zero h
  leader task key h := by
    have hkey : w.tgid key = some key → (w.threaded pid child).tgid key = some key := by
      intro hk
      have hne : key ≠ child := fun heq => hchild (by simp [Alive, ← heq, hk])
      simpa [threaded, Function.update_of_ne hne] using hk
    by_cases htask : task = child
    · subst htask
      obtain rfl : w.key pid = key := by simpa [threaded] using h
      obtain ⟨leader, hleader⟩ := Option.ne_none_iff_exists'.mp hpid
      refine hkey ?_
      rw [key_eq hleader]
      exact hw.leader pid leader hleader
    · exact hkey (hw.leader task key (by simpa [threaded, Function.update_of_ne htask] using h))
  parent task parent halive h := by
    by_cases htask : task = child
    · subst htask
      have h' : w.parent (w.key pid) = some parent := by simpa [threaded] using h
      exact (hw.parent _ _ (alive_key hw hpid) h').imp_right fun hp =>
        (alive_threaded hchild).mpr (.inr hp)
    · have h' : w.parent task = some parent := by
        simpa [threaded, Function.update_of_ne htask] using h
      have hold := ((alive_threaded hchild).mp halive).resolve_left htask
      exact (hw.parent task parent hold h').imp_right fun hp =>
        (alive_threaded hchild).mpr (.inr hp)

end

theorem Executes.frame {w' : World} {m : Memory} {notif : SeccompNotif} {verdict : Verdict}
    (h : w.Executes m notif verdict w') :
    w'.tgid = w.tgid ∧ w'.parent = w.parent ∧ w'.fds = w.fds := by
  cases h <;> exact ⟨rfl, rfl, rfl⟩

/-- Only the caller's own group is moved. -/
theorem Executes.cwd_of_ne {w' : World} {m : Memory} {notif : SeccompNotif} {verdict : Verdict}
    {key : Pid} (h : w.Executes m notif verdict w') (hne : key ≠ w.key notif.pid) :
    w'.cwd key = w.cwd key := by
  cases h with
  | rejected => rfl
  | chdir => exact Function.update_of_ne hne _ _
  | fchdir => exact Function.update_of_ne hne _ _
  | other => rfl

end World

-- ---------------------------------------------------------------------------
-- What one step can do
-- ---------------------------------------------------------------------------

/-- Everything a notified call can do to the supervisor and to the kernel. -/
inductive CallOutcome (s : State) (w : World) (notif : SeccompNotif) (m : Memory) (tr : Trace)
    (verdict : Verdict) (s' : State) (w' : World) : Prop
  | kept : notif.data.nr ∉ [.sysChdir, .sysFchdir] → Kept s s' → w' = w →
      CallOutcome s w notif m tr verdict s' w'
  | refused {e : Errno} : notif.data.nr ∈ [.sysChdir, .sysFchdir] →
      (notif.data.nr ≠ .sysChdir → e ≠ 0) →
      (∀ v, ChdirTarget w m s notif v → ¬ Enterable w s v) → s' = s → w' = w →
      Replied tr ⟨notif.id, 0, -e, 0⟩ → CallOutcome s w notif m tr verdict s' w'
  | untracked : notif.data.nr = .sysFchdir →
      w.tracked s notif.pid (asI32 (notif.data.args 0)) = none → Kept s s' →
      w.Executes m notif verdict w' → Replied tr ⟨notif.id, 0, 0, USER_NOTIF_FLAG_CONTINUE⟩ →
      CallOutcome s w notif m tr verdict s' w'
  | emulated {v : AbsPath} : notif.data.nr ∈ [.sysChdir, .sysFchdir] →
      ChdirTarget w m s notif v → Enterable w s v → s.view.locate v ≠ v →
      s' = s.insertCwd (w.key notif.pid) v → w' = w → Replied tr ⟨notif.id, 0, 0, 0⟩ →
      CallOutcome s w notif m tr verdict s' w'
  | continued {v : AbsPath} : notif.data.nr ∈ [.sysChdir, .sysFchdir] →
      ChdirTarget w m s notif v → Enterable w s v → s.view.locate v = v →
      s' = s.insertCwd (w.key notif.pid) v → w.Executes m notif verdict w' →
      Replied tr ⟨notif.id, 0, 0, USER_NOTIF_FLAG_CONTINUE⟩ →
      CallOutcome s w notif m tr verdict s' w'

theorem call_cases {s s' : State} {w w' : World} {notif : SeccompNotif} {m : Memory} {tr : Trace}
    {verdict : Verdict} (h : Step ⟨s, w⟩ (.call notif m tr verdict) ⟨s', w'⟩) :
    w.Alive notif.pid ∧ CallOutcome s w notif m tr verdict s' w' := by
  cases h with
  | call halive hx hcontinue hstop =>
    refine ⟨halive, ?_⟩
    by_cases hnr : notif.data.nr ∈ [.sysChdir, .sysFchdir]
    · have hchdir : handle s notif = handleChdir s notif := by
        rcases List.mem_pair.mp hnr with hnr | hnr <;> simp only [handle, hnr]
      rw [hchdir] at hx
      cases exec_handleChdir hx with
      | refused he hno hs hreply =>
        exact .refused hnr he hno hs (hstop hreply.not_continued) hreply
      | untracked hne htracked hkept hreply =>
        refine .untracked ?_ htracked hkept (hcontinue hreply.continued) hreply
        exact (List.mem_pair.mp hnr).resolve_left hne
      | entered htarget henter hs hreply =>
        unfold enterReply at hreply
        split at hreply
        · rename_i hsame
          exact .continued hnr htarget henter hsame hs (hcontinue hreply.continued) hreply
        · rename_i hmoved
          exact .emulated hnr htarget henter hmoved hs (hstop hreply.not_continued) hreply
    · refine .kept hnr (kept_handle hnr hx) ?_
      by_cases hcont : Continued tr
      · cases hcontinue hcont with
        | rejected => rfl
        | chdir h => exact absurd (by simp [h]) hnr
        | fchdir h => exact absurd (by simp [h]) hnr
        | other => rfl
      · exact hstop hcont

-- ---------------------------------------------------------------------------
-- What every run keeps
-- ---------------------------------------------------------------------------

/-- What is true at the start and is kept by the steps of the run is true before each of them. -/
theorem Run.inv {P : Config → Prop} {c₀ c : Config} {ts : List Transition} (hrun : Run c₀ ts c)
    (h0 : P c₀) (hstep : ∀ t ∈ ts, P t.before → Step t.before t.label t.after → P t.after) :
    P c ∧ ∀ t ∈ ts, P t.before ∧ Step t.before t.label t.after := by
  induction hrun with
  | nil => exact ⟨h0, by simp⟩
  | snoc hrun hlast ih =>
    obtain ⟨hc, hall⟩ := ih fun t ht => hstep t (List.mem_append_left _ ht)
    refine ⟨hstep _ (List.mem_append_right _ List.mem_cons_self) hc hlast, fun t ht => ?_⟩
    rcases List.mem_append.mp ht with ht | ht
    · exact hall t ht
    · rw [List.mem_singleton.mp ht]
      exact ⟨hc, hlast⟩

/-- Records belong to live processes and tracked directories lie inside binds. -/
structure Config.Coherent (c : Config) : Prop where
  world : c.world.WellFormed
  tracks : c.state.TracksProjected
  live : ∀ key, c.state.virtualCwds key ≠ none → c.world.Alive key

theorem Config.Start.coherent {view : BindView} {c : Config} (h : c.Start view) : c.Coherent where
  world := h.2
  tracks key directory hdirectory := by
    rw [h.1] at hdirectory
    cases hdirectory
  live key hkey := by
    rw [h.1] at hkey
    exact absurd rfl hkey

namespace World

theorem WellFormed.congr {w w' : World} (h : w.WellFormed) (htgid : w'.tgid = w.tgid)
    (hparent : w'.parent = w.parent) : w'.WellFormed := by
  obtain ⟨tgid, parent, cwd, fds, isDirectory⟩ := w'
  obtain rfl : tgid = w.tgid := htgid
  obtain rfl : parent = w.parent := hparent
  exact ⟨h.zero, h.leader, h.parent⟩

end World

theorem Coherent.call {s s' : State} {w w' : World} {notif : SeccompNotif} {m : Memory}
    {tr : Trace} {verdict : Verdict} (h : Config.Coherent ⟨s, w⟩) (halive : w.Alive notif.pid)
    (hcall : CallOutcome s w notif m tr verdict s' w') : Config.Coherent ⟨s', w'⟩ := by
  have hkept (hk : Kept s s') (htgid : w'.tgid = w.tgid) (hparent : w'.parent = w.parent) :
      Config.Coherent ⟨s', w'⟩ := by
    refine ⟨h.world.congr htgid hparent, hk.tracks h.tracks, fun key hkey => ?_⟩
    have hlive := h.live key (by rwa [← hk.cwds])
    rwa [World.Alive, htgid]
  have hentered {v : AbsPath} (hs : s' = s.insertCwd (w.key notif.pid) v)
      (htgid : w'.tgid = w.tgid) (hparent : w'.parent = w.parent) : Config.Coherent ⟨s', w'⟩ := by
    subst hs
    refine ⟨h.world.congr htgid hparent, h.tracks, fun key hkey => ?_⟩
    have halive' : w.Alive key := by
      by_cases heq : key = w.key notif.pid
      · subst heq
        exact World.alive_key h.world halive
      · exact h.live key (by simpa [State.insertCwd, Function.update_of_ne heq] using hkey)
    rwa [World.Alive, htgid]
  cases hcall with
  | kept _ hk hw => exact hkept hk (by rw [hw]) (by rw [hw])
  | refused _ _ _ hs hw _ =>
    subst hs hw
    exact h
  | untracked _ _ hk hexec _ => exact hkept hk hexec.frame.1 hexec.frame.2.1
  | emulated _ _ _ _ hs hw _ => exact hentered hs (by rw [hw]) (by rw [hw])
  | continued _ _ _ _ hs hexec _ => exact hentered hs hexec.frame.1 hexec.frame.2.1

theorem Step.coherent {c c' : Config} {label : Label} (hstep : Step c label c')
    (h : c.Coherent) : c'.Coherent := by
  cases hstep with
  | call halive hx hcontinue hstop =>
    exact Coherent.call h halive (call_cases (.call halive hx hcontinue hstop)).2
  | descriptors => exact ⟨h.world.congr rfl rfl, h.tracks, h.live⟩
  | tree => exact ⟨h.world.congr rfl rfl, h.tracks, h.live⟩
  | fork hpid hchild hzero =>
    exact ⟨World.wellFormed_forked h.world hpid hchild hzero, h.tracks, fun key hkey =>
      (World.alive_forked hchild).mpr (.inr (h.live key hkey))⟩
  | thread hpid htid hzero =>
    exact ⟨World.wellFormed_threaded h.world hpid htid hzero, h.tracks, fun key hkey =>
      (World.alive_threaded htid).mpr (.inr (h.live key hkey))⟩

theorem Run.coherent {view : BindView} {c₀ c : Config} {ts : List Transition}
    (hstart : c₀.Start view) (hrun : Run c₀ ts c) :
    ∀ t ∈ ts, t.before.Coherent ∧ Step t.before t.label t.after :=
  (hrun.inv hstart.coherent fun _ _ h hstep => hstep.coherent h).2

end PathShim
