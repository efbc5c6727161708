import PathShim.Linux.Runs

/-!
# Continuing with the raw pathname

When the kernel may go on with an operand outside the binds, it takes the raw
pathname from its own directories. Both sides come to the same host path for as
long as every call the kernel went on with left their working directories
together.
-/

namespace PathShim

open UnixPath Effects

-- ---------------------------------------------------------------------------
-- The two sides of a continued call
-- ---------------------------------------------------------------------------

/-- The call leaves the working directory of the kernel where the supervisor takes it to be:
pathnames that climb out of a bind climb alike, a `chdir` out of the binds succeeds and is
inherited by nobody who is elsewhere, and an `fchdir` the supervisor does not follow leads where
it already thinks the process is. -/
structure KeepsTogether (c : Config) (notif : SeccompNotif) (m : Memory) (verdict : Verdict) :
    Prop where
  climbs : ∀ operand ∈ pathOperands notif, ∀ raw, m.Holds operand.2 raw →
    c.world.ClimbsAlike c.state notif.pid operand.1 raw
  chdir : ∀ raw v, notif.data.nr = .sysChdir → m.Holds (notif.data.args 0) raw →
    c.world.resolve c.state notif.pid AT_FDCWD raw = some v → ¬ c.state.view.Projected v →
    (verdict = .accepted ∨ c.world.cwd (c.world.key notif.pid) = v) ∧
    ∀ pid, c.world.Alive pid → c.world.key pid ≠ c.world.key notif.pid →
      c.world.Inherits c.state (c.world.key notif.pid) pid = true →
      c.world.cwd (c.world.key pid) = v
  fchdir : ∀ host cwd, notif.data.nr = .sysFchdir → verdict = .accepted →
    c.world.tracked c.state notif.pid (asI32 (notif.data.args 0)) = none →
    c.world.fds (c.world.key notif.pid) (asI32 (notif.data.args 0)) = some host →
    c.world.virtualCwd c.state notif.pid = some cwd → ¬ c.state.view.Projected cwd → cwd = host

def Transition.KeepsTogether (t : Transition) : Prop :=
  ∀ notif m tr verdict, t.label = .call notif m tr verdict → Continued tr →
    PathShim.KeepsTogether t.before notif m verdict

section
variable {s s' : State} {w w' : World} {notif : SeccompNotif} {m : Memory} {tr : Trace}
  {verdict : Verdict}

theorem World.CwdAgrees.kept (h : w.CwdAgrees s) (hk : Kept s s') : w.CwdAgrees s' := by
  intro pid c halive hc hout
  rw [World.virtualCwd_congr hk.cwds] at hc
  rw [hk.view] at hout
  exact h pid c halive hc hout

/-- Whoever comes to see the record has to be in the recorded directory. -/
theorem World.CwdAgrees.insertCwd {key : Pid} {v : AbsPath} (h : w.CwdAgrees s)
    (hcwd : ∀ other, other ≠ key → w'.cwd other = w.cwd other) (htgid : w'.tgid = w.tgid)
    (hparent : w'.parent = w.parent) (hself : ∀ pid, w.key pid = key → w.Inherits s key pid = true)
    (hnew : ¬ s.view.Projected v → ∀ pid, w.Alive pid → w.Inherits s key pid = true →
      w'.cwd (w.key pid) = v) : w'.CwdAgrees (s.insertCwd key v) := by
  obtain ⟨tgid, parent, cwd, fds, isDirectory⟩ := w'
  obtain rfl : tgid = w.tgid := htgid
  obtain rfl : parent = w.parent := hparent
  intro pid c halive hc hout
  have hc' : w.virtualCwd (s.insertCwd key v) pid = some c := hc
  rw [World.virtualCwd_insertCwd] at hc'
  split at hc'
  · rename_i hinherits
    obtain rfl := Option.some.inj hc'
    exact hnew hout pid halive hinherits
  · rename_i hother
    have hne : w.key pid ≠ key := fun heq => hother (hself pid heq)
    exact (hcwd _ hne).trans (h pid c halive hc' hout)

theorem World.CwdAgrees.fchdir {key : Pid} {host : AbsPath} (h : w.CwdAgrees s)
    (hkey : ∀ pid c, w.Alive pid → w.key pid = key → w.virtualCwd s pid = some c →
      ¬ s.view.Projected c → c = host) : (w.enter key host).CwdAgrees s := by
  intro pid c halive hc hout
  by_cases heq : w.key pid = key
  · obtain rfl := hkey pid c halive heq hc hout
    show Function.update w.cwd key c (w.key pid) = c
    rw [heq, Function.update_self]
  · exact (Function.update_of_ne heq _ _).trans (h pid c halive hc hout)

/-- The guest directory of a continued `chdir` out of the binds is the kernel's. -/
theorem target_of_executes {v : AbsPath} {raw : OsStr} (hcoherent : Config.Coherent ⟨s, w⟩)
    (hagrees : w.CwdAgrees s) (halive : w.Alive notif.pid)
    (htogether : KeepsTogether ⟨s, w⟩ notif m verdict) (hnr : notif.data.nr = .sysChdir)
    (hholds : m.Holds (notif.data.args 0) raw)
    (hv : w.resolve s notif.pid AT_FDCWD raw = some v) (hout : ¬ s.view.Projected v)
    (hexec : w.Executes m notif verdict w') : w'.cwd (w.key notif.pid) = v := by
  cases hexec with
  | rejected =>
    rcases (htogether.chdir raw v hnr hholds hv hout).1 with haccepted | hcwd
    · cases haccepted
    · exact hcwd
  | @chdir raw' target _ hholds' htarget =>
    obtain rfl := hholds'.unique hholds
    have hclimb := htogether.climbs (AT_FDCWD, notif.data.args 0) (by simp [pathOperands, hnr])
      raw' hholds
    have hkernel := World.kernelPath_of_resolve hagrees hcoherent.tracks halive hclimb hv hout
    exact (Function.update_self _ _ _).trans (Option.some.inj (htarget.symm.trans hkernel))
  | fchdir h =>
    rw [hnr] at h
    cases h
  | other h => simp [hnr] at h

theorem CwdAgrees.call (hcoherent : Config.Coherent ⟨s, w⟩) (hagrees : w.CwdAgrees s)
    (halive : w.Alive notif.pid) (hcall : CallOutcome s w notif m tr verdict s' w')
    (htogether : Continued tr → KeepsTogether ⟨s, w⟩ notif m verdict) : w'.CwdAgrees s' := by
  have hself (pid : Pid) (h : w.key pid = w.key notif.pid) :
      w.Inherits s (w.key notif.pid) pid = true := h ▸ World.inherits_self
  cases hcall with
  | kept _ hk hw =>
    subst hw
    exact hagrees.kept hk
  | refused _ _ _ hs hw _ =>
    subst hs hw
    exact hagrees
  | untracked hnr htracked hk hexec hreply =>
    have hfchdir := (htogether hreply.continued).fchdir
    refine World.CwdAgrees.kept ?_ hk
    cases hexec with
    | rejected => exact hagrees
    | chdir h =>
      rw [hnr] at h
      cases h
    | @fchdir host _ hfd =>
      refine hagrees.fchdir fun pid c _ heq hc hout => ?_
      have hc' : w.virtualCwd s notif.pid = some c := by
        rw [World.virtualCwd, ← heq]
        exact hc
      exact hfchdir host c hnr rfl htracked hfd hc' hout
    | other h => simp [hnr] at h
  | emulated _ _ _ hmoved hs hw _ =>
    subst hs hw
    refine hagrees.insertCwd (fun _ _ => rfl) rfl rfl hself fun hout => ?_
    exact absurd (Mounts.locate_of_not_covered hout) hmoved
  | continued _ htarget _ _ hs hexec hreply =>
    subst hs
    refine hagrees.insertCwd (fun _ => hexec.cwd_of_ne) hexec.frame.1 hexec.frame.2.1 hself ?_
    intro hout pid hpid hinherits
    have htogether := htogether hreply.continued
    cases htarget with
    | descriptor _ htracked =>
      exact absurd (hcoherent.tracks _ _ (Option.mem_filter_iff.mp htracked).1) hout
    | path hnr hv =>
      obtain ⟨raw, hraw, hv⟩ := Option.bind_eq_some_iff.mp hv
      have hholds := Memory.holds_pathname hraw
      by_cases heq : w.key pid = w.key notif.pid
      · rw [heq]
        exact target_of_executes hcoherent hagrees halive htogether hnr hholds hv hout hexec
      · rw [hexec.cwd_of_ne heq]
        exact (htogether.chdir _ _ hnr hholds hv hout).2 pid hpid heq hinherits

theorem CwdAgrees.forked {pid child : Pid} (hcoherent : Config.Coherent ⟨s, w⟩)
    (hagrees : w.CwdAgrees s) (hpid : w.Alive pid) (hchild : ¬ w.Alive child) :
    (w.forked pid child).CwdAgrees s := by
  have hworld := hcoherent.world
  intro task c halive hc hout
  by_cases htask : task = child
  · subst htask
    have hnone : s.virtualCwds task = none := by
      by_contra hne
      exact hchild (hcoherent.live task hne)
    have hkey : (w.forked pid task).key task = task := by simp [World.key, World.forked]
    rw [hkey]
    have hc' := World.virtualCwd_child hworld hpid hchild hnone hc
    exact (Function.update_self _ _ _).trans (hagrees pid c hpid hc' hout)
  · have hold := ((World.alive_forked hchild).mp halive).resolve_left htask
    rw [World.virtualCwd_forked hworld hchild hold] at hc
    rw [World.key_forked hchild hold]
    have hne : w.key task ≠ child := fun heq => hchild (heq ▸ World.alive_key hworld hold)
    exact (Function.update_of_ne hne _ _).trans (hagrees task c hold hc hout)

theorem CwdAgrees.threaded {pid tid : Pid} (hcoherent : Config.Coherent ⟨s, w⟩)
    (hagrees : w.CwdAgrees s) (hpid : w.Alive pid) (htid : ¬ w.Alive tid) :
    (w.threaded pid tid).CwdAgrees s := by
  have hworld := hcoherent.world
  intro task c halive hc hout
  by_cases htask : task = tid
  · subst htask
    have hkey : (w.threaded pid task).key task = w.key pid := by simp [World.key, World.threaded]
    rw [World.virtualCwd_tid hworld hpid htid] at hc
    rw [hkey]
    exact hagrees pid c hpid hc hout
  · have hold := ((World.alive_threaded htid).mp halive).resolve_left htask
    rw [World.virtualCwd_threaded hworld htid hold] at hc
    rw [World.key_threaded htid hold]
    exact hagrees task c hold hc hout

end

/-- One step of any kind. -/
theorem CwdAgrees.step {t : Transition} (hstep : Step t.before t.label t.after)
    (hcoherent : t.before.Coherent) (hagrees : t.before.world.CwdAgrees t.before.state)
    (htogether : t.KeepsTogether) : t.after.world.CwdAgrees t.after.state := by
  obtain ⟨before, label, after⟩ := t
  dsimp only at hstep
  cases hstep with
  | call halive hx hcontinue hstop =>
    have hcall := (call_cases (.call halive hx hcontinue hstop)).2
    exact CwdAgrees.call hcoherent hagrees halive hcall (htogether _ _ _ _ rfl)
  | descriptors => exact hagrees
  | tree => exact hagrees
  | fork hpid hchild _ => exact CwdAgrees.forked hcoherent hagrees hpid hchild
  | thread hpid htid _ => exact CwdAgrees.threaded hcoherent hagrees hpid htid

-- ---------------------------------------------------------------------------
-- Continued calls
-- ---------------------------------------------------------------------------

/-- One process at the root, with nothing open. -/
def loneWorld : World where
  tgid pid := if pid = 100 then some 100 else none
  parent _ := some 0
  cwd _ := []
  fds _ _ := none
  isDirectory _ := true

theorem loneWorld_wellFormed : loneWorld.WellFormed where
  zero h := h rfl
  leader pid key h := by
    simp only [loneWorld, Option.ite_none_right_eq_some] at h ⊢
    obtain ⟨rfl, hkey⟩ := h
    exact ⟨(Option.some.inj hkey).symm, hkey⟩
  parent _ _ _ h := .inl (Option.some.inj h).symm

/-- The directory `/s` seen at `/a/b`. -/
def deepBind : BindView where
  projections :=
    [⟨(osStr ['/', 's']).normalize, (osStr ['/', 'a', '/', 'b']).normalize, by decide, by decide⟩]
  deepestFirst := by simp
  distinct := by simp

def loneStart : Config := ⟨State.new deepBind, loneWorld⟩

def chdirNotif : SeccompNotif := ⟨7, 100, .sysChdir, fun i => if i = 0 then 64 else 0⟩

def pathMemory (text : List Char) : Memory := .ofBytes 64 (ascii text ++ [0])

/-- The same answers, with every write complete. -/
def writable (ans : (op : Op) → op.Answer) : (op : Op) → op.Answer
  | .processVmWritev _ _ bytes => .ok ⟨bytes.length, Nat.lt_succ_self _⟩
  | op => ans op

theorem pathMemory_holds {text : List Char} (h : text.length < 4096)
    (hbytes : (osStr text).bytes = ascii text) : (pathMemory text).Holds 64 (osStr text) := by
  rw [Memory.Holds, hbytes]
  refine Memory.has_ofBytes ?_
  simp only [ascii, List.length_append, List.length_map, List.length_singleton]
  show 64 + (text.length + 1) < 2 ^ 63
  omega

theorem loneStart_start : loneStart.Start deepBind := ⟨rfl, loneWorld_wellFormed⟩

def atX : State := (State.new deepBind).insertCwd 100 (osStr ['/', 'x']).normalize

def inBind : State := (State.new deepBind).insertCwd 100 (osStr ['/', 'a', '/', 'b']).normalize

/-- A `chdir` out of the binds that the kernel rejects. -/
def rejectX (tr : Trace) : Transition where
  before := loneStart
  label := .call chdirNotif (pathMemory ['/', 'x']) tr .rejected
  after := ⟨atX, loneWorld⟩

theorem rejectX_step : ∃ tr, Continued tr ∧
    Step (rejectX tr).before (rejectX tr).label (rejectX tr).after :=
  ⟨_, List.any_eq_true.mp rfl, .continued (r := .ok ()) (by decide) rfl rfl .rejected⟩

/-- The directory `/d`, open as descriptor 3. -/
def openD : Fd → Option AbsPath :=
  fun fd => if fd = 3 then some (osStr ['/', 'd']).normalize else none

def fchdirNotif : SeccompNotif := ⟨9, 100, .sysFchdir, fun _ => 3⟩

end PathShim
