import PathShim.Linux.Startup
import PathShim.Triples

/-!
# The process around a run

What `linux::run` leaves behind in the process it runs in, whichever calls
fail: the signal dispositions are those it found, no child is left to be waited
for and no thread to be joined. What `main` does after it, it does in that
state.
-/

namespace PathShim

open UnixPath Effects

deriving instance DecidableEq for SignalAction
deriving instance DecidableEq for ChildStatus

abbrev Dispositions := Int32 → SignalAction

def SIGPIPE : Int32 := 13
def SIG_IGN : SignalAction := .other 1

/-- `Command::exec` puts SIGPIPE back, and the kernel every signal that has a handler. -/
def Dispositions.handedOn (d : Dispositions) : Dispositions := fun signal =>
  if signal = SIGPIPE then .default
  else if d signal = SIG_IGN then SIG_IGN else .default

inductive Ending where
  | exited (code : Int32)
  | signaled (signal : Int32)
  /-- The command begins with these dispositions. -/
  | replaced (command : Command) (dispositions : Dispositions)

def ChildStatus.ending : ChildStatus → Ending
  | .exited code => .exited code
  | .signaled signal => .signaled signal

structure Process where
  dispositions : Dispositions
  /-- Forked and not waited for. -/
  child : Option Int32
  status : Option ChildStatus
  /-- Waiting for the child has failed. -/
  lost : Bool
  supervisor : Bool
  /-- What the child was sent. -/
  written : Bytes
  /-- The commands `exec` was tried with. -/
  attempts : List Command
  stdout : List String
  ended : Option Ending

def Process.start (dispositions : Dispositions) : Process :=
  ⟨dispositions, none, none, false, false, [], [], [], none⟩

-- ---------------------------------------------------------------------------
-- What a call does
-- ---------------------------------------------------------------------------

namespace Process

def set (s : Process) (signal : Int32) (action : SignalAction) : Process :=
  { s with dispositions := Function.update s.dispositions signal action }

def reaped (s : Process) (status : ChildStatus) : Process :=
  { s with child := none, status := some status }

def told (s : Process) (bytes : Bytes) : Process := { s with written := s.written ++ bytes }

def losing (s : Process) : Process := { s with lost := true }

/-- A process ends once. -/
def ending (s : Process) (ending : Ending) : Process :=
  { s with ended := s.ended <|> some ending }

def attempt (s : Process) (command : Command) : Process :=
  { s with attempts := s.attempts ++ [command] }

/-- `kill` of the process 0 stands for the process itself. -/
def signal (s : Process) (pid : Int32) (signal : Int32) : Process :=
  if pid = 0 ∧ s.dispositions signal = .default then s.ending (.signaled signal) else s

def waited (s : Process) : Except Errno WaitStatus → Process
  | .ok (.exited code) => s.reaped (.exited code)
  | .ok (.signaled signal) => s.reaped (.signaled signal)
  | .ok .other => s
  | .error e => if e = EINTR then s else s.losing

def executed (s : Process) (command : Command) : Except Errno Unit → Process
  | .ok () => (s.attempt command).ending (.replaced command s.dispositions.handedOn)
  | .error _ => s.attempt command

def after (s : Process) : Event SetupOp.Answer → Process
  | ⟨.fork, .ok pid⟩ => { s with child := some pid }
  | ⟨.waitpid _, r⟩ => s.waited r
  | ⟨.spawnSupervisor, .ok ()⟩ => { s with supervisor := true }
  | ⟨.joinSupervisor, _⟩ => { s with supervisor := false }
  | ⟨.sigaction signal action, .ok _⟩ => s.set signal action
  | ⟨.kill pid signal, _⟩ => s.signal pid signal
  | ⟨.write payload, r⟩ => if r.result = payload.length then s.told payload else s
  | ⟨.exec command, r⟩ => s.executed command r
  | ⟨.exit code, _⟩ => s.ending (.exited code)
  | _ => s

/-- A child has a number, there is one to wait for when a status is returned, and whether the action
of a signal can be set depends on the signal alone. -/
def Allows (settable : Int32 → Prop) (s : Process) : Event SetupOp.Answer → Prop
  | ⟨.fork, .ok pid⟩ => pid ≠ 0
  | ⟨.waitpid pid, .ok _⟩ => s.child = some pid
  | ⟨.sigaction signal _, .ok old⟩ => settable signal ∧ old = s.dispositions signal
  | ⟨.sigaction signal _, .error _⟩ => ¬ settable signal
  | _ => True

def serves (settable : Int32 → Prop) : Effect SetupOp.Answer Process := fun s e s' =>
  s.Allows settable e ∧ s' = s.after e

end Process

-- ---------------------------------------------------------------------------
-- Calls
-- ---------------------------------------------------------------------------

section
variable {settable : Int32 → Prop} {s : Process} {panics : Process → Prop}

theorem triple_request {op : SetupOp} {f : op.Answer → Startup α} {post : α → Process → Prop}
    (h : ∀ r, s.Allows settable ⟨op, r⟩ →
      Triple (Process.serves settable) (f r) (s.after ⟨op, r⟩) post panics) :
    Triple (Process.serves settable) (request op >>= f) s post panics := by
  refine Triple.call fun r s' hserves => ?_
  obtain ⟨hallows, rfl⟩ := hserves
  exact h r hallows

theorem triple_eprintln (hpanics : panics s) (message : String) (e : Option IoError) :
    Triple (Process.serves settable) (eprintln message e) s (fun _ s' => s' = s) panics := by
  unfold eprintln
  refine triple_request fun r _ => ?_
  cases r with
  | ok _ => exact .ret rfl
  | error e => exact .panic hpanics

theorem triple_startupDiagnostic (hpanics : panics s) (quiet : Bool) (message : String)
    (e : Option IoError) : Triple (Process.serves settable) (diagnostic quiet message e) s
      (fun _ s' => s' = s) panics := by
  unfold diagnostic
  split
  · exact .ret rfl
  · exact triple_eprintln hpanics message e

/-- A child that is waited for is gone, or waiting for it has failed. -/
theorem triple_waitForChild (hpanics : panics s) (turns : Nat) (pid : Int32) :
    Triple (Process.serves settable) (waitForChild turns pid) s (fun r s' =>
      (∃ status, r = .ok status ∧ s' = s.reaped status) ∨ ∃ e, r = .error e ∧ s' = s.losing)
      panics := by
  induction turns with
  | zero => exact .panic hpanics
  | succ turns ih =>
    refine triple_request fun r _ => ?_
    cases r with
    | error e =>
      dsimp only [Process.after, Process.waited]
      split
      · exact ih
      · exact .ret (.inr ⟨_, rfl, rfl⟩)
    | ok status =>
      cases status with
      | exited code => exact .ret (.inl ⟨_, rfl, rfl⟩)
      | signaled signal => exact .ret (.inl ⟨_, rfl, rfl⟩)
      | other => exact ih

-- ---------------------------------------------------------------------------
-- Signal dispositions
-- ---------------------------------------------------------------------------

/-- The dispositions once `installed` is put back, the first entry first. -/
def undo (dispositions : Dispositions) (installed : List (Int32 × SignalAction)) : Dispositions :=
  installed.foldl (fun d entry => Function.update d entry.1 entry.2) dispositions

/-- Putting `installed` back leads to the process as it was before. -/
structure Forwarding (settable : Int32 → Prop) (before s : Process)
    (installed : List (Int32 × SignalAction)) : Prop where
  settable : ∀ entry ∈ installed, settable entry.1
  back : { s with dispositions := undo s.dispositions installed } = before

theorem Forwarding.none : Forwarding settable s s [] := ⟨by simp, rfl⟩

theorem Forwarding.forward {before : Process} {previous : List (Int32 × SignalAction)}
    {signal : Int32} (h : Forwarding settable before s previous) (hsettable : settable signal) :
    Forwarding settable before (s.set signal .forwardSignal)
      ((signal, s.dispositions signal) :: previous) where
  settable := by
    intro entry hentry
    rcases List.mem_cons.mp hentry with rfl | hentry
    · exact hsettable
    · exact h.settable entry hentry
  back := by simpa [Process.set, undo] using h.back

theorem Forwarding.reaped {before : Process} {installed : List (Int32 × SignalAction)}
    (h : Forwarding settable before s installed) (status : ChildStatus) :
    Forwarding settable (before.reaped status) (s.reaped status) installed :=
  ⟨h.settable, by rw [← h.back]; rfl⟩

theorem Forwarding.losing {before : Process} {installed : List (Int32 × SignalAction)}
    (h : Forwarding settable before s installed) :
    Forwarding settable before.losing s.losing installed := ⟨h.settable, by rw [← h.back]; rfl⟩

theorem Forwarding.told {before : Process} {installed : List (Int32 × SignalAction)}
    (h : Forwarding settable before s installed) (bytes : Bytes) :
    Forwarding settable (before.told bytes) (s.told bytes) installed :=
  ⟨h.settable, by rw [← h.back]; rfl⟩

theorem triple_restore {before : Process} {installed : List (Int32 × SignalAction)}
    (h : Forwarding settable before s installed) :
    Triple (Process.serves settable) (restore installed) s (fun _ s' => s' = before) panics := by
  induction installed generalizing s with
  | nil => exact .ret h.back
  | cons entry installed ih =>
    obtain ⟨signal, action⟩ := entry
    refine triple_request fun r hallows => ?_
    cases r with
    | error e => exact absurd (h.settable _ List.mem_cons_self) hallows
    | ok old =>
      exact ih ⟨fun entry hentry => h.settable entry (List.mem_cons_of_mem _ hentry), h.back⟩

theorem triple_installLoop {before : Process} {previous : List (Int32 × SignalAction)}
    {signals : List Int32} (h : Forwarding settable before s previous) :
    Triple (Process.serves settable) (installLoop previous signals) s (fun r s' =>
      (∃ e, r = .error e ∧ s' = before) ∨
        ∃ installed, r = .ok installed ∧ Forwarding settable before s' installed) panics := by
  induction signals generalizing s previous with
  | nil => exact .ret (.inr ⟨_, rfl, h⟩)
  | cons signal signals ih =>
    refine triple_request fun r hallows => ?_
    cases r with
    | error e =>
      refine (triple_restore h).bind ?_
      rintro _ _ rfl
      exact .ret (.inl ⟨_, rfl, rfl⟩)
    | ok old =>
      obtain ⟨hsettable, rfl⟩ := hallows
      exact ih (h.forward hsettable)

-- ---------------------------------------------------------------------------
-- The attempt
-- ---------------------------------------------------------------------------

/-- A process whose child is gone, unless waiting for it has failed. -/
inductive Process.Gone (s : Process) : Process → Prop
  | reaped (status : ChildStatus) : Gone s (s.reaped status)
  | losing : Gone s s.losing

theorem triple_killAndWait (hpanics : panics s) {pid : Int32} (hpid : pid ≠ 0) (turns : Nat) :
    Triple (Process.serves settable) (killAndWait turns pid) s (fun _ s' => s.Gone s')
      panics := by
  refine triple_request fun r _ => ?_
  have hsignal : s.after ⟨.kill pid SIGKILL, r⟩ = s := by
    simp [Process.after, Process.signal, hpid]
  rw [hsignal]
  refine (triple_waitForChild hpanics turns pid).bind ?_
  rintro _ _ (⟨status, -, rfl⟩ | ⟨e, -, rfl⟩)
  · exact .ret (.reaped status)
  · exact .ret .losing

theorem triple_stopAttempt (hpanics : panics s) {pid : Int32} (hpid : pid ≠ 0) (turns : Nat) :
    Triple (Process.serves settable) (stopAttempt turns pid) s (fun _ s' =>
      Process.Gone { s with supervisor := false } s') panics := by
  refine (triple_killAndWait hpanics hpid turns).bind ?_
  intro _ s' hgone
  refine triple_request fun _ _ => ?_
  refine triple_request fun _ _ => .ret ?_
  cases hgone with
  | reaped status => exact .reaped status
  | losing => exact .losing

end

/-- Nothing is under way. -/
structure Process.Idle (s : Process) : Prop where
  supervisor : s.supervisor = false
  ended : s.ended = none

def Process.Unended (s : Process) : Prop := s.ended = none

def Process.forked (s : Process) (pid : Int32) : Process := { s with child := some pid }

def Process.supervised (s : Process) : Process := { s with supervisor := true }

/-- An attempt that was given up, with or without a child. -/
inductive Process.Attempted (s : Process) : Process → Prop
  | unforked : Attempted s s
  | forked {pid s'} (bytes : Bytes) : ((s.told bytes).forked pid).Gone s' → Attempted s s'

/-- The process after `linux::run`, which was given the process `before`. -/
inductive Returned (before : Process) (command : Command) : IoResult RunOutcome → Process → Prop
  | exited {status} : Returned before command (.ok (.exited status))
      ((before.told [1, 1]).reaped status)
  | unavailable {reason e s} : before.Attempted s →
      Returned before command (.ok (.unavailable command reason e)) s
  /-- The child could not be waited for, and the supervisor is left alone. -/
  | failed {e pid} : Returned before command (.error e)
      ((before.told [1, 1]).forked pid).supervised.losing

section
variable {settable : Int32 → Prop} {before s : Process} {command : Command}
  {installed : List (Int32 × SignalAction)} {pid : Int32}

theorem Process.Idle.unsupervised (h : before.Idle) :
    { (before.forked pid).supervised with supervisor := false } = before.forked pid := by
  rw [← h.supervisor]
  rfl

theorem Process.Idle.stopped (h : before.Idle) (status : ChildStatus) :
    { (before.forked pid).supervised.reaped status with supervisor := false } =
      before.reaped status := by
  rw [← h.supervisor]
  rfl

theorem triple_stopSupervised (h : before.Idle) (hpid : pid ≠ 0) (turns : Nat) :
    Triple (Process.serves settable) (stopAttempt turns pid) (before.forked pid).supervised
      (fun _ s' => (before.forked pid).Gone s') Process.Unended := by
  have hstop := @triple_stopAttempt settable (before.forked pid).supervised Process.Unended h.ended
    pid hpid turns
  rwa [h.unsupervised] at hstop

theorem Process.Idle.told (h : before.Idle) (bytes : Bytes) : (before.told bytes).Idle :=
  ⟨h.supervisor, h.ended⟩

theorem told_told (bytes more : Bytes) :
    (before.told bytes).told more = before.told (bytes ++ more) := by
  simp [Process.told]

theorem triple_giveUp (h : before.Idle) (hpid : pid ≠ 0) (turns : Nat) {bytes : Bytes}
    (hforwarding : Forwarding settable ((before.told bytes).forked pid).supervised s installed)
    (reason : String) (e : IoError) :
    Triple (Process.serves settable) (giveUp turns pid installed (.unavailable command reason e)) s
      (Returned before command) Process.Unended := by
  refine (triple_restore hforwarding).bind ?_
  rintro _ _ rfl
  refine (triple_stopSupervised (h.told bytes) hpid turns).bind ?_
  intro _ s' hgone
  exact .ret (.unavailable (.forked bytes hgone))

theorem Forwarding.ended {before : Process} (h : Forwarding settable before s installed) :
    s.ended = before.ended := by rw [← h.back]

theorem triple_writeByte {panics : Process → Prop} (byte : UInt8) :
    Triple (Process.serves settable) (writeByte byte) s (fun r s' =>
      (∃ e, r = .error e ∧ s' = s) ∨ r = .ok () ∧ s' = s.told [byte]) panics := by
  refine triple_request fun r _ => .ret ?_
  by_cases hall : r.result = (1 : Nat)
  · refine .inr ⟨if_pos hall, ?_⟩
    exact if_pos hall
  · refine .inl ⟨.os r.errno, if_neg hall, ?_⟩
    exact if_neg hall

theorem triple_startCommand (h : before.Idle) (hpid : pid ≠ 0) (turns : Nat)
    (hforwarding : Forwarding settable ((before.told [1]).forked pid).supervised s installed)
    (quiet : Bool) :
    Triple (Process.serves settable) (startCommand turns pid installed command quiet) s
      (Returned before command) Process.Unended := by
  have hended : s.Unended := hforwarding.ended.trans h.ended
  refine (triple_startupDiagnostic hended quiet _ none).bind ?_
  rintro _ s' rfl
  refine (triple_writeByte 1).bind ?_
  rintro _ _ (⟨e, rfl, rfl⟩ | ⟨rfl, rfl⟩)
  · exact triple_giveUp h hpid turns hforwarding _ e
  · have hforwarding : Forwarding settable ((before.told [1, 1]).forked pid).supervised
        (s'.told [1]) installed := by
      have hboth : before.told [1, 1] = (before.told [1]).told [1] := (told_told [1] [1]).symm
      rw [hboth]
      exact hforwarding.told [1]
    have hended : (s'.told [1]).Unended := hended
    refine (triple_waitForChild hended turns pid).bind ?_
    rintro _ _ (⟨status, rfl, rfl⟩ | ⟨e, rfl, rfl⟩)
    · refine (triple_restore (hforwarding.reaped status)).bind ?_
      rintro _ _ rfl
      refine triple_request fun _ _ => triple_request fun _ _ => .ret ?_
      dsimp only [Process.after]
      rw [(h.told [1, 1]).stopped status]
      exact .exited
    · refine (triple_restore hforwarding.losing).bind ?_
      rintro _ _ rfl
      exact .ret .failed

theorem triple_receiveSetup {panics : Process → Prop} :
    Triple (Process.serves settable) receiveSetup s (fun _ s' => s' = s) panics := by
  refine triple_request fun r _ => ?_
  cases r with
  | error e => exact .ret rfl
  | ok message =>
    dsimp only
    split
    · exact .ret rfl
    split
    · exact .ret rfl
    split
    · exact .ret rfl
    · exact .ret rfl

theorem triple_readI32Timeout {panics : Process → Prop} (hpanics : panics s) (turns : Nat)
    (timeout : Int32) : Triple (Process.serves settable) (readI32Timeout turns timeout) s
      (fun _ s' => s' = s) panics := by
  induction turns with
  | zero => exact .panic hpanics
  | succ turns ih =>
    refine triple_request fun r _ => ?_
    cases r with
    | error e =>
      dsimp only
      split
      · exact ih
      · exact .ret rfl
    | ok polled =>
      dsimp only
      split
      · exact .ret rfl
      split
      · refine triple_request fun r _ => ?_
        cases r with
        | error e => exact .ret rfl
        | ok bytes =>
          dsimp only
          split
          · exact .ret rfl
          · exact .ret rfl
      · exact .ret rfl

/-- Nothing has been sent yet. -/
theorem told_nil : before.told [] = before := by simp [Process.told]

theorem triple_superviseChild (h : before.Idle) (hpid : pid ≠ 0) (turns : Nat) (quiet : Bool) :
    Triple (Process.serves settable) (superviseChild turns pid command quiet) (before.forked pid)
      (Returned before command) Process.Unended := by
  have hended : (before.forked pid).Unended := h.ended
  have hsupervised : (before.forked pid).supervised.Unended := h.ended
  have hattempted {s' : Process} (hgone : (before.forked pid).Gone s') : before.Attempted s' := by
    rw [← @told_nil before] at hgone
    exact .forked [] hgone
  refine triple_receiveSetup.bind ?_
  rintro r _ rfl
  cases r with
  | error e =>
    refine (triple_killAndWait hended hpid turns).bind ?_
    intro _ s' hgone
    exact .ret (.unavailable (hattempted hgone))
  | ok setup =>
    cases setup with
    | unavailable e =>
      refine (triple_waitForChild hended turns pid).bind ?_
      rintro _ _ (⟨status, -, rfl⟩ | ⟨_, -, rfl⟩)
      · exact .ret (.unavailable (hattempted (.reaped status)))
      · exact .ret (.unavailable (hattempted .losing))
    | ready =>
      refine triple_request fun r _ => ?_
      cases r with
      | error e =>
        refine (triple_killAndWait hended hpid turns).bind ?_
        intro _ s' hgone
        exact .ret (.unavailable (hattempted hgone))
      | ok _ =>
        refine (triple_installLoop (.none (s := (before.forked pid).supervised))).bind ?_
        rintro _ s' (⟨e, rfl, rfl⟩ | ⟨installed, rfl, hforwarding⟩)
        · refine (triple_stopSupervised h hpid turns).bind ?_
          intro _ s' hgone
          exact .ret (.unavailable (hattempted hgone))
        · refine (triple_writeByte 1).bind ?_
          rintro _ _ (⟨e, rfl, rfl⟩ | ⟨rfl, rfl⟩)
          · rw [← @told_nil before] at hforwarding
            exact triple_giveUp h hpid turns hforwarding _ e
          · have hforwarding : Forwarding settable ((before.told [1]).forked pid).supervised
                (s'.told [1]) installed := hforwarding.told [1]
            refine (triple_readI32Timeout (hforwarding.ended.trans h.ended) turns _).bind ?_
            rintro r _ rfl
            cases r with
            | error e => exact triple_giveUp h hpid turns hforwarding _ e
            | ok probeError =>
              dsimp only
              split
              · exact triple_giveUp h hpid turns hforwarding _ _
              · exact triple_startCommand h hpid turns hforwarding quiet

theorem triple_linuxRun (h : before.Idle) (turns : Nat) (quiet : Bool) :
    Triple (Process.serves settable) (linuxRun turns command quiet) before
      (Returned before command) Process.Unended := by
  refine triple_request fun r _ => ?_
  cases r with
  | error e => exact .ret (.unavailable .unforked)
  | ok view =>
    refine triple_request fun r _ => ?_
    cases r with
    | error e => exact .ret (.unavailable .unforked)
    | ok _ =>
      refine triple_request fun r hallows => ?_
      cases r with
      | error e => exact .ret (.unavailable .unforked)
      | ok pid => exact triple_superviseChild h hallows turns quiet

-- ---------------------------------------------------------------------------
-- After the attempt
-- ---------------------------------------------------------------------------

theorem Process.Attempted.ended (h : before.Attempted s) : s.ended = before.ended := by
  cases h with
  | unforked => rfl
  | forked bytes hgone => cases hgone <;> rfl

end

end PathShim
