import PathShim.Linux.Process
import PathShim.Threads

/-!
# Forwarding signals

`SignalForwarding` and the handler `forward_signal`. `CHILD_PROCESS` is shared
by `linux::run`, which sets and clears it, and by the handlers, each of which
reads it once; a signal may arrive at any moment, and a handler may run on
another thread while `linux::run` goes on. The programs of `Startup` are these
without the variable.
-/

namespace PathShim

open UnixPath Effects

-- ---------------------------------------------------------------------------
-- Calls
-- ---------------------------------------------------------------------------

inductive ForwardOp where
  | setup (op : SetupOp)
  -- `CHILD_PROCESS`
  | store (child : Int32)
  | load
  /-- From outside, the `n`-th signal. -/
  | deliver (n : Nat) (signal : Int32)

/-- A delivery is answered by whether a handler is run. -/
@[reducible] def ForwardOp.Answer : ForwardOp → Type
  | .setup op => op.Answer
  | .store _ => Unit
  | .load => Int32
  | .deliver _ _ => Bool

abbrev Forward (α : Type) := Prog ForwardOp.Answer α

def inForward : Embedding SetupOp.Answer ForwardOp.Answer := ⟨.setup, fun _ r => r⟩

/-- A part that does not touch the variable. -/
abbrev apart (p : Startup α) : Forward α := p.embed inForward

/-- `CHILD_PROCESS.store`. -/
def storeChild (child : Int32) : Forward Unit := perform (ForwardOp.store child)

/-- `forward_signal`, the handler. -/
def forwardSignal (signal : Int32) : Forward Unit := do
  let child ← perform ForwardOp.load
  if child > 0 then apart (request (.kill child signal)) else return ()

-- ---------------------------------------------------------------------------
-- `SignalForwarding`
-- ---------------------------------------------------------------------------

namespace SignalForwarding

/-- The loop of `install`. -/
def installLoop (previous : List (Int32 × SignalAction)) :
    List Int32 → Forward (IoResult (List (Int32 × SignalAction)))
  | [] => return .ok previous
  | signal :: signals => do
    match ← apart (request (.sigaction signal .forwardSignal)) with
    | .error e => do
      apart (restore previous)
      storeChild 0
      return .error (.os e)
    | .ok old => installLoop ((signal, old) :: previous) signals

def install (childProcess : Int32) : Forward (IoResult (List (Int32 × SignalAction))) := do
  storeChild childProcess
  installLoop [] FORWARDED_SIGNALS

def drop (installed : List (Int32 × SignalAction)) : Forward Unit := do
  storeChild 0
  apart (restore installed)

-- ---------------------------------------------------------------------------
-- `linux::run`
-- ---------------------------------------------------------------------------

def giveUp (turns : Nat) (pid : Int32) (installed : List (Int32 × SignalAction))
    (outcome : RunOutcome) : Forward (IoResult RunOutcome) := do
  drop installed
  apart (stopAttempt turns pid)
  return .ok outcome

def startCommand (turns : Nat) (pid : Int32) (installed : List (Int32 × SignalAction))
    (command : Command) (quiet : Bool) : Forward (IoResult RunOutcome) := do
  apart (diagnostic quiet "collect mode=bind-view" none)
  match ← apart (writeByte 1) with
  | .error e =>
    giveUp turns pid installed (.unavailable command "bind-view-probe-finish-failed" e)
  | .ok () =>
  match ← apart (waitForChild turns pid) with
  | .error e =>
    drop installed
    return .error e
  | .ok status =>
    drop installed
    apart (request .stopSupervisor)
    apart (request .joinSupervisor)
    return .ok (.exited status)

def superviseChild (turns : Nat) (pid : Int32) (command : Command) (quiet : Bool) :
    Forward (IoResult RunOutcome) := do
  match ← apart receiveSetup with
  | .error e =>
    apart (killAndWait turns pid)
    return .ok (.unavailable command "bind-view-listener-handshake-failed" e)
  | .ok (.unavailable e) =>
    let _ ← apart (waitForChild turns pid)
    return .ok (.unavailable command "bind-view-unavailable" e)
  | .ok .ready =>
  match ← apart (request .spawnSupervisor) with
  | .error e =>
    apart (killAndWait turns pid)
    return .ok (.unavailable command "bind-view-supervisor-unavailable" e)
  | .ok () =>
  match ← install pid with
  | .error e =>
    apart (stopAttempt turns pid)
    return .ok (.unavailable command "signal-forwarding-unavailable" e)
  | .ok installed =>
  match ← apart (writeByte 1) with
  | .error e =>
    giveUp turns pid installed (.unavailable command "bind-view-probe-start-failed" e)
  | .ok () =>
  match ← apart (readI32Timeout turns PROBE_TIMEOUT_MS) with
  | .error e =>
    giveUp turns pid installed (.unavailable command "bind-view-probe-unavailable" e)
  | .ok probeError =>
  if probeError ≠ 0 then
    giveUp turns pid installed
      (.unavailable command "bind-view-probe-failed" (.os probeError.toInt))
  else startCommand turns pid installed command quiet

def linuxRun (turns : Nat) (command : Command) (quiet : Bool) : Forward (IoResult RunOutcome) := do
  match ← apart (request .reopen) with
  | .error e => return .ok (.unavailable command "bind-view-setup-failed" e)
  | .ok _ =>
  match ← apart (request .socketPair) with
  | .error e => return .ok (.unavailable command "bind-view-socket-unavailable" (.os e))
  | .ok () =>
  match ← apart (request .fork) with
  | .error e => return .ok (.unavailable command "bind-view-fork-unavailable" (.os e))
  | .ok pid => superviseChild turns pid command quiet

end SignalForwarding

-- ---------------------------------------------------------------------------
-- Without the variable
-- ---------------------------------------------------------------------------

/-- `q` is `p` without what it stores. -/
inductive Erases {α : Type} : Forward α → Startup α → Prop
  | ret (a : α) : Erases (.ret a) (.ret a)
  | panic : Erases .panic .panic
  | setup {op : SetupOp} {next : op.Answer → Forward α} {next' : op.Answer → Startup α} :
      (∀ r, Erases (next r) (next' r)) → Erases (.call (.setup op) next) (.call op next')
  | store {child : Int32} {next : Unit → Forward α} {q : Startup α} :
      Erases (next ()) q → Erases (.call (.store child) next) q

section
variable {p : Forward α} {q : Startup α} {f : α → Forward β} {g : α → Startup β}

theorem Erases.bind (h : Erases p q) (hf : ∀ a, Erases (f a) (g a)) :
    Erases (p >>= f) (q >>= g) := by
  induction h with
  | ret a => exact hf a
  | panic => exact .panic
  | setup _ ih => exact .setup ih
  | store _ ih => exact .store ih

theorem erases_apart (q : Startup α) : Erases (apart q) q := by
  induction q with
  | ret a => exact .ret a
  | panic => exact .panic
  | call op next ih => exact .setup ih

/-- A store before a part. -/
theorem Erases.stored (h : Erases p q) (child : Int32) :
    Erases (storeChild child >>= fun _ => p) q :=
  .store h

end

namespace SignalForwarding

theorem erases_installLoop (previous : List (Int32 × SignalAction)) (signals : List Int32) :
    Erases (installLoop previous signals) (PathShim.installLoop previous signals) := by
  induction signals generalizing previous with
  | nil => exact .ret _
  | cons signal signals ih =>
    refine (erases_apart _).bind fun r => ?_
    cases r with
    | error e => exact (erases_apart _).bind fun _ => Erases.stored (.ret _) 0
    | ok old => exact ih _

theorem erases_drop (installed : List (Int32 × SignalAction)) :
    Erases (drop installed) (restore installed) := (erases_apart _).stored 0

theorem erases_giveUp (turns : Nat) (pid : Int32) (installed : List (Int32 × SignalAction))
    (outcome : RunOutcome) : Erases (giveUp turns pid installed outcome)
      (PathShim.giveUp turns pid installed outcome) :=
  (erases_drop installed).bind fun _ => (erases_apart _).bind fun _ => .ret _

theorem erases_startCommand (turns : Nat) (pid : Int32) (installed : List (Int32 × SignalAction))
    (command : Command) (quiet : Bool) : Erases (startCommand turns pid installed command quiet)
      (PathShim.startCommand turns pid installed command quiet) := by
  refine (erases_apart _).bind fun _ => (erases_apart _).bind fun r => ?_
  cases r with
  | error e => exact erases_giveUp _ _ _ _
  | ok _ =>
    refine (erases_apart _).bind fun r => ?_
    cases r with
    | error e => exact (erases_drop installed).bind fun _ => .ret _
    | ok status =>
      refine (erases_drop installed).bind fun _ => ?_
      exact (erases_apart _).bind fun _ => (erases_apart _).bind fun _ => .ret _

theorem erases_superviseChild (turns : Nat) (pid : Int32) (command : Command) (quiet : Bool) :
    Erases (superviseChild turns pid command quiet)
      (PathShim.superviseChild turns pid command quiet) := by
  refine (erases_apart _).bind fun r => ?_
  cases r with
  | error e => exact (erases_apart _).bind fun _ => .ret _
  | ok setup =>
    cases setup with
    | unavailable e => exact (erases_apart _).bind fun _ => .ret _
    | ready =>
      refine (erases_apart _).bind fun r => ?_
      cases r with
      | error e => exact (erases_apart _).bind fun _ => .ret _
      | ok _ =>
        refine ((erases_installLoop [] FORWARDED_SIGNALS).stored pid).bind fun r => ?_
        cases r with
        | error e => exact (erases_apart _).bind fun _ => .ret _
        | ok installed =>
          refine (erases_apart _).bind fun r => ?_
          cases r with
          | error e => exact erases_giveUp _ _ _ _
          | ok _ =>
            refine (erases_apart _).bind fun r => ?_
            cases r with
            | error e => exact erases_giveUp _ _ _ _
            | ok probeError =>
              dsimp only
              split
              · exact erases_giveUp _ _ _ _
              · exact erases_startCommand _ _ _ _ _

theorem erases_linuxRun (turns : Nat) (command : Command) (quiet : Bool) :
    Erases (linuxRun turns command quiet) (PathShim.linuxRun turns command quiet) := by
  refine (erases_apart _).bind fun r => ?_
  cases r with
  | error e => exact .ret _
  | ok _ =>
    refine (erases_apart _).bind fun r => ?_
    cases r with
    | error e => exact .ret _
    | ok _ =>
      refine (erases_apart _).bind fun r => ?_
      cases r with
      | error e => exact .ret _
      | ok pid => exact erases_superviseChild _ _ _ _

end SignalForwarding

end PathShim
