import PathShim.Linux.Dispatch

/-!
# Starting the command

`linux::run`, the child it forks, and what `main` does with the outcome: the
handshake over the socket pair that decides whether the command is started in
the bind view or passed through. The two sides are programs of their own; the
return of `linux::run` is an event, so that a run shows it.
-/

namespace PathShim

open UnixPath Effects

-- ---------------------------------------------------------------------------
-- Calls and answers
-- ---------------------------------------------------------------------------

structure Command where
  program : OsStr
  args : List OsStr
  currentDir : Option OsStr
  envs : List (OsStr × OsStr)

inductive ChildStatus where
  | exited (code : Int32)
  | signaled (signal : Int32)

inductive RunOutcome where
  | exited (status : ChildStatus)
  | unavailable (command : Command) (reason : String) (error : IoError)

inductive WaitStatus where
  | exited (code : Int32)
  | signaled (signal : Int32)
  | other

inductive SignalAction where
  | default
  | forwardSignal
  | other (handler : UInt64)

/-- A message on the socket pair and the descriptor that travels with it. -/
structure Message where
  payload : Bytes
  rights : Bool

/-- What a transfer returned, and `errno` after it. -/
structure Transfer where
  result : Int
  errno : Errno

/-- What `poll` returned for its one descriptor. -/
structure Polled where
  ready : Nat
  revents : UInt16

inductive SetupOp where
  -- the parent
  | reopen
  | socketPair
  | fork
  | recvmsg (length : Nat)
  | kill (pid : Int32) (signal : Int32)
  | waitpid (pid : Int32)
  | spawnSupervisor
  | sigaction (signal : Int32) (action : SignalAction)
  | unblock (signal : Int32)
  | write (payload : Bytes)
  | poll (timeout : Int32)
  | recv (length : Nat)
  | stopSupervisor
  | joinSupervisor
  | returned (outcome : IoResult RunOutcome)
  -- the child
  | setNoNewPrivs
  | setFilter
  | sendmsg (payload : Bytes)
  | send (payload : Bytes)
  | read (length : Nat)
  | fstatat (path : OsStr)
  | openDirectory (path : OsStr)
  | close (fd : Fd)
  -- both
  | eprintln (message : String) (error : Option IoError)
  | exec (command : Command)
  | exit (code : Int32)

@[reducible] def SetupOp.Answer : SetupOp → Type
  | .reopen => IoResult BindView
  | .socketPair => Except Errno Unit
  | .fork => Except Errno Int32
  | .recvmsg _ => Except Errno Message
  | .waitpid _ => Except Errno WaitStatus
  | .spawnSupervisor => IoResult Unit
  | .sigaction _ _ => Except Errno SignalAction
  | .write _ | .send _ | .read _ => Transfer
  | .poll _ => Except Errno Polled
  | .recv _ => Except Errno Bytes
  | .setNoNewPrivs | .setFilter | .sendmsg _ | .fstatat _ | .exec _ => Except Errno Unit
  | .openDirectory _ => Except Errno Fd
  | .eprintln _ _ => IoResult Unit
  | .kill _ _ | .unblock _ | .stopSupervisor | .joinSupervisor | .returned _ | .close _
  | .exit _ => Unit

abbrev Startup (α : Type) := Prog SetupOp.Answer α

abbrev request (op : SetupOp) : Startup op.Answer := perform op

/-- Printing to standard error panics when it cannot write. -/
def eprintln (message : String) (error : Option IoError) : Startup Unit := do
  match ← request (.eprintln message error) with
  | .ok () => return ()
  | .error _ => .panic

def diagnostic (quiet : Bool) (message : String) (error : Option IoError) : Startup Unit :=
  if quiet then return () else eprintln message error

def SIGHUP : Int32 := 1
def SIGINT : Int32 := 2
def SIGQUIT : Int32 := 3
def SIGKILL : Int32 := 9
def SIGTERM : Int32 := 15
def FORWARDED_SIGNALS : List Int32 := [SIGTERM, SIGINT, SIGHUP, SIGQUIT]
def PROBE_TIMEOUT_MS : Int32 := 5000
def SETUP_READY : UInt8 := 1
def SETUP_UNAVAILABLE : UInt8 := 0
def POLLIN : UInt16 := 1

/-- `i32::to_ne_bytes` and `i32::from_ne_bytes` on x86_64. -/
def toNeBytes (value : Int32) : Bytes := leBytes 4 value.toUInt32.toNat

def fromNeBytes (bytes : Bytes) : Int32 :=
  (bytes.foldr (fun (b : UInt8) (acc : UInt32) => acc <<< 8 ||| b.toUInt32) 0).toInt32

-- ---------------------------------------------------------------------------
-- The socket
-- ---------------------------------------------------------------------------

def transferred (length : Nat) (transfer : Transfer) : IoResult Unit :=
  if transfer.result = length then .ok () else .error (.os transfer.errno)

def writeByte (byte : UInt8) : Startup (IoResult Unit) := do
  return transferred 1 (← request (.write [byte]))

def readByte : Startup (IoResult Unit) := do
  return transferred 1 (← request (.read 1))

def writeI32 (value : Int32) : Startup (IoResult Unit) := do
  return transferred 4 (← request (.send (toNeBytes value)))

def sendSetupError (error : Int32) : Startup (IoResult Unit) := do
  return transferred 5 (← request (.send (SETUP_UNAVAILABLE :: toNeBytes error)))

def sendFd : Startup (IoResult Unit) := do
  return osResult (← request (.sendmsg [SETUP_READY]))

inductive Setup where
  | ready
  | unavailable (error : IoError)

def receiveSetup : Startup (IoResult Setup) := do
  match ← request (.recvmsg 5) with
  | .error e => return .error (.os e)
  | .ok message =>
    let received := message.payload.length
    if received = 5 ∧ message.payload.head? = some SETUP_UNAVAILABLE then
      return .ok (.unavailable (.os (fromNeBytes message.payload.tail).toInt))
    else if received ≠ 1 ∨ message.payload.head? ≠ some SETUP_READY then
      return .error (.new .invalidData "invalid filesystem listener setup response" none)
    else if message.rights then return .ok .ready
    else return .error (.new .invalidData "listener fd missing" none)

/-- `read_i32_timeout`, which goes on after an interrupted `poll`; `turns` bounds how often. -/
def readI32Timeout : Nat → Int32 → Startup (IoResult Int32)
  | 0, _ => .panic
  | turns + 1, timeout => do
    match ← request (.poll timeout) with
    | .error e => if e = EINTR then readI32Timeout turns timeout else return .error (.os e)
    | .ok polled =>
      if polled.ready = 0 then
        return .error (.new .timedOut "filesystem capability probe timed out" none)
      else if polled.revents &&& POLLIN != 0 then
        match ← request (.recv 4) with
        | .ok bytes =>
          if bytes.length = 4 then return .ok (fromNeBytes bytes)
          else return .error (.new .unexpectedEof "filesystem capability probe result missing" none)
        | .error _ =>
          return .error (.new .unexpectedEof "filesystem capability probe result missing" none)
      else return .error (.new .brokenPipe "filesystem capability probe process stopped" none)

-- ---------------------------------------------------------------------------
-- The parent
-- ---------------------------------------------------------------------------

/-- `wait_for_child`, whose loop `turns` bounds. -/
def waitForChild : Nat → Int32 → Startup (IoResult ChildStatus)
  | 0, _ => .panic
  | turns + 1, pid => do
    match ← request (.waitpid pid) with
    | .error e => if e = EINTR then waitForChild turns pid else return .error (.os e)
    | .ok (.exited code) => return .ok (.exited code)
    | .ok (.signaled signal) => return .ok (.signaled signal)
    | .ok .other => waitForChild turns pid

/-- Put back the actions that were installed, the last one first. -/
def restore : List (Int32 × SignalAction) → Startup Unit
  | [] => return ()
  | (signal, action) :: installed => do
    let _ ← request (.sigaction signal action)
    restore installed

/-- The loop of `SignalForwarding::install`; `previous` has the latest signal first. -/
def installLoop (previous : List (Int32 × SignalAction)) :
    List Int32 → Startup (IoResult (List (Int32 × SignalAction)))
  | [] => return .ok previous
  | signal :: signals => do
    match ← request (.sigaction signal .forwardSignal) with
    | .error e => do
      restore previous
      return .error (.os e)
    | .ok old => installLoop ((signal, old) :: previous) signals

def installForwarding : Startup (IoResult (List (Int32 × SignalAction))) :=
  installLoop [] FORWARDED_SIGNALS

def killAndWait (turns : Nat) (pid : Int32) : Startup Unit := do
  request (.kill pid SIGKILL)
  let _ ← waitForChild turns pid

def stopAttempt (turns : Nat) (pid : Int32) : Startup Unit := do
  killAndWait turns pid
  request .stopSupervisor
  request .joinSupervisor

/-- Give the attempt up once signals are forwarded. -/
def giveUp (turns : Nat) (pid : Int32) (installed : List (Int32 × SignalAction))
    (outcome : RunOutcome) : Startup (IoResult RunOutcome) := do
  restore installed
  stopAttempt turns pid
  return .ok outcome

/-- The last part of `linux::run`, after a successful probe. -/
def startCommand (turns : Nat) (pid : Int32) (installed : List (Int32 × SignalAction))
    (command : Command) (quiet : Bool) : Startup (IoResult RunOutcome) := do
  diagnostic quiet "collect mode=bind-view" none
  match ← writeByte 1 with
  | .error e =>
    giveUp turns pid installed (.unavailable command "bind-view-probe-finish-failed" e)
  | .ok () =>
  match ← waitForChild turns pid with
  | .error e =>
    restore installed
    return .error e
  | .ok status =>
    restore installed
    request .stopSupervisor
    request .joinSupervisor
    return .ok (.exited status)

/-- `linux::run` in the parent after the fork. -/
def superviseChild (turns : Nat) (pid : Int32) (command : Command) (quiet : Bool) :
    Startup (IoResult RunOutcome) := do
  match ← receiveSetup with
  | .error e =>
    killAndWait turns pid
    return .ok (.unavailable command "bind-view-listener-handshake-failed" e)
  | .ok (.unavailable e) =>
    let _ ← waitForChild turns pid
    return .ok (.unavailable command "bind-view-unavailable" e)
  | .ok .ready =>
  match ← request .spawnSupervisor with
  | .error e =>
    killAndWait turns pid
    return .ok (.unavailable command "bind-view-supervisor-unavailable" e)
  | .ok () =>
  match ← installForwarding with
  | .error e =>
    stopAttempt turns pid
    return .ok (.unavailable command "signal-forwarding-unavailable" e)
  | .ok installed =>
  match ← writeByte 1 with
  | .error e =>
    giveUp turns pid installed (.unavailable command "bind-view-probe-start-failed" e)
  | .ok () =>
  match ← readI32Timeout turns PROBE_TIMEOUT_MS with
  | .error e =>
    giveUp turns pid installed (.unavailable command "bind-view-probe-unavailable" e)
  | .ok probeError =>
  if probeError ≠ 0 then
    giveUp turns pid installed
      (.unavailable command "bind-view-probe-failed" (.os probeError.toInt))
  else startCommand turns pid installed command quiet

/-- `linux::run` in the parent. -/
def linuxRun (turns : Nat) (command : Command) (quiet : Bool) : Startup (IoResult RunOutcome) := do
  match ← request .reopen with
  | .error e => return .ok (.unavailable command "bind-view-setup-failed" e)
  | .ok _ =>
  match ← request .socketPair with
  | .error e => return .ok (.unavailable command "bind-view-socket-unavailable" (.os e))
  | .ok () =>
  match ← request .fork with
  | .error e => return .ok (.unavailable command "bind-view-fork-unavailable" (.os e))
  | .ok pid => superviseChild turns pid command quiet

def exitWithStatus : ChildStatus → Startup Unit
  | .exited code => request (.exit code)
  | .signaled signal => do
    let _ ← request (.sigaction signal .default)
    request (.unblock signal)
    request (.kill 0 signal)
    request (.exit (128 + signal))

/-- The passthrough command inherits working directory and environment again. -/
def passthroughCommand (command : Command) : Command := ⟨command.program, command.args, none, []⟩

/-- `main::exec`. A successful exec ends the program. -/
def execPassthrough (command : Command) : Startup Unit := do
  match ← request (.exec command) with
  | .ok () => return ()
  | .error e =>
    eprintln "cannot execute command" (some (.os e))
    request (.exit 1)

/-- `main::run`. -/
def mainRun (turns : Nat) (command : Command) (quiet : Bool) : Startup Unit := do
  let outcome ← linuxRun turns command quiet
  request (.returned outcome)
  match outcome with
  | .ok (.exited status) => exitWithStatus status
  | .ok (.unavailable command reason e) =>
    diagnostic quiet ("collect mode=passthrough reason=" ++ reason) (some e)
    execPassthrough (passthroughCommand command)
  | .error e =>
    eprintln "bind view failed after command startup" (some e)
    request (.exit 1)

-- ---------------------------------------------------------------------------
-- The child
-- ---------------------------------------------------------------------------

def childError (message : String) (error : IoError) : Startup Unit := do
  eprintln message (some error)
  request (.exit 1)

def installListener : Startup (IoResult Unit) := do
  match ← request .setNoNewPrivs with
  | .error e => return .error (.os e)
  | .ok () => return osResult (← request .setFilter)

def probeProjection (probePath : OsStr) : Startup (IoResult Unit) :=
  match cString probePath with
  | none => return .error (.os EINVAL)
  | some path => do
    match ← request (.fstatat path) with
    | .error e => return .error (.os e)
    | .ok () =>
      match ← request (.openDirectory path) with
      | .error e => return .error (.os e)
      | .ok fd =>
        request (.close fd)
        return .ok ()

def childMain (command : Command) (probePath : OsStr) : Startup Unit := do
  match ← installListener with
  | .error e =>
    let _ ← sendSetupError (Int32.ofInt (errno e))
    request (.exit 0)
  | .ok () =>
  match ← sendFd with
  | .error e => childError "cannot pass filesystem listener" e
  | .ok () =>
  match ← readByte with
  | .error e => childError "cannot synchronize filesystem supervisor" e
  | .ok () =>
  match ← probeProjection probePath with
  | .error e =>
    let _ ← writeI32 (Int32.ofInt (errno e))
    request (.exit 0)
  | .ok () =>
  match ← writeI32 0 with
  | .error e => childError "cannot report filesystem probe" e
  | .ok () =>
  match ← readByte with
  | .error e => childError "cannot finish filesystem probe" e
  | .ok () =>
  match ← request (.exec command) with
  | .ok () => return ()
  | .error e => childError "cannot execute command" (.os e)

/-- What the forked process runs; `probe_path` panics on a view without projections. -/
def childProcess (view : BindView) (command : Command) : Startup Unit :=
  match view.projections.head? with
  | none => .panic
  | some projection => childMain command projection.destination.toPath

end PathShim
