import PathShim.Threads
import PathShim.Linux.Startup

/-!
# Parent and child

The two processes of the handshake and the socket pair between them, under any
interleaving, with any call failing and either process stopping at any moment.
-/

namespace PathShim

open UnixPath Effects

-- ---------------------------------------------------------------------------
-- The two processes
-- ---------------------------------------------------------------------------

inductive Who where
  | parent
  | child
  deriving DecidableEq

/-- The messages under way on the socket pair. -/
structure Sockets where
  toChild : List Bytes
  toParent : List Message

def SetupOp.onSocket : SetupOp → Bool
  | .write _ | .read _ | .send _ | .sendmsg _ | .recvmsg _ | .recv _ => true
  | _ => false

/-- What a call does to the socket pair: a message that was written arrives once and in order,
a transfer that failed delivers nothing, and an end of file can be read at any time. -/
inductive Delivers : Who → Event SetupOp.Answer → Sockets → Sockets → Prop
  | write {payload : Bytes} {transfer : Transfer} {s} : transfer.result = payload.length →
      Delivers .parent ⟨.write payload, transfer⟩ s { s with toChild := s.toChild ++ [payload] }
  | writeFailed {payload transfer s} : transfer.result < 0 →
      Delivers .parent ⟨.write payload, transfer⟩ s s
  | read {length : Nat} {transfer : Transfer} {s message rest} : s.toChild = message :: rest →
      transfer.result = (min length message.length : Nat) →
      Delivers .child ⟨.read length, transfer⟩ s { s with toChild := rest }
  | readFailed {length transfer s} : transfer.result ≤ 0 →
      Delivers .child ⟨.read length, transfer⟩ s s
  | send {payload : Bytes} {transfer : Transfer} {s} : transfer.result = payload.length →
      Delivers .child ⟨.send payload, transfer⟩ s
        { s with toParent := s.toParent ++ [⟨payload, false⟩] }
  | sendFailed {payload transfer s} : transfer.result < 0 →
      Delivers .child ⟨.send payload, transfer⟩ s s
  | sendmsg {payload s} : Delivers .child ⟨.sendmsg payload, .ok ()⟩ s
      { s with toParent := s.toParent ++ [⟨payload, true⟩] }
  | sendmsgFailed {payload e s} : Delivers .child ⟨.sendmsg payload, .error e⟩ s s
  | recvmsg {length s message rest} : s.toParent = message :: rest →
      Delivers .parent ⟨.recvmsg length, .ok ⟨message.payload.take length, message.rights⟩⟩ s
        { s with toParent := rest }
  | recvmsgEnd {length s} : Delivers .parent ⟨.recvmsg length, .ok ⟨[], false⟩⟩ s s
  | recvmsgFailed {length e s} : Delivers .parent ⟨.recvmsg length, .error e⟩ s s
  | recv {length s message rest} : s.toParent = message :: rest →
      Delivers .parent ⟨.recv length, .ok (message.payload.take length)⟩ s
        { s with toParent := rest }
  | recvEnd {length s} : Delivers .parent ⟨.recv length, .ok []⟩ s s
  | recvFailed {length e s} : Delivers .parent ⟨.recv length, .error e⟩ s s
  | elsewhere {who op r s} : op.onSocket = false → Delivers who ⟨op, r⟩ s s

/-- A successful fork starts the child. -/
def startup (view : BindView) (command : Command) : System Who SetupOp.Answer Sockets where
  effect := Delivers
  starts
    | ⟨.fork, .ok _⟩ => some (.child, childProcess view command)
    | _ => none

def initial (turns : Nat) (command : Command) (quiet : Bool) : Pool Who SetupOp.Answer Sockets where
  thread
    | .parent => some (mainRun turns command quiet)
    | .child => none
  shared := ⟨[], []⟩
  log := []

-- ---------------------------------------------------------------------------
-- The calls of each part
-- ---------------------------------------------------------------------------

section
variable {S : SetupOp → Prop}

theorem calls_eprintln {message : String} {error : Option IoError}
    (h : S (.eprintln message error)) : (eprintln message error).Calls S := by
  refine Prog.Calls.bind (.perform h) fun r => ?_
  cases r <;> trivial

theorem calls_diagnostic {quiet : Bool} {message : String} {error : Option IoError}
    (h : S (.eprintln message error)) : (diagnostic quiet message error).Calls S := by
  cases quiet with
  | true => trivial
  | false => exact calls_eprintln h

theorem calls_waitForChild {turns : Nat} {pid : Int32} (h : S (.waitpid pid)) :
    (waitForChild turns pid).Calls S := by
  induction turns with
  | zero => trivial
  | succ turns ih =>
    refine Prog.Calls.bind (.perform h) fun r => ?_
    cases r with
    | error e =>
      dsimp only
      split
      · exact ih
      · trivial
    | ok status =>
      cases status with
      | exited code => trivial
      | signaled signal => trivial
      | other => exact ih

theorem calls_restore {installed : List (Int32 × SignalAction)}
    (h : ∀ signal action, S (.sigaction signal action)) : (restore installed).Calls S := by
  induction installed with
  | nil => trivial
  | cons entry installed ih => exact Prog.Calls.bind (.perform (h _ _)) fun _ => ih

theorem calls_installLoop {previous : List (Int32 × SignalAction)} {signals : List Int32}
    (h : ∀ signal action, S (.sigaction signal action)) :
    (installLoop previous signals).Calls S := by
  induction signals generalizing previous with
  | nil => trivial
  | cons signal signals ih =>
    refine Prog.Calls.bind (.perform (h _ _)) fun r => ?_
    cases r with
    | error e => exact Prog.Calls.bind (calls_restore h) fun _ => trivial
    | ok old => exact ih

theorem calls_killAndWait {turns : Nat} {pid : Int32} (hkill : S (.kill pid SIGKILL))
    (hwait : S (.waitpid pid)) : (killAndWait turns pid).Calls S :=
  Prog.Calls.bind (.perform hkill) fun _ =>
    Prog.Calls.bind (calls_waitForChild hwait) fun _ => trivial

theorem calls_stopAttempt {turns : Nat} {pid : Int32} (hkill : S (.kill pid SIGKILL))
    (hwait : S (.waitpid pid)) (hstop : S .stopSupervisor) (hjoin : S .joinSupervisor) :
    (stopAttempt turns pid).Calls S :=
  Prog.Calls.bind (calls_killAndWait hkill hwait) fun _ =>
    Prog.Calls.bind (.perform hstop) fun _ => .perform hjoin

theorem calls_receiveSetup (h : S (.recvmsg 5)) : receiveSetup.Calls S := by
  refine Prog.Calls.bind (.perform h) fun r => ?_
  cases r with
  | error e => trivial
  | ok message =>
    dsimp only
    split
    · trivial
    · split
      · trivial
      · split <;> trivial

theorem calls_readI32Timeout {turns : Nat} {timeout : Int32} (hpoll : S (.poll timeout))
    (hrecv : S (.recv 4)) : (readI32Timeout turns timeout).Calls S := by
  induction turns with
  | zero => trivial
  | succ turns ih =>
    refine Prog.Calls.bind (.perform hpoll) fun r => ?_
    cases r with
    | error e =>
      dsimp only
      split
      · exact ih
      · trivial
    | ok polled =>
      dsimp only
      split
      · trivial
      · split
        · refine Prog.Calls.bind (.perform hrecv) fun r => ?_
          cases r with
          | error e => trivial
          | ok bytes =>
            dsimp only
            split <;> trivial
        · trivial

theorem calls_childError {message : String} {error : IoError}
    (hprint : S (.eprintln message (some error))) (hexit : S (.exit 1)) :
    (childError message error).Calls S :=
  Prog.Calls.bind (calls_eprintln hprint) fun _ => .perform hexit

theorem calls_installListener (hprivs : S .setNoNewPrivs) (hfilter : S .setFilter) :
    installListener.Calls S := by
  refine Prog.Calls.bind (.perform hprivs) fun r => ?_
  cases r with
  | error e => trivial
  | ok _ => exact Prog.Calls.bind (.perform hfilter) fun _ => trivial

end

-- ---------------------------------------------------------------------------
-- A command, and a view without binds
-- ---------------------------------------------------------------------------

def sampleCommand : Command := ⟨osStr ['/', 'x'], [], none, []⟩

def sampleView : BindView := ⟨[], by simp, by simp⟩

end PathShim
