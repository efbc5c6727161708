import Mathlib.Data.List.TakeWhile
import PathShim.Bind.Sources
import PathShim.Grammar
import PathShim.Linux.Process

/-!
# The program

`main`, from the command line to the end of the process. A command line that is
accepted either ends in the command itself, started as if `pathshim` had not
been there, or as the command ended in the bind view; only what cannot be
executed, or not be waited for, ends otherwise.
-/

namespace PathShim

open UnixPath Effects

-- ---------------------------------------------------------------------------
-- Calls and answers
-- ---------------------------------------------------------------------------

inductive MainOp where
  | source (op : SourceOp)
  | setup (op : SetupOp)
  /-- On standard output. -/
  | print (text : String)
  /-- The error of the parser and the help, on standard error. -/
  | usage (error : Cli.ParseError)

@[reducible] def MainOp.Answer : MainOp → Type
  | .source op => op.Answer
  | .setup op => op.Answer
  | .print _ | .usage _ => IoResult Unit

abbrev MainProg (α : Type) := Prog MainOp.Answer α

def sourceCalls : Embedding SourceOp.Answer MainOp.Answer := ⟨.source, fun _ r => r⟩

def prepareCalls : Embedding DirectoryOp.Answer MainOp.Answer :=
  ⟨fun op => .source (.directory op), fun _ r => r⟩

def setupCalls : Embedding SetupOp.Answer MainOp.Answer := ⟨.setup, fun _ r => r⟩

-- ---------------------------------------------------------------------------
-- The program
-- ---------------------------------------------------------------------------

namespace Main

def HELP : String :=
"Run a command with best-effort bind path mappings.

Usage:
  pathshim -b <SOURCE:DEST> [-b <SOURCE:DEST> ...] [-w <PATH>] [--] <COMMAND> [ARGS...]
  pathshim --bind=<SOURCE:DEST> [--cwd=<PATH>] [--quiet] [--] <COMMAND> [ARGS...]
  pathshim probe -b <SOURCE:DEST> [-b <SOURCE:DEST> ...]

Commands:
  probe                Test whether bind-view works without running a user command

Options:
  -b, --bind <SOURCE:DEST>
                       Present SOURCE at guest DEST; may be repeated
  -w, --cwd, --pwd <PATH>
                       Initial working directory in the guest filesystem [default: /]
      --quiet          Suppress pathshim capability diagnostics
  -h, --help           Print help
  -V, --version        Print version
"

/-- The version file without the newline at its end. -/
def VERSION : String := "0.1.6"

def PROBE_CHILD_ARG : OsStr := osStr
  ['_', '_', 'p', 'a', 't', 'h', 's', 'h', 'i', 'm', '_', 'p', 'r', 'o', 'b', 'e', '_', 'c', 'h',
    'i', 'l', 'd']

def selfExe : OsStr := osStr
  ['/', 'p', 'r', 'o', 'c', '/', 's', 'e', 'l', 'f', '/', 'e', 'x', 'e']

/-- `print!`, which panics when it cannot write. -/
def print (text : String) : MainProg Unit := do
  match ← perform (MainOp.print text) with
  | .ok () => return ()
  | .error _ => .panic

def exit (code : Int32) : MainProg Unit := perform (MainOp.setup (.exit code))

def usage (error : Cli.ParseError) : MainProg Unit := do
  match ← perform (MainOp.usage error) with
  | .ok () => return ()
  | .error _ => .panic

def bindSpecs (binds : List Cli.BindArg) : List BindSpec :=
  binds.map fun bind => ⟨.ofBytes bind.source, .ofBytes bind.destination⟩

def displayStatus : ChildStatus → String
  | .exited code => "exit-" ++ toString code
  | .signaled signal => "signal-" ++ toString signal

def probeUnavailable (reason : String) (error : Option IoError) : MainProg Unit := do
  print "passthrough\n"
  (PathShim.eprintln ("probe mode=passthrough reason=" ++ reason) error).embed setupCalls
  exit 1

def probeCommand : Command := ⟨selfExe, [PROBE_CHILD_ARG], none, []⟩

def probeView (turns : Nat) : MainProg Unit := do
  match ← (linuxRun turns probeCommand true).embed setupCalls with
  | .ok (.exited status) =>
    if status = .exited 0 then
      print "bind-view\n"
      exit 0
    else probeUnavailable ("probe-child-failed status=" ++ displayStatus status) none
  | .ok (.unavailable _ reason error) => probeUnavailable reason (some error)
  | .error error => probeUnavailable "bind-view-probe-failed" (some error)

def probe (turns : Nat) (binds : List BindSpec) : MainProg Unit := do
  match ← (BindView.opens binds).embed sourceCalls with
  | .error error => probeUnavailable "bind-view-unavailable" (some error)
  | .ok _ => probeView turns

/-- `main` for a command. -/
def start (turns : Nat) (args : Cli.RunArgs) : MainProg Unit := do
  let command : Command := ⟨.ofBytes args.command, args.args.map .ofBytes, none, []⟩
  let binds := bindSpecs args.binds
  match ← (BindView.opens binds).embed sourceCalls with
  | .error error =>
    (PathShim.diagnostic args.quiet
      ("collect mode=passthrough reason=bind-view-unavailable binds=" ++ toString binds.length)
      (some error)).embed setupCalls
    (execPassthrough command).embed setupCalls
  | .ok view =>
    let command ← (prepare view args.quiet (.ofBytes args.cwd) command).embed prepareCalls
    (mainRun turns command args.quiet).embed setupCalls

/-- A return from `main` ends the process like `exit(0)`. -/
def main (turns : Nat) (args : List OsStr) : MainProg Unit := do
  if args.length = 1 ∧ args.head? = some PROBE_CHILD_ARG then exit 0
  else
    match Cli.parse (args.map OsStr.bytes) with
    | .error error =>
      usage error
      exit 2
    | .ok (.run args) => start turns args
    | .ok .help =>
      print HELP
      exit 0
    | .ok .version =>
      print ("pathshim " ++ VERSION ++ "\n")
      exit 0
    | .ok (.probe args) => probe turns (bindSpecs args.binds)

end Main

-- ---------------------------------------------------------------------------
-- What becomes of the process
-- ---------------------------------------------------------------------------

def Process.printed (s : Process) (text : String) : Process :=
  { s with stdout := s.stdout ++ [text] }

/-- What is done to files is not part of the process. -/
def Process.mainServes (settable : Int32 → Prop) : Effect MainOp.Answer Process := fun s e s' =>
  match e with
  | ⟨.source _, _⟩ => s' = s
  | ⟨.setup op, r⟩ => serves settable s ⟨op, r⟩ s'
  | ⟨.print text, .ok ()⟩ => s' = s.printed text
  | ⟨.print _, .error _⟩ => s' = s
  | ⟨.usage _, _⟩ => s' = s

section
variable {settable : Int32 → Prop} {s : Process} {panics : Process → Prop}

theorem triple_setup {p : Startup α} {post : α → Process → Prop}
    (h : Triple (Process.serves settable) p s post panics) :
    Triple (Process.mainServes settable) (p.embed setupCalls) s post panics :=
  h.embed fun _ _ _ _ hserves => hserves

theorem triple_sources {ι : Embedding Ans MainOp.Answer} {p : Prog Ans α}
    (hop : ∀ op, ∃ source, ι.op op = .source source) (hpanics : panics s) :
    Triple (Process.mainServes settable) (p.embed ι) s (fun _ s' => s' = s) panics := by
  have hunchanged : Triple (fun s _ s' => s' = s) p s (fun _ s' => s' = s) panics :=
    .unchanged (fun _ _ h => h) hpanics
  refine hunchanged.embed fun s op r s' hserves => ?_
  obtain ⟨source, heq⟩ := hop op
  revert r
  rw [heq]
  intro r hserves
  exact hserves

theorem triple_print (hpanics : panics s) (text : String) :
    Triple (Process.mainServes settable) (Main.print text) s (fun _ s' => s' = s.printed text)
      panics := by
  refine Triple.call fun r s' hserves => ?_
  cases r with
  | ok _ =>
    obtain rfl := hserves
    exact .ret rfl
  | error e =>
    obtain rfl := hserves
    exact .panic hpanics

theorem triple_exit (code : Int32) : Triple (Process.mainServes settable) (Main.exit code) s
    (fun _ s' => s' = s.ending (.exited code)) panics := .perform fun _ _ hserves => hserves.2

end

section
variable {settable : Int32 → Prop} {before s : Process}

theorem triple_probeUnavailable (hended : s.Unended) (reason : String) (error : Option IoError) :
    Triple (Process.mainServes settable) (Main.probeUnavailable reason error) s
      (fun _ s' => s' = (s.printed "passthrough\n").ending (.exited 1)) Process.Unended := by
  refine (triple_print hended _).bind ?_
  rintro _ _ rfl
  have hprinted : (s.printed "passthrough\n").Unended := hended
  refine (triple_setup (triple_eprintln hprinted _ _)).bind ?_
  rintro _ _ rfl
  exact triple_exit 1

/-- The process when `pathshim probe` has found no bind view, and before it says so. -/
inductive Process.Declined (s : Process) : Process → Prop
  | attempted {s'} : s.Attempted s' → Declined s s'
  | status {status} : status ≠ .exited 0 → Declined s ((s.told [1, 1]).reaped status)
  | failed {pid} : Declined s ((s.told [1, 1]).forked pid).supervised.losing

/-- `linux::run` returns that its child has exited with 0. -/
def Process.Supervised (settable : Int32 → Prop) (turns : Nat) (s s' : Process) : Prop :=
  Runs (Process.serves settable) (linuxRun turns Main.probeCommand true) s
    (some (.ok (.exited (.exited 0)))) s'

/-- How `pathshim probe` ends the process. -/
inductive ProbeEnds (settable : Int32 → Prop) (turns : Nat) (s : Process) : Process → Prop
  | available : Process.Supervised settable turns s ((s.told [1, 1]).reaped (.exited 0)) →
      ProbeEnds settable turns s
        ((((s.told [1, 1]).reaped (.exited 0)).printed "bind-view\n").ending (.exited 0))
  | unavailable {s'} : s.Declined s' →
      ProbeEnds settable turns s ((s'.printed "passthrough\n").ending (.exited 1))

theorem triple_probeView (h : before.Idle) (turns : Nat) :
    Triple (Process.mainServes settable) (Main.probeView turns) before
      (fun _ s' => ProbeEnds settable turns before s') Process.Unended := by
  have hunavailable {s : Process} (hdeclined : before.Declined s) (hended : s.Unended)
      (reason : String) (error : Option IoError) :
      Triple (Process.mainServes settable) (Main.probeUnavailable reason error) s
        (fun _ s' => ProbeEnds settable turns before s') Process.Unended := by
    refine (triple_probeUnavailable hended reason error).mono ?_ fun _ => id
    rintro _ _ rfl
    exact .unavailable hdeclined
  refine (triple_setup (triple_linuxRun h turns true).runs).bind ?_
  rintro outcome s ⟨hreturned, hrun⟩
  cases hreturned with
  | @exited status =>
    have hended : ((before.told [1, 1]).reaped status).Unended := h.ended
    dsimp only
    split
    · rename_i hstatus
      subst hstatus
      refine (triple_print hended _).bind ?_
      rintro _ _ rfl
      refine (triple_exit 0).mono ?_ fun _ => id
      rintro _ _ rfl
      exact .available hrun
    · rename_i hstatus
      exact hunavailable (.status hstatus) hended _ _
  | unavailable hattempted =>
    exact hunavailable (.attempted hattempted) (hattempted.ended.trans h.ended) _ _
  | @failed _ pid =>
    have hended : ((before.told [1, 1]).forked pid).supervised.losing.Unended := h.ended
    exact hunavailable .failed hended _ _

theorem triple_probe (h : before.Idle) (turns : Nat) (binds : List BindSpec) :
    Triple (Process.mainServes settable) (Main.probe turns binds) before
      (fun _ s' => ProbeEnds settable turns before s') Process.Unended := by
  refine (triple_sources (fun op => ⟨op, rfl⟩) h.ended).bind ?_
  rintro r _ rfl
  cases r with
  | ok view => exact triple_probeView h turns
  | error e =>
    refine (triple_probeUnavailable h.ended _ _).mono ?_ fun _ => id
    rintro _ _ rfl
    exact .unavailable (.attempted .unforked)

end

-- ---------------------------------------------------------------------------
-- Every command line
-- ---------------------------------------------------------------------------

section
variable {dispositions : Dispositions} {s later : Process}

theorem Process.start_idle (dispositions : Dispositions) : (Process.start dispositions).Idle :=
  ⟨rfl, rfl⟩

theorem Process.Attempted.gone (h : (Process.start dispositions).Attempted s) :
    s.lost = false → s.child = none ∧ s.supervisor = false := by
  intro hlost
  cases h with
  | unforked => exact ⟨rfl, rfl⟩
  | forked bytes hgone =>
    cases hgone with
    | reaped status => exact ⟨rfl, rfl⟩
    | losing => cases hlost

theorem Process.Attempted.kept (h : (Process.start dispositions).Attempted s) :
    s.dispositions = dispositions ∧ s.attempts = [] ∧ s.stdout = [] ∧ s.ended = none := by
  cases h with
  | unforked => exact ⟨rfl, rfl, rfl, rfl⟩
  | forked bytes hgone => cases hgone <;> exact ⟨rfl, rfl, rfl, rfl⟩

variable {settable : Int32 → Prop} {turns : Nat} {args : List OsStr}

theorem not_probeChild {result : Cli.ParseResult}
    (h : Cli.parse (args.map OsStr.bytes) = .ok result) :
    ¬ (args.length = 1 ∧ args.head? = some Main.PROBE_CHILD_ARG) := by
  rintro ⟨hlength, hhead⟩
  obtain ⟨arg, rfl⟩ := List.length_eq_one_iff.mp hlength
  obtain rfl := Option.some.inj hhead
  have hnot : (Cli.parse ([Main.PROBE_CHILD_ARG].map OsStr.bytes)).toOption = none := by decide
  rw [h] at hnot
  cases hnot

theorem runs_setup {op : SetupOp} {next : op.Answer → MainProg Unit} (r : op.Answer)
    (hallows : s.Allows settable ⟨op, r⟩)
    (h : Runs (Process.mainServes settable) (next r) (s.after ⟨op, r⟩) (some ()) later) :
    Runs (Process.mainServes settable) (.call (.setup op) next) s (some ()) later :=
  .call ⟨hallows, rfl⟩ h

theorem runs_print {text : String} {next : IoResult Unit → MainProg Unit}
    (h : Runs (Process.mainServes settable) (next (.ok ())) (s.printed text) (some ()) later) :
    Runs (Process.mainServes settable) (.call (.print text) next) s (some ()) later :=
  .call (show Process.mainServes settable s ⟨.print text, .ok ()⟩ (s.printed text) from rfl) h

theorem probe_verdict {p : Cli.ProbeArgs}
    (hparse : Cli.parse (args.map OsStr.bytes) = .ok (.probe p))
    (hrun : Runs (Process.mainServes settable) (Main.main turns args) (.start dispositions)
      (some ()) later) :
    later.dispositions = dispositions ∧ later.attempts = [] ∧
      (later.lost = false → later.child = none ∧ later.supervisor = false) ∧
      (later.stdout = ["bind-view\n"] ∧ later.ended = some (.exited 0) ∧
          later.status = some (.exited 0) ∧ later.written = [1, 1] ∧ later.lost = false ∧
          (∃ supervised, Process.Supervised settable turns (.start dispositions) supervised ∧
            later = (supervised.printed "bind-view\n").ending (.exited 0)) ∨
        later.stdout = ["passthrough\n"] ∧ later.ended = some (.exited 1)) := by
  rw [Main.main, if_neg (not_probeChild hparse), hparse] at hrun
  have hverdict := (triple_probe (Process.start_idle dispositions) turns _).returns _ _ hrun
  cases hverdict with
  | available hsupervised =>
    exact ⟨rfl, rfl, fun _ => ⟨rfl, rfl⟩, .inl ⟨rfl, rfl, rfl, rfl, rfl, _, hsupervised, rfl⟩⟩
  | unavailable hdeclined =>
    cases hdeclined with
    | attempted hattempted =>
      obtain ⟨hdispositions, hattempts, hstdout, hended⟩ := hattempted.kept
      refine ⟨hdispositions, hattempts, hattempted.gone, .inr ⟨?_, ?_⟩⟩
      · simp [Process.ending, Process.printed, hstdout]
      · simp [Process.ending, Process.printed, hended]
    | status => exact ⟨rfl, rfl, fun _ => ⟨rfl, rfl⟩, .inr ⟨rfl, rfl⟩⟩
    | failed => exact ⟨rfl, rfl, (fun hlost => by cases hlost), .inr ⟨rfl, rfl⟩⟩

/-- `pathshim probe -b /s:/a` -/
def argsProbe : List OsStr :=
  [osStr ['p', 'r', 'o', 'b', 'e'], osStr ['-', 'b'], osStr ['/', 's', ':', '/', 'a']]

theorem parse_argsProbe : Cli.parse (argsProbe.map OsStr.bytes) =
    .ok (.probe ⟨[⟨ascii ['/', 's'], ascii ['/', 'a']⟩]⟩) := by decide

/-- The dispositions when every forwarded signal has been set and then set back. -/
def restored : Dispositions := FORWARDED_SIGNALS.reverse.foldl
  (fun d signal => Function.update d signal .default)
  (FORWARDED_SIGNALS.foldl (fun d signal => Function.update d signal .forwardSignal)
    fun _ => .default)

def processProbe : Process :=
  ((((Process.start restored).told [1, 1]).reaped (.exited 0)).printed "bind-view\n").ending
    (.exited 0)

/-- Everything succeeds. -/
theorem run_argsProbe : Runs (Process.mainServes fun _ => True) (Main.main 2 argsProbe)
    (.start fun _ => .default) (some ()) processProbe := by
  rw [Main.main, if_neg (not_probeChild parse_argsProbe), parse_argsProbe]
  refine .call (r := .ok ()) rfl ?_
  refine .call (r := .ok bindS.source.normalize) rfl ?_
  refine runs_setup (.ok linkBind) trivial ?_
  refine runs_setup (.ok ()) trivial ?_
  refine runs_setup (.ok 7) (show (7 : Int32) ≠ 0 by decide) ?_
  refine runs_setup (.ok ⟨[SETUP_READY], true⟩) trivial ?_
  refine runs_setup (.ok ()) trivial ?_
  refine runs_setup (.ok .default) ⟨trivial, rfl⟩ ?_
  refine runs_setup (.ok .default) ⟨trivial, rfl⟩ ?_
  refine runs_setup (.ok .default) ⟨trivial, rfl⟩ ?_
  refine runs_setup (.ok .default) ⟨trivial, rfl⟩ ?_
  refine runs_setup ⟨1, 0⟩ trivial ?_
  refine runs_setup (.ok ⟨1, POLLIN⟩) trivial ?_
  refine runs_setup (.ok [0, 0, 0, 0]) trivial ?_
  refine runs_setup ⟨1, 0⟩ trivial ?_
  refine runs_setup (.ok (.exited 0)) rfl ?_
  refine runs_setup (.ok .forwardSignal) ⟨trivial, rfl⟩ ?_
  refine runs_setup (.ok .forwardSignal) ⟨trivial, rfl⟩ ?_
  refine runs_setup (.ok .forwardSignal) ⟨trivial, rfl⟩ ?_
  refine runs_setup (.ok .forwardSignal) ⟨trivial, rfl⟩ ?_
  refine runs_setup () trivial ?_
  refine runs_setup () trivial ?_
  refine runs_print ?_
  refine runs_setup () trivial ?_
  exact .ret

theorem probe_verdict_available : processProbe.dispositions = (fun _ => .default) ∧
    processProbe.attempts = [] ∧
    (processProbe.lost = false → processProbe.child = none ∧ processProbe.supervisor = false) ∧
    (processProbe.stdout = ["bind-view\n"] ∧ processProbe.ended = some (.exited 0) ∧
        processProbe.status = some (.exited 0) ∧ processProbe.written = [1, 1] ∧
        processProbe.lost = false ∧
        (∃ supervised, Process.Supervised (fun _ => True) 2 (.start fun _ => .default) supervised ∧
          processProbe = (supervised.printed "bind-view\n").ending (.exited 0)) ∨
      processProbe.stdout = ["passthrough\n"] ∧ processProbe.ended = some (.exited 1)) :=
  probe_verdict parse_argsProbe run_argsProbe

end

end PathShim
