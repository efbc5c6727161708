import PathShim.UnixPath

/-!
# The command line

`cli.rs`: the arguments of `pathshim` and of `pathshim probe`. An argument is
any byte string; one that is compared with text or cut at it has to be UTF-8
first. What follows the command belongs to the command.
-/

namespace PathShim.Cli

open UnixPath (Bytes slash ascii)

abbrev OsString := Bytes

structure BindArg where
  source : OsString
  destination : OsString
  deriving DecidableEq

structure RunArgs where
  binds : List BindArg
  cwd : OsString
  quiet : Bool
  command : OsString
  args : List OsString
  deriving DecidableEq

structure ProbeArgs where
  binds : List BindArg
  deriving DecidableEq

inductive ParseResult where
  | run (args : RunArgs)
  | probe (args : ProbeArgs)
  | help
  | version
  deriving DecidableEq

/-- A message, with the argument it shows between two texts. -/
structure ParseError where
  before : String
  shown : Option OsString
  after : String
  deriving DecidableEq

abbrev Parsed (α : Type) := Except ParseError α

-- ---------------------------------------------------------------------------
-- Text in arguments
-- ---------------------------------------------------------------------------

def dash : UInt8 := 45
def colon : UInt8 := 58

def IsUtf8 (s : OsString) : Prop := s.toByteArray.IsValidUTF8

instance (s : OsString) : Decidable (IsUtf8 s) :=
  inferInstanceAs (Decidable s.toByteArray.IsValidUTF8)

/-- `OsStr::to_str`. -/
def toStr (s : OsString) : Option OsString := if IsUtf8 s then some s else none

/-- `str::strip_prefix`. -/
def stripPrefix (s text : Bytes) : Option Bytes := text.isPrefixOf? s

/-- `str::split_once`. -/
def splitOnce (s : Bytes) (c : UInt8) : Option (Bytes × Bytes) :=
  match s.dropWhile (· != c) with
  | [] => none
  | _ :: rest => some (s.takeWhile (· != c), rest)

/-- `to_string_lossy().starts_with('-')`: what replaces malformed bytes is no dash. -/
def startsWithDash (s : OsString) : Bool := s.head? == some dash

def textProbe : OsString := ascii ['p', 'r', 'o', 'b', 'e']
def textEnd : OsString := ascii ['-', '-']
def textH : OsString := ascii ['-', 'h']
def textHelp : OsString := ascii ['-', '-', 'h', 'e', 'l', 'p']
def textV : OsString := ascii ['-', 'V']
def textVersion : OsString := ascii ['-', '-', 'v', 'e', 'r', 's', 'i', 'o', 'n']
def textQuiet : OsString := ascii ['-', '-', 'q', 'u', 'i', 'e', 't']
def textB : OsString := ascii ['-', 'b']
def textBind : OsString := ascii ['-', '-', 'b', 'i', 'n', 'd']
def textW : OsString := ascii ['-', 'w']
def textCwd : OsString := ascii ['-', '-', 'c', 'w', 'd']
def textPwd : OsString := ascii ['-', '-', 'p', 'w', 'd']

/-- An option followed by an equals sign. -/
def withEquals (option : OsString) : OsString := option ++ ascii ['=']

-- ---------------------------------------------------------------------------
-- Parsing
-- ---------------------------------------------------------------------------

def parseBind (value : OsString) : Parsed BindArg :=
  match toStr value with
  | none => .error ⟨"`--bind` requires UTF-8 SOURCE:DEST paths", none, ""⟩
  | some value =>
    match splitOnce value colon with
    | none => .error ⟨"invalid bind `", some value, "`: expected SOURCE:DEST"⟩
    | some (source, destination) =>
      if source = [] ∨ destination = [] then
        .error ⟨"invalid bind `", some value, "`: SOURCE and DEST must not be empty"⟩
      else if destination.head? ≠ some slash then
        .error ⟨"invalid bind `", some value, "`: DEST must be an absolute guest path"⟩
      else .ok ⟨source, destination⟩

/-- The variables of `parse_run`. -/
structure RunState where
  binds : List BindArg
  cwd : Option OsString
  quiet : Bool
  parsingOptions : Bool

def RunState.init : RunState := ⟨[], none, false, true⟩

/-- What `parse_run` makes of the tokens from the command on. -/
def RunState.finish (s : RunState) (command : List OsString) : Parsed ParseResult :=
  if s.binds = [] then
    .error ⟨"missing filesystem view: provide `--bind SOURCE:DEST`", none, ""⟩
  else match command with
    | [] => .error ⟨"missing command", none, ""⟩
    | executable :: args => .ok (.run ⟨s.binds, s.cwd.getD [slash], s.quiet, executable, args⟩)

/-- The value of `--cwd=V` or `--pwd=V`. -/
def joinedCwd (arg : OsString) : Option OsString :=
  (toStr arg).bind fun value =>
    [withEquals textCwd, withEquals textPwd].findSome? (stripPrefix value)

/-- The value of `--bind=V`. -/
def joinedBind (arg : OsString) : Option OsString :=
  (toStr arg).bind fun value => stripPrefix value (withEquals textBind)

def parseRunLoop (s : RunState) : List OsString → Parsed ParseResult
  | [] => s.finish []
  | arg :: rest =>
    if s.parsingOptions ∧ arg = textEnd then parseRunLoop { s with parsingOptions := false } rest
    else if s.parsingOptions ∧ (arg = textH ∨ arg = textHelp) then .ok .help
    else if s.parsingOptions ∧ (arg = textV ∨ arg = textVersion) then .ok .version
    else if s.parsingOptions ∧ arg = textQuiet then parseRunLoop { s with quiet := true } rest
    else if s.parsingOptions ∧ (arg = textB ∨ arg = textBind) then
      match rest with
      | [] => .error ⟨"`", some arg, "` requires SOURCE:DEST"⟩
      | value :: rest =>
        match parseBind value with
        | .error e => .error e
        | .ok bind => parseRunLoop { s with binds := s.binds ++ [bind] } rest
    else if s.parsingOptions ∧ (arg = textW ∨ arg = textCwd ∨ arg = textPwd) then
      match rest with
      | [] => .error ⟨"`", some arg, "` requires a path"⟩
      | value :: rest => parseRunLoop { s with cwd := some value } rest
    else if s.parsingOptions then
      match joinedBind arg with
      | some value =>
        match parseBind value with
        | .error e => .error e
        | .ok bind => parseRunLoop { s with binds := s.binds ++ [bind] } rest
      | none =>
        match joinedCwd arg with
        | some value =>
          if value = [] then .error ⟨"`--cwd` requires a path", none, ""⟩
          else parseRunLoop { s with cwd := some value } rest
        | none =>
          if startsWithDash arg then .error ⟨"unknown option `", some arg, "`"⟩
          else s.finish (arg :: rest)
    else s.finish (arg :: rest)

def parseRun (args : List OsString) : Parsed ParseResult := parseRunLoop .init args

def parseProbeLoop (binds : List BindArg) : List OsString → Parsed ParseResult
  | [] =>
    if binds = [] then .error ⟨"probe requires at least one `--bind SOURCE:DEST`", none, ""⟩
    else .ok (.probe ⟨binds⟩)
  | arg :: rest =>
    if arg = textH ∨ arg = textHelp then .ok .help
    else if arg = textB ∨ arg = textBind then
      match rest with
      | [] => .error ⟨"`", some arg, "` requires SOURCE:DEST"⟩
      | value :: rest =>
        match parseBind value with
        | .error e => .error e
        | .ok bind => parseProbeLoop (binds ++ [bind]) rest
    else
      match joinedBind arg with
      | some value =>
        match parseBind value with
        | .error e => .error e
        | .ok bind => parseProbeLoop (binds ++ [bind]) rest
      | none => .error ⟨"unexpected probe argument `", some arg, "`: only --bind is supported"⟩

def parseProbe (args : List OsString) : Parsed ParseResult := parseProbeLoop [] args

def parse (args : List OsString) : Parsed ParseResult :=
  if args.head? = some textProbe then parseProbe (args.drop 1) else parseRun args

end PathShim.Cli
