import Mathlib.Tactic.SplitIfs
import PathShim.Cli

/-!
# Writing and reading command lines

Every command line that is written from options, in any order, reads back as
those options, and the command keeps its arguments whatever they look like.
-/

namespace PathShim.Cli

open UnixPath (Bytes slash ascii)

-- ---------------------------------------------------------------------------
-- UTF-8
-- ---------------------------------------------------------------------------

theorem toByteArray_byte {b : UInt8} (h : b < 128) :
    [b].toByteArray = [Char.ofUInt8 b].utf8Encode := by
  have hle : b.toNat ≤ 127 := Nat.le_of_lt_succ (UInt8.lt_iff_toNat_lt.mp h)
  have hval : (Char.ofUInt8 b).val = b.toUInt32 := rfl
  have hencode : String.utf8EncodeChar (Char.ofUInt8 b) = [b] := by
    simp [String.utf8EncodeChar, hval, hle]
  rw [List.utf8Encode_singleton, hencode]

/-- An ASCII byte before a string changes nothing. -/
theorem isUtf8_cons {b : UInt8} (h : b < 128) (s : Bytes) : IsUtf8 (b :: s) ↔ IsUtf8 s := by
  rw [IsUtf8, ← List.singleton_append, List.toByteArray_append, toByteArray_byte h]
  exact ByteArray.isValidUTF8_utf8Encode_singleton_append_iff

theorem IsUtf8.append {s t : Bytes} (hs : IsUtf8 s) (ht : IsUtf8 t) : IsUtf8 (s ++ t) := by
  rw [IsUtf8, List.toByteArray_append]
  exact ByteArray.IsValidUTF8.append hs ht

-- ---------------------------------------------------------------------------
-- What an argument is
-- ---------------------------------------------------------------------------

/-- What an argument is where an option may stand. -/
inductive Kind where
  | separator
  | help
  | version
  | quiet
  | bind
  | cwd
  | joinedBind (value : OsString)
  | joinedCwd (value : OsString)
  | unknown
  | command
  deriving DecidableEq

def kind (arg : OsString) : Kind :=
  if arg = textEnd then .separator
  else if arg = textH ∨ arg = textHelp then .help
  else if arg = textV ∨ arg = textVersion then .version
  else if arg = textQuiet then .quiet
  else if arg = textB ∨ arg = textBind then .bind
  else if arg = textW ∨ arg = textCwd ∨ arg = textPwd then .cwd
  else match joinedBind arg with
    | some value => .joinedBind value
    | none =>
      match joinedCwd arg with
      | some value => .joinedCwd value
      | none => if startsWithDash arg then .unknown else .command

def RunState.addBind (s : RunState) (bind : BindArg) : RunState :=
  { s with binds := s.binds ++ [bind] }

/-- The value of a bind option, and then the arguments behind it. -/
def RunState.bindThen (s : RunState) (value : OsString) (rest : List OsString) :
    Parsed ParseResult :=
  match parseBind value with
  | .error e => .error e
  | .ok bind => parseRunLoop (s.addBind bind) rest

/-- One turn of the loop of `parse_run`. -/
theorem parseRunLoop_cons {s : RunState} (hs : s.parsingOptions = true) (arg : OsString)
    (rest : List OsString) : parseRunLoop s (arg :: rest) =
      match kind arg, rest with
      | .separator, _ => parseRunLoop { s with parsingOptions := false } rest
      | .help, _ => .ok .help
      | .version, _ => .ok .version
      | .quiet, _ => parseRunLoop { s with quiet := true } rest
      | .bind, [] => .error ⟨"`", some arg, "` requires SOURCE:DEST"⟩
      | .bind, value :: rest => s.bindThen value rest
      | .cwd, [] => .error ⟨"`", some arg, "` requires a path"⟩
      | .cwd, path :: rest => parseRunLoop { s with cwd := some path } rest
      | .joinedBind value, _ => s.bindThen value rest
      | .joinedCwd path, _ => if path = [] then .error ⟨"`--cwd` requires a path", none, ""⟩
          else parseRunLoop { s with cwd := some path } rest
      | .unknown, _ => .error ⟨"unknown option `", some arg, "`"⟩
      | .command, _ => s.finish (arg :: rest) := by
  obtain ⟨binds, cwd, quiet, parsingOptions⟩ := s
  obtain rfl : parsingOptions = true := hs
  cases rest <;> conv_lhs => rw [parseRunLoop]
  all_goals simp only [true_and, if_true, kind]
  all_goals split_ifs
  all_goals first
    | rfl
    | cases joinedBind arg with
      | some value => rfl
      | none => cases joinedCwd arg <;> rfl

-- ---------------------------------------------------------------------------
-- Options
-- ---------------------------------------------------------------------------

inductive BindFlag where
  | short
  | long

def BindFlag.text : BindFlag → OsString
  | .short => textB
  | .long => textBind

inductive CwdFlag where
  | short
  | cwd
  | pwd

def CwdFlag.text : CwdFlag → OsString
  | .short => textW
  | .cwd => textCwd
  | .pwd => textPwd

/-- A bind that can be written as `SOURCE:DEST`. -/
structure Mapping where
  source : OsString
  destination : OsString
  nonempty : source ≠ []
  noColon : colon ∉ source
  utf8Source : IsUtf8 source
  utf8Destination : IsUtf8 destination
  absolute : destination.head? = some slash

def Mapping.arg (m : Mapping) : BindArg := ⟨m.source, m.destination⟩

def Mapping.value (m : Mapping) : OsString := m.source ++ colon :: m.destination

/-- An option of `parse_run`, its value in an argument of its own. -/
inductive Item where
  | bind (flag : BindFlag) (m : Mapping)
  | cwd (flag : CwdFlag) (path : OsString)
  | quiet

def Item.tokens : Item → List OsString
  | .bind flag m => [flag.text, m.value]
  | .cwd flag path => [flag.text, path]
  | .quiet => [textQuiet]

def render (items : List Item) : List OsString := items.flatMap Item.tokens

def Item.mapping? : Item → Option Mapping
  | .bind _ m => some m
  | _ => none

def Item.cwd? : Item → Option OsString
  | .cwd _ path => some path
  | _ => none

def Item.isQuiet : Item → Bool
  | .quiet => true
  | _ => false

/-- The binds in their order. -/
def bindArgs (items : List Item) : List BindArg := (items.filterMap Item.mapping?).map Mapping.arg

/-- The last working directory given, if any. -/
def lastCwd (items : List Item) : Option OsString := (items.filterMap Item.cwd?).getLast?

-- ---------------------------------------------------------------------------
-- Reading one option
-- ---------------------------------------------------------------------------

/-- The cut is at the first colon. -/
theorem splitOnce_colon {source destination : Bytes} (h : colon ∉ source) :
    splitOnce (source ++ colon :: destination) colon = some (source, destination) := by
  have hne : ∀ b ∈ source, (b != colon) = true := by
    intro b hb
    have hb : b ≠ colon := fun heq => h (heq ▸ hb)
    simpa using hb
  simp [splitOnce, List.dropWhile_append_of_pos hne, List.takeWhile_append_of_pos hne]

theorem parseBind_value (m : Mapping) : parseBind m.value = .ok m.arg := by
  have hutf8 : IsUtf8 m.value :=
    m.utf8Source.append ((isUtf8_cons (by decide) _).mpr m.utf8Destination)
  have hdestination : m.destination ≠ [] := fun h => by
    have habsolute := m.absolute
    simp [h] at habsolute
  rw [parseBind, toStr, if_pos hutf8]
  simp [Mapping.value, splitOnce_colon m.noColon, m.nonempty, hdestination, m.absolute, Mapping.arg]

-- ---------------------------------------------------------------------------
-- Reading the options
-- ---------------------------------------------------------------------------

@[simp] theorem kind_bindFlag (flag : BindFlag) : kind flag.text = .bind := by cases flag <;> decide

@[simp] theorem kind_cwdFlag (flag : CwdFlag) : kind flag.text = .cwd := by cases flag <;> decide

@[simp] theorem kind_quiet : kind textQuiet = .quiet := by decide

@[simp] theorem kind_end : kind textEnd = .separator := by decide

theorem stripPrefix_eq_some {s text rest : Bytes} :
    stripPrefix s text = some rest ↔ s = text ++ rest := UnixPath.isPrefixOf?_eq_some

theorem toStr_eq_some {s t : OsString} : toStr s = some t ↔ IsUtf8 s ∧ t = s := by
  unfold toStr
  split <;> simp_all [eq_comm]

/-- ASCII text before a string changes nothing. -/
theorem isUtf8_append {text s : Bytes} (h : text.all (· < 128) = true) :
    IsUtf8 (text ++ s) ↔ IsUtf8 s := by
  induction text with
  | nil => rfl
  | cons b text ih =>
    simp only [List.all_cons, Bool.and_eq_true, decide_eq_true_eq] at h
    rw [List.cons_append, isUtf8_cons h.1, ih h.2]

theorem joinedBind_eq_some {arg value : OsString} : joinedBind arg = some value ↔
    IsUtf8 value ∧ arg = withEquals textBind ++ value := by
  simp only [joinedBind, Option.bind_eq_some_iff, toStr_eq_some, stripPrefix_eq_some]
  constructor
  · rintro ⟨_, ⟨hutf8, rfl⟩, rfl⟩
    exact ⟨(isUtf8_append (by decide)).mp hutf8, rfl⟩
  · rintro ⟨hutf8, rfl⟩
    exact ⟨_, ⟨(isUtf8_append (by decide)).mpr hutf8, rfl⟩, rfl⟩

theorem joinedCwd_eq_some {arg value : OsString} : joinedCwd arg = some value ↔
    IsUtf8 value ∧ (arg = withEquals textCwd ++ value ∨ arg = withEquals textPwd ++ value) := by
  have hfind (s : OsString) : [withEquals textCwd, withEquals textPwd].findSome? (stripPrefix s) =
      some value ↔ s = withEquals textCwd ++ value ∨ s = withEquals textPwd ++ value := by
    rw [List.findSome?_cons, List.findSome?_cons, ← stripPrefix_eq_some, ← stripPrefix_eq_some]
    cases hcwd : stripPrefix s (withEquals textCwd) with
    | none => cases stripPrefix s (withEquals textPwd) <;> simp
    | some found =>
      cases hpwd : stripPrefix s (withEquals textPwd) with
      | none => simp
      | some other =>
        have hboth := (stripPrefix_eq_some.mp hcwd).symm.trans (stripPrefix_eq_some.mp hpwd)
        simp [withEquals, textCwd, textPwd, ascii] at hboth
  simp only [joinedCwd, Option.bind_eq_some_iff, toStr_eq_some, hfind]
  constructor
  · rintro ⟨_, ⟨hutf8, rfl⟩, rfl | rfl⟩
    · exact ⟨(isUtf8_append (by decide)).mp hutf8, .inl rfl⟩
    · exact ⟨(isUtf8_append (by decide)).mp hutf8, .inr rfl⟩
  · rintro ⟨hutf8, rfl | rfl⟩
    · exact ⟨_, ⟨(isUtf8_append (by decide)).mpr hutf8, rfl⟩, .inl rfl⟩
    · exact ⟨_, ⟨(isUtf8_append (by decide)).mpr hutf8, rfl⟩, .inr rfl⟩

/-- What has no dash in front is no option. -/
theorem kind_command {arg : OsString} (h : startsWithDash arg = false) : kind arg = .command := by
  have hne {text : OsString} (htext : startsWithDash text = true) : arg ≠ text := by
    rintro rfl
    simp [htext] at h
  have hbind : joinedBind arg = none := by
    refine Option.eq_none_iff_forall_not_mem.mpr fun value hvalue => ?_
    exact hne rfl (joinedBind_eq_some.mp hvalue).2
  have hcwd : joinedCwd arg = none := by
    refine Option.eq_none_iff_forall_not_mem.mpr fun value hvalue => ?_
    exact (joinedCwd_eq_some.mp hvalue).2.elim (hne rfl) (hne rfl)
  have hany : ∀ text ∈ [textEnd, textH, textHelp, textV, textVersion, textQuiet, textB, textBind,
      textW, textCwd, textPwd], arg ≠ text := by
    intro text htext
    refine hne ?_
    revert text
    decide
  simp only [List.mem_cons, List.not_mem_nil, or_false, forall_eq_or_imp, forall_eq] at hany
  simp [kind, hany, hbind, hcwd, h]

def Item.apply (s : RunState) : Item → RunState
  | .bind _ m => s.addBind m.arg
  | .cwd _ path => { s with cwd := some path }
  | .quiet => { s with quiet := true }

section
variable {s : RunState} (hs : s.parsingOptions = true)
include hs

theorem parseRunLoop_item (item : Item) (rest : List OsString) :
    parseRunLoop s (item.tokens ++ rest) = parseRunLoop (item.apply s) rest := by
  cases item with
  | bind flag m =>
    simp [Item.tokens, parseRunLoop_cons hs, RunState.bindThen, parseBind_value, Item.apply]
  | cwd flag path => simp [Item.tokens, parseRunLoop_cons hs, Item.apply]
  | quiet => simp [Item.tokens, parseRunLoop_cons hs, Item.apply]

end

theorem Item.parsingOptions_apply (s : RunState) (item : Item) :
    (item.apply s).parsingOptions = s.parsingOptions := by
  cases item <;> rfl

/-- After any options the loop goes on behind them. -/
theorem parseRunLoop_render {s : RunState} (hs : s.parsingOptions = true) (items : List Item)
    (rest : List OsString) :
    parseRunLoop s (render items ++ rest) = parseRunLoop (items.foldl Item.apply s) rest := by
  induction items generalizing s with
  | nil => rfl
  | cons item items ih =>
    have hnext : (item.apply s).parsingOptions = true := by
      rw [item.parsingOptions_apply, hs]
    rw [render, List.flatMap_cons, List.append_assoc, parseRunLoop_item hs]
    exact ih hnext

/-- What the options add up to. -/
theorem foldl_apply (s : RunState) (items : List Item) : items.foldl Item.apply s =
    ⟨s.binds ++ bindArgs items, (lastCwd items).or s.cwd, s.quiet || items.any Item.isQuiet,
      s.parsingOptions⟩ := by
  induction items generalizing s with
  | nil => simp [bindArgs, lastCwd]
  | cons item items ih =>
    rw [List.foldl_cons, ih]
    cases item with
    | bind flag m =>
      simp [Item.apply, RunState.addBind, bindArgs, lastCwd, Item.mapping?, Item.cwd?, Item.isQuiet]
    | cwd flag path =>
      simp [Item.apply, bindArgs, lastCwd, Item.mapping?, Item.cwd?, Item.isQuiet,
        List.getLast?_cons, List.filterMap_cons]
    | quiet =>
      simp [Item.apply, bindArgs, lastCwd, Item.mapping?, Item.cwd?, Item.isQuiet,
        List.filterMap_cons]

theorem parseRunLoop_done {s : RunState} (hs : s.parsingOptions = false) (args : List OsString) :
    parseRunLoop s args = s.finish args := by
  rcases args with _ | ⟨arg, _ | ⟨next, rest⟩⟩ <;> simp [parseRunLoop, hs]

theorem parse_eq_parseRun {args : List OsString} (h : args.head? ≠ some textProbe) :
    parse args = parseRun args := if_neg h

theorem finish_eq {s : RunState} (h : s.binds ≠ []) (command : OsString) (args : List OsString) :
    s.finish (command :: args) =
      .ok (.run ⟨s.binds, s.cwd.getD [slash], s.quiet, command, args⟩) := if_neg h

theorem head_render {items : List Item} (h : items ≠ []) (rest : List OsString) :
    (render items ++ rest).head? ≠ some textProbe := by
  obtain ⟨item, items, rfl⟩ := List.exists_cons_of_ne_nil h
  cases item with
  | bind flag m => cases flag <;> exact fun h => absurd (Option.some.inj h) (by decide)
  | cwd flag path => cases flag <;> exact fun h => absurd (Option.some.inj h) (by decide)
  | quiet => exact fun h => absurd (Option.some.inj h) (by decide)

theorem parse_render {items : List Item} (hbinds : bindArgs items ≠ []) (rest : List OsString) :
    parse (render items ++ rest) =
      parseRunLoop ⟨bindArgs items, lastCwd items, items.any Item.isQuiet, true⟩ rest := by
  have hitems : items ≠ [] := by
    rintro rfl
    exact hbinds rfl
  rw [parse_eq_parseRun (head_render hitems rest), parseRun, parseRunLoop_render rfl, foldl_apply]
  simp [RunState.init]

/-- The options, in the order of `items`, give these binds, this working directory and this
flag. -/
structure Writes (items : List Item) (binds : List Mapping) (cwd : OsString) (quiet : Bool) :
    Prop where
  binds : items.filterMap Item.mapping? = binds
  cwd : lastCwd items = some cwd
  quiet : items.any Item.isQuiet = quiet

/-- A command line that is written from options, in any order and whatever their values are,
reads back as these options; the command and its arguments come back as they are, behind `--`
or, unless the command begins with a dash, without it. -/
theorem command_line_round_trip {items : List Item} {binds : List Mapping} {cwd : OsString}
    {quiet : Bool} (hbinds : binds ≠ []) (hitems : Writes items binds cwd quiet)
    (command : OsString) (args : List OsString) :
    parse (render items ++ textEnd :: command :: args) =
      .ok (.run ⟨binds.map Mapping.arg, cwd, quiet, command, args⟩) ∧
    (startsWithDash command = false → parse (render items ++ command :: args) =
      .ok (.run ⟨binds.map Mapping.arg, cwd, quiet, command, args⟩)) := by
  obtain ⟨rfl, hcwd, rfl⟩ := hitems
  have hne : bindArgs items ≠ [] := by simpa [bindArgs] using hbinds
  have hfinish := finish_eq (s := ⟨bindArgs items, lastCwd items, items.any Item.isQuiet, true⟩)
    hne command args
  rw [hcwd, Option.getD_some] at hfinish
  constructor
  · rw [parse_render hne, parseRunLoop_cons rfl, kind_end, parseRunLoop_done rfl, hcwd]
    exact hfinish
  · intro hdash
    rw [parse_render hne, parseRunLoop_cons rfl, kind_command hdash, hcwd]
    exact hfinish

def mappingX : Mapping where
  source := ascii ['/', 's']
  destination := ascii ['/', 'a']
  nonempty := by decide
  noColon := by decide
  utf8Source := by decide
  utf8Destination := by decide
  absolute := by decide

/-- The working directory is called `--quiet`; the command is `--help` behind `--`, or `probe`
without it, and is followed by what looks like more options. -/
theorem command_line_round_trip_options :
    parse (render [.cwd .pwd textQuiet, .bind .short mappingX] ++
        textEnd :: textHelp :: [textEnd, textBind, textProbe]) =
      .ok (.run ⟨[mappingX].map Mapping.arg, textQuiet, false, textHelp,
        [textEnd, textBind, textProbe]⟩) ∧
    parse (render [.cwd .pwd textQuiet, .bind .short mappingX] ++
        textProbe :: [textEnd, textBind, textHelp]) =
      .ok (.run ⟨[mappingX].map Mapping.arg, textQuiet, false, textProbe,
        [textEnd, textBind, textHelp]⟩) := by
  have hbinds : [mappingX] ≠ [] := by simp
  constructor
  · exact (command_line_round_trip hbinds ⟨rfl, rfl, rfl⟩ _ _).1
  · exact (command_line_round_trip hbinds ⟨rfl, rfl, rfl⟩ _ _).2 rfl

end PathShim.Cli
