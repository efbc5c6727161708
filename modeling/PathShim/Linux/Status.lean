import PathShim.CommandLine
import PathShim.Linux.Kernel
import PathShim.Linux.Reply

/-!
# The status file of a process

Who a task belongs to and who its parent is stands in `/proc/<pid>/status`,
below a name that the task chooses itself. Whatever the name looks like, it is
not taken for one of the numbers; but a name that is no UTF-8 hides them both.
-/

namespace PathShim

open UnixPath Effects
open Cli (IsUtf8 toStr stripPrefix colon)

-- ---------------------------------------------------------------------------
-- Text
-- ---------------------------------------------------------------------------

def tab : UInt8 := 9
def lineFeed : UInt8 := 10
def carriageReturn : UInt8 := 13

/-- The lines that end in a line feed, and what comes after the last. -/
def cutLines : Bytes → List Bytes × Bytes
  | [] => ([], [])
  | b :: rest =>
    if b = lineFeed then ([] :: (cutLines rest).1, (cutLines rest).2)
    else
      match cutLines rest with
      | ([], last) => ([], b :: last)
      | (line :: more, last) => ((b :: line) :: more, last)

def chomp (line : Bytes) : Bytes :=
  if line.getLast? = some carriageReturn then line.dropLast else line

/-- `str::lines`: the last line may lack its line feed, and only with one does a carriage return
belong to the end of a line. -/
def lines (text : Bytes) : List Bytes :=
  let (ended, last) := cutLines text
  ended.map chomp ++ if last = [] then [] else [last]

/-- The characters with the property `White_Space`. -/
def whiteSpace : List Bytes :=
  [0x09, 0x0a, 0x0b, 0x0c, 0x0d, 0x20, 0x85, 0xa0, 0x1680, 0x2000, 0x2001, 0x2002, 0x2003, 0x2004,
    0x2005, 0x2006, 0x2007, 0x2008, 0x2009, 0x200a, 0x2028, 0x2029, 0x202f, 0x205f, 0x3000].map
    fun c => String.utf8EncodeChar (Char.ofNat c)

/-- As many of the spaces as the text begins with, at most `n`. -/
def stripSpaces (spaces : List Bytes) : Nat → Bytes → Bytes
  | 0, text => text
  | n + 1, text =>
    match spaces.findSome? (stripPrefix text) with
    | none => text
    | some rest => stripSpaces spaces n rest

/-- `str::trim`. -/
def trim (text : Bytes) : Bytes :=
  let start := stripSpaces whiteSpace text.length text
  (stripSpaces (whiteSpace.map List.reverse) start.length start.reverse).reverse

-- ---------------------------------------------------------------------------
-- Fields
-- ---------------------------------------------------------------------------

def StatusField.label : StatusField → Bytes
  | .tgid => ascii ['T', 'g', 'i', 'd']
  | .ppid => ascii ['P', 'P', 'i', 'd']

/-- `process_status_field`, once the file has been read. -/
def processStatusField (status : IoResult Bytes) (name : Bytes) : Option UInt32 := do
  let text ← status.toOption.bind toStr
  let field ← (lines text).findSome? fun line => stripPrefix line name
  parseU32 (trim field)

-- ---------------------------------------------------------------------------
-- Numbers
-- ---------------------------------------------------------------------------

theorem digits_value (cs : List Char) (hcs : ∀ c ∈ cs, c.toNat < 2 ^ 8) (acc : Nat) :
    (ascii cs).foldl (fun acc b => 10 * acc + (b.toNat - 48)) acc = Nat.ofDigitChars 10 cs acc := by
  induction cs generalizing acc with
  | nil => rfl
  | cons c cs ih =>
    have hc : c.toNat.toUInt8.toNat = c.toNat := Nat.mod_eq_of_lt (hcs c List.mem_cons_self)
    rw [Nat.ofDigitChars_cons, ← ih fun c hmem => hcs c (List.mem_cons_of_mem _ hmem)]
    simp only [ascii, List.map_cons, List.foldl_cons, hc]
    rfl

theorem decimalDigits_ne_nil (n : Nat) : decimalDigits n ≠ [] := by
  simp [decimalDigits, ascii]

/-- What `format!` writes, `parse` reads. -/
theorem parseU32_decimalDigits (n : UInt32) : parseU32 (decimalDigits n.toNat) = some n := by
  have hdigit {b : UInt8} (h : b ∈ decimalDigits n.toNat) := isDigitByte_of_mem h
  have hsmall : ∀ c ∈ Nat.toDigits 10 n.toNat, c.toNat < 2 ^ 8 := by
    intro c hc
    have hd := Char.isDigit_iff_toNat.mp (Nat.isDigit_of_mem_toDigits (by decide) (by decide) hc)
    have hle : c.toNat ≤ 57 := hd.2
    omega
  have hvalue : (decimalDigits n.toNat).foldl (fun acc b => 10 * acc + (b.toNat - 48)) 0 =
      n.toNat := by
    rw [decimalDigits, digits_value _ hsmall, Nat.ofDigitChars_ten_toDigits]
  unfold parseU32
  dsimp only
  split
  · rename_i rest htext
    cases (hdigit (htext ▸ List.mem_cons_self) : isDigitByte 43 = true)
  · rw [if_pos ⟨decimalDigits_ne_nil _, List.all_eq_true.mpr fun b hb => hdigit hb⟩, hvalue,
      if_pos n.toNat_lt, UInt32.ofNat_toNat]

-- ---------------------------------------------------------------------------
-- Lines
-- ---------------------------------------------------------------------------

theorem cutLines_line {line : Bytes} (h : lineFeed ∉ line) (rest : Bytes) :
    cutLines (line ++ lineFeed :: rest) = (line :: (cutLines rest).1, (cutLines rest).2) := by
  induction line with
  | nil => simp [cutLines]
  | cons b line ih =>
    obtain ⟨hb, hline⟩ := not_or.mp (mt List.mem_cons.mpr h)
    rw [List.cons_append, cutLines, if_neg (Ne.symm hb), ih hline]

theorem lines_line {line : Bytes} (h : lineFeed ∉ line) (rest : Bytes) :
    lines (line ++ lineFeed :: rest) = chomp line :: lines rest := by
  simp [lines, cutLines_line h]

theorem chomp_append (first : Bytes) {last : Bytes} (h : last ≠ []) :
    chomp (first ++ last) = first ++ chomp last := by
  unfold chomp
  rw [List.getLast?_append_of_ne_nil first h]
  split
  · rw [List.dropLast_append_of_ne_nil h]
  · rfl

/-- Two labels before a colon are told apart by what comes before it. -/
theorem stripPrefix_label {label name rest : Bytes} (hlabel : colon ∉ label)
    (hname : colon ∉ name) : stripPrefix (label ++ colon :: rest) (name ++ [colon]) =
      if label = name then some rest else none := by
  induction label generalizing name with
  | nil =>
    cases name with
    | nil => simp [stripPrefix, List.isPrefixOf?]
    | cons b name =>
      have hb : b ≠ colon := fun h => hname (h ▸ List.mem_cons_self)
      simp [stripPrefix, List.isPrefixOf?, hb]
  | cons b label ih =>
    obtain ⟨hb, hlabel⟩ := not_or.mp (mt List.mem_cons.mpr hlabel)
    cases name with
    | nil => simp [stripPrefix, List.isPrefixOf?, hb]
    | cons c name =>
      have ih := ih hlabel (mt (List.mem_cons_of_mem _) hname)
      by_cases hbc : c = b
      · subst hbc
        simpa [stripPrefix, List.isPrefixOf?] using ih
      · simp [stripPrefix, List.isPrefixOf?, hbc, Ne.symm hbc]

-- ---------------------------------------------------------------------------
-- Spaces
-- ---------------------------------------------------------------------------

theorem stripSpaces_digit {spaces : List Bytes} {b : UInt8} {rest : Bytes}
    (hspaces : ∀ space ∈ spaces, (space.head?.all isDigitByte) = false)
    (hb : isDigitByte b = true) (n : Nat) : stripSpaces spaces n (b :: rest) = b :: rest := by
  have hnone : spaces.findSome? (stripPrefix (b :: rest)) = none := by
    refine List.findSome?_eq_none_iff.mpr fun space hspace => ?_
    have hhead := hspaces space hspace
    cases space with
    | nil => simp at hhead
    | cons c space =>
      have hc : c ≠ b := by
        rintro rfl
        simp [hb] at hhead
      simp [stripPrefix, List.isPrefixOf?, hc]
  cases n with
  | zero => rfl
  | succ n => simp [stripSpaces, hnone]

/-- A tab goes, the digits stay. -/
theorem trim_decimalDigits (n : Nat) :
    trim (tab :: decimalDigits n) = decimalDigits n := by
  have hdigit {b : UInt8} (h : b ∈ decimalDigits n) := isDigitByte_of_mem h
  have hstart : stripSpaces whiteSpace (tab :: decimalDigits n).length (tab :: decimalDigits n) =
      decimalDigits n := by
    obtain ⟨b, rest, hdigits⟩ := List.exists_cons_of_ne_nil (decimalDigits_ne_nil n)
    have htab : whiteSpace.findSome? (stripPrefix (tab :: decimalDigits n)) =
        some (decimalDigits n) := rfl
    rw [List.length_cons, stripSpaces, htab]
    dsimp only
    rw [hdigits]
    exact stripSpaces_digit (by decide) (hdigit (hdigits ▸ List.mem_cons_self)) _
  unfold trim
  rw [hstart]
  have hne : (decimalDigits n).reverse ≠ [] := by simp [decimalDigits_ne_nil]
  obtain ⟨b, rest, hreverse⟩ := List.exists_cons_of_ne_nil hne
  have hb : b ∈ decimalDigits n := List.mem_reverse.mp (hreverse ▸ List.mem_cons_self)
  dsimp only
  rw [hreverse, stripSpaces_digit (by decide) (hdigit hb), ← hreverse, List.reverse_reverse]

-- ---------------------------------------------------------------------------
-- UTF-8
-- ---------------------------------------------------------------------------

theorem isUtf8_chars {s : Bytes} :
    IsUtf8 s ↔ ∃ chars : List Char, s = chars.flatMap String.utf8EncodeChar := by
  constructor
  · rintro ⟨chars, h⟩
    exact ⟨chars, List.toByteArray_inj.mp h⟩
  · rintro ⟨chars, rfl⟩
    exact ⟨chars, rfl⟩

theorem isUtf8_char (c : Char) : IsUtf8 (String.utf8EncodeChar c) :=
  isUtf8_chars.mpr ⟨[c], by simp⟩

/-- A line feed is no part of another character. -/
theorem lineFeed_char {c : Char} {first rest : Bytes}
    (h : String.utf8EncodeChar c = first ++ lineFeed :: rest) : first = [] := by
  have hlt : first.length < (String.utf8EncodeChar c).length := by simp [h]
  have hget : (String.utf8EncodeChar c)[first.length] = lineFeed := by simp [h]
  have hfirst := (@UInt8.isUTF8FirstByte_getElem_utf8EncodeChar c first.length hlt).mp
    (hget ▸ (by decide : lineFeed.IsUTF8FirstByte))
  exact List.length_eq_zero_iff.mp hfirst

/-- So a text may be cut there. -/
theorem isUtf8_cut {line rest : Bytes} (h : IsUtf8 (line ++ lineFeed :: rest)) : IsUtf8 line := by
  rw [isUtf8_chars] at h
  obtain ⟨chars, h⟩ := h
  induction chars generalizing line with
  | nil => simp at h
  | cons c chars ih =>
    rw [List.flatMap_cons] at h
    rcases List.append_eq_append_iff.mp h with ⟨later, hc, hlater⟩ | ⟨later, rfl, hlater⟩
    · cases later with
      | nil =>
        rw [List.append_nil] at hc
        exact hc ▸ isUtf8_char c
      | cons b later =>
        obtain ⟨rfl, -⟩ := List.cons.inj hlater
        obtain rfl := lineFeed_char hc
        exact isUtf8_chars.mpr ⟨[], rfl⟩
    · exact (isUtf8_char c).append (ih hlater.symm)

theorem isUtf8_ascii {s : Bytes} (h : ∀ b ∈ s, b < 128) (rest : Bytes) :
    IsUtf8 (s ++ rest) ↔ IsUtf8 rest := by
  induction s with
  | nil => rfl
  | cons b s ih =>
    rw [List.cons_append, Cli.isUtf8_cons (h b List.mem_cons_self),
      ih fun b hb => h b (List.mem_cons_of_mem _ hb)]

-- ---------------------------------------------------------------------------
-- What the kernel writes
-- ---------------------------------------------------------------------------

/-- A label, a colon, a tab and a value without a line feed. -/
structure StatusLine where
  label : Bytes
  value : Bytes
  plain : ∀ b ∈ label, b < 128 ∧ b ≠ colon ∧ b ≠ lineFeed
  closed : lineFeed ∉ value

def StatusLine.text (line : StatusLine) : Bytes :=
  line.label ++ colon :: tab :: line.value ++ [lineFeed]

def statusText (entries : List StatusLine) : Bytes := entries.flatMap StatusLine.text

theorem StatusLine.noColon (line : StatusLine) : colon ∉ line.label := fun h =>
  (line.plain colon h).2.1 rfl

theorem isUtf8_line (line : StatusLine) {rest : Bytes} (hrest : IsUtf8 rest) :
    IsUtf8 (line.text ++ rest) ↔ IsUtf8 line.value := by
  have htext : line.text ++ rest =
      (line.label ++ [colon, tab]) ++ (line.value ++ lineFeed :: rest) := by
    simp [StatusLine.text]
  have hlabel : ∀ b ∈ line.label ++ [colon, tab], b < 128 := by
    intro b hb
    rcases List.mem_append.mp hb with hb | hb
    · exact (line.plain b hb).1
    · rcases List.mem_pair.mp hb with rfl | rfl <;> decide
  rw [htext, isUtf8_ascii hlabel]
  exact ⟨isUtf8_cut, fun h => h.append ((Cli.isUtf8_cons (by decide) rest).mpr hrest)⟩

theorem isUtf8_statusText {entries : List StatusLine} (h : ∀ line ∈ entries, IsUtf8 line.value) :
    IsUtf8 (statusText entries) := by
  induction entries with
  | nil => exact isUtf8_chars.mpr ⟨[], rfl⟩
  | cons line entries ih =>
    have hrest := ih fun line hline => h line (List.mem_cons_of_mem _ hline)
    exact (isUtf8_line line hrest).mpr (h line List.mem_cons_self)

/-- The first line with the label is found. -/
theorem field_statusText (entries : List StatusLine) {name : Bytes} (hname : colon ∉ name) :
    (lines (statusText entries)).findSome? (fun line => stripPrefix line (name ++ [colon])) =
      (entries.find? fun line => line.label = name).map fun line =>
        chomp (tab :: line.value) := by
  induction entries with
  | nil => rfl
  | cons line entries ih =>
    have htext : statusText (line :: entries) =
        (line.label ++ colon :: tab :: line.value) ++ lineFeed :: statusText entries := by
      simp [statusText, StatusLine.text]
    have hclosed : lineFeed ∉ line.label ++ colon :: tab :: line.value := by
      simp only [List.mem_append, List.mem_cons, not_or]
      exact ⟨fun h => (line.plain _ h).2.2 rfl, by decide, by decide, line.closed⟩
    have hchomp : chomp (line.label ++ colon :: tab :: line.value) =
        line.label ++ colon :: chomp (tab :: line.value) := by
      simpa using chomp_append (line.label ++ [colon]) (List.cons_ne_nil tab line.value)
    rw [htext, lines_line hclosed, List.findSome?_cons, hchomp,
      stripPrefix_label line.noColon hname, List.find?_cons]
    by_cases hlabel : line.label = name
    · simp [hlabel]
    · simp [hlabel, ih]

-- ---------------------------------------------------------------------------
-- Tasks
-- ---------------------------------------------------------------------------

def StatusField.of (tgid parent : Pid) : StatusField → Pid
  | .tgid => tgid
  | .ppid => parent

/-- A task and its status file: below the name, which may be any bytes, there is text, and each of
the two numbers in the first line with its label. -/
structure Task where
  comm : Bytes
  tgid : Pid
  parent : Pid
  entries : List StatusLine
  commClosed : lineFeed ∉ comm
  entriesText : ∀ line ∈ entries, IsUtf8 line.value
  shown : ∀ field : StatusField,
    (entries.find? fun line => line.label = field.label).map StatusLine.value =
      some (decimalDigits (field.of tgid parent).toNat)

def nameLabel : Bytes := ascii ['N', 'a', 'm', 'e']

theorem nameLabel_plain : ∀ b ∈ nameLabel, b < 128 ∧ b ≠ colon ∧ b ≠ lineFeed := by
  intro b hb
  simp only [nameLabel, ascii, List.map_cons, List.map_nil, List.mem_cons, List.not_mem_nil,
    or_false] at hb
  rcases hb with rfl | rfl | rfl | rfl <;> decide

def Task.nameLine (task : Task) : StatusLine where
  label := nameLabel
  value := task.comm
  plain := nameLabel_plain
  closed := task.commClosed

def Task.status (task : Task) : Bytes := statusText (task.nameLine :: task.entries)

theorem Task.isUtf8_status (task : Task) : IsUtf8 task.status ↔ IsUtf8 task.comm :=
  isUtf8_line task.nameLine (isUtf8_statusText task.entriesText)

theorem chomp_decimalDigits (n : Nat) :
    chomp (tab :: decimalDigits n) = tab :: decimalDigits n := by
  have hne := decimalDigits_ne_nil n
  have hlast : (tab :: decimalDigits n).getLast? ≠ some carriageReturn := by
    rw [List.getLast?_cons_of_ne_nil hne, List.getLast?_eq_some_getLast hne]
    intro hlast
    have hdigit := isDigitByte_of_mem (List.getLast_mem hne)
    rw [Option.some.inj hlast] at hdigit
    cases hdigit
  rw [chomp, if_neg hlast]

/-- Both numbers are read from the status of a task whose name is UTF-8, and none otherwise. -/
theorem Task.processStatusField (task : Task) (field : StatusField) :
    PathShim.processStatusField (.ok task.status) (field.label ++ [colon]) =
      if IsUtf8 task.comm then some (field.of task.tgid task.parent) else none := by
  unfold PathShim.processStatusField
  by_cases hname : IsUtf8 task.comm
  · have htext : toStr task.status = some task.status := if_pos (task.isUtf8_status.mpr hname)
    have hlabel : colon ∉ field.label := by cases field <;> decide
    have hother : nameLabel ≠ field.label := by cases field <;> decide
    have hfield : ((task.nameLine :: task.entries).find? fun line =>
        line.label = field.label).map StatusLine.value =
          some (decimalDigits (field.of task.tgid task.parent).toNat) := by
      rw [List.find?_cons_of_neg (by simp [Task.nameLine, hother]), task.shown field]
    obtain ⟨line, hline, hvalue⟩ := Option.map_eq_some_iff.mp hfield
    have hfound := field_statusText (task.nameLine :: task.entries) hlabel
    rw [hline, Option.map_some, hvalue, chomp_decimalDigits, ← Task.status] at hfound
    simp [Except.toOption, htext, hfound, hname, trim_decimalDigits, parseU32_decimalDigits]
  · have htext : toStr task.status = none := if_neg (mt task.isUtf8_status.mp hname)
    simp [Except.toOption, htext, hname]

-- ---------------------------------------------------------------------------
-- All tasks
-- ---------------------------------------------------------------------------

/-- The tasks of which the supervisor can tell whose they are. -/
def readable (tasks : Pid → Option Task) (pid : Pid) : Option Task :=
  (tasks pid).filter fun task => IsUtf8 task.comm

/-- The status files of these tasks are read, and none of any other. -/
def Listed (tasks : Pid → Option Task) : Env Op.Answer
  | .processStatusField pid field, r => ∃ status : IoResult Bytes,
      r = processStatusField status (field.label ++ [colon]) ∧
      match tasks pid with
      | some task => status = .ok task.status
      | none => ∃ e, status = .error e
  | _, _ => True

/-- The process whose record counts for a task. -/
def recordOf (tasks : Pid → Option Task) (pid : Pid) : Pid :=
  ((readable tasks pid).map Task.tgid).getD pid

/-- The process whose record counts where a task has none. -/
def recordAbove (tasks : Pid → Option Task) (pid : Pid) : Option Pid :=
  (readable tasks pid).bind fun task =>
    if task.parent = 0 ∨ task.parent = pid then none else some (recordOf tasks task.parent)

def listedWorld (tasks : Pid → Option Task) : World where
  tgid pid := (readable tasks pid).map Task.tgid
  parent pid := (readable tasks pid).map Task.parent
  cwd _ := []
  fds _ _ := none
  isDirectory _ := false

theorem listed_status {tasks : Pid → Option Task} {pid : Pid} {field : StatusField}
    {r : Option Pid} (h : Listed tasks (.processStatusField pid field) r) :
    r = (readable tasks pid).map fun task => field.of task.tgid task.parent := by
  obtain ⟨status, rfl, hstatus⟩ := h
  cases htask : tasks pid with
  | none =>
    rw [htask] at hstatus
    obtain ⟨e, rfl⟩ := hstatus
    simp [readable, htask, processStatusField, Except.toOption]
  | some task =>
    rw [htask] at hstatus
    cases hstatus
    rw [task.processStatusField]
    by_cases hname : IsUtf8 task.comm <;> simp [readable, htask, hname, Option.filter_some]

theorem calls_virtualCwd_status (state : State) (pid : Pid) : (virtualCwd state pid).Calls
    fun op => ∃ target field, op = .processStatusField target field := by
  have hkey (pid : Pid) : (processKey pid).Calls
      fun op => ∃ target field, op = .processStatusField target field :=
    Prog.Calls.bind (.perform ⟨_, _, rfl⟩) fun _ => trivial
  refine Prog.Calls.bind (hkey pid) fun key => ?_
  generalize 16 = turns
  induction turns generalizing key with
  | zero => trivial
  | succ turns ih =>
    unfold virtualCwdLoop
    split
    · trivial
    · refine Prog.Calls.bind (.perform ⟨_, _, rfl⟩) fun r => ?_
      cases r with
      | none => trivial
      | some parent =>
        dsimp only
        split
        · trivial
        · exact Prog.Calls.bind (hkey parent) ih

/-- The working directory recorded for a task is the nearest one above it, past at most fifteen
parents and never past a task whose name is no UTF-8. -/
theorem virtual_cwd_read (tasks : Pid → Option Task) (state : State) (pid : Pid) :
    Ensures (Listed tasks) (virtualCwd state pid) fun _ out => out =
      some (Inherit.find (recordAbove tasks) state.virtualCwds 16 (recordOf tasks pid)) := by
  intro tr out hx
  obtain ⟨found, rfl⟩ := Option.isSome_iff_exists.mp
    ((silent_virtualCwd (isReply_marks 0) state pid) tr out (hx.mono fun _ _ _ => trivial)).1
  have hworld : Exec ((listedWorld tasks).Answers ⟨fun _ => none, fun _ _ => rfl⟩ pid)
      (virtualCwd state pid) tr (some found) := by
    refine hx.allowed fun e he => ?_
    obtain ⟨op, r⟩ := e
    obtain ⟨target, field, rfl⟩ := hx.calls (calls_virtualCwd_status state pid) _ he
    have hr := listed_status (hx.answers _ he)
    cases field <;> exact hr
  have hup : (listedWorld tasks).up = recordAbove tasks := by
    funext pid
    cases htask : readable tasks pid with
    | none => simp [World.up, recordAbove, listedWorld, htask]
    | some task =>
      simp [World.up, recordAbove, listedWorld, htask]
      rfl
  rw [World.exec_virtualCwd hworld, World.virtualCwd, hup]
  rfl

-- ---------------------------------------------------------------------------
-- Links to the working directory
-- ---------------------------------------------------------------------------

/-- The links under `/proc` to the working directory of a task. -/
def ownCwdLinks (w : World) (pid : Pid) : List AbsPath :=
  [[nameProc, nameSelf, nameCwd], [nameProc, nameThreadSelf, nameCwd],
    [nameProc, decimalName pid.toNat, nameCwd], [nameProc, decimalName (w.key pid).toNat, nameCwd]]

end PathShim
