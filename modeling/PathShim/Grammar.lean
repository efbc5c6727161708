import PathShim.Spelling

/-!
# Reading a command line

The language of accepted command lines and what each says: options in any
order, each in one or two arguments, then the command and its arguments as they
are. The parser returns exactly what the grammar reads.
-/

namespace PathShim.Cli

open UnixPath (Bytes slash ascii)

-- ---------------------------------------------------------------------------
-- The grammar
-- ---------------------------------------------------------------------------

/-- The options lead from `s` to `s'`. -/
inductive Reads : RunState → List OsString → RunState → Prop
  | done {s} : Reads s [] s
  | first {s option b s₁ options s'} : First s option b s₁ → Reads s₁ options s' →
      Reads s (option ++ options) s'

/-- What is left behind the options is the command, with `--` in front of it if there is need. -/
inductive Starts : List OsString → List OsString → Prop
  | bare {executable args} : kind executable = .command →
      Starts (executable :: args) (executable :: args)
  | separated {command} : Starts (textEnd :: command) command

/-- A command line with options, a bind among them, and a command. -/
inductive ReadsRun (s : RunState) : List OsString → RunArgs → Prop
  | intro {options s' rest executable args} : Reads s options s' → s'.binds ≠ [] →
      Starts rest (executable :: args) → ReadsRun s (options ++ rest)
        ⟨s'.binds, s'.cwd.getD [slash], s'.quiet, executable, args⟩

/-- Nothing but binds, in their order. -/
inductive ReadsBinds : List OsString → List BindArg → Prop
  | done : ReadsBinds [] []
  | separate {flag value bind args binds} : flag = textB ∨ flag = textBind →
      parseBind value = .ok bind → ReadsBinds args binds →
      ReadsBinds (flag :: value :: args) (bind :: binds)
  | joined {arg value bind args binds} : joinedBind arg = some value →
      parseBind value = .ok bind → ReadsBinds args binds → ReadsBinds (arg :: args) (bind :: binds)

-- ---------------------------------------------------------------------------
-- The options and the command
-- ---------------------------------------------------------------------------

theorem kind_separator {arg : OsString} : kind arg = .separator ↔ arg = textEnd := by
  constructor
  · intro h
    unfold kind at h
    split at h
    · assumption
    · repeat' split at h
      all_goals cases h
  · rintro rfl
    exact kind_end

theorem Reads.passes {s s' : RunState} {options : List OsString} (h : Reads s options s')
    (hs : s.parsingOptions = true) : Passes s options s' := by
  induction h with
  | done => exact ⟨hs, fun _ => rfl⟩
  | first hfirst _ ih => exact (hfirst.passes hs).append (ih (hfirst.parsingOptions.trans hs))

theorem finish_eq_ok {s : RunState} {command : List OsString} {r : RunArgs} :
    s.finish command = .ok (.run r) ↔ s.binds ≠ [] ∧ ∃ executable args,
      command = executable :: args ∧
        r = ⟨s.binds, s.cwd.getD [slash], s.quiet, executable, args⟩ := by
  by_cases hbinds : s.binds = []
  · simp [RunState.finish, hbinds]
  · cases command with
    | nil => simp [RunState.finish, hbinds]
    | cons executable args => simp [RunState.finish, hbinds, eq_comm]

theorem ReadsRun.first {s s₁ : RunState} {option args : List OsString} {b : Prop} {r : RunArgs}
    (h : First s option b s₁) (hargs : ReadsRun s₁ args r) : ReadsRun s (option ++ args) r := by
  cases hargs with
  | intro hreads hbinds hstarts =>
    rw [← List.append_assoc]
    exact .intro (.first h hreads) hbinds hstarts

theorem run_complete {s : RunState} (hs : s.parsingOptions = true) {args : List OsString}
    {r : RunArgs} (h : ReadsRun s args r) : parseRunLoop s args = .ok (.run r) := by
  cases h with
  | intro hreads hbinds hstarts =>
    have hpasses := hreads.passes hs
    rw [hpasses.run]
    cases hstarts with
    | bare hkind =>
      rw [parseRunLoop_cons hpasses.parsingOptions, hkind]
      exact finish_eq_ok.mpr ⟨hbinds, _, _, rfl, rfl⟩
    | separated =>
      rw [parseRunLoop_cons hpasses.parsingOptions, kind_end]
      dsimp only
      rw [parseRunLoop_done rfl]
      exact finish_eq_ok.mpr ⟨hbinds, _, _, rfl, rfl⟩

theorem run_sound {s : RunState} (hs : s.parsingOptions = true) {args : List OsString}
    {r : RunArgs} (h : parseRunLoop s args = .ok (.run r)) : ReadsRun s args r := by
  induction args using arguments_induction generalizing s with
  | nil =>
    obtain ⟨-, _, _, hnil, -⟩ := finish_eq_ok.mp h
    cases hnil
  | cons arg rest ih ihTail =>
    rw [parseRunLoop_cons hs] at h
    cases hkind : kind arg with
    | help | version | unknown =>
      simp only [hkind] at h
      cases h
    | separator =>
      obtain rfl := kind_separator.mp hkind
      simp only [hkind] at h
      rw [parseRunLoop_done rfl] at h
      obtain ⟨hbinds, executable, args, rfl, rfl⟩ := finish_eq_ok.mp h
      exact .intro .done hbinds .separated
    | command =>
      simp only [hkind] at h
      obtain ⟨hbinds, executable, args, hcommand, rfl⟩ := finish_eq_ok.mp h
      rw [hcommand]
      obtain ⟨rfl, -⟩ := List.cons.inj hcommand
      exact .intro .done hbinds (.bare hkind)
    | quiet =>
      simp only [hkind] at h
      exact .first (.quiet hkind) (ih hs h)
    | bind =>
      cases rest with
      | nil =>
        simp only [hkind] at h
        cases h
      | cons value rest =>
        simp only [hkind] at h
        obtain ⟨bind, hbind⟩ | ⟨e, herror⟩ := validBind_or value
        · simp only [RunState.bindThen, hbind] at h
          exact .first (.bind hkind hbind) (ihTail hs h)
        · rw [bindThen_error herror] at h
          cases h
    | cwd =>
      cases rest with
      | nil =>
        simp only [hkind] at h
        cases h
      | cons path rest =>
        simp only [hkind] at h
        exact .first (.cwd path hkind) (ihTail hs h)
    | joinedBind value =>
      simp only [hkind] at h
      obtain ⟨bind, hbind⟩ | ⟨e, herror⟩ := validBind_or value
      · simp only [RunState.bindThen, hbind] at h
        exact .first (.joinedBind hkind hbind) (ih hs h)
      · rw [bindThen_error herror] at h
        cases h
    | joinedCwd path =>
      simp only [hkind] at h
      split at h
      · cases h
      · rename_i hpath
        exact .first (.joinedCwd hkind hpath) (ih hs h)

-- ---------------------------------------------------------------------------
-- Nothing but binds
-- ---------------------------------------------------------------------------

theorem joinedBind_ne {arg value text : OsString} (h : joinedBind arg = some value)
    (htext : 61 ∉ text) : arg ≠ text := by
  rw [(joinedBind_eq_some.mp h).2]
  exact joined_ne (o := .bind) htext

theorem probe_separate {binds : List BindArg} {flag value : OsString} {rest : List OsString}
    (h : flag = textB ∨ flag = textBind) :
    parseProbeLoop binds (flag :: value :: rest) = probeBindThen binds value rest := by
  rcases h with rfl | rfl <;> rfl

theorem probe_joined {binds : List BindArg} {arg value : OsString} {rest : List OsString}
    (h : joinedBind arg = some value) :
    parseProbeLoop binds (arg :: rest) = probeBindThen binds value rest := by
  have hne {text : OsString} (htext : 61 ∉ text) : arg ≠ text := joinedBind_ne h htext
  have hhelp : ¬ (arg = textH ∨ arg = textHelp) :=
    not_or.mpr ⟨hne (by decide), hne (by decide)⟩
  have hbind : ¬ (arg = textB ∨ arg = textBind) :=
    not_or.mpr ⟨hne (by decide), hne (by decide)⟩
  rw [parseProbeLoop.eq_def, probeBindThen]
  cases hvalue : parseBind value <;> simp [hhelp, hbind, h, hvalue]

theorem probe_complete {acc binds : List BindArg} {args : List OsString}
    (h : ReadsBinds args binds) (hbinds : acc ++ binds ≠ []) :
    parseProbeLoop acc args = .ok (.probe ⟨acc ++ binds⟩) := by
  induction h generalizing acc with
  | done =>
    rw [List.append_nil] at hbinds ⊢
    simp [parseProbeLoop, hbinds]
  | separate hflag hvalue _ ih =>
    rw [probe_separate hflag, probeBindThen, hvalue]
    simp [ih]
  | joined hjoined hvalue _ ih =>
    rw [probe_joined hjoined, probeBindThen, hvalue]
    simp [ih]

theorem probe_sound {acc : List BindArg} {args : List OsString} {p : ProbeArgs}
    (h : parseProbeLoop acc args = .ok (.probe p)) :
    ∃ binds, ReadsBinds args binds ∧ p = ⟨acc ++ binds⟩ ∧ acc ++ binds ≠ [] := by
  induction args using arguments_induction generalizing acc with
  | nil =>
    by_cases hacc : acc = []
    · simp [parseProbeLoop, hacc] at h
    · refine ⟨[], .done, ?_, by simpa using hacc⟩
      simpa [parseProbeLoop, hacc, eq_comm] using h
  | cons arg rest ih ihTail =>
    have hthen {value : OsString} {rest : List OsString}
        (hread : probeBindThen acc value rest = .ok (.probe p))
        (ih : ∀ {acc}, parseProbeLoop acc rest = .ok (.probe p) →
          ∃ binds, ReadsBinds rest binds ∧ p = ⟨acc ++ binds⟩ ∧ acc ++ binds ≠ []) :
        ∃ bind binds, parseBind value = .ok bind ∧ ReadsBinds rest binds ∧
          p = ⟨acc ++ bind :: binds⟩ := by
      unfold probeBindThen at hread
      split at hread
      · cases hread
      · rename_i bind hvalue
        obtain ⟨binds, hreads, rfl, -⟩ := ih hread
        exact ⟨bind, binds, hvalue, hreads, by simp⟩
    by_cases hflag : arg = textB ∨ arg = textBind
    · cases rest with
      | nil => rcases hflag with rfl | rfl <;> cases h
      | cons value rest =>
        rw [probe_separate hflag] at h
        obtain ⟨bind, binds, hvalue, hreads, rfl⟩ := hthen h ihTail
        exact ⟨_, .separate hflag hvalue hreads, rfl, by simp⟩
    · cases hjoined : joinedBind arg with
      | some value =>
        rw [probe_joined hjoined] at h
        obtain ⟨bind, binds, hvalue, hreads, rfl⟩ := hthen h ih
        exact ⟨_, .joined hjoined hvalue hreads, rfl, by simp⟩
      | none =>
        rw [parseProbeLoop.eq_def] at h
        simp only [hflag, if_false, hjoined] at h
        split at h <;> cases h

-- ---------------------------------------------------------------------------
-- All command lines
-- ---------------------------------------------------------------------------

theorem finish_ne_probe {s : RunState} {command : List OsString} {p : ProbeArgs} :
    s.finish command ≠ .ok (.probe p) := by
  by_cases hbinds : s.binds = []
  · simp [RunState.finish, hbinds]
  · cases command <;> simp [RunState.finish, hbinds]

theorem run_ne_probe {s : RunState} {args : List OsString} {p : ProbeArgs} :
    parseRunLoop s args ≠ .ok (.probe p) := by
  by_cases hs : s.parsingOptions = true
  · induction args using arguments_induction generalizing s with
    | nil => exact finish_ne_probe
    | cons arg rest ih ihTail =>
      have hthen {value : OsString} {rest : List OsString}
          (ih : ∀ {s : RunState}, s.parsingOptions = true → parseRunLoop s rest ≠ .ok (.probe p)) :
          s.bindThen value rest ≠ .ok (.probe p) := by
        unfold RunState.bindThen
        split
        · simp
        · exact ih hs
      rw [parseRunLoop_cons hs]
      cases hkind : kind arg with
      | separator =>
        dsimp only
        rw [parseRunLoop_done rfl]
        exact finish_ne_probe
      | help | version | unknown => simp
      | command => exact finish_ne_probe
      | quiet => exact ih hs
      | bind =>
        cases rest with
        | nil => simp
        | cons value rest => exact hthen ihTail
      | cwd =>
        cases rest with
        | nil => simp
        | cons path rest => exact ihTail hs
      | joinedBind value => exact hthen ih
      | joinedCwd path =>
        dsimp only
        split
        · simp
        · exact ih hs
  · rw [parseRunLoop_done (by simpa using hs)]
    exact finish_ne_probe

theorem probe_ne_run {binds : List BindArg} {args : List OsString} {r : RunArgs} :
    parseProbeLoop binds args ≠ .ok (.run r) := by
  induction args using arguments_induction generalizing binds with
  | nil => by_cases hbinds : binds = [] <;> simp [parseProbeLoop, hbinds]
  | cons arg rest ih ihTail =>
    have hthen {value : OsString} {rest : List OsString}
        (ih : ∀ {binds}, parseProbeLoop binds rest ≠ .ok (.run r)) :
        probeBindThen binds value rest ≠ .ok (.run r) := by
      unfold probeBindThen
      split
      · simp
      · exact ih
    by_cases hflag : arg = textB ∨ arg = textBind
    · cases rest with
      | nil =>
        rcases hflag with rfl | rfl <;>
          simp [parseProbeLoop, textB, textBind, textH, textHelp, ascii]
      | cons value rest =>
        rw [probe_separate hflag]
        exact hthen ihTail
    · cases hjoined : joinedBind arg with
      | some value =>
        rw [probe_joined hjoined]
        exact hthen ih
      | none =>
        rw [parseProbeLoop.eq_def]
        simp only [hflag, if_false, hjoined]
        split <;> simp

-- ---------------------------------------------------------------------------
-- Binds
-- ---------------------------------------------------------------------------

theorem splitOnce_eq_some {s first second : Bytes} {c : UInt8}
    (h : splitOnce s c = some (first, second)) : s = first ++ c :: second ∧ c ∉ first := by
  unfold splitOnce at h
  split at h
  · cases h
  · rename_i b rest hrest
    obtain ⟨rfl, rfl⟩ := Prod.mk.inj (Option.some.inj h)
    have hb : b = c := by
      have hhead := List.head_dropWhile_not (· != c) (l := s) (by simp [hrest])
      simpa [hrest] using hhead
    subst hb
    constructor
    · rw [← hrest, List.takeWhile_append_dropWhile]
    · intro hmem
      simpa using List.all_eq_true.mp List.all_takeWhile _ hmem

/-- A bind that is accepted is the value cut at its first colon. -/
structure BindArg.Of (bind : BindArg) (value : OsString) : Prop where
  utf8 : IsUtf8 value
  value : value = bind.source ++ colon :: bind.destination
  noColon : colon ∉ bind.source
  source : bind.source ≠ []
  absolute : bind.destination.head? = some slash

theorem parseBind_iff {value : OsString} {bind : BindArg} :
    parseBind value = .ok bind ↔ bind.Of value := by
  constructor
  · intro h
    unfold parseBind at h
    split at h
    · cases h
    · rename_i text htext
      obtain ⟨hutf8, rfl⟩ := toStr_eq_some.mp htext
      split at h
      · cases h
      · rename_i source destination hsplit
        obtain ⟨hvalue, hcolon⟩ := splitOnce_eq_some hsplit
        split at h
        · cases h
        · split at h
          · cases h
          · cases h
            rename_i hempty habsolute
            exact ⟨hutf8, hvalue, hcolon, (not_or.mp hempty).1, not_not.mp habsolute⟩
  · rintro ⟨hutf8, rfl, hcolon, hsource, habsolute⟩
    have hdestination : bind.destination ≠ [] := by
      intro hempty
      simp [hempty] at habsolute
    simp [parseBind, toStr, hutf8, splitOnce_colon hcolon, hsource, hdestination, habsolute]

/-- A run is read off the arguments. -/
theorem parse_sound {args : List OsString} {r : RunArgs} (h : parse args = .ok (.run r)) :
    args.head? ≠ some textProbe ∧ ReadsRun .init args r := by
  by_cases hprobe : args.head? = some textProbe
  · obtain ⟨rest, rfl⟩ : ∃ rest, args = textProbe :: rest := List.head?_eq_some_iff.mp hprobe
    have hparse : parse (textProbe :: rest) = parseProbeLoop [] rest := rfl
    exact absurd (hparse ▸ h) probe_ne_run
  · rw [parse_eq_parseRun hprobe] at h
    exact ⟨hprobe, run_sound rfl h⟩

/-- The parser accepts what the grammar reads, and says what it says. -/
theorem parse_reads (args : List OsString) :
    (∀ r, parse args = .ok (.run r) ↔ args.head? ≠ some textProbe ∧ ReadsRun .init args r) ∧
    (∀ p, parse args = .ok (.probe p) ↔
      p.binds ≠ [] ∧ ∃ rest, args = textProbe :: rest ∧ ReadsBinds rest p.binds) ∧
    ∀ value bind, parseBind value = .ok bind ↔ bind.Of value := by
  refine and_assoc.mp ⟨?_, fun _ _ => parseBind_iff⟩
  by_cases hprobe : args.head? = some textProbe
  · obtain ⟨rest, rfl⟩ : ∃ rest, args = textProbe :: rest := List.head?_eq_some_iff.mp hprobe
    have hparse : parse (textProbe :: rest) = parseProbeLoop [] rest := rfl
    constructor
    · exact fun r => ⟨parse_sound, fun h => absurd hprobe h.1⟩
    · intro p
      rw [hparse]
      constructor
      · intro h
        obtain ⟨binds, hreads, rfl, hbinds⟩ := probe_sound h
        exact ⟨hbinds, rest, rfl, hreads⟩
      · rintro ⟨hbinds, _, heq, hreads⟩
        obtain ⟨-, rfl⟩ := List.cons.inj heq
        exact probe_complete hreads hbinds
  · constructor
    · refine fun r => ⟨parse_sound, fun h => ?_⟩
      rw [parse_eq_parseRun hprobe]
      exact run_complete rfl h.2
    · intro p
      rw [parse_eq_parseRun hprobe]
      constructor
      · intro h
        exact absurd h run_ne_probe
      · rintro ⟨-, rest, rfl, -⟩
        exact absurd rfl hprobe

end PathShim.Cli
