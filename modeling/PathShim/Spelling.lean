import PathShim.CommandLine

/-!
# The two spellings of an option

`--bind=V` and `--bind V` always come to the same. `--cwd=V` and `--pwd=V` do
not: the value that `--cwd V` takes as it is must be UTF-8 and not empty when
it is joined, and otherwise the command line is rejected.
-/

namespace PathShim.Cli

open UnixPath (Bytes slash ascii)

/-- The options that can be joined to their value. -/
inductive Valued where
  | bind
  | cwd
  | pwd
  deriving DecidableEq

def Valued.text : Valued → OsString
  | .bind => textBind
  | .cwd => textCwd
  | .pwd => textPwd

def Valued.joined (o : Valued) (v : OsString) : OsString := withEquals o.text ++ v

/-- The same result, or an error in both cases. -/
def Same (first second : Parsed ParseResult) : Prop :=
  (∃ r, first = .ok r ∧ second = .ok r) ∨ ∃ e e', first = .error e ∧ second = .error e'

theorem Same.refl (r : Parsed ParseResult) : Same r r := by
  cases r with
  | error e => exact .inr ⟨e, e, rfl, rfl⟩
  | ok r => exact .inl ⟨r, rfl, rfl⟩

theorem same_error {e : ParseError} {r : Parsed ParseResult} :
    Same (.error e) r ↔ ¬ ∃ result, r = .ok result := by
  cases r <;> simp [Same]

-- ---------------------------------------------------------------------------
-- Option positions
-- ---------------------------------------------------------------------------

/-- Behind these arguments `pathshim` looks for an option: the values of options are skipped, and
no command and no `--` has come. -/
def RunPosition : List OsString → Prop
  | [] => True
  | arg :: rest =>
    match kind arg with
    | .separator | .command => False
    | .bind | .cwd =>
      match rest with
      | [] => False
      | _ :: rest => RunPosition rest
    | _ => RunPosition rest

/-- Behind these arguments `pathshim probe` looks for an option. -/
def ProbePosition : List OsString → Prop
  | [] => True
  | arg :: rest =>
    if arg = textB ∨ arg = textBind then
      match rest with
      | [] => False
      | _ :: rest => ProbePosition rest
    else ProbePosition rest

def OptionPosition (pre : List OsString) : Prop :=
  if pre.head? = some textProbe then ProbePosition (pre.drop 1) else RunPosition pre

def ValidBind (value : OsString) : Prop := ∃ bind, parseBind value = .ok bind

-- ---------------------------------------------------------------------------
-- Complete command lines
-- ---------------------------------------------------------------------------

/-- These arguments are options of `pathshim`, and each has a value it can have. -/
def Options : List OsString → Prop
  | [] => True
  | arg :: rest =>
    match kind arg with
    | .quiet => Options rest
    | .bind =>
      match rest with
      | [] => False
      | value :: rest => ValidBind value ∧ Options rest
    | .cwd =>
      match rest with
      | [] => False
      | _ :: rest => Options rest
    | .joinedBind value => ValidBind value ∧ Options rest
    | .joinedCwd path => path ≠ [] ∧ Options rest
    | _ => False

/-- One of these options is a bind. -/
def Binds : List OsString → Prop
  | [] => False
  | arg :: rest =>
    match kind arg with
    | .bind | .joinedBind _ => True
    | .cwd =>
      match rest with
      | [] => False
      | _ :: rest => Binds rest
    | _ => Binds rest

/-- What ends a command line: help, the version, or a command, which needs a bind in front of
it. -/
def Ending (bound : Prop) : List OsString → Prop
  | [] => False
  | arg :: rest =>
    match kind arg with
    | .help | .version => True
    | .separator => bound ∧ rest ≠ []
    | .command => bound
    | _ => False

/-- The arguments of `pathshim` are accepted behind `bound`: options and what ends them. -/
def Complete (bound : Prop) (args : List OsString) : Prop :=
  ∃ options ending, args = options ++ ending ∧ Options options ∧
    Ending (bound ∨ Binds options) ending

/-- Arguments are read one or two at a time. -/
theorem arguments_induction {P : List OsString → Prop} (nil : P [])
    (cons : ∀ arg rest, P rest → P rest.tail → P (arg :: rest)) (args : List OsString) :
    P args := by
  have hboth : P args ∧ P args.tail := by
    induction args with
    | nil => exact ⟨nil, nil⟩
    | cons arg rest ih => exact ⟨cons arg rest ih.1 ih.2, ih.1⟩
  exact hboth.1

/-- From `s` the loop passes `args` and goes on from `s'`. -/
structure Passes (s : RunState) (args : List OsString) (s' : RunState) : Prop where
  parsingOptions : s'.parsingOptions = true
  run : ∀ rest, parseRunLoop s (args ++ rest) = parseRunLoop s' rest

theorem Passes.append {s s₁ s₂ : RunState} {first second : List OsString}
    (h : Passes s first s₁) (h' : Passes s₁ second s₂) : Passes s (first ++ second) s₂ where
  parsingOptions := h'.parsingOptions
  run := fun rest => by rw [List.append_assoc, h.run, h'.run]

@[simp] theorem addBind_ne_nil (s : RunState) (bind : BindArg) : (s.addBind bind).binds ≠ [] := by
  simp [RunState.addBind]

/-- One option with a value it can have: `b` says whether it is a bind, and `s'` is what becomes
of `s`. -/
inductive First (s : RunState) : List OsString → Prop → RunState → Prop
  | quiet {arg} : kind arg = .quiet → First s [arg] False { s with quiet := true }
  | bind {arg value bind} : kind arg = .bind → parseBind value = .ok bind →
      First s [arg, value] True (s.addBind bind)
  | cwd {arg} (path : OsString) : kind arg = .cwd →
      First s [arg, path] False { s with cwd := some path }
  | joinedBind {arg value bind} : kind arg = .joinedBind value → parseBind value = .ok bind →
      First s [arg] True (s.addBind bind)
  | joinedCwd {arg path} : kind arg = .joinedCwd path → path ≠ [] →
      First s [arg] False { s with cwd := some path }

section
variable {s s' : RunState} {f : List OsString} {b : Prop} (h : First s f b s')
include h

theorem First.parsingOptions : s'.parsingOptions = s.parsingOptions := by
  cases h <;> rfl

theorem First.bound : s'.binds ≠ [] ↔ s.binds ≠ [] ∨ b := by
  cases h <;> simp

theorem First.options (rest : List OsString) : Options (f ++ rest) ↔ Options rest := by
  cases h with
  | quiet hkind =>
    rw [List.singleton_append, Options.eq_def]
    simp [hkind]
  | bind hkind hbind => simp [Options, hkind, ValidBind, hbind]
  | cwd path hkind => simp [Options, hkind]
  | joinedBind hkind hbind =>
    rw [List.singleton_append, Options.eq_def]
    simp [hkind, ValidBind, hbind]
  | joinedCwd hkind hpath =>
    rw [List.singleton_append, Options.eq_def]
    simp [hkind, hpath]

theorem First.binds (rest : List OsString) : Binds (f ++ rest) ↔ b ∨ Binds rest := by
  cases h with
  | quiet hkind =>
    rw [List.singleton_append, Binds.eq_def]
    simp [hkind]
  | bind hkind hbind => simp [Binds, hkind]
  | cwd path hkind => simp [Binds, hkind]
  | joinedBind hkind hbind =>
    rw [List.singleton_append, Binds.eq_def]
    simp [hkind]
  | joinedCwd hkind hpath =>
    rw [List.singleton_append, Binds.eq_def]
    simp [hkind]

variable (hs : s.parsingOptions = true)
include hs

theorem First.passes : Passes s f s' where
  parsingOptions := h.parsingOptions.trans hs
  run := by
    intro rest
    cases h with
    | quiet hkind => simp [parseRunLoop_cons hs, hkind]
    | bind hkind hbind => simp [parseRunLoop_cons hs, hkind, RunState.bindThen, hbind]
    | cwd path hkind => simp [parseRunLoop_cons hs, hkind]
    | joinedBind hkind hbind => simp [parseRunLoop_cons hs, hkind, RunState.bindThen, hbind]
    | joinedCwd hkind hpath => simp [parseRunLoop_cons hs, hkind, hpath]

end

-- ---------------------------------------------------------------------------
-- Running through options
-- ---------------------------------------------------------------------------

/-- The loop passes `options`; behind them there is a bind if there was one or one of them is. -/
def PassesOptions (s : RunState) (options : List OsString) : Prop :=
  ∃ s', Passes s options s' ∧ (s'.binds ≠ [] ↔ s.binds ≠ [] ∨ Binds options)

theorem First.passesOptions {s s₁ : RunState} {f rest : List OsString} {b : Prop}
    (h : First s f b s₁) (hs : s.parsingOptions = true) (hrest : PassesOptions s₁ rest) :
    PassesOptions s (f ++ rest) := by
  obtain ⟨s', hpasses, hbound⟩ := hrest
  refine ⟨s', (h.passes hs).append hpasses, ?_⟩
  rw [hbound, h.bound, h.binds, or_assoc]

theorem passes_options {options : List OsString} {s : RunState} (h : Options options)
    (hs : s.parsingOptions = true) : PassesOptions s options := by
  induction options using arguments_induction generalizing s with
  | nil => exact ⟨s, ⟨hs, fun _ => rfl⟩, by simp [Binds]⟩
  | cons arg rest ih ihTail =>
    rw [Options.eq_def] at h
    cases hkind : kind arg with
    | quiet =>
      simp only [hkind] at h
      exact (First.quiet hkind).passesOptions hs (ih h hs)
    | bind =>
      cases rest with
      | nil => simp [hkind] at h
      | cons value rest =>
        simp only [hkind] at h
        obtain ⟨⟨bind, hbind⟩, h⟩ := h
        exact (First.bind hkind hbind).passesOptions hs (ihTail h hs)
    | cwd =>
      cases rest with
      | nil => simp [hkind] at h
      | cons path rest =>
        simp only [hkind] at h
        exact (First.cwd path hkind).passesOptions hs (ihTail h hs)
    | joinedBind value =>
      simp only [hkind] at h
      obtain ⟨⟨bind, hbind⟩, h⟩ := h
      exact (First.joinedBind hkind hbind).passesOptions hs (ih h hs)
    | joinedCwd path =>
      simp only [hkind] at h
      exact (First.joinedCwd hkind h.1).passesOptions hs (ih h.2 hs)
    | separator | help | version | unknown | command => simp [hkind] at h

theorem validBind_or (value : OsString) : ValidBind value ∨ ∃ e, parseBind value = .error e := by
  unfold ValidBind
  cases parseBind value <;> simp

theorem bindThen_error {s : RunState} {value : OsString} {e : ParseError}
    (h : parseBind value = .error e) (args : List OsString) : s.bindThen value args = .error e := by
  simp [RunState.bindThen, h]

/-- The rest of the command line makes no difference. -/
def Stopped (s : RunState) (pre : List OsString) : Prop :=
  ∃ r, ∀ post, parseRunLoop s (pre ++ post) = r

theorem First.stopped {s s' : RunState} {f pre : List OsString} {b : Prop} (h : First s f b s')
    (hs : s.parsingOptions = true) (hpre : Stopped s' pre) : Stopped s (f ++ pre) := by
  obtain ⟨r, hr⟩ := hpre
  exact ⟨r, fun post => by rw [List.append_assoc, (h.passes hs).run, hr]⟩

/-- Behind an option that ends the parsing nothing is read. -/
theorem run_stopped {pre : List OsString} {s : RunState} (hs : s.parsingOptions = true)
    (hpre : RunPosition pre) (h : ¬ Options pre) : Stopped s pre := by
  induction pre using arguments_induction generalizing s with
  | nil => exact absurd trivial h
  | cons arg rest ih ihTail =>
    rw [RunPosition.eq_def] at hpre
    rw [Options.eq_def] at h
    have hturn (post : List OsString) := parseRunLoop_cons hs arg (rest ++ post)
    cases hkind : kind arg with
    | separator | command => simp [hkind] at hpre
    | help | version | unknown =>
      simp only [hkind] at hturn
      exact ⟨_, hturn⟩
    | quiet =>
      simp only [hkind] at hpre h
      exact (First.quiet hkind).stopped hs (ih hs hpre h)
    | bind =>
      cases rest with
      | nil => simp [hkind] at hpre
      | cons value rest =>
        simp only [hkind] at hpre h
        obtain hvalid | ⟨e, herror⟩ := validBind_or value
        · obtain ⟨bind, hbind⟩ := id hvalid
          exact (First.bind hkind hbind).stopped hs
            (ihTail hs hpre fun hrest => h ⟨hvalid, hrest⟩)
        · simp only [hkind, List.cons_append] at hturn
          exact ⟨.error e, fun post => (hturn post).trans (bindThen_error herror _)⟩
    | cwd =>
      cases rest with
      | nil => simp [hkind] at hpre
      | cons path rest =>
        simp only [hkind] at hpre h
        exact (First.cwd path hkind).stopped hs (ihTail hs hpre h)
    | joinedBind value =>
      simp only [hkind] at hpre h
      obtain hvalid | ⟨e, herror⟩ := validBind_or value
      · obtain ⟨bind, hbind⟩ := id hvalid
        exact (First.joinedBind hkind hbind).stopped hs
          (ih hs hpre fun hrest => h ⟨hvalid, hrest⟩)
      · simp only [hkind] at hturn
        exact ⟨.error e, fun post => (hturn post).trans (bindThen_error herror _)⟩
    | joinedCwd path =>
      simp only [hkind] at hpre h
      by_cases hpath : path = []
      · simp only [hkind, if_pos hpath] at hturn
        exact ⟨_, hturn⟩
      · exact (First.joinedCwd hkind hpath).stopped hs (ih hs hpre fun hrest => h ⟨hpath, hrest⟩)

-- ---------------------------------------------------------------------------
-- What is accepted
-- ---------------------------------------------------------------------------

theorem finish_cons_ok {s : RunState} {command : OsString} {args : List OsString} :
    (∃ r, s.finish (command :: args) = .ok r) ↔ s.binds ≠ [] := by
  by_cases h : s.binds = [] <;> simp [RunState.finish, h]

theorem finish_nil_error (s : RunState) : ∃ e, s.finish [] = .error e := by
  by_cases h : s.binds = [] <;> simp [RunState.finish, h]

theorem ending_ok {s : RunState} (hs : s.parsingOptions = true) {args : List OsString}
    (h : Ending (s.binds ≠ []) args) : ∃ r, parseRunLoop s args = .ok r := by
  cases args with
  | nil => exact h.elim
  | cons arg rest =>
    rw [parseRunLoop_cons hs]
    cases hkind : kind arg with
    | help => exact ⟨.help, rfl⟩
    | version => exact ⟨.version, rfl⟩
    | separator =>
      simp only [Ending, hkind] at h
      obtain ⟨command, args, rfl⟩ := List.exists_cons_of_ne_nil h.2
      simp only [parseRunLoop_done]
      exact finish_cons_ok.mpr h.1
    | command =>
      simp only [Ending, hkind] at h
      exact finish_cons_ok.mpr h
    | quiet | bind | cwd | joinedBind value | joinedCwd path | unknown => simp [Ending, hkind] at h

theorem complete_ending {bound : Prop} {args : List OsString} (h : Ending bound args) :
    Complete bound args := ⟨[], args, rfl, trivial, by simpa [Binds] using h⟩

/-- An option in front of a complete command line. -/
theorem First.complete {s s' : RunState} {f args : List OsString} {b : Prop} (h : First s f b s')
    (hs : s.parsingOptions = true) (hargs : ∃ r, parseRunLoop s (f ++ args) = .ok r)
    (ih : (∃ r, parseRunLoop s' args = .ok r) → Complete (s'.binds ≠ []) args) :
    Complete (s.binds ≠ []) (f ++ args) := by
  rw [(h.passes hs).run] at hargs
  obtain ⟨options, ending, rfl, hoptions, hending⟩ := ih hargs
  refine ⟨f ++ options, ending, (List.append_assoc ..).symm, (h.options _).mpr hoptions, ?_⟩
  rwa [h.binds, ← or_assoc, ← h.bound]

theorem complete_of_ok {s : RunState} (hs : s.parsingOptions = true) {args : List OsString}
    (h : ∃ r, parseRunLoop s args = .ok r) : Complete (s.binds ≠ []) args := by
  induction args using arguments_induction generalizing s with
  | nil =>
    obtain ⟨e, he⟩ := finish_nil_error s
    simp [parseRunLoop, he] at h
  | cons arg rest ih ihTail =>
    have hturn := parseRunLoop_cons hs arg rest
    cases hkind : kind arg with
    | help => exact complete_ending (by simp [Ending, hkind])
    | version => exact complete_ending (by simp [Ending, hkind])
    | unknown =>
      simp only [hkind] at hturn
      simp [hturn] at h
    | separator =>
      simp only [hkind, parseRunLoop_done] at hturn
      rw [hturn] at h
      refine complete_ending ?_
      cases rest with
      | nil =>
        obtain ⟨e, he⟩ := finish_nil_error { s with parsingOptions := false }
        simp [he] at h
      | cons command args => simpa [Ending, hkind] using finish_cons_ok.mp h
    | command =>
      simp only [hkind] at hturn
      rw [hturn] at h
      exact complete_ending (by simpa [Ending, hkind] using finish_cons_ok.mp h)
    | quiet => exact (First.quiet hkind).complete hs h (ih hs)
    | bind =>
      cases rest with
      | nil =>
        simp only [hkind] at hturn
        simp [hturn] at h
      | cons value rest =>
        obtain ⟨bind, hbind⟩ | ⟨e, herror⟩ := validBind_or value
        · exact (First.bind hkind hbind).complete hs h (ihTail hs)
        · simp only [hkind, bindThen_error herror] at hturn
          simp [hturn] at h
    | cwd =>
      cases rest with
      | nil =>
        simp only [hkind] at hturn
        simp [hturn] at h
      | cons path rest => exact (First.cwd path hkind).complete hs h (ihTail hs)
    | joinedBind value =>
      obtain ⟨bind, hbind⟩ | ⟨e, herror⟩ := validBind_or value
      · exact (First.joinedBind hkind hbind).complete hs h (ih hs)
      · simp only [hkind, bindThen_error herror] at hturn
        simp [hturn] at h
    | joinedCwd path =>
      by_cases hpath : path = []
      · simp only [hkind, if_pos hpath] at hturn
        simp [hturn] at h
      · exact (First.joinedCwd hkind hpath).complete hs h (ih hs)

theorem ok_of_complete {s : RunState} (hs : s.parsingOptions = true) {args : List OsString}
    (h : Complete (s.binds ≠ []) args) : ∃ r, parseRunLoop s args = .ok r := by
  obtain ⟨options, ending, rfl, hoptions, hending⟩ := h
  obtain ⟨s', hpasses, hbound⟩ := passes_options hoptions hs
  rw [hpasses.run]
  rw [← hbound] at hending
  exact ending_ok hpasses.parsingOptions hending

/-- The options and the command are accepted exactly when they are complete. -/
theorem ok_iff_complete {s : RunState} (hs : s.parsingOptions = true) {args : List OsString} :
    (∃ r, parseRunLoop s args = .ok r) ↔ Complete (s.binds ≠ []) args :=
  ⟨complete_of_ok hs, ok_of_complete hs⟩

-- ---------------------------------------------------------------------------
-- The two spellings
-- ---------------------------------------------------------------------------

theorem Valued.kind_text (o : Valued) : kind o.text = if o = .bind then .bind else .cwd := by
  cases o <;> decide

theorem joined_inj (o o' : Valued) {v v' : OsString} :
    o.joined v = o'.joined v' ↔ o = o' ∧ v = v' := by
  constructor
  · intro h
    cases o <;> cases o' <;>
      simp [Valued.joined, Valued.text, withEquals, textBind, textCwd, textPwd, ascii] at h <;>
      exact ⟨rfl, h⟩
  · rintro ⟨rfl, rfl⟩
    rfl

theorem joinedBind_joined (o : Valued) (v : OsString) :
    joinedBind (o.joined v) = if IsUtf8 v ∧ o = .bind then some v else none := by
  split_ifs with h
  · obtain ⟨hutf8, rfl⟩ := h
    exact joinedBind_eq_some.mpr ⟨hutf8, rfl⟩
  · refine Option.eq_none_iff_forall_not_mem.mpr fun value hvalue => h ?_
    obtain ⟨hutf8, htext⟩ := joinedBind_eq_some.mp hvalue
    obtain ⟨rfl, rfl⟩ := (joined_inj o .bind).mp htext
    exact ⟨hutf8, rfl⟩

theorem joinedCwd_joined (o : Valued) (v : OsString) :
    joinedCwd (o.joined v) = if IsUtf8 v ∧ o ≠ .bind then some v else none := by
  split_ifs with h
  · cases o with
    | bind => exact absurd rfl h.2
    | cwd => exact joinedCwd_eq_some.mpr ⟨h.1, .inl rfl⟩
    | pwd => exact joinedCwd_eq_some.mpr ⟨h.1, .inr rfl⟩
  · refine Option.eq_none_iff_forall_not_mem.mpr fun value hvalue => h ?_
    obtain ⟨hutf8, htext | htext⟩ := joinedCwd_eq_some.mp hvalue
    · obtain ⟨rfl, rfl⟩ := (joined_inj o .cwd).mp htext
      exact ⟨hutf8, by simp⟩
    · obtain ⟨rfl, rfl⟩ := (joined_inj o .pwd).mp htext
      exact ⟨hutf8, by simp⟩

/-- Only joined text has an equals sign. -/
theorem joined_ne {o : Valued} {v text : OsString} (h : 61 ∉ text) : o.joined v ≠ text := by
  rintro rfl
  cases o <;> simp [Valued.joined, withEquals, ascii] at h

/-- Joined text that is not UTF-8 is no known option. -/
theorem kind_joined (o : Valued) (v : OsString) : kind (o.joined v) =
    if ¬ IsUtf8 v then .unknown else if o = .bind then .joinedBind v else .joinedCwd v := by
  have hdash : startsWithDash (o.joined v) = true := by cases o <;> rfl
  have hne : ∀ text ∈ [textEnd, textH, textHelp, textV, textVersion, textQuiet, textB, textBind,
      textW, textCwd, textPwd], o.joined v ≠ text := by
    intro text htext
    refine joined_ne ?_
    revert text
    decide
  simp only [List.mem_cons, List.not_mem_nil, or_false, forall_eq_or_imp, forall_eq] at hne
  simp only [kind, hne, joinedBind_joined, joinedCwd_joined, or_self, if_false, hdash]
  split_ifs <;> simp_all

-- ---------------------------------------------------------------------------
-- In place of each other
-- ---------------------------------------------------------------------------

/-- The value can be joined: what `--cwd V` takes as it is has to be UTF-8 and not empty. -/
def Plain (o : Valued) (v : OsString) : Prop := o = .bind ∨ v ≠ [] ∧ IsUtf8 v

/-- The command line around the option is complete without it. -/
def Open (pre post : List OsString) : Prop :=
  pre.head? ≠ some textProbe ∧ Options pre ∧ Complete (Binds pre) post

theorem parseBind_not_utf8 {v : OsString} (h : ¬ IsUtf8 v) : ∃ e, parseBind v = .error e := by
  rw [parseBind, toStr, if_neg h]
  exact ⟨_, rfl⟩

theorem same_run {s : RunState} (hs : s.parsingOptions = true) (o : Valued) (v : OsString)
    (post : List OsString) :
    Same (parseRunLoop s (o.joined v :: post)) (parseRunLoop s (o.text :: v :: post)) ↔
      Plain o v ∨ ¬ Complete (s.binds ≠ []) post := by
  have hcwd : (∃ r, parseRunLoop { s with cwd := some v } post = .ok r) ↔
      Complete (s.binds ≠ []) post := ok_iff_complete (s := { s with cwd := some v }) hs
  rw [parseRunLoop_cons hs, parseRunLoop_cons hs, kind_joined, o.kind_text, ← hcwd]
  by_cases hbind : o = .bind
  · simp only [hbind, if_true, Plain, true_or, iff_true]
    split_ifs with hutf8
    · exact Same.refl _
    · obtain ⟨e, he⟩ := parseBind_not_utf8 hutf8
      exact .inr ⟨_, e, rfl, bindThen_error he _⟩
  · simp only [hbind, if_false, Plain, false_or]
    by_cases hutf8 : IsUtf8 v
    · simp only [hutf8, not_true_eq_false, if_false]
      by_cases hempty : v = []
      · simp [hempty, same_error]
      · simp [hempty, Same.refl]
    · simp [hutf8, same_error]

/-- The value of a bind option of `pathshim probe`, and then the arguments behind it. -/
def probeBindThen (binds : List BindArg) (value : OsString) (rest : List OsString) :
    Parsed ParseResult :=
  match parseBind value with
  | .error e => .error e
  | .ok bind => parseProbeLoop (binds ++ [bind]) rest

/-- What is no option of `pathshim probe` is an error. -/
theorem probe_unexpected {binds : List BindArg} {arg : OsString}
    (h : ∀ text ∈ [textH, textHelp, textB, textBind], arg ≠ text) (hjoined : joinedBind arg = none)
    (rest : List OsString) : ∃ e, parseProbeLoop binds (arg :: rest) = .error e := by
  simp only [List.mem_cons, List.not_mem_nil, or_false, forall_eq_or_imp, forall_eq] at h
  rw [parseProbeLoop.eq_def]
  simp [h, hjoined]

theorem same_probe_option {binds : List BindArg} (o : Valued) (v : OsString)
    (post : List OsString) :
    Same (parseProbeLoop binds (o.joined v :: post))
      (parseProbeLoop binds (o.text :: v :: post)) := by
  have hne : ∀ text ∈ [textH, textHelp, textB, textBind], o.joined v ≠ text := by
    intro text htext
    refine joined_ne ?_
    revert text
    decide
  by_cases hbind : o = .bind
  · subst hbind
    have hseparate : parseProbeLoop binds (Valued.bind.text :: v :: post) =
        probeBindThen binds v post := rfl
    by_cases hutf8 : IsUtf8 v
    · have hjoined : joinedBind (Valued.bind.joined v) = some v := by
        simp [joinedBind_joined, hutf8]
      have heq : parseProbeLoop binds (Valued.bind.joined v :: post) =
          probeBindThen binds v post := by
        simp only [List.mem_cons, List.not_mem_nil, or_false, forall_eq_or_imp, forall_eq] at hne
        rw [parseProbeLoop.eq_def, probeBindThen]
        cases hvalue : parseBind v <;> simp [hne, hjoined, hvalue]
      rw [heq, hseparate]
      exact Same.refl _
    · have hjoined : joinedBind (Valued.bind.joined v) = none := by
        simp [joinedBind_joined, hutf8]
      obtain ⟨e, he⟩ := probe_unexpected hne hjoined post
      obtain ⟨e', he'⟩ := parseBind_not_utf8 hutf8
      exact .inr ⟨e, e', he, by rw [hseparate, probeBindThen, he']⟩
  · have hjoined : joinedBind (o.joined v) = none := by simp [joinedBind_joined, hbind]
    obtain ⟨e, he⟩ := probe_unexpected hne hjoined post
    have htext : ∀ text ∈ [textH, textHelp, textB, textBind], o.text ≠ text := by
      cases o with
      | bind => exact absurd rfl hbind
      | cwd => decide
      | pwd => decide
    have hother : joinedBind o.text = none := by
      cases o with
      | bind => exact absurd rfl hbind
      | cwd => decide
      | pwd => decide
    obtain ⟨e', he'⟩ := @probe_unexpected binds _ htext hother (v :: post)
    exact .inr ⟨e, e', he, he'⟩

theorem same_probe {binds : List BindArg} {pre : List OsString} (hpre : ProbePosition pre)
    (o : Valued) (v : OsString) (post : List OsString) :
    Same (parseProbeLoop binds (pre ++ o.joined v :: post))
      (parseProbeLoop binds (pre ++ o.text :: v :: post)) := by
  induction pre using arguments_induction generalizing binds with
  | nil => exact same_probe_option o v post
  | cons arg rest ih ihTail =>
    rw [ProbePosition.eq_def] at hpre
    have hturn (args : List OsString) := parseProbeLoop.eq_def binds (arg :: rest ++ args)
    simp only [List.cons_append] at hturn
    rw [List.cons_append, List.cons_append, hturn, hturn]
    by_cases hhelp : arg = textH ∨ arg = textHelp
    · simp only [if_pos hhelp]
      exact Same.refl _
    · simp only [if_neg hhelp]
      by_cases hbind : arg = textB ∨ arg = textBind
      · simp only [if_pos hbind] at hpre ⊢
        cases rest with
        | nil => exact hpre.elim
        | cons value rest =>
          simp only [List.cons_append]
          cases parseBind value with
          | error e => exact Same.refl _
          | ok bind => exact ihTail hpre
      · simp only [if_neg hbind] at hpre ⊢
        cases joinedBind arg with
        | none => exact Same.refl _
        | some value =>
          cases hvalue : parseBind value with
          | error e => simp only [hvalue]; exact Same.refl _
          | ok bind => simp only [hvalue]; exact ih hpre

theorem parse_behind {pre : List OsString} {arg : OsString} (hpre : pre.head? ≠ some textProbe)
    (harg : arg ≠ textProbe) (rest : List OsString) :
    parse (pre ++ arg :: rest) = parseRunLoop .init (pre ++ arg :: rest) := by
  refine parse_eq_parseRun ?_
  cases pre with
  | nil => simpa using harg
  | cons first pre => exact hpre

theorem same_parse {pre : List OsString} (hpre : OptionPosition pre) (o : Valued) (v : OsString)
    (post : List OsString) :
    Same (parse (pre ++ o.joined v :: post)) (parse (pre ++ o.text :: v :: post)) ↔
      Plain o v ∨ ¬ Open pre post := by
  rw [OptionPosition] at hpre
  split_ifs at hpre with hprobe
  · obtain ⟨rest, rfl⟩ := List.head?_eq_some_iff.mp hprobe
    have hsame := @same_probe [] _ hpre o v post
    have hparse (args : List OsString) : parse (textProbe :: args) = parseProbeLoop [] args := rfl
    simp only [List.cons_append, hparse]
    simpa [Open] using hsame
  · have htext : o.text ≠ textProbe := by cases o <;> decide
    rw [parse_behind hprobe (joined_ne (by decide)), parse_behind hprobe htext]
    by_cases hoptions : Options pre
    · obtain ⟨s, hpasses, hbinds⟩ := passes_options hoptions (s := .init) rfl
      have hbinds : s.binds ≠ [] ↔ Binds pre := hbinds.trans (by simp [RunState.init])
      rw [hpasses.run, hpasses.run, same_run hpasses.parsingOptions, hbinds]
      simp [Open, hprobe, hoptions]
    · obtain ⟨r, hr⟩ := run_stopped (s := .init) rfl hpre hoptions
      rw [hr, hr]
      simp [Open, hoptions, Same.refl]

/-- Where an option may stand, its two spellings have the same result, or both are errors, exactly
when the value can be joined or the command line around them is not complete anyway. -/
theorem spellings_same : ∀ (o : Valued) (v : OsString),
    ((∀ pre post, OptionPosition pre →
      Same (parse (pre ++ o.joined v :: post)) (parse (pre ++ o.text :: v :: post))) ↔
        Plain o v) ∧
    ∀ pre post, OptionPosition pre →
      (Same (parse (pre ++ o.joined v :: post)) (parse (pre ++ o.text :: v :: post)) ↔
        Plain o v ∨ ¬ Open pre post) := by
  intro o v
  refine ⟨⟨fun h => ?_, fun h pre post hpre => (same_parse hpre o v post).mpr (.inl h)⟩,
    fun pre post hpre => same_parse hpre o v post⟩
  have hopen : Open [] [textHelp] :=
    ⟨by simp, trivial, complete_ending (by simp [Ending, show kind textHelp = .help by decide])⟩
  have hposition : OptionPosition [] := by simp [OptionPosition, RunPosition]
  exact ((same_parse hposition o v _).mp (h [] [textHelp] hposition)).resolve_right fun hnot =>
    hnot hopen

/-- The empty working directory is taken as it is behind `--cwd`, and rejected in `--cwd=`. -/
theorem empty_cwd_joined :
    OptionPosition [textBind, mappingX.value] ∧
    parse ([textBind, mappingX.value] ++ Valued.cwd.joined [] :: [textQuiet, [slash]]) =
      .error ⟨"`--cwd` requires a path", none, ""⟩ ∧
    parse ([textBind, mappingX.value] ++ Valued.cwd.text :: [] :: [textQuiet, [slash]]) =
      .ok (.run ⟨[mappingX.arg], [], true, [slash], []⟩) ∧
    ¬ ∀ (o : Valued) (v : OsString) (pre post : List OsString), OptionPosition pre →
      Same (parse (pre ++ o.joined v :: post)) (parse (pre ++ o.text :: v :: post)) := by
  have hposition : OptionPosition [textBind, mappingX.value] := by
    have hkind : kind textBind = .bind := by decide
    have hhead : textBind ≠ textProbe := by decide
    simp [OptionPosition, RunPosition, hkind, hhead]
  have hjoined : parse ([textBind, mappingX.value] ++ Valued.cwd.joined [] ::
      [textQuiet, [slash]]) = .error ⟨"`--cwd` requires a path", none, ""⟩ := by decide
  have hseparate : parse ([textBind, mappingX.value] ++ Valued.cwd.text :: [] ::
      [textQuiet, [slash]]) = .ok (.run ⟨[mappingX.arg], [], true, [slash], []⟩) := by decide
  refine ⟨hposition, hjoined, hseparate, fun h => ?_⟩
  have hsame := h .cwd [] _ [textQuiet, [slash]] hposition
  rw [hjoined, hseparate] at hsame
  simp [Same] at hsame

end PathShim.Cli
