import PathShim.Histories
import PathShim.Linux.FailedOpen
import PathShim.Linux.Pagination

/-!
# Descriptor numbers used again

A tracked directory stays under its number when the process closes it. What is
opened there later is told from it by its host path alone: another directory is
left to the kernel, but the same one, opened again without a snapshot of its
own, is read from the old entries and the old cursor.
-/

namespace PathShim

open UnixPath Effects Histories

-- ---------------------------------------------------------------------------
-- The descriptors of one process
-- ---------------------------------------------------------------------------

/-- An open file description: the text of its link in `/proc`, and the snapshot its own open has
recorded. -/
structure Description where
  id : Nat
  link : OsStr
  listing : Option (List DirEntry)

/-- `owner` says whose open recorded the directory that is tracked under a number, and `read` has
the descriptions that have been read. -/
structure FdConfig where
  state : State
  table : Fd → Option Description
  owner : Fd → Option Nat
  next : Nat
  read : List Nat

/-- What `canonicalize` makes of a host path, symbolic links and all. -/
abbrev Canon := OsStr → IoResult OsStr

namespace FdConfig

def new (view : BindView) : FdConfig := ⟨State.new view, fun _ => none, fun _ => none, 0, []⟩

/-- The answers to what is asked about a thread `pid` of process `key`. -/
def Answers (c : FdConfig) (canon : Canon) (key pid : Pid) : Env Op.Answer
  | .processStatusField target .tgid, r => target = pid → r = some key
  | .readFdLink target fd, r => target = pid →
    (∀ d, c.table fd = some d → r = .ok d.link) ∧ (c.table fd = none → ∃ e, r = .error e)
  | .canonicalize path, r => r = canon path
  | _, _ => True

/-- A new description under `fd`. -/
def opened (c : FdConfig) (state : State) (fd : Fd) (d : Description) : FdConfig where
  state := state
  table := Function.update c.table fd (some d)
  owner := if d.listing.isSome then Function.update c.owner fd (some d.id) else c.owner
  next := c.next + 1
  read := c.read

/-- A tracked directory names the host directory with that link. -/
def names (c : FdConfig) (canon : Canon) (directory : OpenDirectory) (link : OsStr) : Bool :=
  let expected := c.state.view.resolveRead directory.path.toPath
  samePath ((canon expected).toOption.getD expected) link

end FdConfig

inductive FdLabel where
  | opened (fd : Fd) (d : Description)
  | refused
  | close (fd : Fd)
  | dup2 (old new : Fd)
  | getdents (notif : SeccompNotif) (tr : Trace)

/-- What process `key` does. A new descriptor takes a number that is free. -/
inductive FdStep (canon : Canon) (key : Pid) : FdConfig → FdLabel → FdConfig → Prop
  | sent {c notif arguments v looks sourceFd childFd rest listing link s' r} :
      notif.data.nr ∈ [.sysOpen, .sysOpenat, .sysOpenat2] →
      Exec (c.Answers canon key notif.pid) (handle c.state notif)
        (looks ++ ⟨openOp c.state arguments v, .ok sourceFd⟩ ::
          ⟨.addFd (sendRequest notif.id sourceFd arguments.flags), .ok childFd⟩ :: rest)
        (some (s', r)) →
      TrackRun (c.Answers canon key notif.pid) c.state notif arguments.flags v
        (c.state.view.resolveRead v.toPath) childFd listing s' rest →
      c.table childFd = none →
      FdStep canon key c (.opened childFd ⟨c.next, link, listing⟩)
        (c.opened s' childFd ⟨c.next, link, listing⟩)
  | continued {c notif tr fd link s' r} :
      notif.data.nr ∈ [.sysOpen, .sysOpenat, .sysOpenat2] →
      Exec (c.Answers canon key notif.pid) (handle c.state notif) tr (some (s', r)) →
      Continued tr → c.table fd = none →
      FdStep canon key c (.opened fd ⟨c.next, link, none⟩) (c.opened s' fd ⟨c.next, link, none⟩)
  | refused {c notif tr s' r} : notif.data.nr ∈ [.sysOpen, .sysOpenat, .sysOpenat2] →
      Exec (c.Answers canon key notif.pid) (handle c.state notif) tr (some (s', r)) →
      Unsent tr → FdStep canon key c .refused { c with state := s' }
  | close {c fd} :
      FdStep canon key c (.close fd) { c with table := Function.update c.table fd none }
  | dup2 {c old new d} : c.table old = some d →
      FdStep canon key c (.dup2 old new) { c with table := Function.update c.table new (some d) }
  | getdents {c notif tr s' r} : notif.data.nr = .sysGetdents64 →
      Exec (c.Answers canon key notif.pid) (handle c.state notif) tr (some (s', r)) →
      FdStep canon key c (.getdents notif tr)
        { c with
          state := s'
          read := ((c.table (asI32 (notif.data.args 0))).map Description.id).toList ++ c.read }

/-- A number is read as what it refers to: by the kernel, or from the snapshot that the open of its
own description recorded, and from the first entry if that has not been read before. -/
inductive ListsItself (c : FdConfig) (key : Pid) (notif : SeccompNotif) (tr : Trace)
    (d : Description) : Prop
  | kernel : Continued tr → ListsItself c key notif tr d
  | own {directory} : c.owner (asI32 (notif.data.args 0)) = some d.id →
      c.state.directories (key, asI32 (notif.data.args 0)) = some directory →
      d.listing = some directory.entries → (d.id ∉ c.read → directory.cursor = 0) →
      (∀ bytes, Delivered notif (notif.data.args 1) tr (.ok bytes) → Snapshot directory.entries →
        directory.PageAt (notif.data.args 2).toNat directory.cursor (.ok bytes)) →
      ListsItself c key notif tr d

/-- Every read of a number lists what the number refers to. -/
def ReadsItself (key : Pid) (t : Move FdConfig FdLabel) : Prop :=
  match t.label with
  | .getdents notif tr => ∀ d, t.before.table (asI32 (notif.data.args 0)) = some d →
      ListsItself t.before key notif tr d
  | _ => True

/-- What is tracked under the number, if it names what `d` is open on, was recorded by the open
of `d`. -/
def FdConfig.Own (c : FdConfig) (canon : Canon) (key : Pid) (fd : Fd) (d : Description) : Prop :=
  ∀ directory, c.state.directories (key, fd) = some directory →
    c.names canon directory d.link = true → c.owner fd = some d.id

/-- An open that records no snapshot, and a `dup2`, give a description only a number under which no
other description of the same host directory has left anything. -/
def TakesClean (canon : Canon) (key : Pid) (c : FdConfig) : FdLabel → Prop
  | .opened fd d => d.listing = none → ∀ directory, c.state.directories (key, fd) = some directory →
      c.names canon directory d.link = false
  | .dup2 old new => ∀ d, c.table old = some d → c.Own canon key new d
  | _ => True

-- ---------------------------------------------------------------------------
-- What opens and reads do to the supervisor
-- ---------------------------------------------------------------------------

section
variable {E : Env Op.Answer} {canon : Canon} {key : Pid} {c : FdConfig} {s s' : State}
  {notif : SeccompNotif} {tr : Trace} {r : IoResult Unit}

theorem silent_snapshots {op : Op} (h : op.Snapshots) : op.continues = false := by
  cases op <;> first | rfl | cases h

/-- Only an open whose descriptor was sent changes what is tracked, and that is not continued. -/
theorem open_cases (hnr : notif.data.nr ∈ [.sysOpen, .sysOpenat, .sysOpenat2])
    (hx : Exec E (handle s notif) tr (some (s', r))) :
    s' = s ∨ ¬ Unsent tr ∧ ¬ Continued tr := by
  rw [handle_open hnr] at hx
  rcases exec_orRespondIn hx with ⟨arguments, first, rest, hfirst, hresolve, rfl⟩ |
    ⟨e, first, rest, -, hs, -⟩
  · rcases exec_orRespondIn hresolve with ⟨v, second, last, hsecond, hopen, rfl⟩ |
      ⟨e, second, last, -, hs, -⟩
    · split at hopen
      · cases exec_openProjected.mp hopen with
        | notOpened _ _ hs | notSent _ _ _ hs => exact .inl hs
        | sent _ _ htrack =>
          refine .inr ⟨fun hunsent => hunsent _ _ (List.mem_append_right _
            (List.mem_append_right _ (List.mem_cons_of_mem _ List.mem_cons_self))), ?_⟩
          have hread := not_continued fun e he => (hfirst.calls calls_arguments e he).silent
          have hresolved := not_continued fun e he =>
            (hsecond.calls (calls_operand _ _) e he).silent
          have htracked := not_continued fun e he =>
            silent_snapshots (htrack.calls snapshots_trackOpened e he)
          simp only [continued_append, continued_cons, not_or]
          exact ⟨hread, hresolved, Bool.false_ne_true, Bool.false_ne_true, htracked⟩
      · exact .inl (exec_answered_ok hopen).1
    · exact .inl hs
  · exact .inl hs

/-- The directory under which `handle_getdents` finds a number. -/
def FdConfig.tracked (c : FdConfig) (canon : Canon) (key : Pid) (fd : Fd) : Option OpenDirectory :=
  (c.state.directories (key, fd)).filter fun directory =>
    (c.table fd).any fun d => c.names canon directory d.link

theorem FdConfig.tracked_eq_some {fd : Fd} {directory : OpenDirectory} :
    c.tracked canon key fd = some directory ↔ c.state.directories (key, fd) = some directory ∧
      (c.table fd).any (fun d => c.names canon directory d.link) = true :=
  Option.filter_eq_some_iff

theorem FdConfig.description_of_tracked {fd : Fd} {directory : OpenDirectory}
    (h : c.tracked canon key fd = some directory) :
    c.state.directories (key, fd) = some directory ∧
      ∃ d, c.table fd = some d ∧ c.names canon directory d.link = true := by
  obtain ⟨hdirectory, hany⟩ := FdConfig.tracked_eq_some.mp h
  cases hd : c.table fd with
  | none =>
    rw [hd] at hany
    cases hany
  | some d => exact ⟨hdirectory, d, rfl, by rwa [hd] at hany⟩

/-- The two ways through `handle_getdents`. -/
inductive GetdentsRun (canon : Canon) (key : Pid) (c : FdConfig) (notif : SeccompNotif)
    (tr : Trace) : State → Prop
  | kernel {after} : c.tracked canon key (asI32 (notif.data.args 0)) = none →
      after = c.state ∨ after = c.state.removeDirectory (key, asI32 (notif.data.args 0)) →
      Continued tr → GetdentsRun canon key c notif tr after
  | served {d} : c.tracked canon key (asI32 (notif.data.args 0)) = some d → ¬ Continued tr →
      (∀ bytes, Delivered notif (notif.data.args 1) tr (.ok bytes) →
        d.reply (notif.data.args 2).toNat d.cursor = .ok bytes) →
      GetdentsRun canon key c notif tr
        (c.state.insertDirectory (key, asI32 (notif.data.args 0)) { d with
          cursor := d.cursor + (d.pageFrom (notif.data.args 2).toNat d.cursor).length })

theorem not_continued_copied {buffer : UInt64} {bytes : Bytes} {out : Option (IoResult Unit)}
    (hx : Exec E (orRespond notif.id (writeMemory notif.pid buffer bytes) fun () =>
      respondValue notif.id bytes.length) tr out) : ¬ Continued tr := by
  have hcalls : (orRespond notif.id (writeMemory notif.pid buffer bytes) fun () =>
      respondValue notif.id bytes.length).Calls (Plain fun _ _ => True) :=
    calls_orRespond (calls_writeMemory _ _ _) fun _ => calls_value _
  exact not_continued fun e he => (hx.calls hcalls e he).1

theorem FdConfig.exec_processKey {group : Pid}
    (hx : Exec (c.Answers canon key notif.pid) (processKey notif.pid) tr (some group)) :
    group = key := by
  obtain ⟨r, rest, hr, hrest, -⟩ := exec_perform_bind.mp hx
  obtain rfl : r = some key := hr rfl
  exact Option.some.inj (exec_ret.mp hrest).2

theorem FdConfig.exec_directoryFdMatches {fd : Fd} {directory : OpenDirectory} {matching : Bool}
    (hx : Exec (c.Answers canon key notif.pid)
      (directoryFdMatches c.state notif.pid fd directory) tr (some matching)) :
    matching = (c.table fd).any fun d => c.names canon directory d.link := by
  obtain ⟨r, rest, hr, hrest, -⟩ := exec_perform_bind.mp hx
  obtain ⟨hsome, hnone⟩ := hr rfl
  cases hfd : c.table fd with
  | none =>
    obtain ⟨e, rfl⟩ := hnone hfd
    simpa using (exec_ret.mp hrest).2
  | some d =>
    obtain rfl := hsome d hfd
    obtain ⟨r', rest', hr', hrest', -⟩ := exec_perform_bind.mp hrest
    obtain rfl : r' = canon (c.state.view.resolveRead directory.path.toPath) := hr'
    rw [Option.any_some, FdConfig.names]
    cases hcanon : canon (c.state.view.resolveRead directory.path.toPath) with
    | ok canonical =>
      rw [hcanon] at hrest'
      exact Option.some.inj (exec_ret.mp hrest').2
    | error e =>
      rw [hcanon] at hrest'
      exact Option.some.inj (exec_ret.mp hrest').2

theorem exec_getdentsRun (hnr : notif.data.nr = .sysGetdents64)
    (hx : Exec (c.Answers canon key notif.pid) (handle c.state notif) tr (some (s', r))) :
    GetdentsRun canon key c notif tr s' := by
  rw [show handle c.state notif = handleGetdents c.state notif by rw [handle, hnr]] at hx
  cases htracked : c.tracked canon key (asI32 (notif.data.args 0)) with
  | some directory =>
    obtain ⟨hdirectory, hany⟩ := FdConfig.tracked_eq_some.mp htracked
    have hmatch : ∀ matching, Returns (c.Answers canon key notif.pid)
        (directoryFdMatches c.state notif.pid (asI32 (notif.data.args 0)) directory) matching →
        matching = true := by
      rintro matching ⟨look, hlook⟩
      rw [FdConfig.exec_directoryFdMatches hlook, hany]
    have hgroup : ∀ group, Returns (c.Answers canon key notif.pid) (processKey notif.pid) group →
        group = key := by
      rintro group ⟨look, hlook⟩
      exact FdConfig.exec_processKey hlook
    obtain ⟨looks, rest, rfl, hlooks, rfl, hreply⟩ := exec_getdents hgroup hdirectory hmatch hx
    have hlook : ¬ Continued looks := not_continued fun e he => silent_looks (hlooks e he)
    refine .served htracked ?_ fun bytes hdelivered => ?_
    · rw [continued_append, not_or]
      refine ⟨hlook, ?_⟩
      split at hreply
      · exact (exec_respond hreply).not_continued
      · exact not_continued_copied hreply
    · have hrest := hdelivered.rest hlooks
      unfold OpenDirectory.reply
      split at hreply
      · cases hrest.unique (delivered_error hreply)
      · rename_i hstuck
        rw [if_neg hstuck, hrest.copied hreply]
  | none =>
    rcases exec_bind.mp hx with ⟨group, first, rest, hgroup, hrest, rfl⟩ | ⟨-, hnone⟩
    · obtain rfl := FdConfig.exec_processKey hgroup
      dsimp only at hrest
      split at hrest
      · obtain ⟨rfl, hreply⟩ := exec_answered_ok hrest
        have hcontinued := (exec_respond hreply).continued
        exact .kernel htracked (.inl rfl) (continued_append.mpr (.inr hcontinued))
      · rename_i directory hdirectory
        rcases exec_bind.mp hrest with ⟨matching, second, last, hmatch, hlast, rfl⟩ | ⟨-, hnone⟩
        · have hmatching := FdConfig.exec_directoryFdMatches hmatch
          split at hlast
          · rename_i htrue
            rw [htrue] at hmatching
            have hsome := FdConfig.tracked_eq_some.mpr ⟨hdirectory, hmatching.symm⟩
            cases htracked.symm.trans hsome
          · obtain ⟨rfl, hreply⟩ := exec_answered_ok hlast
            have hcontinued := (exec_respond hreply).continued
            exact .kernel htracked (.inr rfl)
              (continued_append.mpr (.inr (continued_append.mpr (.inr hcontinued))))
        · cases hnone
    · cases hnone

end

-- ---------------------------------------------------------------------------
-- What every run keeps
-- ---------------------------------------------------------------------------

/-- No cursor is behind the end. -/
def State.Bounded (s : State) (key : Pid) : Prop :=
  ∀ fd directory, s.directories (key, fd) = some directory →
    directory.cursor ≤ directory.entries.length

/-- Every description has had its own id. -/
structure FdConfig.Numbered (c : FdConfig) (key : Pid) : Prop where
  table : ∀ fd d, c.table fd = some d → d.id < c.next
  owner : ∀ fd id, c.owner fd = some id → id < c.next
  read : ∀ id ∈ c.read, id < c.next
  bounded : c.state.Bounded key

/-- What is tracked under a number and would be taken for its description was recorded for it, with
the cursor at the start while it has not been read. -/
structure FdConfig.Clean (c : FdConfig) (canon : Canon) (key : Pid) : Prop where
  own : ∀ fd d, c.table fd = some d → c.Own canon key fd d
  recorded : ∀ fd fd' d directory, c.table fd = some d → c.owner fd' = some d.id →
    c.state.directories (key, fd') = some directory →
    d.listing = some directory.entries ∧ (d.id ∉ c.read → directory.cursor = 0)

section
variable {canon : Canon} {key : Pid} {c c' : FdConfig} {label : FdLabel} {fd fd' : Fd}
  {d : Description} {s s' : State} {entries : List DirEntry} {v : AbsPath} {link : OsStr} {id : Nat}

theorem State.Bounded.insert {directory : OpenDirectory} (h : s.Bounded key)
    (hnew : directory.cursor ≤ directory.entries.length) :
    (s.insertDirectory (key, fd) directory).Bounded key := by
  intro fd' directory' hdirectory'
  rcases update_some.mp hdirectory' with ⟨-, rfl⟩ | ⟨-, hold⟩
  · exact hnew
  · exact h fd' directory' hold

theorem State.Bounded.remove (h : s.Bounded key) : (s.removeDirectory (key, fd)).Bounded key :=
  fun fd' directory' hdirectory' => h fd' directory' (update_none.mp hdirectory').2

theorem FdConfig.numbered_new (view : BindView) : (FdConfig.new view).Numbered key where
  table fd d h := by cases h
  owner fd id h := by cases h
  read id h := by cases h
  bounded fd directory h := by cases h

theorem FdConfig.clean_new (view : BindView) : (FdConfig.new view).Clean canon key where
  own fd d h := by cases h
  recorded fd fd' d directory h := by cases h

/-- The owner of a number changes only if a snapshot is recorded under it. -/
theorem FdConfig.owner_opened (h : (c.opened s' fd d).owner fd' = some id) :
    fd' = fd ∧ id = d.id ∧ d.listing ≠ none ∨
      (fd' ≠ fd ∨ d.listing = none) ∧ c.owner fd' = some id := by
  simp only [FdConfig.opened] at h
  split at h
  · rename_i hsome
    rcases update_some.mp h with ⟨hfd, hid⟩ | ⟨hfd, hold⟩
    · exact .inl ⟨hfd, hid, Option.isSome_iff_ne_none.mp hsome⟩
    · exact .inr ⟨.inl hfd, hold⟩
  · rename_i hnone
    exact .inr ⟨.inr (by simpa using hnone), h⟩

theorem FdConfig.Numbered.opened (h : c.Numbered key) (hid : d.id = c.next)
    (hbounded : s'.Bounded key) : (c.opened s' fd d).Numbered key where
  table fd' d' hd' := by
    rcases update_some.mp hd' with ⟨-, rfl⟩ | ⟨-, hold⟩
    · exact hid ▸ Nat.lt_succ_self _
    · exact Nat.lt_succ_of_lt (h.table fd' d' hold)
  owner fd' id howner := by
    rcases FdConfig.owner_opened howner with ⟨-, rfl, -⟩ | ⟨-, hold⟩
    · exact hid ▸ Nat.lt_succ_self _
    · exact Nat.lt_succ_of_lt (h.owner fd' id hold)
  read id hread := Nat.lt_succ_of_lt (h.read id hread)
  bounded := hbounded

theorem FdStep.numbered (hstep : FdStep canon key c label c') (h : c.Numbered key) :
    c'.Numbered key := by
  cases hstep with
  | sent hnr hx htrack hfree =>
    refine h.opened rfl ?_
    cases htrack with
    | file | failed => exact h.bounded
    | taken _ _ hgroup =>
      obtain rfl := FdConfig.exec_processKey hgroup
      exact h.bounded.insert (Nat.zero_le _)
  | continued hnr hx hcontinued hfree =>
    obtain rfl := (open_cases hnr hx).resolve_right fun hsent => hsent.2 hcontinued
    exact h.opened rfl h.bounded
  | refused hnr hx hunsent =>
    obtain rfl := (open_cases hnr hx).resolve_right fun hsent => hsent.1 hunsent
    exact h
  | close =>
    exact ⟨fun fd d hd => h.table fd d (update_none.mp hd).2, h.owner, h.read, h.bounded⟩
  | dup2 hold =>
    refine ⟨fun fd d hd => ?_, h.owner, h.read, h.bounded⟩
    rcases update_some.mp hd with ⟨-, rfl⟩ | ⟨-, hd⟩
    · exact h.table _ _ hold
    · exact h.table fd d hd
  | getdents hnr hx =>
    refine ⟨h.table, h.owner, fun id hid => ?_, ?_⟩
    · rcases List.mem_append.mp hid with hid | hid
      · simp only [Option.mem_toList, Option.map_eq_some_iff] at hid
        obtain ⟨d, hd, rfl⟩ := hid
        exact h.table _ d hd
      · exact h.read id hid
    · cases exec_getdentsRun hnr hx with
      | kernel _ hs _ =>
        rcases hs with rfl | rfl
        · exact h.bounded
        · exact h.bounded.remove
      | served htracked _ _ =>
        obtain ⟨hd, -⟩ := FdConfig.tracked_eq_some.mp htracked
        exact h.bounded.insert (pageFrom_end_le (h.bounded _ _ hd) _)

theorem FdConfig.Clean.untracked (h : c.Clean canon key) (hn : c.Numbered key) (hid : d.id = c.next)
    (hnone : d.listing = none) (htakes : ∀ directory,
      c.state.directories (key, fd) = some directory →
      c.names canon directory d.link = false) : (c.opened c.state fd d).Clean canon key where
  own fd' d' hd' directory hdirectory hnames := by
    rcases update_some.mp hd' with ⟨rfl, rfl⟩ | ⟨-, hold⟩
    · cases hnames.symm.trans (htakes directory hdirectory)
    · simpa [FdConfig.opened, hnone] using h.own fd' d' hold directory hdirectory hnames
  recorded fd' fd'' d' directory hd' howner hdirectory := by
    obtain ⟨-, -, hsome⟩ | ⟨-, hbefore⟩ := FdConfig.owner_opened howner
    · exact absurd hnone hsome
    · rcases update_some.mp hd' with ⟨-, rfl⟩ | ⟨-, hold⟩
      · have hlt := hn.owner fd'' _ hbefore
        rw [hid] at hlt
        exact absurd hlt (Nat.lt_irrefl _)
      · exact h.recorded fd' fd'' d' directory hold hbefore hdirectory

theorem FdConfig.Clean.tracked (h : c.Clean canon key) (hn : c.Numbered key) :
    (c.opened (c.state.insertDirectory (key, fd) ⟨v, entries, 0⟩) fd
      ⟨c.next, link, some entries⟩).Clean canon key where
  own fd' d' hd' directory hdirectory hnames := by
    rcases update_some.mp hd' with ⟨rfl, rfl⟩ | ⟨hne, hold⟩
    · simp [FdConfig.opened]
    · rcases update_some.mp hdirectory with ⟨heq, -⟩ | ⟨-, hdirectory⟩
      · exact absurd (Prod.mk.inj heq).2 hne
      · exact (Function.update_of_ne hne _ _).trans (h.own fd' d' hold directory hdirectory hnames)
  recorded fd' fd'' d' directory hd' howner hdirectory := by
    rcases update_some.mp hd' with ⟨-, rfl⟩ | ⟨-, hold⟩
    · rcases FdConfig.owner_opened howner with ⟨rfl, -, -⟩ | ⟨-, howner⟩
      · rcases update_some.mp hdirectory with ⟨-, rfl⟩ | ⟨hne, -⟩
        · exact ⟨rfl, fun _ => rfl⟩
        · exact absurd rfl hne
      · exact absurd (hn.owner _ _ howner) (Nat.lt_irrefl _)
    · rcases FdConfig.owner_opened howner with ⟨-, hid, -⟩ | ⟨hother, howner⟩
      · exact absurd (hn.table _ _ hold) (hid ▸ Nat.lt_irrefl _)
      · rcases update_some.mp hdirectory with ⟨heq, -⟩ | ⟨-, hdirectory⟩
        · exact absurd (Prod.mk.inj heq).2 (hother.resolve_right (Option.some_ne_none _))
        · exact h.recorded fd' fd'' d' directory hold howner hdirectory

theorem FdConfig.names_eq {directory : OpenDirectory} (h : c'.state.view = c.state.view) :
    c'.names canon directory link = c.names canon directory link := by
  rw [FdConfig.names, h, FdConfig.names]

theorem FdConfig.Clean.getdents {notif : SeccompNotif} {tr : Trace} (h : c.Clean canon key)
    (hrun : GetdentsRun canon key c notif tr s') :
    FdConfig.Clean { c with
      state := s'
      read := ((c.table (asI32 (notif.data.args 0))).map Description.id).toList ++ c.read }
    canon key := by
  have hunread {id : Nat} (hid : id ∉ ((c.table (asI32 (notif.data.args 0))).map
      Description.id).toList ++ c.read) : id ∉ c.read :=
    fun hmem => hid (List.mem_append_right _ hmem)
  have hsame (hview : s'.view = c.state.view)
      (hdirectories : ∀ fd directory, s'.directories (key, fd) = some directory →
        c.state.directories (key, fd) = some directory) : FdConfig.Clean { c with
          state := s'
          read := ((c.table (asI32 (notif.data.args 0))).map Description.id).toList ++ c.read }
        canon key := by
    refine ⟨fun fd d hd directory hdirectory hnames => ?_,
      fun fd fd' d directory hd howner hdirectory => ?_⟩
    · rw [FdConfig.names_eq hview] at hnames
      exact h.own fd d hd directory (hdirectories fd directory hdirectory) hnames
    · obtain ⟨hlisting, hcursor⟩ :=
        h.recorded fd fd' d directory hd howner (hdirectories fd' directory hdirectory)
      exact ⟨hlisting, fun hid => hcursor (hunread hid)⟩
  cases hrun with
  | kernel _ hs _ =>
    rcases hs with rfl | rfl
    · exact hsame rfl fun _ _ hdirectory => hdirectory
    · exact hsame rfl fun _ _ hdirectory => (update_none.mp hdirectory).2
  | @served directory htracked _ _ =>
    obtain ⟨hdirectory, d, hd, hnames⟩ := FdConfig.description_of_tracked htracked
    have howner := h.own _ d hd directory hdirectory hnames
    refine ⟨fun fd' d' hd' directory' hdirectory' hnames' => ?_,
      fun fd' fd'' d' directory' hd' howner' hdirectory' => ?_⟩
    · rcases update_some.mp hdirectory' with ⟨heq, rfl⟩ | ⟨-, hdirectory'⟩
      · obtain rfl := (Prod.mk.inj heq).2
        exact h.own _ d' hd' directory hdirectory hnames'
      · exact h.own fd' d' hd' directory' hdirectory' hnames'
    · rcases update_some.mp hdirectory' with ⟨heq, rfl⟩ | ⟨-, hdirectory'⟩
      · obtain rfl := (Prod.mk.inj heq).2
        obtain ⟨hlisting, -⟩ := h.recorded fd' _ d' directory hd' howner' hdirectory
        have hid : d.id = d'.id := Option.some.inj (howner.symm.trans howner')
        refine ⟨hlisting, fun hid' => absurd ?_ hid'⟩
        simp [hd, hid]
      · obtain ⟨hlisting, hcursor⟩ := h.recorded fd' fd'' d' directory' hd' howner' hdirectory'
        exact ⟨hlisting, fun hid => hcursor (hunread hid)⟩

theorem FdStep.clean (hstep : FdStep canon key c label c') (h : c.Clean canon key)
    (hn : c.Numbered key) (htakes : TakesClean canon key c label) : c'.Clean canon key := by
  cases hstep with
  | sent hnr hx htrack hfree =>
    cases htrack with
    | file | failed => exact h.untracked hn rfl rfl (htakes rfl)
    | taken _ _ hgroup =>
      obtain rfl := FdConfig.exec_processKey hgroup
      exact h.tracked hn
  | continued hnr hx hcontinued hfree =>
    obtain rfl := (open_cases hnr hx).resolve_right fun hsent => hsent.2 hcontinued
    exact h.untracked hn rfl rfl (htakes rfl)
  | refused hnr hx hunsent =>
    obtain rfl := (open_cases hnr hx).resolve_right fun hsent => hsent.1 hunsent
    exact h
  | close =>
    exact ⟨fun fd d hd => h.own fd d (update_none.mp hd).2,
      fun fd fd' d directory hd => h.recorded fd fd' d directory (update_none.mp hd).2⟩
  | dup2 hold =>
    refine ⟨fun fd d hd => ?_, fun fd fd' d directory hd => ?_⟩
    · rcases update_some.mp hd with ⟨rfl, rfl⟩ | ⟨-, hd⟩
      · exact htakes d hold
      · exact h.own fd d hd
    · rcases update_some.mp hd with ⟨rfl, rfl⟩ | ⟨-, hd⟩
      · exact h.recorded _ fd' d directory hold
      · exact h.recorded fd fd' d directory hd
  | getdents hnr hx => exact h.getdents (exec_getdentsRun hnr hx)

-- ---------------------------------------------------------------------------
-- What is read
-- ---------------------------------------------------------------------------

variable {notif : SeccompNotif} {tr : Trace}

theorem FdStep.getdentsRun (hstep : FdStep canon key c (.getdents notif tr) c') :
    ∃ s', GetdentsRun canon key c notif tr s' := by
  cases hstep with
  | getdents hnr hx => exact ⟨_, exec_getdentsRun hnr hx⟩

theorem FdConfig.Clean.listsItself (h : c.Clean canon key) (hn : c.Numbered key)
    (hrun : GetdentsRun canon key c notif tr s')
    (hd : c.table (asI32 (notif.data.args 0)) = some d) : ListsItself c key notif tr d := by
  cases hrun with
  | kernel _ _ hcontinued => exact .kernel hcontinued
  | @served directory htracked _ hreply =>
    obtain ⟨hdirectory, d', hd', hnames⟩ := FdConfig.description_of_tracked htracked
    obtain rfl := Option.some.inj (hd.symm.trans hd')
    have howner := h.own _ d hd directory hdirectory hnames
    obtain ⟨hlisting, hcursor⟩ := h.recorded _ _ d directory hd howner hdirectory
    refine .own howner hdirectory hlisting hcursor fun bytes hdelivered hsnapshot => ?_
    rw [← hreply bytes hdelivered]
    exact pageAt_reply hsnapshot (hn.bounded _ _ hdirectory) _

/-- Entries recorded for another description are not its own. -/
theorem own_of_listsItself (hrun : GetdentsRun canon key c notif tr s')
    (hd : c.table (asI32 (notif.data.args 0)) = some d) (h : ListsItself c key notif tr d) :
    c.Own canon key (asI32 (notif.data.args 0)) d := by
  intro directory hdirectory hnames
  have htracked : c.tracked canon key (asI32 (notif.data.args 0)) = some directory :=
    FdConfig.tracked_eq_some.mpr ⟨hdirectory, by rwa [hd]⟩
  cases hrun with
  | kernel hnone _ _ => cases htracked.symm.trans hnone
  | served _ hno _ =>
    cases h with
    | kernel hcontinued => exact absurd hcontinued hno
    | own howner _ _ _ _ => exact howner

/-- What is not taken cleanly is not the description's own afterwards. -/
theorem FdStep.unclean (hstep : FdStep canon key c label c') (hn : c.Numbered key)
    (htakes : ¬ TakesClean canon key c label) :
    ∃ fd d, c'.table fd = some d ∧ ¬ c'.Own canon key fd d := by
  have hopened {fd : Fd} {d : Description} (hid : d.id = c.next)
      (htakes : ¬ TakesClean canon key c (.opened fd d)) :
      ∃ fd' d', (c.opened c.state fd d).table fd' = some d' ∧
        ¬ (c.opened c.state fd d).Own canon key fd' d' := by
    simp only [TakesClean, not_forall, Bool.not_eq_false] at htakes
    obtain ⟨hnone, directory, hdirectory, hnames⟩ := htakes
    refine ⟨fd, d, Function.update_self _ _ _, fun hown => ?_⟩
    rcases FdConfig.owner_opened (hown directory hdirectory hnames) with ⟨-, -, hsome⟩ | ⟨-, howner⟩
    · exact hsome hnone
    · have hlt := hn.owner fd _ howner
      rw [hid] at hlt
      exact Nat.lt_irrefl _ hlt
  cases hstep with
  | sent hnr hx htrack hfree =>
    cases htrack with
    | file | failed => exact hopened rfl htakes
    | taken => exact absurd (fun hnone => by cases hnone) htakes
  | continued hnr hx hcontinued hfree =>
    obtain rfl := (open_cases hnr hx).resolve_right fun hsent => hsent.2 hcontinued
    exact hopened rfl htakes
  | @dup2 old new d hold =>
    simp only [TakesClean, not_forall] at htakes
    obtain ⟨d', hd', hown⟩ := htakes
    obtain rfl := Option.some.inj (hold.symm.trans hd')
    exact ⟨new, d, Function.update_self _ _ _, hown⟩
  | refused | close | getdents => exact absurd trivial htakes

variable {ts : List (Move FdConfig FdLabel)}

theorem numbered_run {view : BindView} (hrun : Moves (FdStep canon key) (FdConfig.new view) ts c) :
    ∀ t ∈ ts, t.before.Numbered key ∧ FdStep canon key t.before t.label t.after :=
  hrun.before (P := fun c => c.Numbered key) (FdConfig.numbered_new view)
    fun _ _ hstep h => hstep.numbered h

theorem clean_run {view : BindView} (hrun : Moves (FdStep canon key) (FdConfig.new view) ts c)
    (htakes : ∀ t ∈ ts, TakesClean canon key t.before t.label) :
    ∀ t ∈ ts, (t.before.Clean canon key ∧ t.before.Numbered key) ∧
      FdStep canon key t.before t.label t.after := by
  refine hrun.before (P := fun c => c.Clean canon key ∧ c.Numbered key)
    ⟨FdConfig.clean_new view, FdConfig.numbered_new view⟩ fun t ht hstep h => ?_
  exact ⟨hstep.clean h.1 h.2 (htakes t ht), hstep.numbered h.2⟩

/-- In every run in which descriptions take clean numbers only, each number is read as what it
refers to. In any run, a read that is one has found nothing of another description under its
number, and a number that is not taken cleanly has something of another description. -/
theorem reopened_lists_itself {view : BindView}
    (hrun : Moves (FdStep canon key) (FdConfig.new view) ts c) :
    ((∀ t ∈ ts, TakesClean canon key t.before t.label) → ∀ t ∈ ts, ReadsItself key t) ∧
      (∀ t ∈ ts, ∀ notif tr d, t.label = .getdents notif tr →
        t.before.table (asI32 (notif.data.args 0)) = some d →
        ListsItself t.before key notif tr d →
        t.before.Own canon key (asI32 (notif.data.args 0)) d) ∧
      ∀ t ∈ ts, ¬ TakesClean canon key t.before t.label →
        ∃ fd d, t.after.table fd = some d ∧ ¬ t.after.Own canon key fd d := by
  refine ⟨fun htakes t ht => ?_, fun t ht notif tr d hlabel hd hlists => ?_,
    fun t ht htakes => ?_⟩
  · obtain ⟨⟨hclean, hn⟩, hstep⟩ := clean_run hrun htakes t ht
    unfold ReadsItself
    split
    · rename_i notif tr hlabel
      obtain ⟨s', hread⟩ := (hlabel ▸ hstep).getdentsRun
      exact fun d hd => hclean.listsItself hn hread hd
    · trivial
  · obtain ⟨s', hread⟩ := (hlabel ▸ hrun.steps t ht).getdentsRun
    exact own_of_listsItself hread hd hlists
  · obtain ⟨hn, hstep⟩ := numbered_run hrun t ht
    exact hstep.unclean hn htakes

end

-- ---------------------------------------------------------------------------
-- The same directory twice
-- ---------------------------------------------------------------------------

def canonical : Canon := fun path => .ok path.normalize.toPath

namespace FdConfig

/-- Answers with opens that get descriptor 3 and a directory with one file in it. -/
def answers (c : FdConfig) (m : Memory) : (op : Op) → op.Answer
  | .readFdLink _ fd =>
    match c.table fd with
    | some d => .ok d.link
    | none => .error (.os ENOENT)
  | .openFile .. => .ok 5
  | .addFd _ => .ok 3
  | .readDir _ => .ok [.ok nameX]
  | .symlinkMetadata _ => .ok ⟨5, .file⟩
  | op => writable (loneWorld.answers m) op

theorem answers_allowed {c : FdConfig} {m : Memory} (op : Op) :
    c.Answers canonical 100 100 op (c.answers m op) := by
  cases op with
  | processStatusField target field =>
    cases field with
    | tgid =>
      rintro rfl
      rfl
    | _ => trivial
  | readFdLink target fd =>
    refine fun _ => ⟨fun d hd => ?_, fun hnone => ⟨.os ENOENT, ?_⟩⟩
    · simp only [answers, hd]
    · simp only [answers, hnone]
  | canonicalize => rfl
  | _ => trivial

theorem exec_answers {c : FdConfig} (m : Memory) (p : Sup α) :
    Exec (c.Answers canonical 100 100) p (p.trace (c.answers m)) (p.eval (c.answers m)) :=
  exec_eval _ answers_allowed p

end FdConfig

def memoryB : Memory := pathMemory ['/', 'a', '/', 'b']
def memoryS : Memory := pathMemory ['/', 's']

/-- `open(path, O_DIRECTORY)`. -/
def openNotifB : SeccompNotif :=
  ⟨8, 100, .sysOpen, fun i => if i = 0 then 64 else if i = 1 then 0x10000 else 0⟩

def descriptionB (c : FdConfig) : Description := ⟨c.next, osStr ['/', 's'], some boundX.entries⟩

def openedB (c : FdConfig) : FdConfig :=
  c.opened (c.state.insertDirectory (100, 3) boundX) 3 (descriptionB c)

def closed (c : FdConfig) : FdConfig := { c with table := Function.update c.table 3 none }

theorem openB_step {c : FdConfig} (hview : c.state.view = deepBind) (hfree : c.table 3 = none) :
    FdStep canonical 100 c (.opened 3 (descriptionB c)) (openedB c) := by
  obtain ⟨⟨view, directories, cwds⟩, table, owner, next, read⟩ := c
  obtain rfl : view = deepBind := hview
  generalize hc : FdConfig.mk ⟨deepBind, directories, cwds⟩ table owner next read = c at *
  have hopens : Opens c.state openNotifB (c.answers memoryB) ⟨AT_FDCWD, 64, O_DIRECTORY, 0⟩
      boundX.path := by
    subst hc
    exact ⟨List.mem_cons_self, rfl, rfl, ⟨_, List.mem_cons_self, by decide⟩⟩
  have hlook : Exec (c.Answers canonical 100 100)
      (opensDirectory O_DIRECTORY (c.state.view.resolveRead boundX.path.toPath)) [] (some true) :=
    .ret
  have hlisted := FdConfig.exec_answers (c := c) memoryB (c.state.view.listDir boundX.path.toPath)
  have hkey := FdConfig.exec_answers (c := c) memoryB (processKey 100)
  have htrack : TrackRun (c.Answers canonical 100 100) c.state openNotifB
      O_DIRECTORY boundX.path (c.state.view.resolveRead boundX.path.toPath) 3
      (some boundX.entries) (c.state.insertDirectory (100, 3) boundX) _ := .taken hlook hlisted hkey
  have hrun : OpenRun (c.Answers canonical 100 100) c.state openNotifB
      ⟨AT_FDCWD, 64, O_DIRECTORY, 0⟩ boundX.path (c.state.insertDirectory (100, 3) boundX)
      (.ok ()) _ :=
    @OpenRun.sent _ _ _ _ _ _ _ 5 3 _ trivial trivial (exec_trackOpened.mpr ⟨rfl, _, htrack⟩)
  obtain ⟨looks, -, hx⟩ := hopens.run (fun op _ => FdConfig.answers_allowed op) hrun
  exact @FdStep.sent _ _ c openNotifB ⟨AT_FDCWD, 64, O_DIRECTORY, 0⟩ boundX.path looks 5 3
    _ _ _ _ _ List.mem_cons_self hx htrack hfree

/-- The configurations in which a process opens the directory, closes it and opens it again: by the
same path, or by its host path, which is left to the kernel. -/
def beforeB : FdConfig := FdConfig.new deepBind
def againB : FdConfig := openedB (closed (openedB beforeB))
def hostS : Description := ⟨1, osStr ['/', 's'], none⟩
def againS : FdConfig :=
  (closed (openedB beforeB)).opened (openedB beforeB).state 3 hostS

def readTrace (c : FdConfig) : Trace := (handle c.state getdentsNotif).trace (c.answers memoryB)

theorem openS_step : FdStep canonical 100 (closed (openedB beforeB)) (.opened 3 hostS) againS := by
  have hx := FdConfig.exec_answers (c := closed (openedB beforeB)) memoryS
    (handle (openedB beforeB).state openNotifB)
  have hcontinued : Continued ((handle (openedB beforeB).state openNotifB).trace
      ((closed (openedB beforeB)).answers memoryS)) := List.any_eq_true.mp rfl
  exact @FdStep.continued _ _ (closed (openedB beforeB)) openNotifB _ 3 (osStr ['/', 's'])
    (openedB beforeB).state (.ok ()) List.mem_cons_self hx hcontinued rfl

theorem readB_step {c : FdConfig} {s' : State}
    (h : (handle c.state getdentsNotif).eval (c.answers memoryB) = some (s', .ok ())) :
    ∃ c', FdStep canonical 100 c (.getdents getdentsNotif (readTrace c)) c' := by
  have hx := FdConfig.exec_answers (c := c) memoryB (handle c.state getdentsNotif)
  rw [h] at hx
  exact ⟨_, .getdents rfl hx⟩

theorem closeB_run : ∃ ts, Moves (FdStep canonical 100) beforeB ts (closed (openedB beforeB)) ∧
    (∀ t ∈ ts, TakesClean canonical 100 t.before t.label) ∧
    ts.map Move.label = [.opened 3 (descriptionB beforeB), .close 3] := by
  refine ⟨_, .snoc (.snoc .nil (openB_step rfl rfl)) .close, fun t ht => ?_, rfl⟩
  rcases List.mem_cons.mp ht with rfl | ht
  · intro hnone
    cases hnone
  · rw [List.mem_singleton.mp ht]
    trivial

/-- Opened again with a snapshot of its own. -/
theorem reopened_lists_itself_again : ∃ ts c, Moves (FdStep canonical 100) beforeB ts c ∧
    ts.map Move.label = [.opened 3 (descriptionB beforeB), .close 3,
      .opened 3 (descriptionB (closed (openedB beforeB))),
      .getdents getdentsNotif (readTrace againB)] ∧
    ∀ t ∈ ts, ReadsItself 100 t := by
  obtain ⟨ts, hrun, htakes, hlabels⟩ := closeB_run
  obtain ⟨c, hread⟩ := readB_step (c := againB) rfl
  have hruns := Moves.snoc (hrun.snoc (openB_step rfl rfl)) hread
  refine ⟨_, c, hruns, by simp [hlabels], (reopened_lists_itself hruns).1 fun t ht => ?_⟩
  rcases List.mem_append.mp ht with ht | ht
  · rcases List.mem_append.mp ht with ht | ht
    · exact htakes t ht
    · rw [List.mem_singleton.mp ht]
      intro hnone
      cases hnone
  · rw [List.mem_singleton.mp ht]
    trivial

/-- Opened again by its host path: the read that the kernel ought to answer is served from the
snapshot of the first open. -/
theorem reopened_lists_old : ∃ ts c, Moves (FdStep canonical 100) beforeB ts c ∧
    ts.map Move.label = [.opened 3 (descriptionB beforeB), .close 3, .opened 3 hostS,
      .getdents getdentsNotif (readTrace againS)] ∧
    ¬ ∀ t ∈ ts, ReadsItself 100 t := by
  obtain ⟨ts, hrun, -, hlabels⟩ := closeB_run
  obtain ⟨c, hread⟩ := readB_step (c := againS) rfl
  have hruns := Moves.snoc (hrun.snoc openS_step) hread
  refine ⟨_, c, hruns, by simp [hlabels], fun h => ?_⟩
  have hlists := h _ (List.mem_append_right _ List.mem_cons_self) hostS rfl
  cases hlists with
  | kernel hcontinued =>
    have hnone : (readTrace againS).any isContinue = false := rfl
    rw [List.any_eq_true.mpr hcontinued] at hnone
    cases hnone
  | own howner _ _ _ _ => cases howner

end PathShim
