import PathShim.Linux.Opening

/-!
# Opens that fail

`handle_open` opens the source first and sends the descriptor afterwards. When
the sending fails the caller sees an error, and what the open did to the host
file is done. Descriptors and tracked directories are never left over.
-/

namespace PathShim

open UnixPath Effects

def EMFILE : Errno := 24

def O_CREAT : Int32 := 0x40
def O_TRUNC : Int32 := 0x200
def O_PATH : Int32 := 0x200000

-- ---------------------------------------------------------------------------
-- Host files
-- ---------------------------------------------------------------------------

inductive HostNode where
  | dir
  | file (contents : Bytes)
  | other
  deriving DecidableEq

abbrev HostTree := AbsPath → Option HostNode

/-- What a successful `open` leaves at the location of its path: `O_CREAT` makes a missing file,
`O_TRUNC` empties an existing one, and `O_PATH` makes it ignore both. -/
def HostTree.opened (tree : HostTree) (location : AbsPath) (flags : Int32) : HostTree :=
  if flags &&& O_PATH ≠ 0 then tree
  else match tree location with
    | none =>
      if flags &&& O_CREAT ≠ 0 then Function.update tree location (some (.file [])) else tree
    | some (.file _) =>
      if flags &&& O_TRUNC ≠ 0 then Function.update tree location (some (.file [])) else tree
    | some _ => tree

/-- A missing file to create, or contents to throw away. -/
def HostTree.Changes (tree : HostTree) (location : AbsPath) (flags : Int32) : Prop :=
  flags &&& O_PATH = 0 ∧
    (tree location = none ∧ flags &&& O_CREAT ≠ 0 ∨
      ∃ contents, contents ≠ [] ∧ tree location = some (.file contents) ∧ flags &&& O_TRUNC ≠ 0)

theorem HostTree.opened_eq_self {tree : HostTree} {location : AbsPath} {flags : Int32} :
    tree.opened location flags = tree ↔ ¬ tree.Changes location flags := by
  unfold opened Changes
  by_cases hpath : flags &&& O_PATH = 0
  · rw [if_neg (not_not_intro hpath)]
    cases hnode : tree location with
    | none =>
      by_cases hcreate : flags &&& O_CREAT = 0
      · simp [hcreate]
      · simp [hpath, hcreate, Function.update_eq_self_iff, hnode]
    | some node =>
      cases node with
      | file contents =>
        by_cases htrunc : flags &&& O_TRUNC = 0
        · simp [htrunc]
        · simp [hpath, htrunc, hnode, eq_comm]
      | dir => simp
      | other => simp
  · simp [hpath]

/-- Host files, where the kernel finds a host path once it has followed its links, and which opens
it lets the supervisor do. -/
structure HostFiles where
  tree : HostTree
  location : OsStr → AbsPath
  lets : OsStr → Int32 → UInt32 → Prop

namespace HostFiles

/-- Observations have fixed answers, and an open succeeds only if the host lets it. -/
def Answers (host : HostFiles) (ans : (op : Op) → op.Answer) (op : Op) (r : op.Answer) : Prop :=
  Observed ans op r ∧ ∀ path flags mode fd,
    (⟨op, r⟩ : Event Op.Answer) = ⟨.openFile path flags mode, .ok fd⟩ → host.lets path flags mode

/-- One call. An open that fails has no effect. -/
def step (host : HostFiles) (tree : HostTree) (e : Event Op.Answer) : HostTree :=
  match e with
  | ⟨.openFile path flags _, .ok _⟩ => tree.opened (host.location path) flags
  | _ => tree

def after (host : HostFiles) (tr : Trace) : HostTree := tr.foldl host.step host.tree

end HostFiles

/-- A call that may change host files, apart from `open`. -/
def Op.alters : Op → Bool
  | .createDir .. | .removeDir _ | .removeFile _ | .rename .. | .symlink .. | .truncate ..
  | .chmod .. | .fchownat .. | .utimensat .. => true
  | _ => false

/-- Looking at a directory that has been opened. -/
def Op.Snapshots : Op → Prop
  | .metadata _ | .symlinkMetadata _ | .readDir _ | .processStatusField .. => True
  | _ => False

-- ---------------------------------------------------------------------------
-- What the parts leave behind
-- ---------------------------------------------------------------------------

section
variable {host : HostFiles} {state after : State} {notif : SeccompNotif}
  {ans : (op : Op) → op.Answer} {arguments : OpenArguments} {v : AbsPath}

theorem HostFiles.observed_eq (op : Op) (r : op.Answer) (hop : op.Observes)
    (hr : host.Answers ans op r) : r = ans op := hr.1 hop

theorem HostFiles.observed_ans (op : Op) (hop : op.Observes) : host.Answers ans op (ans op) := by
  refine ⟨fun _ => rfl, fun path flags mode fd h => ?_⟩
  obtain rfl := congrArg Event.op h
  cases hop

/-- Calls other than `open` leave the files alone. -/
theorem HostFiles.foldl_step {tr : Trace} {S : Op → Prop} (h : ∀ e ∈ tr, S e.op)
    (hS : ∀ path flags mode, ¬ S (.openFile path flags mode)) (tree : HostTree) :
    tr.foldl host.step tree = tree := by
  refine foldl_unchanged fun e he => ?_
  obtain ⟨op, r⟩ := e
  cases op with
  | openFile path flags mode => exact absurd (h _ he) (hS path flags mode)
  | _ => rfl

theorem snapshots_trackOpened {flags : Int32} {childFd : Fd} :
    (trackOpened state notif flags v (state.view.resolveRead v.toPath) childFd).Calls
      Op.Snapshots :=
  calls_tracking trivial (fun _ => trivial) (fun _ _ => trivial) trivial flags childFd

theorem not_alters_observes {op : Op} (h : op.Observes) : op.alters = false := by
  cases op <;> first | rfl | cases h

theorem not_alters_snapshots {op : Op} (h : op.Snapshots) : op.alters = false := by
  cases op <;> first | rfl | cases h

-- ---------------------------------------------------------------------------
-- What an open leaves behind
-- ---------------------------------------------------------------------------

/-- The host may do this open, and it would change something. -/
def HostFiles.Effective (host : HostFiles) (state : State) (arguments : OpenArguments)
    (v : AbsPath) : Prop :=
  host.lets (state.view.resolveRead v.toPath) (arguments.flags &&& ~~~O_CLOEXEC) arguments.mode ∧
    host.tree.Changes (host.location (state.view.resolveRead v.toPath))
      (arguments.flags &&& ~~~O_CLOEXEC)

/-- After every error reply the host files are what they were, no descriptor has been added and no
directory is tracked. -/
def FailsCleanly (host : HostFiles) (state : State) (notif : SeccompNotif)
    (ans : (op : Op) → op.Answer) : Prop :=
  ∀ tr after r, Exec (host.Answers ans) (handle state notif) tr (some (after, r)) → Refused tr →
    host.after tr = host.tree ∧
      (∀ request fd, (⟨.addFd request, .ok fd⟩ : Event Op.Answer) ∉ tr) ∧ after = state

variable (h : Opens state notif ans arguments v)
include h

theorem Opens.refused {tr : Trace} {r : IoResult Unit}
    (hx : Exec (host.Answers ans) (handle state notif) tr (some (after, r)))
    (hrefused : Refused tr) :
    (∀ request fd, (⟨.addFd request, .ok fd⟩ : Event Op.Answer) ∉ tr) ∧ after = state ∧
      (¬ host.Effective state arguments v → host.after tr = host.tree) := by
  obtain ⟨looks, rest, rfl, hlooks, hrun⟩ := h.exec host.observed_eq hx
  have hafter : host.after (looks ++ rest) = rest.foldl host.step host.tree := by
    rw [HostFiles.after, List.foldl_append, HostFiles.foldl_step hlooks fun _ _ _ hop => hop]
  rw [hafter]
  cases hrun with
  | notOpened hopened hreply hs =>
    obtain ⟨a, rfl, -⟩ := exec_respond_eq hreply
    refine ⟨fun request fd hmem => ?_, hs, fun _ => rfl⟩
    rcases List.mem_append.mp hmem with hmem | hmem
    · exact hlooks _ hmem
    · simp at hmem
  | notSent hopened hadded hreply hs =>
    obtain ⟨a, rfl, -⟩ := exec_respond_eq hreply
    refine ⟨fun request fd hmem => ?_, hs, fun hno => ?_⟩
    · rcases List.mem_append.mp hmem with hmem | hmem
      · exact hlooks _ hmem
      · simp at hmem
    · have hlets := hopened.2 _ _ _ _ rfl
      exact HostTree.opened_eq_self.mpr fun hchanges => hno ⟨hlets, hchanges⟩
  | sent hopened hadded htrack =>
    -- the descriptor was the reply
    obtain ⟨response, a, hmem, -⟩ := hrefused
    rcases List.mem_append.mp hmem with hmem | hmem
    · exact (hlooks _ hmem).elim
    · rcases List.mem_cons.mp hmem with heq | hmem
      · cases congrArg Event.op heq
      · rcases List.mem_cons.mp hmem with heq | hmem
        · cases congrArg Event.op heq
        · exact (htrack.calls snapshots_trackOpened _ hmem).elim

/-- No other call that changes host files is made. -/
theorem Opens.not_alters {tr : Trace} {r : IoResult Unit}
    (hx : Exec (host.Answers ans) (handle state notif) tr (some (after, r))) :
    ∀ e ∈ tr, e.op.alters = false := by
  obtain ⟨looks, rest, rfl, hlooks, hrun⟩ := h.exec host.observed_eq hx
  have hrest : ∀ e ∈ rest, e.op.alters = false := by
    cases hrun with
    | notOpened hopened hreply hs =>
      obtain ⟨a, rfl, -⟩ := exec_respond_eq hreply
      simp [Op.alters]
    | notSent hopened hadded hreply hs =>
      obtain ⟨a, rfl, -⟩ := exec_respond_eq hreply
      simp [Op.alters]
    | sent hopened hadded htrack =>
      have hsnapshots := htrack.calls snapshots_trackOpened
      simpa [Op.alters] using fun e he => not_alters_snapshots (hsnapshots e he)
  intro e he
  exact (List.mem_append.mp he).elim (fun hmem => not_alters_observes (hlooks e hmem)) (hrest e)

/-- If the open has an effect, it may be there although the sending failed. -/
theorem Opens.effective (heffective : host.Effective state arguments v) :
    ∃ tr r, Exec (host.Answers ans) (handle state notif) tr (some (state, r)) ∧ Refused tr ∧
      host.after tr ≠ host.tree := by
  have hopened : host.Answers ans (openOp state arguments v) (.ok 0) := by
    refine ⟨fun hop => hop.elim, fun path flags mode fd heq => ?_⟩
    cases heq
    exact heffective.1
  have hadded : host.Answers ans (.addFd (sendRequest notif.id 0 arguments.flags))
      (.error EMFILE) := ⟨fun hop => hop.elim, fun _ _ _ _ heq => by cases heq⟩
  have hreply : Exec (host.Answers ans) (respondError notif.id EMFILE)
      [⟨.respond ⟨notif.id, 0, -EMFILE, 0⟩, .ok ()⟩] (some (.ok ())) :=
    .call ⟨fun hop => hop.elim, fun _ _ _ _ heq => by cases heq⟩ .ret
  obtain ⟨looks, hlooks, hx⟩ := h.run host.observed_ans (.notSent hopened hadded hreply rfl)
  refine ⟨_, _, hx, ⟨⟨notif.id, 0, -EMFILE, 0⟩, .ok (), by simp, by simp [EMFILE]⟩, ?_⟩
  rw [HostFiles.after, List.foldl_append, HostFiles.foldl_step hlooks fun _ _ _ hop => hop]
  exact fun hsame => HostTree.opened_eq_self.mp hsame heffective.2

/-- A failed open has no effect exactly when its host open would have none: the host refuses it, or
there is nothing to create and nothing to truncate. The caller's descriptors and the tracked
directories are untouched either way. -/
theorem failed_open :
    (FailsCleanly host state notif ans ↔ ¬ host.Effective state arguments v) ∧
    ∀ tr after r, Exec (host.Answers ans) (handle state notif) tr (some (after, r)) →
      (∀ e ∈ tr, e.op.alters = false) ∧
      (Refused tr → (∀ request fd, (⟨.addFd request, .ok fd⟩ : Event Op.Answer) ∉ tr) ∧
        after = state) := by
  refine ⟨⟨fun hclean heffective => ?_, fun hno tr after r hx hrefused => ?_⟩,
    fun tr after r hx => ⟨?_, fun hrefused => ?_⟩⟩
  · obtain ⟨tr, r, hx, hrefused, hne⟩ := h.effective heffective
    exact hne (hclean tr state r hx hrefused).1
  · obtain ⟨hfds, hs, htree⟩ := h.refused hx hrefused
    exact ⟨htree hno, hfds, hs⟩
  · exact h.not_alters hx
  · obtain ⟨hfds, hs, -⟩ := h.refused hx hrefused
    exact ⟨hfds, hs⟩

end

-- ---------------------------------------------------------------------------
-- A file emptied by a failed open
-- ---------------------------------------------------------------------------

def fileX : AbsPath := [nameS, nameX]

/-- One file with something in it, on a host that allows everything. -/
def hostX : HostFiles where
  tree := fun location => if location = fileX then some (.file [7]) else none
  location := OsStr.normalize
  lets := fun _ _ _ => True

/-- `open("/a/x", flags)`. -/
def openX (flags : UInt64) : SeccompNotif :=
  ⟨7, 100, .sysOpen, fun i => if i = 0 then 64 else if i = 1 then flags else 0⟩

/-- The caller has no descriptor left. -/
def fullAnswers : (op : Op) → op.Answer
  | .openFile .. => .ok 5
  | .addFd _ => .error EMFILE
  | .respond _ => .ok ()
  | op => projectedMemory.answers op

theorem opens_x (flags : UInt64) :
    Opens (State.new oneBind) (openX flags) fullAnswers
      ⟨AT_FDCWD, 64, asI32 flags, 0⟩ [nameA, nameX] :=
  ⟨List.mem_cons_self, rfl, rfl, ⟨_, List.mem_cons_self, by decide⟩⟩

/-- `O_TRUNC` with the descriptor table full: `EMFILE`, and the contents are gone. -/
theorem failed_open_truncates :
    ¬ FailsCleanly hostX (State.new oneBind) (openX 0x202) fullAnswers ∧
      ∃ tr r, Exec (hostX.Answers fullAnswers) (handle (State.new oneBind) (openX 0x202)) tr
          (some (State.new oneBind, r)) ∧
        ⟨.respond ⟨7, 0, -EMFILE, 0⟩, .ok ()⟩ ∈ tr ∧ hostX.tree fileX = some (.file [7]) ∧
        hostX.after tr fileX = some (.file []) := by
  have hx : Exec (hostX.Answers fullAnswers) (handle (State.new oneBind) (openX 0x202))
      ((handle (State.new oneBind) (openX 0x202)).trace fullAnswers)
      (some (State.new oneBind, .ok ())) :=
    exec_eval (E := hostX.Answers fullAnswers) fullAnswers
      (fun _ => ⟨fun _ => rfl, fun _ _ _ _ _ => trivial⟩) _
  have hreply : ⟨.respond ⟨7, 0, -EMFILE, 0⟩, .ok ()⟩ ∈
      (handle (State.new oneBind) (openX 0x202)).trace fullAnswers :=
    List.mem_of_getElem? (i := 3) rfl
  refine ⟨fun hclean => ?_, _, _, hx, hreply, rfl, rfl⟩
  have htree := (hclean _ _ _ hx ⟨_, _, hreply, by decide⟩).1
  exact absurd (congrFun htree fileX) (by decide)

/-- Without `O_CREAT` and `O_TRUNC` there is nothing to lose. -/
theorem failed_open_readonly :
    FailsCleanly hostX (State.new oneBind) (openX 0) fullAnswers := by
  refine (failed_open (opens_x 0)).1.mpr ?_
  rintro ⟨-, -, ⟨-, hcreate⟩ | ⟨contents, -, -, htrunc⟩⟩
  · exact absurd hcreate (by decide)
  · exact absurd htrunc (by decide)

end PathShim
