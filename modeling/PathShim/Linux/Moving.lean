import PathShim.Subtrees
import PathShim.Linux.Rename
import PathShim.Linux.StateFrame

/-!
# What a rename moves

The host moves one subtree of one source. The guest finds it moved as far as
the paths below both names stay in that projection; a destination in between
keeps what its own source has.
-/

namespace PathShim

open UnixPath Effects Mounts Subtrees

variable {β : Type}

/-- What there is at each host location, without symbolic or hard links. -/
abbrev HostSpace (β : Type) := Space Name β

/-- Where a host path leads. -/
def HostSpace.at (space : HostSpace β) (path : OsStr) : Option β := space path.normalize

/-- What the host may rename: something, to itself or to outside its own subtree, and not onto a
directory it lies in. -/
def Renamable (space : HostSpace β) (old new : AbsPath) : Prop :=
  space old ≠ none ∧ (old = new ∨ Apart old new)

/-- Observations have fixed answers. The host renames only what can be renamed, and an error of it
has a number. -/
def HostSpace.Answers (space : HostSpace β) (ans : (op : Op) → op.Answer) (op : Op)
    (r : op.Answer) : Prop :=
  Observed ans op r ∧ ∀ old new,
    ((⟨op, r⟩ : Event Op.Answer) = ⟨.rename old new, .ok ()⟩ →
      Renamable space old.normalize new.normalize) ∧
    ∀ e, (⟨op, r⟩ : Event Op.Answer) = ⟨.rename old new, .error e⟩ → errno e ≠ 0

def HostSpace.step (space : HostSpace β) (e : Event Op.Answer) : HostSpace β :=
  match e with
  | ⟨.rename old new, .ok ()⟩ => moved space old.normalize new.normalize
  | _ => space

/-- The host after the calls of a trace. -/
def HostSpace.after (space : HostSpace β) (tr : Trace) : HostSpace β :=
  tr.foldl HostSpace.step space

/-- What the guest reaches at a path. -/
def BindView.reached (view : BindView) (space : HostSpace β) (path : AbsPath) : Option β :=
  space.at (view.resolveRead path.toPath)

section
variable {space : HostSpace β} {state : State} {notif : SeccompNotif}
  {ans : (op : Op) → op.Answer} {tr : Trace}

theorem BindView.reached_eq (view : BindView) (space : HostSpace β) (path : AbsPath) :
    view.reached space path = space (view.locate path) := by
  rw [reached, HostSpace.at, view.normalize_resolveRead, AbsPath.normalize_toPath]

theorem HostSpace.observed_eq (op : Op) (r : op.Answer) (hop : op.Observes)
    (hr : space.Answers ans op r) : r = ans op := hr.1 hop

theorem HostSpace.foldl_observes (h : ∀ e ∈ tr, e.op.Observes) : space.after tr = space := by
  refine foldl_unchanged fun e he => ?_
  obtain ⟨op, r⟩ := e
  have hop := h _ he
  cases op <;> first | rfl | cases hop

/-- A rename that reports success has moved one subtree of the selected source. -/
theorem exec_renamed (hrename : notif.data.nr ∈ [.sysRename, .sysRenameat, .sysRenameat2])
    {first second : Fd × UInt64} (hoperands : pathOperands notif = [first, second])
    {old new : AbsPath} (hold : Resolves state notif ans first old)
    (hnew : Resolves state notif ans second new) {out : Option (State × IoResult Unit)}
    (hx : Exec (space.Answers ans) (handle state notif) tr out)
    (hsuccess : ∃ a, ⟨.respond ⟨notif.id, 0, 0, 0⟩, a⟩ ∈ tr) :
    Renamable space (state.view.locate old) (state.view.locate new) ∧
      space.after tr = moved space (state.view.locate old) (state.view.locate new) := by
  obtain ⟨a, hsuccess⟩ := hsuccess
  have hanswers := hx.answers
  rw [pathOperands_rename hrename, List.cons.injEq, List.cons.injEq] at hoperands
  obtain ⟨rfl, rfl, -⟩ := hoperands
  rw [handle_rename hrename] at hx
  obtain ⟨out', hx, -⟩ := exec_answered.mp hx
  have hflags : (renameArguments notif).flags = 0 := by
    by_contra hflags
    rw [handleRename, if_pos hflags] at hx
    obtain ⟨a, rfl, -⟩ := exec_respond_eq hx
    simp [ENOTSUP] at hsuccess
  obtain ⟨looks, rest, r, rfl, -, hlooks, hroute⟩ :=
    exec_handleRename space.observed_eq hflags hold hnew hx
  replace hsuccess := (List.mem_append.mp hsuccess).resolve_left fun hmem => hlooks _ hmem
  have hfirst : looks.foldl HostSpace.step space = space := HostSpace.foldl_observes hlooks
  have hlocate (path : AbsPath) :
      (state.view.resolveRead path.toPath).normalize = state.view.locate path := by
    rw [state.view.normalize_resolveRead, AbsPath.normalize_toPath]
  rw [HostSpace.after, List.foldl_append, hfirst]
  cases hroute with
  | kernel _ _ => simp [USER_NOTIF_FLAG_CONTINUE] at hsuccess
  | crossing _ _ => simp [EXDEV] at hsuccess
  | @host m answer a _ _ =>
    have hanswer := (hanswers _ (List.mem_append_right _ List.mem_cons_self)).2
      (state.view.resolveRead old.toPath) (state.view.resolveRead new.toPath)
    cases answer with
    | ok value =>
      have hrenamable := hanswer.1 rfl
      rw [hlocate, hlocate] at hrenamable
      refine ⟨hrenamable, ?_⟩
      rw [← hlocate old, ← hlocate new]
      rfl
    | error e =>
      obtain ⟨hzero, -⟩ : 0 = -errno e ∧ _ = a := by simpa [renameReply] using hsuccess
      exact absurd (Int.neg_eq_zero.mp hzero.symm) (hanswer.2 e rfl)

-- ---------------------------------------------------------------------------
-- The guest's subtree
-- ---------------------------------------------------------------------------

theorem Longest.locate_append {view : BindView} {m : Mount Name} {path rest : AbsPath}
    (h : Longest view.table m path) (hrest : Longest view.table m (path ++ rest)) :
    view.locate (path ++ rest) = view.locate path ++ rest := by
  obtain ⟨inner, rfl⟩ := h.covers
  rw [List.append_assoc] at hrest ⊢
  rw [BindView.locate, BindView.locate, locate_of_longest view.table_wellFormed hrest,
    locate_of_longest view.table_wellFormed h, List.append_assoc]

theorem Longest.locate_inj {view : BindView} {m : Mount Name} {path path' : AbsPath}
    (h : Longest view.table m path) (h' : Longest view.table m path')
    (heq : view.locate path = view.locate path') : path = path' := by
  obtain ⟨inner, rfl⟩ := h.covers
  obtain ⟨inner', rfl⟩ := h'.covers
  rw [BindView.locate, BindView.locate, locate_of_longest view.table_wellFormed h,
    locate_of_longest view.table_wellFormed h'] at heq
  rw [List.append_cancel_left heq]

/-- A successful rename moves what the guest reaches below `old` to below `new`, on every relative
path that stays in the projection of the two. Whatever lies at other host locations stays. -/
theorem rename_moves (hrename : notif.data.nr ∈ [.sysRename, .sysRenameat, .sysRenameat2])
    {first second : Fd × UInt64} (hoperands : pathOperands notif = [first, second])
    {old new : AbsPath} (hold : Resolves state notif ans first old)
    (hnew : Resolves state notif ans second new) (hne : old ≠ new) {m : Mount Name}
    (hm : Longest state.view.table m old) (hm' : Longest state.view.table m new)
    {out : Option (State × IoResult Unit)}
    (hx : Exec (space.Answers ans) (handle state notif) tr out)
    (hsuccess : ∃ a, ⟨.respond ⟨notif.id, 0, 0, 0⟩, a⟩ ∈ tr) :
    (∀ rest, Longest state.view.table m (old ++ rest) →
      state.view.reached (space.after tr) (old ++ rest) = none ∧
      (Longest state.view.table m (new ++ rest) →
        state.view.reached (space.after tr) (new ++ rest) =
          state.view.reached space (old ++ rest))) ∧
    ∀ path, ¬ state.view.locate old <+: state.view.locate path →
      ¬ state.view.locate new <+: state.view.locate path →
      state.view.reached (space.after tr) path = state.view.reached space path := by
  obtain ⟨⟨-, hrenamable⟩, hafter⟩ := exec_renamed hrename hoperands hold hnew hx hsuccess
  have hapart : Apart (state.view.locate old) (state.view.locate new) :=
    hrenamable.resolve_left fun heq => hne (Longest.locate_inj hm hm' heq)
  simp only [BindView.reached_eq, hafter]
  refine ⟨fun rest hrest => ?_, fun path hsource htarget => moved_elsewhere hsource htarget⟩
  rw [Longest.locate_append hm hrest]
  refine ⟨moved_source hapart rest, fun hrest' => ?_⟩
  rw [Longest.locate_append hm' hrest', moved_target]

end

-- ---------------------------------------------------------------------------
-- A destination below the old name
-- ---------------------------------------------------------------------------

/-- `/s` at `/a`, and `/t` at `/a/x/t`. -/
def innerBind : BindView where
  projections := [
    ⟨[nameT], [nameA, nameX, nameT], by decide, by decide⟩,
    ⟨[nameS], [nameA], by decide, by decide⟩]
  deepestFirst := by decide
  distinct := by decide

/-- The two sources, and a directory `x` in the first. -/
def innerSpace : HostSpace Nat := fun path =>
  if path = [nameS] then some 1
  else if path = [nameT] then some 2
  else if path = [nameS, nameX] then some 3 else none

def renamingX : (op : Op) → op.Answer
  | .rename old new =>
    if old.normalize = [nameS, nameX] ∧ new.normalize = [nameS, nameY] then .ok ()
    else .error (.os ENOENT)
  | .respond _ => .ok ()
  | op => siblingMemory.answers op

theorem renamingX_allowed (op : Op) : innerSpace.Answers renamingX op (renamingX op) := by
  refine ⟨fun _ => rfl, fun old new => ?_⟩
  cases op with
  | rename old' new' =>
    by_cases h : old'.normalize = [nameS, nameX] ∧ new'.normalize = [nameS, nameY]
    · rw [show renamingX (.rename old' new') = .ok () from if_pos h]
      refine ⟨fun heq => ?_, fun e heq => (by cases heq)⟩
      obtain ⟨rfl, rfl⟩ : old' = old ∧ new' = new := by simpa using congrArg Event.op heq
      rw [h.1, h.2]
      exact ⟨by decide, .inr ⟨by decide, by decide⟩⟩
    · rw [show renamingX (.rename old' new') = .error (.os ENOENT) from if_neg h]
      refine ⟨fun heq => (by cases heq), fun e heq => ?_⟩
      cases heq
      decide
  | _ =>
    exact ⟨fun heq => (by cases congrArg Event.op heq),
      fun e heq => (by cases congrArg Event.op heq)⟩

def renameTrace : Trace := (handle (State.new innerBind) siblingNotif).trace renamingX

theorem exec_renameTrace : Exec (innerSpace.Answers renamingX)
    (handle (State.new innerBind) siblingNotif) renameTrace
    (some (State.new innerBind, .ok ())) :=
  exec_eval (E := innerSpace.Answers renamingX) renamingX renamingX_allowed _

/-- `/a/x` becomes `/a/y`, and what was at `/a/x/t` is still there and nowhere else. -/
theorem rename_leaves_destination : ∃ tr r,
    Exec (innerSpace.Answers renamingX) (handle (State.new innerBind) siblingNotif) tr
      (some (State.new innerBind, r)) ∧
    (∃ a, ⟨.respond ⟨7, 0, 0, 0⟩, a⟩ ∈ tr) ∧
    innerBind.reached innerSpace (siblingX ++ [nameT]) = some 2 ∧
    innerBind.reached (innerSpace.after tr) (siblingY ++ [nameT]) = none ∧
    innerBind.reached (innerSpace.after tr) (siblingX ++ [nameT]) = some 2 :=
  ⟨_, _, exec_renameTrace, ⟨.ok (), List.mem_of_getElem? (i := 3) rfl⟩, rfl, rfl, rfl⟩

theorem rename_moves_x : innerBind.reached (innerSpace.after renameTrace) siblingX = none ∧
    innerBind.reached (innerSpace.after renameTrace) siblingY =
      innerBind.reached innerSpace siblingX := by
  have hold : Resolves (State.new innerBind) siblingNotif renamingX (AT_FDCWD, 64) siblingX := rfl
  have hnew : Resolves (State.new innerBind) siblingNotif renamingX (AT_FDCWD, 69) siblingY := rfl
  have hsame : innerBind.sameProjection siblingX.toPath siblingY.toPath = true := by decide
  obtain ⟨m, hm, hm'⟩ := sameProjection_toPath.mp hsame
  have hmoves := rename_moves (by decide) (by decide) hold hnew (by decide) hm hm' exec_renameTrace
    ⟨.ok (), List.mem_of_getElem? (i := 3) rfl⟩
  have hx := hmoves.1 [] hm
  exact ⟨hx.1, hx.2 hm'⟩

end PathShim
