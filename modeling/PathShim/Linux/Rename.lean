import PathShim.Linux.FallThrough

/-!
# Where a rename goes

`handle_rename` asks `projects` of both operands and `same_projection` of the
pair, and `BindView::rename` selects the two projections once more. Both are
read as the longest mount of each operand; then they always say the same, and
what is left is one of three routes.
-/

namespace PathShim

open UnixPath Effects Mounts

-- ---------------------------------------------------------------------------
-- The check and its repetition
-- ---------------------------------------------------------------------------

theorem BindView.sameProjection_index {view : BindView} {old new : OsStr} :
    view.sameProjection old new = true ↔ ∃ index,
      view.projectionIndex old.normalize = some index ∧
        view.projectionIndex new.normalize = some index := by
  unfold sameProjection
  split
  · rename_i i j hi hj
    simp only [normalizeVirtual_eq] at hi hj
    rw [hi, hj, beq_iff_eq]
    constructor
    · rintro rfl
      exact ⟨i, rfl, rfl⟩
    · rintro ⟨index, hold, hnew⟩
      exact Option.some.inj (hold.trans hnew.symm)
  · rename_i hno
    refine iff_of_false Bool.false_ne_true ?_
    rintro ⟨index, hold, hnew⟩
    exact hno index index hold hnew

theorem BindView.rename_same {view : BindView} {old new : OsStr}
    (h : view.sameProjection old new = true) :
    view.rename old new = ask (.rename (view.resolveRead old) (view.resolveRead new)) := by
  obtain ⟨index, hold, hnew⟩ := view.sameProjection_index.mp h
  simp only [rename, normalizeVirtual_eq, hold, hnew, ne_eq, not_true, if_false,
    view.resolve_normalize hold, view.resolve_normalize hnew]

theorem BindView.rename_crossing {view : BindView} {old new : OsStr}
    (h : view.sameProjection old new = false) :
    view.rename old new = return .error (.os EXDEV) := by
  unfold rename
  simp only [normalizeVirtual_eq]
  split
  · rename_i i j hi hj
    have hij : i ≠ j := by
      rintro rfl
      rw [view.sameProjection_index.mpr ⟨i, hi, hj⟩] at h
      cases h
    rw [if_pos hij]
  · rfl

theorem BindView.projects_of_sameProjection {view : BindView} {old new : OsStr}
    (h : view.sameProjection old new = true) :
    view.projects old = true ∧ view.projects new = true := by
  obtain ⟨m, hold, hnew⟩ := view.sameProjection_iff.mp h
  exact ⟨view.projects_iff.mpr ⟨m, hold.mem, hold.covers⟩,
    view.projects_iff.mpr ⟨m, hnew.mem, hnew.covers⟩⟩

-- ---------------------------------------------------------------------------
-- The routes
-- ---------------------------------------------------------------------------

section
variable {state : State} {notif : SeccompNotif} {ans : (op : Op) → op.Answer} {tr : Trace}

/-- The reply to a rename that the host has answered with `answer`. -/
def renameReply (id : UInt64) (answer : IoResult Unit) : SeccompNotifResp :=
  match answer with
  | .ok () => ⟨id, 0, 0, 0⟩
  | .error e => ⟨id, 0, -errno e, 0⟩

/-- What `handle_rename` does once it knows its operands. -/
inductive RenameRoute (view : BindView) (id : UInt64) (old new : AbsPath) : Trace → Prop
  | kernel {a} : ¬ view.Projected old → ¬ view.Projected new →
      RenameRoute view id old new [⟨.respond ⟨id, 0, 0, USER_NOTIF_FLAG_CONTINUE⟩, a⟩]
  | crossing {a} : view.Projected old ∨ view.Projected new →
      (¬ ∃ m, Longest view.table m old ∧ Longest view.table m new) →
      RenameRoute view id old new [⟨.respond ⟨id, 0, -EXDEV, 0⟩, a⟩]
  | host {m answer a} : Longest view.table m old → Longest view.table m new →
      RenameRoute view id old new
        [⟨.rename (view.resolveRead old.toPath) (view.resolveRead new.toPath), answer⟩,
          ⟨.respond (renameReply id answer), a⟩]

theorem sameProjection_toPath {view : BindView} {old new : AbsPath} :
    view.sameProjection old.toPath new.toPath = true ↔
      ∃ m, Longest view.table m old ∧ Longest view.table m new := by
  simpa using @BindView.sameProjection_iff view old.toPath new.toPath

theorem exec_handleRename {E : Env Op.Answer} (hE : ∀ op r, op.Observes → E op r → r = ans op)
    {old new : AbsPath} {out : Option (IoResult Unit)} (hflags : (renameArguments notif).flags = 0)
    (hold : Resolves state notif ans
      ((renameArguments notif).oldDirfd, (renameArguments notif).oldAddress) old)
    (hnew : Resolves state notif ans
      ((renameArguments notif).newDirfd, (renameArguments notif).newAddress) new)
    (hx : Exec E (handleRename state notif) tr out) :
    ∃ looks rest r, tr = looks ++ rest ∧ out = some r ∧ (∀ e ∈ looks, e.op.Observes) ∧
      RenameRoute state.view notif.id old new rest := by
  unfold handleRename at hx
  simp only [hflags, ne_eq, not_true, if_false] at hx
  obtain ⟨first, rest, rfl, hfirst, hx⟩ := exec_resolved hE hold hx
  obtain ⟨second, rest, rfl, hsecond, hx⟩ := exec_resolved hE hnew hx
  dsimp only at hx
  have hlooks : ∀ e ∈ first ++ second, e.op.Observes := fun e he =>
    (List.mem_append.mp he).elim (hfirst e) (hsecond e)
  suffices h : ∃ r, out = some r ∧ RenameRoute state.view notif.id old new rest by
    obtain ⟨r, hout, hroute⟩ := h
    exact ⟨first ++ second, rest, r, (List.append_assoc ..).symm, hout, hlooks, hroute⟩
  clear hfirst hsecond hlooks
  split at hx
  · rename_i hneither
    simp only [Bool.and_eq_true, Bool.not_eq_true', ← Bool.not_eq_true,
      BindView.projects_toPath] at hneither
    obtain ⟨a, rfl, rfl⟩ := exec_respond_eq hx
    exact ⟨_, rfl, .kernel hneither.1 hneither.2⟩
  · rename_i heither
    split at hx
    · rename_i hcrossing
      have hnot : state.view.sameProjection old.toPath new.toPath = false := by
        by_contra hsame
        have hboth := BindView.projects_of_sameProjection (Bool.not_eq_false _ ▸ hsame)
        simp [hboth, hsame] at hcrossing
      have hprojected : state.view.Projected old ∨ state.view.Projected new := by
        simpa [← BindView.projects_toPath, or_iff_not_imp_left] using heither
      obtain ⟨a, rfl, rfl⟩ := exec_respond_eq hx
      refine ⟨_, rfl, .crossing hprojected ?_⟩
      rw [← sameProjection_toPath, hnot]
      exact Bool.false_ne_true
    · rename_i hsame
      have hsame : state.view.sameProjection old.toPath new.toPath = true := by
        by_contra hnot
        simp [hnot] at hsame
      obtain ⟨m, hold, hnew⟩ := sameProjection_toPath.mp hsame
      rw [BindView.rename_same hsame] at hx
      obtain ⟨answer, rest, -, hrest, rfl⟩ := exec_perform_bind.mp hx
      cases answer with
      | ok value =>
        obtain ⟨a, rfl, rfl⟩ := exec_respond_eq hrest
        exact ⟨_, rfl, .host hold hnew⟩
      | error e =>
        obtain ⟨a, rfl, rfl⟩ := exec_respond_eq hrest
        exact ⟨_, rfl, .host hold hnew⟩

theorem handle_rename (hrename : notif.data.nr ∈ [.sysRename, .sysRenameat, .sysRenameat2]) :
    handle state notif = answered state (handleRename state notif) := by
  simp only [List.mem_cons, List.not_mem_nil, or_false] at hrename
  rcases hrename with hnr | hnr | hnr <;> simp only [handle, hnr]

theorem BindView.components_longest {view : BindView} {m : Mount Name} {v : AbsPath}
    (h : Longest view.table m v) : ∃ rest, v = m.target ++ rest ∧
      (view.resolveRead v.toPath).components = (AbsPath.toPath (m.origin ++ rest)).components := by
  obtain ⟨rest, rfl⟩ := h.covers
  refine ⟨rest, rfl, ?_⟩
  rw [view.components_resolveRead, AbsPath.normalize_toPath, BindView.locate,
    locate_of_longest view.table_wellFormed h]

/-- With flags 0, a rename whose operands resolve is observed and then left to the kernel, refused
as crossing projections, or carried out once inside one source. -/
theorem rename_routing (hrename : notif.data.nr ∈ [.sysRename, .sysRenameat, .sysRenameat2])
    (hflags : (renameArguments notif).flags = 0) {first second : Fd × UInt64}
    (hoperands : pathOperands notif = [first, second]) {old new : AbsPath}
    (hold : Resolves state notif ans first old) (hnew : Resolves state notif ans second new) :
    (Ensures (Observed ans) (handle state notif) fun tr out =>
      ∃ looks rest r, tr = looks ++ rest ∧ out = some (state, r) ∧ (∀ e ∈ looks, e.op.Observes) ∧
        (¬ state.view.Projected old → ¬ state.view.Projected new → ∃ a,
          rest = [⟨.respond ⟨notif.id, 0, 0, USER_NOTIF_FLAG_CONTINUE⟩, a⟩]) ∧
        (state.view.Projected old ∧ ¬ state.view.Projected new ∨
            ¬ state.view.Projected old ∧ state.view.Projected new ∨
            (∃ m m', Longest state.view.table m old ∧ Longest state.view.table m' new ∧ m ≠ m') →
          ∃ a, rest = [⟨.respond ⟨notif.id, 0, -EXDEV, 0⟩, a⟩]) ∧
        ∀ m, Longest state.view.table m old → Longest state.view.table m new →
          (∃ answer a, rest = [⟨.rename (state.view.resolveRead old.toPath)
              (state.view.resolveRead new.toPath), answer⟩,
            ⟨.respond (renameReply notif.id answer), a⟩]) ∧
          (∃ below, old = m.target ++ below ∧ (state.view.resolveRead old.toPath).components =
            (AbsPath.toPath (m.origin ++ below)).components) ∧
          ∃ below, new = m.target ++ below ∧ (state.view.resolveRead new.toPath).components =
            (AbsPath.toPath (m.origin ++ below)).components) ∧
    ∀ path path', state.view.rename path path' =
      if state.view.projects path && state.view.projects path' &&
          state.view.sameProjection path path' then
        ask (.rename (state.view.resolveRead path) (state.view.resolveRead path'))
      else return .error (.os EXDEV) := by
  refine ⟨fun tr out hx => ?_, fun path path' => ?_⟩
  · rw [pathOperands_rename hrename, List.cons.injEq, List.cons.injEq] at hoperands
    obtain ⟨rfl, rfl, -⟩ := hoperands
    rw [handle_rename hrename] at hx
    obtain ⟨out', hx', rfl⟩ := exec_answered.mp hx
    obtain ⟨looks, rest, r, rfl, rfl, hlooks, hroute⟩ :=
      exec_handleRename observed_eq hflags hold hnew hx'
    refine ⟨looks, rest, r, rfl, rfl, hlooks, ?_⟩
    cases hroute with
    | kernel hno hno' =>
      refine ⟨fun _ _ => ⟨_, rfl⟩, ?_, fun m hm _ => absurd ⟨m, hm.mem, hm.covers⟩ hno⟩
      rintro (⟨h, -⟩ | ⟨-, h⟩ | ⟨m, -, hm, -, -⟩)
      · exact absurd h hno
      · exact absurd h hno'
      · exact absurd ⟨m, hm.mem, hm.covers⟩ hno
    | crossing heither hno =>
      exact ⟨fun h h' => absurd heither (by simp [h, h']), fun _ => ⟨_, rfl⟩,
        fun m hm hm' => absurd ⟨m, hm, hm'⟩ hno⟩
    | @host m answer a hm hm' =>
      have hp : state.view.Projected old := ⟨m, hm.mem, hm.covers⟩
      have hp' : state.view.Projected new := ⟨m, hm'.mem, hm'.covers⟩
      refine ⟨fun h _ => absurd hp h, ?_, fun m₁ hm₁ hm₁' => ?_⟩
      · rintro (⟨-, h⟩ | ⟨h, -⟩ | ⟨m₁, m₂, hm₁, hm₂, hne⟩)
        · exact absurd hp' h
        · exact absurd hp h
        · refine absurd ?_ hne
          rw [hm₁.unique state.view.table_wellFormed hm,
            hm₂.unique state.view.table_wellFormed hm']
      · exact ⟨⟨answer, a, rfl⟩, BindView.components_longest hm₁,
          BindView.components_longest hm₁'⟩
  · split
    · rename_i h
      simp only [Bool.and_eq_true] at h
      exact BindView.rename_same h.2
    · rename_i h
      refine BindView.rename_crossing (by_contra fun hsame => h ?_)
      have hsame : state.view.sameProjection path path' = true := by simpa using hsame
      simp [BindView.projects_of_sameProjection hsame, hsame]

end

def siblingMemory : Memory :=
  .ofBytes 64 (ascii ['/', 'a', '/', 'x'] ++ [0] ++ ascii ['/', 'a', '/', 'y'] ++ [0])

def siblingNotif : SeccompNotif :=
  ⟨7, 100, .sysRename, fun i => if i = 0 then 64 else if i = 1 then 69 else 0⟩

def siblingX : AbsPath := [nameA, nameX]
def siblingY : AbsPath := [nameA, nameY]

theorem rename_routing_sibling : Ensures (Observed siblingMemory.answers)
    (handle (State.new oneBind) siblingNotif) fun tr _ => ∃ looks answer a, tr = looks ++
      [⟨.rename (osStr ['/', 's', '/', 'x']) (osStr ['/', 's', '/', 'y']), answer⟩,
        ⟨.respond (renameReply 7 answer), a⟩] := by
  have hold : Resolves (State.new oneBind) siblingNotif siblingMemory.answers (AT_FDCWD, 64)
      siblingX := rfl
  have hnew : Resolves (State.new oneBind) siblingNotif siblingMemory.answers (AT_FDCWD, 69)
      siblingY := rfl
  have hrouting := (rename_routing (by decide) (by decide) (by decide) hold hnew).1
  intro tr out hx
  obtain ⟨looks, rest, -, rfl, -, -, -, -, hhost⟩ := hrouting tr out hx
  have hsame : oneBind.sameProjection siblingX.toPath siblingY.toPath = true := by decide
  obtain ⟨m, hm, hm'⟩ := sameProjection_toPath.mp hsame
  obtain ⟨⟨answer, a, rfl⟩, -⟩ := hhost m hm hm'
  exact ⟨looks, answer, a, rfl⟩

end PathShim
