import PathShim.Bind.Forward

/-!
# Host to guest

`virtual_for_host` goes back through the deepest source, the forward mapping
through the deepest destination. Where a nested destination replaces part of
the guest tree the first one names, the two disagree; this module says when.
-/

namespace PathShim

open UnixPath Mounts

-- ---------------------------------------------------------------------------
-- The last of the maximal elements
-- ---------------------------------------------------------------------------

/-- Nothing before `a` has a greater key, and everything after it has a smaller one. -/
def LastMax (key : α → Nat) (xs : List α) (a : α) : Prop :=
  ∃ before after, xs = before ++ a :: after ∧
    (∀ b ∈ before, key b ≤ key a) ∧ ∀ b ∈ after, key b < key a

theorem LastMax.mem {key : α → Nat} {xs : List α} (h : LastMax key xs a) : a ∈ xs := by
  obtain ⟨before, after, rfl, -, -⟩ := h
  simp

theorem LastMax.bound {key : α → Nat} {xs : List α} (h : LastMax key xs a) (hb : b ∈ xs) :
    key b ≤ key a := by
  obtain ⟨before, after, rfl, hbefore, hafter⟩ := h
  rcases List.mem_append.mp hb with hb | hb
  · exact hbefore b hb
  · rcases List.mem_cons.mp hb with rfl | hb
    · exact Nat.le_refl _
    · exact Nat.le_of_lt (hafter b hb)

theorem LastMax.exists {key : α → Nat} {xs : List α} (h : xs ≠ []) : ∃ a, LastMax key xs a := by
  induction xs with
  | nil => exact absurd rfl h
  | cons x xs ih =>
    by_cases hxs : xs = []
    · exact ⟨x, [], [], by simp [hxs], by simp, by simp⟩
    · obtain ⟨a, ha⟩ := ih hxs
      by_cases hx : key x ≤ key a
      · obtain ⟨before, after, rfl, hbefore, hafter⟩ := ha
        refine ⟨a, x :: before, after, rfl, ?_, hafter⟩
        intro b hb
        rcases List.mem_cons.mp hb with rfl | hb
        · exact hx
        · exact hbefore b hb
      · exact ⟨x, [], xs, rfl, by simp, fun b hb =>
          Nat.lt_of_le_of_lt (ha.bound hb) (Nat.lt_of_not_le hx)⟩

theorem LastMax.map (key : β → Nat) (f : α → β) {xs : List α}
    (h : LastMax (fun a => key (f a)) xs a) : LastMax key (xs.map f) (f a) := by
  obtain ⟨before, after, rfl, hbefore, hafter⟩ := h
  refine ⟨before.map f, after.map f, by simp, ?_, ?_⟩
  · intro b hb
    obtain ⟨c, hc, rfl⟩ := List.mem_map.mp hb
    exact hbefore c hc
  · intro b hb
    obtain ⟨c, hc, rfl⟩ := List.mem_map.mp hb
    exact hafter c hc

theorem maxByKey_fold_mem {key : α → Nat} {xs : List α} (a : α) :
    xs.foldl (fun best b => if key best ≤ key b then b else best) a ∈ a :: xs := by
  induction xs generalizing a with
  | nil => simp
  | cons x xs ih =>
    rw [List.foldl_cons]
    split
    · exact List.mem_cons_of_mem _ (ih x)
    · rcases List.mem_cons.mp (ih a) with h | h
      · rw [h]
        exact List.mem_cons_self
      · exact List.mem_cons_of_mem _ (List.mem_cons_of_mem _ h)

theorem maxByKey_fold_after {key : α → Nat} {xs : List α} {a : α} (h : ∀ b ∈ xs, key b < key a) :
    xs.foldl (fun best b => if key best ≤ key b then b else best) a = a := by
  induction xs with
  | nil => rfl
  | cons x xs ih =>
    rw [List.foldl_cons, if_neg (Nat.not_le.mpr (h x (by simp)))]
    exact ih fun b hb => h b (List.mem_cons_of_mem _ hb)

theorem LastMax.maxByKey {key : α → Nat} {xs : List α} (h : LastMax key xs a) :
    maxByKey key xs = some a := by
  obtain ⟨before, after, rfl, hbefore, hafter⟩ := h
  cases before with
  | nil => exact congrArg some (maxByKey_fold_after hafter)
  | cons b before =>
    simp only [PathShim.maxByKey, List.cons_append, List.foldl_append, List.foldl_cons]
    rw [if_pos (hbefore _ (maxByKey_fold_mem b)), maxByKey_fold_after hafter]

theorem LastMax.unique {key : α → Nat} {xs : List α} (h : LastMax key xs a)
    (h' : LastMax key xs b) : a = b := by
  simpa [h.maxByKey] using h'.maxByKey

-- ---------------------------------------------------------------------------
-- The way back
-- ---------------------------------------------------------------------------

/-- Of the projections whose source covers the host path, `p` is the last of the deepest. -/
def BindView.Back (view : BindView) (host : AbsPath) (p : Projection) : Prop :=
  LastMax (fun p => depth p.source) (view.projections.filter fun p => startsWith host p.source) p

theorem BindView.Back.covers {view : BindView} {host : AbsPath} {p : Projection}
    (h : view.Back host p) : p ∈ view.projections ∧ p.source <+: host := by
  have hmem := h.mem
  simp only [List.mem_filter, startsWith_iff] at hmem
  exact hmem

theorem BindView.Back.exists {view : BindView} {host : AbsPath} {p : Projection}
    (hp : p ∈ view.projections) (hc : p.source <+: host) : ∃ q, view.Back host q :=
  LastMax.exists (List.ne_nil_of_mem (List.mem_filter.mpr ⟨hp, startsWith_iff.mpr hc⟩))

theorem stripBase_eq {host : OsStr} {path : AbsPath}
    (h : host.components = path.toPath.components) (base : AbsPath) :
    host.stripBase base =
      if startsWith path base then some (relative ((path.drop base.length).map .normal))
      else none := by
  split
  · rename_i hb
    obtain ⟨rest, rfl⟩ := startsWith_iff.mp hb
    exact (OsStr.stripBase_eq_some h).mpr ⟨rest, rfl, by simp⟩
  · rename_i hb
    rw [Option.eq_none_iff_forall_ne_some]
    intro rest hrest
    obtain ⟨names, rfl, -⟩ := (OsStr.stripBase_eq_some h).mp hrest
    exact hb (startsWith_iff.mpr (List.prefix_append _ _))

theorem normalize_joinVirtual (destination : AbsPath) (names : AbsPath) :
    (joinVirtual destination (relative (names.map .normal))).normalize = destination ++ names := by
  unfold joinVirtual
  split
  · rename_i h
    have hnames : names.map Component.normal = [] := by
      rw [← steps_relative, h, steps_nil]
    rw [List.map_eq_nil_iff.mp hnames]
    simp
  · rw [OsStr.normalize_join (relative_isAbsolute names), steps_relative]
    simp

theorem BindView.candidates_eq (view : BindView) {host : OsStr} {path : AbsPath}
    (h : host.components = path.toPath.components) :
    (view.projections.filterMap fun p =>
      (host.stripBase p.source).map fun rest => (depth p.source, joinVirtual p.destination rest)) =
    (view.projections.filter fun p => startsWith path p.source).map fun p =>
      (depth p.source,
        joinVirtual p.destination (relative ((path.drop p.source.length).map .normal))) := by
  rw [← List.filterMap_eq_map, List.filterMap_filter]
  congr 1
  funext p
  rw [stripBase_eq h]
  split <;> simp

theorem BindView.virtualForHost_of_no_source {view : BindView} {host : OsStr} {path : AbsPath}
    (h : host.components = path.toPath.components)
    (hno : ∀ p ∈ view.projections, ¬ p.source <+: path) : view.virtualForHost host = host := by
  have hempty : (view.projections.filter fun p => startsWith path p.source) = [] := by
    rw [List.filter_eq_nil_iff]
    intro p hp
    rw [startsWith_iff]
    exact hno p hp
  unfold virtualForHost
  rw [view.candidates_eq h, hempty]
  rfl

theorem BindView.normalize_virtualForHost {view : BindView} {host : OsStr} {p : Projection}
    {rest : AbsPath} (h : host.components = (p.source ++ rest : AbsPath).toPath.components)
    (hback : view.Back (p.source ++ rest) p) :
    (view.virtualForHost host).normalize = p.destination ++ rest := by
  have hcand : maxByKey Prod.fst (view.projections.filterMap fun q =>
      (host.stripBase q.source).map fun rest =>
        (depth q.source, joinVirtual q.destination rest)) =
      some (depth p.source, joinVirtual p.destination (relative (rest.map .normal))) := by
    rw [view.candidates_eq h]
    have hmax := LastMax.map Prod.fst (fun q : Projection =>
      (depth q.source, joinVirtual q.destination
        (relative (((p.source ++ rest).drop q.source.length).map .normal)))) hback
    simpa using hmax.maxByKey
  unfold virtualForHost
  dsimp only
  rw [hcand]
  exact normalize_joinVirtual p.destination rest

-- ---------------------------------------------------------------------------
-- Round trips
-- ---------------------------------------------------------------------------

/-- The mount selected below `p`'s destination keeps what `p`'s source has there. -/
def BindView.Unshadowed (view : BindView) (p : Projection) (rest : AbsPath) : Prop :=
  ∀ m, Longest view.table m (p.destination ++ rest) → ∀ between,
    m.target = p.destination ++ between → m.origin = p.source ++ between

/-- No destination nested in the one a host path is mapped back to replaces that path. -/
def BindView.Reversible (view : BindView) (host : AbsPath) : Prop :=
  ∀ p rest, view.Back host p → host = p.source ++ rest → view.Unshadowed p rest

theorem components_toPath_inj {p q : AbsPath}
    (h : p.toPath.components = q.toPath.components) : p = q := by
  simp only [AbsPath.components_toPath, List.cons.injEq, true_and] at h
  exact List.map_injective_iff.mpr (fun _ _ h => Component.normal.inj h) h

theorem BindView.locate_unshadowed {view : BindView} {p : Projection} {rest : AbsPath}
    (hp : p ∈ view.projections) :
    view.locate (p.destination ++ rest) = p.source ++ rest ↔ view.Unshadowed p rest := by
  have hcovered : Covered view.table (p.destination ++ rest) :=
    ⟨p.mount, List.mem_map_of_mem hp, List.prefix_append _ _⟩
  obtain ⟨m, below, hl, hpath, hloc⟩ := hcovered.locate view.table_wellFormed
  have hlen := hl.longest p.mount (List.mem_map_of_mem hp) (List.prefix_append _ _)
  obtain ⟨between, hbetween⟩ := List.prefix_of_prefix_length_le
    (List.prefix_append p.destination rest) hl.covers hlen
  have hrest : rest = between ++ below := by
    rw [← hbetween, List.append_assoc] at hpath
    exact List.append_cancel_left hpath
  rw [locate, hloc]
  constructor
  · intro heq m' hl' between' hbetween'
    obtain rfl := hl.unique view.table_wellFormed hl'
    obtain rfl := List.append_cancel_left (hbetween.trans hbetween')
    rw [hrest, ← List.append_assoc] at heq
    exact List.append_cancel_right heq
  · intro h
    rw [h m hl between hbetween.symm, hrest, List.append_assoc]

/-- A host path under some source comes back exactly when nothing shadows it. -/
theorem BindView.round_trip_of_source {view : BindView} {host : OsStr} {path : AbsPath}
    (h : host.components = path.toPath.components)
    (hsource : ∃ p ∈ view.projections, p.source <+: path) :
    view.locate (view.virtualForHost host).normalize = path ↔ view.Reversible path := by
  obtain ⟨q, hq, hqc⟩ := hsource
  obtain ⟨p, hback⟩ := BindView.Back.exists hq hqc
  obtain ⟨hp, rest, rfl⟩ := hback.covers
  rw [normalize_virtualForHost h hback, locate_unshadowed hp]
  constructor
  · intro hun p' rest' hback' hrest'
    obtain rfl := hback.unique hback'
    obtain rfl := List.append_cancel_left hrest'
    exact hun
  · intro hrev
    exact hrev p rest hback rfl

/-- The image of a guest path lies under a source or is the guest path itself. -/
theorem BindView.locate_no_source {view : BindView} {path : AbsPath}
    (hno : ∀ p ∈ view.projections, ¬ p.source <+: view.locate path) :
    view.locate path = path := by
  by_cases hp : view.Projected path
  · obtain ⟨m, rest, hl, -, hloc⟩ := Covered.locate view.table_wellFormed hp
    obtain ⟨p, hpm, rfl⟩ := List.mem_map.mp hl.mem
    refine absurd ?_ (hno p hpm)
    rw [locate, hloc]
    exact List.prefix_append _ _
  · exact locate_of_not_covered hp

theorem reverse_mapping (view : BindView) (v : OsStr) :
    (view.resolveRead (view.virtualForHost (view.resolveRead v))).components =
        (view.resolveRead v).components ↔
      view.Reversible (view.locate v.normalize) := by
  have h := view.components_resolveRead v
  rw [view.components_resolveRead, h]
  by_cases hsource : ∃ p ∈ view.projections, p.source <+: view.locate v.normalize
  · rw [← BindView.round_trip_of_source h hsource]
    exact ⟨components_toPath_inj, fun heq => by rw [heq]⟩
  · have hno : ∀ p ∈ view.projections, ¬ p.source <+: view.locate v.normalize :=
      fun p hp hc => hsource ⟨p, hp, hc⟩
    rw [BindView.virtualForHost_of_no_source h hno, view.normalize_resolveRead,
      BindView.locate_no_source hno, BindView.locate_no_source hno]
    refine iff_of_true rfl ?_
    intro p rest hback hrest
    rw [BindView.locate_no_source hno] at hno
    exact absurd (hrest ▸ List.prefix_append _ _) (hno p hback.covers.1)

/-- Two destinations share a source, and a third replaces a directory of the first. -/
def shadowedBinds : List BindSpec :=
  [⟨osStr ['/', 's'], osStr ['/', 'b']⟩, ⟨osStr ['/', 's'], osStr ['/', 'a']⟩,
    ⟨osStr ['/', 't'], osStr ['/', 'a', '/', 'x']⟩]

/-- `/b/x` is `/s/x` on the host; mapped back it is `/a/x`, which is `/t`. -/
theorem reverse_mapping_shadowed : ∃ view v, BindView.open plainHost shadowedBinds = .ok view ∧
    view.resolveRead v = osStr ['/', 's', '/', 'x'] ∧
    view.virtualForHost (view.resolveRead v) = osStr ['/', 'a', '/', 'x'] ∧
    (view.resolveRead (view.virtualForHost (view.resolveRead v))).components ≠
      (view.resolveRead v).components :=
  ⟨_, osStr ['/', 'b', '/', 'x'], rfl, by decide, by decide, by decide⟩

end PathShim
