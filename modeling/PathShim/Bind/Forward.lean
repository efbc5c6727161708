import PathShim.Bind
import PathShim.Mounts

/-!
# Guest to host, as a mount table

The abstract view is the mount table of the projections. Selection by index,
`projects`, `same_projection` and `resolve_projected` compute what the table
says, whatever order the binds were given in.
-/

namespace PathShim

open UnixPath Mounts

def Projection.mount (p : Projection) : Mount Name := ⟨p.destination, p.source⟩

def BindView.table (view : BindView) : Table Name := view.projections.map Projection.mount

theorem BindView.table_wellFormed (view : BindView) : WellFormed view.table where
  deepestFirst := by
    refine List.pairwise_map.mpr (view.deepestFirst.imp fun h => ?_)
    exact Nat.le_of_succ_le_succ h
  distinct := by
    simpa [table, Function.comp_def, Projection.mount] using view.distinct

/-- The host location of a guest location. -/
def BindView.locate (view : BindView) (path : AbsPath) : AbsPath := Mounts.locate view.table path

/-- Lies at or below a destination. -/
def BindView.Projected (view : BindView) (path : AbsPath) : Prop := Covered view.table path

theorem BindView.projected_iff {view : BindView} {path : AbsPath} :
    view.Projected path ↔ ∃ p ∈ view.projections, p.destination <+: path := by
  simp [Projected, Covered, table, Projection.mount]

-- ---------------------------------------------------------------------------
-- Selection
-- ---------------------------------------------------------------------------

/-- No destination covers a reserved path, so the reserved check changes nothing. -/
theorem BindView.not_projected_of_isReserved {view : BindView} {path : AbsPath}
    (h : isReserved path = true) : ¬ view.Projected path := by
  rw [projected_iff]
  rintro ⟨p, -, rest, rfl⟩
  rw [isReserved_append p.notRoot, p.notReserved] at h
  cases h

theorem BindView.projectionIndex_longest {view : BindView} {path : AbsPath} {index : Nat}
    (h : view.projectionIndex path = some index) :
    ∃ p, view.projections[index]? = some p ∧ Longest view.table p.mount path := by
  obtain ⟨-, p, hp, hcovers, hbefore⟩ := view.projectionIndex_some h
  have hmem : p ∈ view.projections := List.mem_of_getElem? hp
  refine ⟨p, hp, List.mem_map_of_mem hmem, hcovers, ?_⟩
  intro m hm hmc
  obtain ⟨q, hq, rfl⟩ := List.mem_map.mp hm
  obtain ⟨j, hj, rfl⟩ := List.mem_iff_getElem.mp hq
  obtain ⟨hi, rfl⟩ := List.getElem?_eq_some_iff.mp hp
  -- a covering projection cannot stand before the first match, and after it none is deeper
  rcases Nat.lt_trichotomy j index with hlt | rfl | hgt
  · exact absurd hmc (hbefore j _ hlt (by simp [hj]))
  · exact Nat.le_refl _
  · exact Nat.le_of_succ_le_succ (List.pairwise_iff_getElem.mp view.deepestFirst _ _ hi hj hgt)

theorem BindView.projectionIndex_eq_none {view : BindView} {path : AbsPath} :
    view.projectionIndex path = none ↔ ¬ view.Projected path := by
  unfold projectionIndex
  split
  · rename_i hr
    simpa using view.not_projected_of_isReserved hr
  · simp [projected_iff, ← Projection.covers_iff]

theorem BindView.projects_iff {view : BindView} {path : OsStr} :
    view.projects path = true ↔ view.Projected path.normalize := by
  rw [projects, Option.isSome_iff_ne_none, ne_eq, normalizeVirtual_eq, projectionIndex_eq_none,
    not_not]

theorem BindView.projects_toPath {view : BindView} {v : AbsPath} :
    view.projects v.toPath = true ↔ view.Projected v := by
  rw [projects_iff, AbsPath.normalize_toPath]

theorem BindView.projects_eq_false {view : BindView} {path : OsStr} :
    view.projects path = false ↔ ¬ view.Projected path.normalize := by
  rw [← projects_iff, Bool.not_eq_true]

instance (view : BindView) (path : AbsPath) : Decidable (view.Projected path) :=
  decidable_of_iff (view.projects path.toPath = true) (by simp [BindView.projects_iff])

theorem BindView.exists_projectionIndex {view : BindView} {path : AbsPath}
    (h : view.Projected path) : ∃ index p, view.projectionIndex path = some index ∧
      view.projections[index]? = some p ∧ Longest view.table p.mount path := by
  cases hi : view.projectionIndex path with
  | none => exact absurd h (view.projectionIndex_eq_none.mp hi)
  | some index =>
    obtain ⟨p, hp, hl⟩ := view.projectionIndex_longest hi
    exact ⟨index, p, rfl, hp, hl⟩

/-- Two paths share a projection when one mount is the longest match of both. -/
theorem BindView.sameProjection_iff {view : BindView} {first second : OsStr} :
    view.sameProjection first second = true ↔
      ∃ m, Longest view.table m first.normalize ∧ Longest view.table m second.normalize := by
  unfold sameProjection
  simp only [normalizeVirtual_eq]
  split
  · rename_i i j hi hj
    obtain ⟨p, hp, hpl⟩ := view.projectionIndex_longest hi
    obtain ⟨q, hq, hql⟩ := view.projectionIndex_longest hj
    rw [beq_iff_eq]
    constructor
    · rintro rfl
      obtain rfl : p = q := by simpa [hp] using hq
      exact ⟨_, hpl, hql⟩
    · rintro ⟨m, hm, hm'⟩
      have hpq : p.mount = q.mount :=
        (hpl.unique view.table_wellFormed hm).trans (hm'.unique view.table_wellFormed hql)
      have hd : p.destination = q.destination := congrArg Mount.target hpq
      obtain ⟨hi, rfl⟩ := List.getElem?_eq_some_iff.mp hp
      obtain ⟨hj, rfl⟩ := List.getElem?_eq_some_iff.mp hq
      have hinj : Function.Injective
          fun n : Fin (view.projections.map Projection.destination).length =>
          (view.projections.map Projection.destination)[n] :=
        List.nodup_iff_injective_getElem.mp view.distinct
      have heq := @hinj ⟨i, by simpa using hi⟩ ⟨j, by simpa using hj⟩ (by simpa using hd)
      simpa using heq
  · rename_i hno
    refine iff_of_false (by simp) ?_
    rintro ⟨m, hm, hm'⟩
    obtain ⟨i, -, hi, -⟩ := view.exists_projectionIndex ⟨m, hm.mem, hm.covers⟩
    obtain ⟨j, -, hj, -⟩ := view.exists_projectionIndex ⟨m, hm'.mem, hm'.covers⟩
    exact hno i j hi hj

-- ---------------------------------------------------------------------------
-- Resolution
-- ---------------------------------------------------------------------------

theorem BindView.resolveProjected_of_not_projected {view : BindView} {path : OsStr}
    (h : ¬ view.Projected path.normalize) : view.resolveProjected path = path.normalize.toPath := by
  have hres : view.resolveProjected? path = some path.normalize.toPath := by
    rw [resolveProjected?, normalizeVirtual_eq, view.projectionIndex_eq_none.mpr h]
  simp [resolveProjected, hres]

theorem BindView.resolveProjected_of_longest {view : BindView} {path : OsStr} {m : Mount Name}
    {rest : AbsPath} (hl : Longest view.table m path.normalize)
    (hpath : path.normalize = m.target ++ rest) :
    view.resolveProjected path =
      (AbsPath.toPath m.origin).join (relative (rest.map .normal)) := by
  obtain ⟨index, p, hi, hp, hpl⟩ := view.exists_projectionIndex ⟨m, hl.mem, hl.covers⟩
  obtain rfl := hl.unique view.table_wellFormed hpl
  have hres : view.resolveProjected? path =
      some (p.source.toPath.join (relative (rest.map .normal))) := by
    rw [resolveProjected?, normalizeVirtual_eq, hi]
    simp only [hp, Option.bind_some]
    rw [hpath]
    exact p.resolve_append rest
  simp [resolveProjected, hres, Projection.mount]

/-- `resolve_read` names the location the table gives, component by component. -/
theorem BindView.components_resolveRead (view : BindView) (path : OsStr) :
    (view.resolveRead path).components = (view.locate path.normalize).toPath.components := by
  by_cases h : view.Projected path.normalize
  · obtain ⟨m, rest, hl, hpath, hloc⟩ := Covered.locate view.table_wellFormed h
    rw [resolveRead, view.resolveProjected_of_longest hl hpath, components_join_relative, locate,
      hloc]
  · rw [resolveRead, view.resolveProjected_of_not_projected h, locate, locate_of_not_covered h]

theorem BindView.normalize_resolveRead (view : BindView) (path : OsStr) :
    (view.resolveRead path).normalize = view.locate path.normalize := by
  have h := congrArg (lexical []) (view.components_resolveRead path)
  exact h.trans (AbsPath.normalize_toPath _)

-- ---------------------------------------------------------------------------
-- The binds behind a view
-- ---------------------------------------------------------------------------

/-- The longest normalised destination among `binds` that covers `path`. -/
structure LongestBind (binds : List BindSpec) (b : BindSpec) (path : AbsPath) : Prop where
  mem : b ∈ binds
  covers : b.destination.normalize <+: path
  longest : ∀ b' ∈ binds, b'.destination.normalize <+: path →
    b'.destination.normalize.length ≤ b.destination.normalize.length

theorem Accepted.unique {host : SourceHost} {b : BindSpec} {p q : Projection}
    (hp : Accepted host b p) (hq : Accepted host b q) : p.mount = q.mount := by
  have hs : p.source = q.source := by simpa using hp.canonical.symm.trans hq.canonical
  simp [Projection.mount, hp.destination, hq.destination, hs]

theorem openLoop_complete {host : SourceHost} (destinations : List AbsPath)
    {binds : List BindSpec} (hall : ∀ b ∈ binds, ∃ p, Accepted host b p)
    (hnodup : (binds.map (·.destination.normalize)).Nodup)
    (hnew : ∀ b ∈ binds, b.destination.normalize ∉ destinations) :
    ∃ ps, openLoop host destinations binds = .ok ps := by
  induction binds generalizing destinations with
  | nil => exact ⟨[], rfl⟩
  | cons b binds ih =>
    obtain ⟨p, hp⟩ := hall b (by simp)
    simp only [List.map_cons, List.nodup_cons] at hnodup
    obtain ⟨ps, hps⟩ := ih (b.destination.normalize :: destinations)
      (fun b' hb' => hall b' (List.mem_cons_of_mem _ hb')) hnodup.2
      (fun b' hb' hm => by
        rcases List.mem_cons.mp hm with hm | hm
        · exact hnodup.1 (hm ▸ List.mem_map_of_mem hb')
        · exact hnew b' (List.mem_cons_of_mem _ hb') hm)
    have hroot : b.destination.normalize ≠ [] := hp.destination ▸ p.notRoot
    have hreserved : isReserved b.destination.normalize = false := hp.destination ▸ p.notReserved
    refine ⟨⟨p.source, b.destination.normalize, hroot, hreserved⟩ :: ps, ?_⟩
    simp [openLoop, hp.isAbsolute, hroot, hreserved, hnew b (by simp), hp.created, hp.canonical,
      hps, bind, Except.bind, pure, Except.pure]

/-- An accepted loop gives a view, its projections sorted. -/
theorem BindView.open_of_openLoop {host : SourceHost} {binds : List BindSpec}
    {ps : List Projection} (h : openLoop host [] binds = .ok ps) :
    ∃ view, BindView.open host binds = .ok view ∧
      view.projections = ps.insertionSort deeperFirst := by
  unfold BindView.open
  split
  · rename_i error herror
    rw [h] at herror
    cases herror
  · rename_i ps' hps'
    obtain rfl : ps = ps' := Except.ok.inj (h.symm.trans hps')
    exact ⟨_, rfl, rfl⟩

theorem BindView.open_complete {host : SourceHost} {binds : List BindSpec}
    (hall : ∀ b ∈ binds, ∃ p, Accepted host b p)
    (hnodup : (binds.map (·.destination.normalize)).Nodup) :
    ∃ view, BindView.open host binds = .ok view := by
  obtain ⟨ps, hps⟩ := openLoop_complete [] hall hnodup (by simp)
  obtain ⟨view, hview, -⟩ := BindView.open_of_openLoop hps
  exact ⟨view, hview⟩

section
variable {host : SourceHost} {binds : List BindSpec} {view : BindView}

theorem BindView.open_bind (h : BindView.open host binds = .ok view) {b : BindSpec}
    (hb : b ∈ binds) : ∃ p ∈ view.projections, Accepted host b p := by
  obtain ⟨ps, hall, hperm⟩ := BindView.open_ok h
  obtain ⟨i, hi, rfl⟩ := List.mem_iff_getElem.mp hb
  have hi' : i < ps.length := hall.length_eq ▸ hi
  exact ⟨ps[i], hperm.mem_iff.mpr (List.getElem_mem hi'), hall.get hi hi'⟩

theorem BindView.open_projection (h : BindView.open host binds = .ok view) {p : Projection}
    (hp : p ∈ view.projections) : ∃ b ∈ binds, Accepted host b p := by
  obtain ⟨ps, hall, hperm⟩ := BindView.open_ok h
  obtain ⟨i, hi, rfl⟩ := List.mem_iff_getElem.mp (hperm.mem_iff.mp hp)
  have hi' : i < binds.length := hall.length_eq.symm ▸ hi
  exact ⟨binds[i], List.getElem_mem hi', hall.get hi' hi⟩

theorem BindView.open_nodup (h : BindView.open host binds = .ok view) :
    (binds.map (·.destination.normalize)).Nodup := by
  obtain ⟨ps, hall, hperm⟩ := BindView.open_ok h
  have hmap : binds.map (·.destination.normalize) = ps.map Projection.destination := by
    clear hperm h
    induction hall with
    | nil => rfl
    | cons hb _ ih => simp [hb.destination, ih]
  rw [hmap]
  exact ((hperm.map Projection.destination).nodup_iff).mp view.distinct

theorem BindView.open_table (h : BindView.open host binds = .ok view) (m : Mount Name) :
    m ∈ view.table ↔ ∃ b ∈ binds, ∃ p, Accepted host b p ∧ p.mount = m := by
  constructor
  · intro hm
    obtain ⟨p, hp, rfl⟩ := List.mem_map.mp hm
    obtain ⟨b, hb, hbp⟩ := BindView.open_projection h hp
    exact ⟨b, hb, p, hbp, rfl⟩
  · rintro ⟨b, hb, p, hbp, rfl⟩
    obtain ⟨q, hq, hbq⟩ := BindView.open_bind h hb
    rw [hbp.unique hbq]
    exact List.mem_map_of_mem hq

theorem BindView.open_projected (h : BindView.open host binds = .ok view) {path : AbsPath} :
    view.Projected path ↔ ∃ b ∈ binds, b.destination.normalize <+: path := by
  constructor
  · rintro ⟨m, hm, hc⟩
    obtain ⟨b, hb, p, hbp, rfl⟩ := (BindView.open_table h m).mp hm
    exact ⟨b, hb, hbp.destination ▸ hc⟩
  · rintro ⟨b, hb, hc⟩
    obtain ⟨p, hp, hbp⟩ := BindView.open_bind h hb
    exact view.projected_iff.mpr ⟨p, hp, hbp.destination.symm ▸ hc⟩

/-- The longest matching bind is the one whose projection the view selects. -/
theorem BindView.open_longest (h : BindView.open host binds = .ok view) {path : AbsPath}
    {m : Mount Name} (hl : Longest view.table m path) :
    ∃ b, LongestBind binds b path ∧ m.target = b.destination.normalize ∧
      host.canonicalize b.source = .ok m.origin := by
  obtain ⟨b, hb, p, hbp, rfl⟩ := (BindView.open_table h m).mp hl.mem
  refine ⟨b, ⟨hb, hbp.destination ▸ hl.covers, ?_⟩, hbp.destination, hbp.canonical⟩
  intro b' hb' hc'
  obtain ⟨q, hq, hbq⟩ := BindView.open_bind h hb'
  have hqc : q.destination <+: path := hbq.destination ▸ hc'
  have hlen := hl.longest q.mount (List.mem_map_of_mem hq) hqc
  simpa [Projection.mount, hbp.destination, hbq.destination] using hlen

theorem BindView.longestBind_unique (h : BindView.open host binds = .ok view) {path : AbsPath}
    {b b' : BindSpec} (hb : LongestBind binds b path) (hb' : LongestBind binds b' path) :
    b = b' := by
  have hlen : b.destination.normalize.length = b'.destination.normalize.length :=
    Nat.le_antisymm (hb'.longest b hb.mem hb.covers) (hb.longest b' hb'.mem hb'.covers)
  have hd := (List.prefix_of_prefix_length_le hb.covers hb'.covers hlen.le).eq_of_length hlen
  exact List.inj_on_of_nodup_map (BindView.open_nodup h) hb.mem hb'.mem hd

/-- Another order of the same binds is accepted too. -/
theorem BindView.open_perm (h : BindView.open host binds = .ok view) {binds' : List BindSpec}
    (hperm : binds'.Perm binds) : ∃ view', BindView.open host binds' = .ok view' := by
  have hall : ∀ b ∈ binds', ∃ p, Accepted host b p := by
    intro b hb
    obtain ⟨p, -, hp⟩ := BindView.open_bind h (hperm.mem_iff.mp hb)
    exact ⟨p, hp⟩
  have hnodup : (binds'.map (·.destination.normalize)).Nodup :=
    ((hperm.map _).nodup_iff).mpr (BindView.open_nodup h)
  exact BindView.open_complete hall hnodup

end

-- ---------------------------------------------------------------------------
-- Answers depend on the table only
-- ---------------------------------------------------------------------------

section
variable {view view' : BindView} (hmem : ∀ m, m ∈ view'.table ↔ m ∈ view.table)
include hmem

theorem BindView.projects_congr (path : OsStr) : view'.projects path = view.projects path := by
  rw [Bool.eq_iff_iff, projects_iff, projects_iff]
  exact Covered.congr hmem

theorem BindView.sameProjection_congr (first second : OsStr) :
    view'.sameProjection first second = view.sameProjection first second := by
  rw [Bool.eq_iff_iff, sameProjection_iff, sameProjection_iff]
  simp only [Longest.congr hmem]

theorem BindView.resolveProjected_congr (path : OsStr) :
    view'.resolveProjected path = view.resolveProjected path := by
  by_cases h : view.Projected path.normalize
  · obtain ⟨m, rest, hl, hpath, -⟩ := Covered.locate view.table_wellFormed h
    rw [view.resolveProjected_of_longest hl hpath,
      view'.resolveProjected_of_longest ((Longest.congr hmem).mpr hl) hpath]
  · have h' : ¬ view'.Projected path.normalize := fun hc => h ((Covered.congr hmem).mp hc)
    rw [view.resolveProjected_of_not_projected h, view'.resolveProjected_of_not_projected h']

end

-- ---------------------------------------------------------------------------
-- The forward mapping
-- ---------------------------------------------------------------------------

theorem forward_mapping {host : SourceHost} {binds : List BindSpec} {view : BindView}
    (h : BindView.open host binds = .ok view) (path : OsStr) :
    ((∀ b ∈ binds, ¬ b.destination.normalize <+: path.normalize) →
      view.resolveProjected path = path.normalize.toPath ∧ view.projects path = false) ∧
    ((∃ b ∈ binds, b.destination.normalize <+: path.normalize) →
      view.projects path = true ∧
      ∃ b source rest, LongestBind binds b path.normalize ∧
        (∀ b', LongestBind binds b' path.normalize → b' = b) ∧
        host.canonicalize b.source = .ok source ∧
        path.normalize = b.destination.normalize ++ rest ∧
        (view.resolveProjected path).components =
          (AbsPath.toPath (source ++ rest)).components ∧
        source.toPath.components <+: (view.resolveProjected path).components ∧
        Component.parentDir ∉ (view.resolveProjected path).components) ∧
    (isReserved path.normalize = true → view.projects path = false) ∧
    (∀ binds', binds'.Perm binds → ∃ view', BindView.open host binds' = .ok view' ∧
      ∀ first second, view'.projects first = view.projects first ∧
        view'.sameProjection first second = view.sameProjection first second ∧
        view'.resolveProjected first = view.resolveProjected first) := by
  refine ⟨fun hno => ?_, fun hyes => ?_, fun hr => ?_, fun binds' hperm => ?_⟩
  · have hnot : ¬ view.Projected path.normalize := by
      rw [BindView.open_projected h]
      rintro ⟨b, hb, hc⟩
      exact hno b hb hc
    exact ⟨view.resolveProjected_of_not_projected hnot, view.projects_eq_false.mpr hnot⟩
  · have hprojected := (BindView.open_projected h).mpr hyes
    refine ⟨view.projects_iff.mpr hprojected, ?_⟩
    obtain ⟨m, rest, hl, hpath, hloc⟩ := Covered.locate view.table_wellFormed hprojected
    obtain ⟨b, hb, htarget, hsource⟩ := BindView.open_longest h hl
    have hcomponents : (view.resolveProjected path).components =
        (AbsPath.toPath (m.origin ++ rest)).components := by
      have hread := view.components_resolveRead path
      rwa [BindView.locate, hloc] at hread
    refine ⟨b, m.origin, rest, hb, fun b' hb' => BindView.longestBind_unique h hb' hb, hsource,
      by rw [← htarget, hpath], hcomponents, ?_, ?_⟩
    · rw [hcomponents]
      exact ⟨rest.map .normal, by simp⟩
    · rw [hcomponents]
      simp
  · exact view.projects_eq_false.mpr (view.not_projected_of_isReserved hr)
  · obtain ⟨view', h'⟩ := BindView.open_perm h hperm
    have hmem : ∀ m, m ∈ view'.table ↔ m ∈ view.table := by
      intro m
      rw [BindView.open_table h', BindView.open_table h]
      simp only [hperm.mem_iff]
    exact ⟨view', h', fun first second => ⟨BindView.projects_congr hmem first,
      BindView.sameProjection_congr hmem first second, BindView.resolveProjected_congr hmem first⟩⟩

def nameA : Name := .letter 'a' (by decide)
def nameS : Name := .letter 's' (by decide)
def nameT : Name := .letter 't' (by decide)
def nameX : Name := .letter 'x' (by decide)
def nameY : Name := .letter 'y' (by decide)

/-- A host whose sources exist and contain no symbolic links. -/
def plainHost : SourceHost where
  createDirAll := fun _ => .ok ()
  canonicalize := fun source => .ok source.normalize

def nestedBinds : List BindSpec :=
  [⟨osStr ['/', 's'], osStr ['/', 'a']⟩, ⟨osStr ['/', 't'], osStr ['/', 'a', '/', '.', '/', 'x']⟩]

theorem forward_mapping_nested : ∃ view, BindView.open plainHost nestedBinds = .ok view ∧
    view.projects (osStr ['/', 'a', '/', 'b', '/', '.', '.', '/', '/', 'x', '/', 'f']) = true := by
  obtain ⟨view, hview⟩ : ∃ view, BindView.open plainHost nestedBinds = .ok view := ⟨_, rfl⟩
  exact ⟨view, hview, ((forward_mapping hview _).2.1 ⟨nestedBinds[1], by decide, by decide⟩).1⟩

end PathShim
