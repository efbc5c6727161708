import PathShim.Bind.Forward

/-!
# View construction

Which bind lists `BindView::open` accepts, what the projections of an accepted
list are, and that `reopen` gives the same view again. The sort leaves a sorted
list alone, so the reopened view keeps the order of the first one.
-/

namespace PathShim

open UnixPath

def Projection.spec (p : Projection) : BindSpec := ⟨p.source.toPath, p.destination.toPath⟩

def BindView.reopen (host : SourceHost) (view : BindView) : IoResult BindView :=
  BindView.open host (view.projections.map Projection.spec)

/-- A destination `BindView::open` has no objection to. -/
structure BindSpec.Admissible (bind : BindSpec) : Prop where
  isAbsolute : bind.destination.isAbsolute = true
  notRoot : bind.destination.normalize ≠ []
  notReserved : ¬ ([nameDev] <+: bind.destination.normalize ∨
    [nameProc] <+: bind.destination.normalize ∨ [nameSys] <+: bind.destination.normalize)

/-- The sources of `binds` can be created and canonicalised, and can be again from
their canonical path, which is its own canonical path. -/
structure SourceHost.Settled (host : SourceHost) (binds : List BindSpec) : Prop where
  created : ∀ bind ∈ binds, host.createDirAll bind.source = .ok ()
  canonical : ∀ bind ∈ binds, ∃ source, host.canonicalize bind.source = .ok source
  recreated : ∀ bind ∈ binds, ∀ source, host.canonicalize bind.source = .ok source →
    host.createDirAll source.toPath = .ok ()
  idempotent : ∀ bind ∈ binds, ∀ source, host.canonicalize bind.source = .ok source →
    host.canonicalize source.toPath = .ok source

-- ---------------------------------------------------------------------------
-- Acceptance
-- ---------------------------------------------------------------------------

theorem Accepted.admissible {host : SourceHost} {bind : BindSpec} {p : Projection}
    (h : Accepted host bind p) : bind.Admissible where
  isAbsolute := h.isAbsolute
  notRoot := h.destination ▸ p.notRoot
  notReserved := by
    rw [← isReserved_iff, ← h.destination, p.notReserved]
    exact Bool.false_ne_true

theorem BindSpec.Admissible.accepted {host : SourceHost} {bind : BindSpec} {source : AbsPath}
    (h : bind.Admissible) (hcreated : host.createDirAll bind.source = .ok ())
    (hcanonical : host.canonicalize bind.source = .ok source) :
    ∃ p, Accepted host bind p := by
  have hreserved : isReserved bind.destination.normalize = false := by
    rw [← Bool.not_eq_true, isReserved_iff]
    exact h.notReserved
  exact ⟨⟨source, bind.destination.normalize, h.notRoot, hreserved⟩,
    h.isAbsolute, rfl, hcreated, hcanonical⟩

theorem BindView.open_iff {host : SourceHost} {binds : List BindSpec} (h : host.Settled binds) :
    (∃ view, BindView.open host binds = .ok view) ↔
      (∀ bind ∈ binds, bind.Admissible) ∧ (binds.map (·.destination.normalize)).Nodup := by
  constructor
  · rintro ⟨view, hview⟩
    refine ⟨fun bind hbind => ?_, BindView.open_nodup hview⟩
    obtain ⟨p, -, hp⟩ := BindView.open_bind hview hbind
    exact hp.admissible
  · rintro ⟨hall, hnodup⟩
    refine BindView.open_complete (fun bind hbind => ?_) hnodup
    obtain ⟨source, hsource⟩ := h.canonical bind hbind
    exact (hall bind hbind).accepted (h.created bind hbind) hsource

-- ---------------------------------------------------------------------------
-- Reopening
-- ---------------------------------------------------------------------------

theorem Projection.ext {p q : Projection} (hs : p.source = q.source)
    (hd : p.destination = q.destination) : p = q := by
  cases p
  cases q
  cases hs
  cases hd
  rfl

/-- A projection as a bind is accepted as that projection. -/
theorem Accepted.spec_eq {host : SourceHost} {p q : Projection} (h : Accepted host p.spec q)
    (hp : host.canonicalize p.source.toPath = .ok p.source) : q = p := by
  refine Projection.ext ?_ (by simpa [Projection.spec] using h.destination)
  have hsource : Except.ok (ε := IoError) p.source = .ok q.source := hp.symm.trans h.canonical
  exact (Except.ok.inj hsource).symm

/-- Projections whose sources are settled go through the loop unchanged. -/
theorem openLoop_spec {host : SourceHost} {ps : List Projection}
    (hall : ∀ p ∈ ps, host.createDirAll p.source.toPath = .ok () ∧
      host.canonicalize p.source.toPath = .ok p.source)
    (hnodup : (ps.map Projection.destination).Nodup) :
    openLoop host [] (ps.map Projection.spec) = .ok ps := by
  have haccepted : ∀ p ∈ ps, Accepted host p.spec p := fun p hp =>
    ⟨by simp [Projection.spec], by simp [Projection.spec], (hall p hp).1, (hall p hp).2⟩
  have hdistinct : ((ps.map Projection.spec).map (·.destination.normalize)).Nodup := by
    simpa [Projection.spec, Function.comp_def] using hnodup
  obtain ⟨qs, hqs⟩ := @openLoop_complete host [] (ps.map Projection.spec)
    (by simpa using fun p hp => ⟨p, haccepted p hp⟩) hdistinct (by simp)
  have hforall := (openLoop_ok hqs).1
  rw [List.forall₂_map_left_iff] at hforall
  have heq : qs = ps := List.ext_getElem hforall.length_eq.symm fun i hi hi' =>
    (hforall.get hi' hi).spec_eq (hall _ (List.getElem_mem hi')).2
  rw [hqs, heq]

theorem BindView.ext {view view' : BindView} (h : view.projections = view'.projections) :
    view = view' := by
  cases view
  cases view'
  cases h
  rfl

/-- `reopen` gives the view it starts from: its projections are sorted already. -/
theorem BindView.reopen_eq {host : SourceHost} {binds : List BindSpec} {view : BindView}
    (hsettled : host.Settled binds) (h : BindView.open host binds = .ok view) :
    view.reopen host = .ok view := by
  have hall : ∀ p ∈ view.projections, host.createDirAll p.source.toPath = .ok () ∧
      host.canonicalize p.source.toPath = .ok p.source := by
    intro p hp
    obtain ⟨bind, hbind, haccepted⟩ := BindView.open_projection h hp
    exact ⟨hsettled.recreated bind hbind p.source haccepted.canonical,
      hsettled.idempotent bind hbind p.source haccepted.canonical⟩
  obtain ⟨view', hview', hps⟩ :=
    BindView.open_of_openLoop (openLoop_spec hall view.distinct)
  have hsorted : view.projections.insertionSort deeperFirst = view.projections :=
    view.deepestFirst.insertionSort_eq
  rw [reopen, hview', BindView.ext (hps.trans hsorted)]

-- ---------------------------------------------------------------------------
-- Construction
-- ---------------------------------------------------------------------------

theorem view_construction {host : SourceHost} {binds : List BindSpec}
    (hsettled : host.Settled binds) :
    ((∃ view, BindView.open host binds = .ok view) ↔
      (∀ bind ∈ binds, bind.Admissible) ∧ (binds.map (·.destination.normalize)).Nodup) ∧
    ∀ view, BindView.open host binds = .ok view →
      (∃ ps : List Projection, view.projections.Perm ps ∧
        List.Forall₂ (fun bind p => p.destination = bind.destination.normalize ∧
          host.canonicalize bind.source = .ok p.source) binds ps) ∧
      (∀ p ∈ view.projections, (normalizeVirtual p.destination.toPath).toPath =
        p.destination.toPath) ∧
      (view.projections.map Projection.destination).Nodup ∧
      view.projections.Pairwise (fun p q => depth q.destination ≤ depth p.destination) ∧
      ∃ supervisorView, view.reopen host = .ok supervisorView ∧
        supervisorView.projections = view.projections ∧
        ∀ path second, supervisorView.projects path = view.projects path ∧
          supervisorView.sameProjection path second = view.sameProjection path second ∧
          supervisorView.resolveRead path = view.resolveRead path ∧
          supervisorView.virtualForHost path = view.virtualForHost path := by
  refine ⟨BindView.open_iff hsettled, fun view h => ?_⟩
  obtain ⟨ps, hall, hperm⟩ := BindView.open_ok h
  refine ⟨⟨ps, hperm, hall.imp fun _ _ hp => ⟨hp.destination, hp.canonical⟩⟩,
    fun p _ => by simp, view.distinct, view.deepestFirst,
    view, BindView.reopen_eq hsettled h, rfl, fun _ _ => ⟨rfl, rfl, rfl, rfl⟩⟩

theorem plainHost_settled (binds : List BindSpec) : plainHost.Settled binds where
  created := fun _ _ => rfl
  canonical := fun _ _ => ⟨_, rfl⟩
  recreated := fun _ _ _ _ => rfl
  idempotent := fun _ _ source _ => by simp [plainHost]

/-- Two nested binds, the deeper one written `/a/./x`. -/
theorem view_construction_nested :
    ∃ view, BindView.open plainHost nestedBinds = .ok view ∧
      view.reopen plainHost = .ok view ∧ view.projections.length = 2 := by
  have hconstruction := view_construction (plainHost_settled nestedBinds)
  have hadmissible : ∀ bind ∈ nestedBinds, bind.Admissible := by
    intro bind hbind
    simp only [nestedBinds, List.mem_cons, List.not_mem_nil, or_false] at hbind
    rcases hbind with rfl | rfl <;> exact ⟨by decide, by decide, by decide⟩
  obtain ⟨view, hview⟩ := hconstruction.1.mpr ⟨hadmissible, by decide⟩
  obtain ⟨⟨ps, hperm, hall⟩, -, -, -, supervisorView, hreopen, hps, -⟩ :=
    hconstruction.2 view hview
  refine ⟨view, hview, ?_, by rw [hperm.length_eq, ← hall.length_eq]; rfl⟩
  rwa [BindView.ext hps] at hreopen

end PathShim
