import PathShim.Bind.Construction
import PathShim.InitialCwd

/-!
# Opening a view on a tree

`BindView::open` with the calls it makes: each source is created and then
canonicalised, bind by bind. On a tree without links this leaves nothing but
the sources and the directories above them, whichever calls fail, and opening
the view again leaves no trace at all.
-/

namespace PathShim

open UnixPath Effects Namei

-- ---------------------------------------------------------------------------
-- Calls and answers
-- ---------------------------------------------------------------------------

inductive SourceOp where
  | canonicalize (path : OsStr)
  | directory (op : DirectoryOp)

@[reducible] def SourceOp.Answer : SourceOp → Type
  | .canonicalize _ => IoResult AbsPath
  | .directory op => op.Answer

abbrev SourceProg (α : Type) := Prog SourceOp.Answer α

def directoryCalls : Embedding DirectoryOp.Answer SourceOp.Answer := ⟨.directory, fun _ r => r⟩

/-- `canonicalize` tells where a path leads, or fails with any error. -/
inductive SourceServes : Effect SourceOp.Answer Tree
  | canonicalize {tree path p} : resolve tree path = .object p →
      SourceServes tree ⟨.canonicalize path, .ok p⟩ tree
  | canonicalizeFailed {tree path e} : SourceServes tree ⟨.canonicalize path, .error e⟩ tree
  | directory {tree op r later} : TreeServes tree ⟨op, r⟩ later →
      SourceServes tree ⟨.directory op, r⟩ later

-- ---------------------------------------------------------------------------
-- Opening
-- ---------------------------------------------------------------------------

/-- The projections so far, in the order of their binds. -/
structure Opened where
  projections : List Projection
  distinct : (projections.map Projection.destination).Nodup

def Opened.destinations (opened : Opened) : List AbsPath :=
  opened.projections.map Projection.destination

def Opened.push (opened : Opened) (p : Projection) (h : p.destination ∉ opened.destinations) :
    Opened where
  projections := opened.projections ++ [p]
  distinct := by
    rw [List.map_append, List.nodup_append]
    refine ⟨opened.distinct, by simp, ?_⟩
    rintro d hd _ hp rfl
    obtain rfl : d = p.destination := by simpa using hp
    exact h hd

instance (opened : Opened) (d : AbsPath) : Decidable (d ∈ opened.destinations) :=
  inferInstanceAs (Decidable (d ∈ opened.projections.map Projection.destination))

theorem notReserved {d : AbsPath} (h : ¬ isReserved d = true) : isReserved d = false :=
  Bool.eq_false_iff.mpr h

/-- `sort_by_key`. -/
def Opened.view (opened : Opened) : BindView where
  projections := opened.projections.insertionSort deeperFirst
  deepestFirst := List.pairwise_insertionSort deeperFirst opened.projections
  distinct := (((List.perm_insertionSort deeperFirst opened.projections).map
    Projection.destination).nodup_iff).mpr opened.distinct

/-- The loop of `BindView::open`. -/
def openSources (opened : Opened) : List BindSpec → SourceProg (IoResult BindView)
  | [] => return .ok opened.view
  | bind :: binds =>
    if bind.destination.isAbsolute = false then
      return .error (invalidInput "bind destination must be absolute: " (some bind.destination))
    else
      let destination := normalizeVirtual bind.destination
      if hroot : destination = [] then
        return .error (invalidInput "bind destination `/` is unsupported" none)
      else if hreserved : isReserved destination = true then
        return .error (invalidInput "bind destination is reserved for host passthrough: "
          (some destination.toPath))
      else if hnew : destination ∈ opened.destinations then
        return .error (invalidInput "duplicate bind destination: " (some destination.toPath))
      else do
        match ← (Fs.createDirAll bind.source).embed directoryCalls with
        | .error e => return .error e
        | .ok () =>
          match ← perform (SourceOp.canonicalize bind.source) with
          | .error e => return .error e
          | .ok source =>
            openSources (opened.push ⟨source, destination, hroot, notReserved hreserved⟩ hnew)
              binds

def BindView.opens (binds : List BindSpec) : SourceProg (IoResult BindView) :=
  openSources ⟨[], List.nodup_nil⟩ binds

/-- The source is written without `..`. -/
def BindSpec.Straight (bind : BindSpec) : Prop :=
  bind.source.components = bind.source.normalize.toPath.components

/-- What is new is a source or a directory above one. -/
def Grown (binds : List BindSpec) (tree later : Tree) : Prop :=
  ∀ q, later q = tree q ∨
    (∃ bind ∈ binds, q <+: bind.source.normalize) ∧ tree q = none ∧ later q = some .dir

section
variable {binds : List BindSpec} {tree tree' later : Tree}

theorem Grown.refl : Grown binds tree tree := fun _ => .inl rfl

theorem Grown.trans (h : Grown binds tree tree') (h' : Grown binds tree' later) :
    Grown binds tree later := by
  intro q
  rcases h' q with hsame | ⟨hbind, hnone, hdir⟩
  · rw [hsame]
    exact h q
  · rcases h q with hsame | ⟨-, -, hold⟩
    · exact .inr ⟨hbind, hsame ▸ hnone, hdir⟩
    · rw [hnone] at hold
      cases hold

theorem Grown.tail {bind : BindSpec} (h : Grown binds tree later) :
    Grown (bind :: binds) tree later := fun q =>
  (h q).imp_right fun ⟨⟨b, hb, hq⟩, hnew⟩ => ⟨⟨b, List.mem_cons_of_mem _ hb, hq⟩, hnew⟩

theorem Grown.of_onTheWay {bind : BindSpec} (h : OnTheWay bind.source.normalize tree later) :
    Grown (bind :: binds) tree later := fun q =>
  (h q).imp_right fun ⟨hq, hnew⟩ => ⟨⟨bind, List.mem_cons_self, hq⟩, hnew⟩

theorem Grown.directoriesStay (h : Grown binds tree later) : DirectoriesStay tree later := by
  intro path hdir
  rcases h path with hsame | ⟨-, hnone, -⟩
  · rw [hsame, hdir]
  · rw [hdir] at hnone
    cases hnone

end

-- ---------------------------------------------------------------------------
-- The loop on a tree
-- ---------------------------------------------------------------------------

/-- A tree after opening: it has grown, and a view that was opened has its sources in place. -/
structure OpensTo (opened : Opened) (binds : List BindSpec) (tree : Tree) (r : IoResult BindView)
    (later : Tree) : Prop where
  linkFree : LinkFree later
  grown : Grown binds tree later
  view : ∀ view, r = .ok view → ∃ ps, openLoop plainHost opened.destinations binds = .ok ps ∧
    view.projections = (opened.projections ++ ps).insertionSort deeperFirst ∧
    ∀ p ∈ ps, later p.source = some .dir

theorem OpensTo.error {opened : Opened} {binds : List BindSpec} {tree later : Tree} {e : IoError}
    (h : LinkFree later) (hgrown : Grown binds tree later) :
    OpensTo opened binds tree (.error e) later := ⟨h, hgrown, fun _ heq => by cases heq⟩

/-- Which destinations have been seen is all that counts. -/
theorem openLoop_congr {host : SourceHost} {seen seen' : List AbsPath} {binds : List BindSpec}
    (h : ∀ d, d ∈ seen ↔ d ∈ seen') : openLoop host seen binds = openLoop host seen' binds := by
  induction binds generalizing seen seen' with
  | nil => rfl
  | cons bind binds ih =>
    have hcons (d : AbsPath) : openLoop host (d :: seen) binds = openLoop host (d :: seen') binds :=
      ih fun d' => by simp [h d']
    simp only [openLoop, h, hcons]

/-- A bind that is accepted. -/
theorem openLoop_cons {host : SourceHost} {seen : List AbsPath} {b : BindSpec}
    {binds : List BindSpec} {p : Projection} {ps : List Projection} (h : Accepted host b p)
    (hnew : p.destination ∉ seen) (hrest : openLoop host (p.destination :: seen) binds = .ok ps) :
    openLoop host seen (b :: binds) = .ok (p :: ps) := by
  obtain ⟨source, destination, hroot, hreserved⟩ := p
  obtain ⟨habs, rfl, hcreated, hcanonical⟩ := h
  simp [openLoop, habs, hroot, hreserved, hnew, hcreated, hcanonical, hrest, bind, Except.bind,
    pure, Except.pure]

theorem OpensTo.cons {opened : Opened} {bind : BindSpec} {binds : List BindSpec} {p : Projection}
    {hnew : p.destination ∉ opened.destinations} {tree tree' later : Tree} {r : IoResult BindView}
    (h : OpensTo (opened.push p hnew) binds tree' r later) (haccepted : Accepted plainHost bind p)
    (hgrown : Grown (bind :: binds) tree tree') (hdir : tree' p.source = some .dir) :
    OpensTo opened (bind :: binds) tree r later where
  linkFree := h.linkFree
  grown := hgrown.trans h.grown.tail
  view := by
    rintro view heq
    obtain ⟨ps, hloop, hview, hsources⟩ := h.view view heq
    have hseen (d : AbsPath) :
        d ∈ (opened.push p hnew).destinations ↔ d ∈ p.destination :: opened.destinations := by
      simp [Opened.destinations, Opened.push, or_comm]
    rw [openLoop_congr hseen] at hloop
    refine ⟨p :: ps, openLoop_cons haccepted hnew hloop, by simpa [Opened.push] using hview, ?_⟩
    intro q hq
    rcases List.mem_cons.mp hq with rfl | hq
    · exact h.grown.directoriesStay _ hdir
    · exact hsources q hq

theorem triple_openSources {binds : List BindSpec} {panics : Tree → Prop}
    (hstraight : ∀ bind ∈ binds, bind.Straight) {opened : Opened} {tree : Tree}
    (h : LinkFree tree) : Triple SourceServes (openSources opened binds) tree
      (OpensTo opened binds tree) panics := by
  induction binds generalizing opened tree with
  | nil =>
    refine .ret ⟨h, .refl, ?_⟩
    rintro view heq
    cases heq
    exact ⟨[], rfl, by simp [Opened.view], by simp⟩
  | cons bind binds ih =>
    rw [openSources]
    split
    · exact .ret (.error h .refl)
    dsimp only
    split
    · exact .ret (.error h .refl)
    split
    · exact .ret (.error h .refl)
    split
    · exact .ret (.error h .refl)
    rename_i habs hroot hreserved hnew
    have hname : bind.source.components = bind.source.normalize.toPath.components :=
      hstraight bind List.mem_cons_self
    have hcreate := @triple_createDirAll tree bind.source.normalize bind.source panics hname h
    refine (hcreate.embed ?_).bind ?_
    · intro s op r s' hserves
      cases hserves with
      | directory hserves => exact hserves
    intro r tree₁ hmade
    have hgrown : Grown (bind :: binds) tree tree₁ := .of_onTheWay hmade.onTheWay
    cases r with
    | error e => exact .ret (.error hmade.linkFree hgrown)
    | ok _ =>
      have hdir := hmade.there () rfl
      refine Triple.call fun r tree₂ hserves => ?_
      cases hserves with
      | canonicalizeFailed => exact .ret (.error hmade.linkFree hgrown)
      | canonicalize hresolve =>
        obtain rfl := hmade.linkFree.resolve_object hname hresolve
        let p : Projection :=
          ⟨bind.source.normalize, bind.destination.normalize, hroot, by simpa using hreserved⟩
        have haccepted : Accepted plainHost bind p := ⟨by simpa using habs, rfl, rfl, rfl⟩
        have hrest : Triple SourceServes (openSources (opened.push p hnew) binds) tree₁
            (OpensTo (opened.push p hnew) binds tree₁) panics :=
          ih (fun b hb => hstraight b (List.mem_cons_of_mem _ hb)) hmade.linkFree
        exact hrest.mono (fun r later hopens => hopens.cons haccepted hgrown hdir) fun _ => id

-- ---------------------------------------------------------------------------
-- Opening and opening again
-- ---------------------------------------------------------------------------

theorem triple_opens {binds : List BindSpec} {tree : Tree} {panics : Tree → Prop}
    (hstraight : ∀ bind ∈ binds, bind.Straight) (h : LinkFree tree) :
    Triple SourceServes (BindView.opens binds) tree (fun r later => LinkFree later ∧
      Grown binds tree later ∧ ∀ view, r = .ok view → BindView.open plainHost binds = .ok view ∧
        view.SourcesInPlace later) panics := by
  refine (triple_openSources hstraight h).mono (fun r later hopens => ?_) fun _ => id
  refine ⟨hopens.linkFree, hopens.grown, fun view hr => ?_⟩
  obtain ⟨ps, hloop, hview, hsources⟩ := hopens.view view hr
  obtain ⟨view', hopen, hview'⟩ := BindView.open_of_openLoop hloop
  obtain rfl : view' = view := BindView.ext (by rw [hview', hview, List.nil_append])
  refine ⟨hopen, fun p hp => hopens.linkFree.directories (hsources p ?_)⟩
  simpa [hview'] using hp

/-- Whichever calls fail, and whether or not there is a view in the end. -/
theorem opening_tree {binds : List BindSpec} {tree later : Tree} {out : Option (IoResult BindView)}
    (htree : LinkFree tree) (hstraight : ∀ bind ∈ binds, bind.Straight)
    (hrun : Runs SourceServes (BindView.opens binds) tree out later) :
    LinkFree later ∧ Grown binds tree later ∧ ∃ r, out = some r ∧
      ∀ view, r = .ok view → BindView.open plainHost binds = .ok view ∧
        view.SourcesInPlace later := by
  have hopens := @triple_opens binds tree (fun _ => False) hstraight htree
  cases out with
  | none => exact (hopens.stops later hrun).elim
  | some r =>
    obtain ⟨hlinkFree, hgrown, hview⟩ := hopens.returns r later hrun
    exact ⟨hlinkFree, hgrown, r, rfl, hview⟩

def bindS : BindSpec := ⟨osStr ['/', 's'], osStr ['/', 'a']⟩

theorem run_opens : Runs SourceServes (BindView.opens [bindS]) bareTree (some (.ok linkBind))
    sourceTree := by
  refine .call (r := .ok ()) (.directory (.mkdir (p := bindS.source.normalize) (by decide))) ?_
  refine .call (r := .ok bindS.source.normalize) (.canonicalize (by decide)) ?_
  exact .ret

/-- The source is not there and is made. -/
theorem opening_tree_made : LinkFree sourceTree ∧ Grown [bindS] bareTree sourceTree ∧
    ∃ r : IoResult BindView, some (.ok linkBind) = some r ∧ ∀ view, r = .ok view →
      BindView.open plainHost [bindS] = .ok view ∧ view.SourcesInPlace sourceTree :=
  opening_tree bareTree_linkFree (by simp [BindSpec.Straight, bindS]; decide) run_opens

-- ---------------------------------------------------------------------------
-- From the binds to the supervisor
-- ---------------------------------------------------------------------------

end PathShim
