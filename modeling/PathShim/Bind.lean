import Mathlib.Data.List.Sort
import PathShim.Host

/-!
# The bind view

`BindView` maps guest paths to the physical paths below the sources and back.
A projection cannot be built with a root or reserved destination, nor a view
with two equal destinations or out of depth order; `BindView.open` is where
these are established.
-/

namespace PathShim

open UnixPath

structure BindSpec where
  source : OsStr
  destination : OsStr
  deriving DecidableEq

/-- `normalize_virtual`. Its error arm is for `Component::Prefix`, which a Unix
path does not have. -/
def normalizeVirtual (path : OsStr) : AbsPath :=
  path.components.foldl (fun out component =>
    match component with
    | .rootDir | .curDir => out
    | .parentDir => out.dropLast
    | .normal part => out ++ [part]) []

@[simp] theorem normalizeVirtual_eq (path : OsStr) : normalizeVirtual path = path.normalize := rfl

def nameDev : Name := ⟨ascii ['d', 'e', 'v'], by decide⟩
def nameProc : Name := ⟨ascii ['p', 'r', 'o', 'c'], by decide⟩
def nameSys : Name := ⟨ascii ['s', 'y', 's'], by decide⟩

/-- `Path::starts_with`, component-wise. -/
def startsWith (path base : AbsPath) : Bool := base.isPrefixOf path

@[simp] theorem startsWith_iff {path base : AbsPath} :
    startsWith path base = true ↔ base <+: path := List.isPrefixOf_iff_prefix

def isReserved (path : AbsPath) : Bool :=
  [[nameDev], [nameProc], [nameSys]].any fun root => path == root || startsWith path root

theorem isReserved_iff {path : AbsPath} :
    isReserved path = true ↔
      [nameDev] <+: path ∨ [nameProc] <+: path ∨ [nameSys] <+: path := by
  simp only [isReserved, List.any_cons, List.any_nil, Bool.or_false, Bool.or_eq_true, beq_iff_eq,
    startsWith_iff]
  have hself (root : AbsPath) : path = root ∨ root <+: path ↔ root <+: path :=
    ⟨fun h => h.elim (fun e => e ▸ List.prefix_rfl) id, .inr⟩
  simp only [hself]

/-- Only a path inside a reserved tree extends to one inside it, the root apart. -/
theorem isReserved_append {path : AbsPath} (hne : path ≠ []) (rest : AbsPath) :
    isReserved (path ++ rest) = isReserved path := by
  cases path with
  | nil => exact absurd rfl hne
  | cons n path =>
    rw [Bool.eq_iff_iff]
    simp [isReserved_iff, List.cons_prefix_cons]

structure Projection where
  source : AbsPath
  destination : AbsPath
  notRoot : destination ≠ []
  notReserved : isReserved destination = false

/-- `destination.components().count()`, the root directory included. -/
def depth (path : AbsPath) : Nat := path.length + 1

structure BindView where
  projections : List Projection
  deepestFirst : projections.Pairwise fun p q => depth q.destination ≤ depth p.destination
  distinct : (projections.map Projection.destination).Nodup

-- ---------------------------------------------------------------------------
-- Construction
-- ---------------------------------------------------------------------------

/-- What opening a view asks of the host file system: `fs::create_dir_all` and
`fs::canonicalize`, which returns an absolute path in normal form. -/
structure SourceHost where
  createDirAll : OsStr → IoResult Unit
  canonicalize : OsStr → IoResult AbsPath

def invalidInput (message : String) (path : Option OsStr) : IoError :=
  .new .invalidInput message path

/-- The loop of `BindView::open`; `destinations` are those accepted so far. -/
def openLoop (host : SourceHost) (destinations : List AbsPath) :
    List BindSpec → IoResult (List Projection)
  | [] => .ok []
  | bind :: binds =>
    if bind.destination.isAbsolute = false then
      .error (invalidInput "bind destination must be absolute: " (some bind.destination))
    else
      let destination := normalizeVirtual bind.destination
      if hroot : destination = [] then
        .error (invalidInput "bind destination `/` is unsupported" none)
      else if hreserved : isReserved destination = true then
        .error (invalidInput "bind destination is reserved for host passthrough: "
          (some destination.toPath))
      else if destination ∈ destinations then
        .error (invalidInput "duplicate bind destination: " (some destination.toPath))
      else do
        host.createDirAll bind.source
        let source ← host.canonicalize bind.source
        let projections ← openLoop host (destination :: destinations) binds
        return ⟨source, destination, hroot, by simpa using hreserved⟩ :: projections

/-- The order `sort_by_key(Reverse(depth))` establishes. -/
def deeperFirst (p q : Projection) : Prop := depth q.destination ≤ depth p.destination

instance : DecidableRel deeperFirst := fun p q => by unfold deeperFirst; infer_instance
instance : Std.Total deeperFirst := ⟨fun _ _ => Nat.le_total _ _⟩
instance : IsTrans Projection deeperFirst := ⟨fun _ _ _ hpq hqr => Nat.le_trans hqr hpq⟩

/-- A bind list the loop accepts, bind by bind. -/
structure Accepted (host : SourceHost) (bind : BindSpec) (p : Projection) : Prop where
  isAbsolute : bind.destination.isAbsolute = true
  destination : p.destination = bind.destination.normalize
  created : host.createDirAll bind.source = .ok ()
  canonical : host.canonicalize bind.source = .ok p.source

theorem bind_ok {x : Except ε α} {f : α → Except ε β} :
    x >>= f = .ok b ↔ ∃ a, x = .ok a ∧ f a = .ok b := by
  cases x <;> simp [bind, Except.bind]

theorem openLoop_ok {host : SourceHost} {destinations : List AbsPath} {binds : List BindSpec}
    {ps : List Projection} (h : openLoop host destinations binds = .ok ps) :
    List.Forall₂ (Accepted host) binds ps ∧
      (ps.map Projection.destination).Nodup ∧ ∀ p ∈ ps, p.destination ∉ destinations := by
  induction binds generalizing destinations ps with
  | nil =>
    cases h
    exact ⟨.nil, by simp, by simp⟩
  | cons bind binds ih =>
    unfold openLoop at h
    split at h
    · cases h
    · rename_i habs
      dsimp only at h
      split at h
      · cases h
      · split at h
        · cases h
        · split at h
          · cases h
          · rename_i hroot hreserved hnew
            simp only [bind_ok, pure, Except.pure, Except.ok.injEq] at h
            obtain ⟨_, hcreate, source, hsource, rest, hrest, rfl⟩ := h
            obtain ⟨hall, hnodup, hseen⟩ := ih hrest
            refine ⟨.cons ⟨by simpa using habs, by simp, hcreate, hsource⟩ hall, ?_, ?_⟩
            · simp only [List.map_cons, List.nodup_cons]
              refine ⟨fun hm => ?_, hnodup⟩
              obtain ⟨p, hp, hd⟩ := List.mem_map.mp hm
              exact hseen p hp (by simp [hd])
            · intro p hp
              rcases List.mem_cons.mp hp with rfl | hp
              · exact hnew
              · exact fun hm => hseen p hp (List.mem_cons_of_mem _ hm)

def BindView.open (host : SourceHost) (binds : List BindSpec) : IoResult BindView :=
  match h : openLoop host [] binds with
  | .error error => .error error
  | .ok projections => .ok {
      projections := projections.insertionSort deeperFirst
      deepestFirst := List.pairwise_insertionSort deeperFirst projections
      distinct :=
        (((List.perm_insertionSort deeperFirst projections).map
          Projection.destination).nodup_iff).mpr (openLoop_ok h).2.1 }

/-- The binds a view was opened with, in some order, are its projections. -/
theorem BindView.open_ok {host : SourceHost} {binds : List BindSpec} {view : BindView}
    (h : BindView.open host binds = .ok view) :
    ∃ ps, List.Forall₂ (Accepted host) binds ps ∧ view.projections.Perm ps := by
  unfold BindView.open at h
  split at h
  · cases h
  · rename_i ps hps
    cases h
    exact ⟨ps, (openLoop_ok hps).1, List.perm_insertionSort deeperFirst ps⟩

-- ---------------------------------------------------------------------------
-- Guest to host
-- ---------------------------------------------------------------------------

def Projection.covers (p : Projection) (virtualPath : AbsPath) : Bool :=
  virtualPath == p.destination || startsWith virtualPath p.destination

theorem Projection.covers_iff {p : Projection} {path : AbsPath} :
    p.covers path = true ↔ p.destination <+: path := by
  simp only [covers, Bool.or_eq_true, beq_iff_eq, startsWith_iff]
  exact ⟨fun h => h.elim (fun e => e ▸ List.prefix_rfl) id, .inr⟩

def BindView.projectionIndex (view : BindView) (virtualPath : AbsPath) : Option Nat :=
  if isReserved virtualPath then none
  else view.projections.findIdx? fun p => p.covers virtualPath

/-- `Projection::resolve`; `none` is the panic of its `expect`. -/
def Projection.resolve (p : Projection) (virtualPath : AbsPath) : Option OsStr :=
  (virtualPath.toPath.stripBase p.destination).map p.source.toPath.join

def BindView.projects (view : BindView) (virtualPath : OsStr) : Bool :=
  (view.projectionIndex (normalizeVirtual virtualPath)).isSome

def BindView.sameProjection (view : BindView) (first second : OsStr) : Bool :=
  match view.projectionIndex (normalizeVirtual first),
    view.projectionIndex (normalizeVirtual second) with
  | some first, some second => first == second
  | _, _ => false

/-- `resolve_projected`; `none` is a panic on the way. -/
def BindView.resolveProjected? (view : BindView) (virtualPath : OsStr) : Option OsStr :=
  let virtualPath := normalizeVirtual virtualPath
  match view.projectionIndex virtualPath with
  | none => some virtualPath.toPath
  | some index => view.projections[index]?.bind (·.resolve virtualPath)

theorem Projection.resolve_append (p : Projection) (rest : AbsPath) :
    p.resolve (p.destination ++ rest) =
      some (p.source.toPath.join (relative (rest.map .normal))) := by
  rw [resolve, (OsStr.stripBase_eq_some rfl).mpr ⟨rest, rfl, rfl⟩, Option.map_some]

/-- The projection selected for a path is the first that covers it. -/
theorem BindView.projectionIndex_some {view : BindView} {path : AbsPath} {index : Nat}
    (h : view.projectionIndex path = some index) :
    isReserved path = false ∧ ∃ p, view.projections[index]? = some p ∧ p.destination <+: path ∧
      ∀ j q, j < index → view.projections[j]? = some q → ¬ q.destination <+: path := by
  unfold projectionIndex at h
  split at h
  · cases h
  · rename_i hr
    obtain ⟨hlt, hp, hbefore⟩ := List.findIdx?_eq_some_iff_getElem.mp h
    refine ⟨by simpa using hr, view.projections[index], by simp [hlt],
      Projection.covers_iff.mp hp, ?_⟩
    intro j q hj hq hcovers
    have hjlt : j < view.projections.length := Nat.lt_trans hj hlt
    have hqj : view.projections[j] = q := by simpa [hjlt] using hq
    exact hbefore j hj (hqj ▸ Projection.covers_iff.mpr hcovers)

theorem BindView.resolveProjected?_isSome (view : BindView) (path : OsStr) :
    (view.resolveProjected? path).isSome := by
  unfold resolveProjected?
  dsimp only
  split
  · rfl
  · rename_i index hindex
    obtain ⟨-, p, hp, ⟨rest, hrest⟩, -⟩ := view.projectionIndex_some hindex
    rw [hp, Option.bind_some, ← hrest, p.resolve_append]
    rfl

def BindView.resolveProjected (view : BindView) (virtualPath : OsStr) : OsStr :=
  (view.resolveProjected? virtualPath).get (view.resolveProjected?_isSome virtualPath)

def BindView.resolveRead (view : BindView) (virtualPath : OsStr) : OsStr :=
  view.resolveProjected virtualPath

/-- The projection selected for a path resolves it, and that is where the path is. -/
theorem BindView.resolve_normalize {view : BindView} {path : OsStr} {index : Nat}
    (h : view.projectionIndex path.normalize = some index) :
    view.projections[index]?.bind (·.resolve path.normalize) = some (view.resolveRead path) := by
  have hres : view.resolveProjected? path =
      view.projections[index]?.bind (·.resolve path.normalize) := by
    simp only [resolveProjected?, normalizeVirtual_eq, h]
  rw [← hres, resolveRead, resolveProjected, Option.some_get]

theorem BindView.resolve_selected {view : BindView} {path : AbsPath} {index : Nat}
    (h : view.projectionIndex path = some index) :
    view.projections[index]?.bind (·.resolve path) = some (view.resolveRead path.toPath) := by
  have hresolve := @resolve_normalize view path.toPath index (by rwa [AbsPath.normalize_toPath])
  rwa [AbsPath.normalize_toPath] at hresolve

def BindView.prepareOpen (view : BindView) (virtualPath : OsStr) (_flags : Int32) : OsStr :=
  view.resolveProjected virtualPath

def BindView.prepareMutation (view : BindView) (virtualPath : OsStr) : OsStr :=
  view.resolveProjected virtualPath

-- ---------------------------------------------------------------------------
-- Host to guest
-- ---------------------------------------------------------------------------

/-- `Iterator::max_by_key`: of several maximal elements, the last. -/
def maxByKey (key : α → Nat) : List α → Option α
  | [] => none
  | a :: rest => some (rest.foldl (fun best b => if key best ≤ key b then b else best) a)

def joinVirtual (destination : AbsPath) (rest : OsStr) : OsStr :=
  if rest.bytes = [] then destination.toPath else destination.toPath.join rest

def BindView.virtualForHost (view : BindView) (host : OsStr) : OsStr :=
  let candidates := view.projections.filterMap fun p =>
    (host.stripBase p.source).map fun rest => (depth p.source, joinVirtual p.destination rest)
  match maxByKey Prod.fst candidates with
  | some (_, virtualPath) => virtualPath
  | none => host

end PathShim
