import PathShim.Bind.Symlinks
import PathShim.Linux.Startup
import PathShim.Making
import PathShim.Triples

/-!
# The initial working directory

How `main` decides on the working directory of the command: the requested
directory if it is there or can be made in the source of its projection, and
the root otherwise. Any call may fail at any time.
-/

namespace UnixPath

/-- The components after a root, as a path. -/
def absolute (cs : List Component) : OsStr :=
  ⟨slash :: (relative cs).bytes, by simpa using ⟨by decide, (relative cs).noNul⟩⟩

/-- The proper prefixes of a list, the longest first. -/
def properPrefixes (l : List α) : List (List α) := (List.range l.length).reverse.map l.take

/-- `Path::ancestors`: the path, its parent, the parent of that. -/
def OsStr.ancestors (p : OsStr) : List OsStr :=
  p :: match p.components with
    | .rootDir :: cs => (properPrefixes cs).map absolute
    | cs => (properPrefixes cs).map relative

theorem properPrefixes_concat (l : List α) (a : α) :
    properPrefixes (l ++ [a]) = l :: properPrefixes l := by
  have htake : ∀ k ∈ (List.range l.length).reverse, (l ++ [a]).take k = l.take k := by
    intro k hk
    have hlt : k < l.length := by simpa using hk
    exact List.take_append_of_le_length (Nat.le_of_lt hlt)
  simp only [properPrefixes, List.length_append, List.length_singleton, List.range_succ,
    List.reverse_append, List.reverse_singleton, List.singleton_append, List.map_cons,
    List.take_left', List.map_congr_left htake]

theorem ancestors_of_components {p : OsStr} {path : AbsPath}
    (h : p.components = path.toPath.components) :
    p.ancestors = p :: (properPrefixes (path.map .normal)).map absolute := by
  rw [AbsPath.components_toPath] at h
  simp only [OsStr.ancestors, h]

theorem ancestors_root {p : OsStr} (h : p.components = (AbsPath.toPath []).components) :
    p.ancestors = [p] := ancestors_of_components h

theorem ancestors_concat {p : OsStr} {path : AbsPath} {n : Name}
    (h : p.components = (path ++ [n] : AbsPath).toPath.components) :
    p.ancestors = p :: path.toPath.ancestors := by
  rw [ancestors_of_components h, @ancestors_of_components path.toPath path rfl, List.map_append,
    List.map_singleton, properPrefixes_concat]
  rfl

end UnixPath

namespace PathShim

open UnixPath Effects Namei

-- ---------------------------------------------------------------------------
-- Calls and answers
-- ---------------------------------------------------------------------------

/-- What `diagnostic` prints. -/
structure Diagnostic where
  before : String
  path : OsStr
  after : String
  error : Option IoError

inductive DirectoryOp where
  | metadata (path : OsStr)
  | mkdir (path : OsStr)
  | eprintln (message : Diagnostic)

@[reducible] def DirectoryOp.Answer : DirectoryOp → Type
  | .metadata _ => IoResult Metadata
  | .mkdir _ | .eprintln _ => IoResult Unit

/-- What a call does to the tree. A directory is made where only the last name is missing, and
what is there is told as it is; but any call may fail, with any error, and then changes nothing. -/
inductive TreeServes : Effect DirectoryOp.Answer Tree
  | metadata {tree path p m} : resolve tree path = .object p →
      (m.isDir = true ↔ tree p = some .dir) → TreeServes tree ⟨.metadata path, .ok m⟩ tree
  | metadataFailed {tree path e} : TreeServes tree ⟨.metadata path, .error e⟩ tree
  | mkdir {tree path p} : resolve tree path = .missing p →
      TreeServes tree ⟨.mkdir path, .ok ()⟩ (made tree p)
  | mkdirFailed {tree path e} : TreeServes tree ⟨.mkdir path, .error e⟩ tree
  | eprintln {tree message r} : TreeServes tree ⟨.eprintln message, r⟩ tree

abbrev DirectoryProg (α : Type) := Prog DirectoryOp.Answer α

-- ---------------------------------------------------------------------------
-- Making directories
-- ---------------------------------------------------------------------------

def Fs.metadata (path : OsStr) : DirectoryProg (IoResult Metadata) :=
  perform (DirectoryOp.metadata path)

def Fs.mkdir (path : OsStr) : DirectoryProg (IoResult Unit) := perform (DirectoryOp.mkdir path)

/-- `Path::is_dir`. -/
def Fs.isDir (path : OsStr) : DirectoryProg Bool := do
  match ← metadata path with
  | .ok metadata => return metadata.isDir
  | .error _ => return false

/-- An error of `mkdir`, unless the directory is there after all. -/
def Fs.unlessDir (path : OsStr) (e : IoError) : DirectoryProg (IoResult Unit) := do
  if ← isDir path then return .ok () else return .error e

/-- `DirBuilder::create_dir_all` of the first of these paths; each is the parent of the one
before. -/
def Fs.createDirAllIn : List OsStr → DirectoryProg (IoResult Unit)
  | [] => return .error (.new .uncategorized "failed to create whole tree" none)
  | path :: parents => do
    if path.bytes = [] then return .ok ()
    else
      match ← mkdir path with
      | .ok () => return .ok ()
      | .error e =>
        if e.isNotFound then
          match ← createDirAllIn parents with
          | .error e => return .error e
          | .ok () =>
            match ← mkdir path with
            | .ok () => return .ok ()
            | .error e => unlessDir path e
        else unlessDir path e

/-- `fs::create_dir_all`. -/
def Fs.createDirAll (path : OsStr) : DirectoryProg (IoResult Unit) := createDirAllIn path.ancestors

-- ---------------------------------------------------------------------------
-- The decision
-- ---------------------------------------------------------------------------

def BindView.resolveDirectory (view : BindView) (virtualPath : OsStr) :
    DirectoryProg (IoResult AbsPath) := do
  let virtualPath := normalizeVirtual virtualPath
  let realPath := view.resolveProjected virtualPath.toPath
  match ← Fs.metadata realPath with
  | .ok metadata =>
    if metadata.isDir then return .ok virtualPath else return .error (.os ENOTDIR)
  | .error e => return .error e

def BindView.createDirectoryAll (view : BindView) (virtualPath : OsStr) :
    DirectoryProg (IoResult AbsPath) := do
  let virtualPath := normalizeVirtual virtualPath
  if view.projectionIndex virtualPath = none then return .error (.os ENOTSUP)
  else
    match ← Fs.createDirAll (view.resolveProjected virtualPath.toPath) with
    | .error e => return .error e
    | .ok () => return .ok virtualPath

def Main.eprintln (message : Diagnostic) : DirectoryProg (IoResult Unit) :=
  perform (DirectoryOp.eprintln message)

/-- `eprintln!` panics when it cannot write. -/
def Main.diagnostic (quiet : Bool) (message : Diagnostic) : DirectoryProg Unit := do
  if quiet then return ()
  else
    match ← eprintln message with
    | .ok () => return ()
    | .error _ => .panic

def Main.fallbackGuestCwd (quiet : Bool) (requested : OsStr) (error : IoError) :
    DirectoryProg AbsPath := do
  diagnostic quiet ⟨"guest cwd unavailable requested=", requested, " fallback=/ error=", some error⟩
  return []

/-- The working directory `main` decides on. -/
def Main.guestCwd (view : BindView) (quiet : Bool) (requested : OsStr) :
    DirectoryProg AbsPath := do
  match ← view.resolveDirectory requested with
  | .ok cwd => return cwd
  | .error error =>
    if error.isNotFound then
      match ← view.createDirectoryAll requested with
      | .ok cwd =>
        diagnostic quiet ⟨"created guest cwd path=", cwd.toPath, "", none⟩
        return cwd
      | .error error => fallbackGuestCwd quiet requested error
    else fallbackGuestCwd quiet requested error

def Main.namePwd : OsStr := osStr ['P', 'W', 'D']

def Main.configureVirtualEnvironment (command : Command) (guestCwd : AbsPath) : Command :=
  { command with
    currentDir := some guestCwd.toPath
    envs := command.envs.filter (·.1 ≠ namePwd) ++ [(namePwd, guestCwd.toPath)] }

/-- `main` from the opened view to `run`. -/
def Main.prepare (view : BindView) (quiet : Bool) (requested : OsStr) (command : Command) :
    DirectoryProg Command := do
  let guestCwd ← guestCwd view quiet requested
  return configureVirtualEnvironment command guestCwd

-- ---------------------------------------------------------------------------
-- What the calls do
-- ---------------------------------------------------------------------------

/-- Only directories on the way to `path` are new, and a success means that it is there. -/
structure Prepared (path : AbsPath) (tree : Tree) (r : IoResult α) (later : Tree) : Prop where
  linkFree : LinkFree later
  onTheWay : OnTheWay path tree later
  there : ∀ a, r = .ok a → later path = some .dir

theorem Prepared.after {path : AbsPath} {tree tree' later : Tree} {r : IoResult α}
    (h : OnTheWay path tree tree') (h' : Prepared path tree' r later) :
    Prepared path tree r later := ⟨h'.linkFree, h.trans h'.onTheWay, h'.there⟩

theorem Prepared.error {path : AbsPath} {tree later : Tree} {e : IoError} (h : LinkFree later)
    (hway : OnTheWay path tree later) : Prepared path tree (.error e : IoResult α) later :=
  ⟨h, hway, fun _ hr => by cases hr⟩

section
variable {tree : Tree} {path : AbsPath} {pathname : OsStr} {panics : Tree → Prop}
  (hname : pathname.components = path.toPath.components) (h : LinkFree tree)
include hname h

theorem triple_metadata : Triple TreeServes (Fs.metadata pathname) tree
    (fun r later => later = tree ∧ ∀ m, r = .ok m → m.isDir = true → tree path = some .dir)
    panics := by
  unfold Fs.metadata
  refine .perform fun r later hserves => ?_
  cases hserves with
  | metadata hresolve hdir =>
    obtain rfl := h.resolve_object hname hresolve
    refine ⟨rfl, fun m hm hisDir => ?_⟩
    cases hm
    exact hdir.mp hisDir
  | metadataFailed => exact ⟨rfl, fun m hm => by cases hm⟩

theorem triple_mkdir : Triple TreeServes (Fs.mkdir pathname) tree
    (fun r later => Prepared path tree r later) panics := by
  unfold Fs.mkdir
  refine .perform fun r later hserves => ?_
  cases hserves with
  | mkdir hresolve =>
    obtain ⟨init, n, rfl, rfl, hinit, hnone⟩ := h.resolve_missing hname hresolve
    exact ⟨h.made hinit, onTheWay_made hnone, fun _ _ => by rw [made, Function.update_self]⟩
  | mkdirFailed => exact .error h .refl

theorem triple_isDir : Triple TreeServes (Fs.isDir pathname) tree
    (fun b later => later = tree ∧ (b = true → tree path = some .dir)) panics := by
  refine (triple_metadata hname h).bind ?_
  rintro r _ ⟨rfl, hdir⟩
  cases r with
  | ok m => exact .ret ⟨rfl, hdir m rfl⟩
  | error e => exact .ret ⟨rfl, fun hb => by cases hb⟩

theorem triple_unlessDir {before : Tree} (hway : OnTheWay path before tree) (e : IoError) :
    Triple TreeServes (Fs.unlessDir pathname e) tree
      (fun r later => Prepared path before r later) panics := by
  refine (triple_isDir hname h).bind ?_
  rintro b _ ⟨rfl, hdir⟩
  cases b with
  | true => exact .ret ⟨h, hway, fun _ _ => hdir rfl⟩
  | false => exact .ret (.error h hway)

end

theorem bytes_ne_nil {path : AbsPath} {pathname : OsStr}
    (hname : pathname.components = path.toPath.components) : pathname.bytes ≠ [] := by
  intro hempty
  rw [AbsPath.components_toPath, OsStr.components] at hname
  simp [OsStr.isAbsolute, hempty] at hname

/-- Whichever calls fail, `create_dir_all` makes nothing but directories on the way, and it only
succeeds when the last one is there. -/
theorem triple_createDirAll {tree : Tree} {path : AbsPath} {pathname : OsStr}
    {panics : Tree → Prop} (hname : pathname.components = path.toPath.components)
    (h : LinkFree tree) : Triple TreeServes (Fs.createDirAll pathname) tree
      (fun r later => Prepared path tree r later) panics := by
  unfold Fs.createDirAll
  induction path using List.reverseRecOn generalizing pathname tree with
  | nil =>
    simp only [ancestors_root hname, Fs.createDirAllIn, bytes_ne_nil hname, if_false]
    refine (triple_mkdir hname h).bind fun r tree₁ hmkdir => ?_
    cases r with
    | ok _ => exact .ret hmkdir
    | error e =>
      dsimp only
      split
      · exact .ret (.error hmkdir.linkFree hmkdir.onTheWay)
      · exact triple_unlessDir hname hmkdir.linkFree hmkdir.onTheWay e
  | append_singleton path n ih =>
    simp only [ancestors_concat hname, Fs.createDirAllIn, bytes_ne_nil hname, if_false]
    refine (triple_mkdir hname h).bind fun r tree₁ hmkdir => ?_
    cases r with
    | ok _ => exact .ret hmkdir
    | error e =>
      dsimp only
      split
      · refine (ih rfl hmkdir.linkFree).bind fun r tree₂ hparents => ?_
        have hway : OnTheWay (path ++ [n]) tree tree₂ :=
          hmkdir.onTheWay.trans (hparents.onTheWay.mono (List.prefix_append _ _))
        cases r with
        | error e => exact .ret (.error hparents.linkFree hway)
        | ok _ =>
          refine (triple_mkdir hname hparents.linkFree).bind fun r tree₃ hagain => ?_
          cases r with
          | ok _ => exact .ret (hagain.after hway)
          | error e =>
            exact triple_unlessDir hname hagain.linkFree (hway.trans hagain.onTheWay) e
      · exact triple_unlessDir hname hmkdir.linkFree hmkdir.onTheWay e

-- ---------------------------------------------------------------------------
-- The decision of `main`
-- ---------------------------------------------------------------------------

section
variable {view : BindView} {tree : Tree} {panics : Tree → Prop} (h : LinkFree tree)
include h

end

/-- A tree with nothing but the root and the source `/s`. -/
def bareTree : Tree := fun path => if path = [] then some .dir else none

def sourceTree : Tree := made bareTree (osStr ['/', 's']).normalize

theorem bareTree_linkFree : LinkFree bareTree where
  root := rfl
  parents := by
    intro path n h
    simp [bareTree] at h
  noLink := by
    intro path target h
    unfold bareTree at h
    split at h <;> cases h

end PathShim
