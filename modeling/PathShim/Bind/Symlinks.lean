import PathShim.Bind.Forward
import PathShim.Namei

/-!
# Symbolic links below a destination

The supervisor removes `..` from a guest path, moves the path into the source
and lets its own kernel follow the links there. Guest resolution walks the
pathname in the namespace in which every destination holds its source. The two
reach the same object when no component on the way means something else there.
-/

namespace PathShim

open UnixPath Mounts Namei

-- ---------------------------------------------------------------------------
-- The guest namespace
-- ---------------------------------------------------------------------------

/-- The namespace in which every destination holds its source. The directories above a destination
are there even if the host does not have them. -/
def BindView.guestTree (view : BindView) (tree : Tree) : Tree := fun path =>
  if ∃ p ∈ view.projections, path <+: p.destination ∧ path ≠ p.destination then some .dir
  else tree (view.locate path)

/-- The sources still are what `canonicalize` returned when the view was opened. -/
def BindView.SourcesInPlace (view : BindView) (tree : Tree) : Prop :=
  ∀ p ∈ view.projections, Directories tree [] p.source

section
variable {view : BindView} {tree : Tree} {p : Projection}

theorem BindView.locate_root : view.locate [] = [] := by
  refine locate_of_not_covered fun h => ?_
  obtain ⟨p, -, hp⟩ := BindView.projected_iff.mp h
  exact p.notRoot (List.prefix_nil.mp hp)

theorem BindView.locate_destination (hp : p ∈ view.projections) :
    view.locate p.destination = p.source := by
  have hlongest : Longest view.table p.mount (p.mount.target ++ []) := by
    refine ⟨List.mem_map_of_mem hp, List.prefix_append _ _, fun m _ hm => ?_⟩
    rw [List.append_nil] at hm
    exact hm.length_le
  have hlocate := locate_of_longest view.table_wellFormed hlongest
  rwa [List.append_nil, List.append_nil] at hlocate

/-- A destination can be walked to, whatever the host has under its name. -/
theorem BindView.directories_destination (hsources : view.SourcesInPlace tree)
    (hp : p ∈ view.projections) : Directories (view.guestTree tree) [] p.destination := by
  intro path hpath
  rw [List.nil_append, guestTree]
  split
  · rfl
  · rename_i hnot
    have heq : path = p.destination := by
      by_contra hne
      exact hnot ⟨p, hp, hpath, hne⟩
    rw [heq, locate_destination hp]
    exact hsources p hp p.source List.prefix_rfl

theorem BindView.locate_concat {d : AbsPath} {n : Name}
    (h : ∀ p ∈ view.projections, p.destination ≠ d ++ [n]) :
    view.locate (d ++ [n]) = view.locate d ++ [n] := by
  refine Mounts.locate_concat view.table_wellFormed fun m hm => ?_
  obtain ⟨p, hp, rfl⟩ := List.mem_map.mp hm
  exact h p hp

-- ---------------------------------------------------------------------------
-- Following links
-- ---------------------------------------------------------------------------

/-- Guest resolution of `raw` leaves nothing to chance: every `..` of the pathname follows a real
directory, a pathname that ends in a slash or a dot leads to a directory, and no component looked up
below the destination, be it one of the pathname or one of a link that is followed, enters or leaves
a destination or relies on a directory the host lacks. -/
structure StaysInGuest (view : BindView) (tree : Tree) (raw : OsStr) : Prop where
  cancels : Cancels (view.guestTree tree) MAXSYMLINKS (steps raw.bytes)
  directory : ending raw ≠ .name → ∃ budget cur,
    Arrives (view.guestTree tree) MAXSYMLINKS [] (steps raw.bytes) budget cur
  alike : ∀ (p : Projection) rest, Longest view.table p.mount raw.normalize →
    raw.normalize = p.destination ++ rest →
    WalksAlike view.locate (view.guestTree tree) tree MAXSYMLINKS p.destination (rest.map .normal)

/-- What the supervisor reaches through `resolve_read` is what guest resolution reaches. -/
theorem symlinks_in_guest {raw : OsStr} (hsources : view.SourcesInPlace tree)
    (hprojected : view.Projected raw.normalize) (hstays : StaysInGuest view tree raw) :
    resolve tree (view.resolveRead raw.normalize.toPath) =
      (resolve (view.guestTree tree) raw).map view.locate := by
  obtain ⟨index, p, -, hindex, hlongest⟩ := view.exists_projectionIndex hprojected
  have hp : p ∈ view.projections := List.mem_of_getElem? hindex
  obtain ⟨rest, hrest⟩ : ∃ rest, raw.normalize = p.destination ++ rest := by
    obtain ⟨rest, hrest⟩ := hlongest.covers
    exact ⟨rest, hrest.symm⟩
  have hlocate : view.locate raw.normalize = p.source ++ rest := by
    rw [hrest] at hlongest ⊢
    exact locate_of_longest view.table_wellFormed hlongest
  have hnormal : p.mount.target ++ rest = (raw.normalize.toPath).normalize := by
    rw [AbsPath.normalize_toPath, hrest]
    rfl
  have hread : view.resolveRead raw.normalize.toPath =
      p.source.toPath.join (relative (rest.map .normal)) :=
    view.resolveProjected_of_longest (by rwa [AbsPath.normalize_toPath]) hnormal.symm
  have hhost : resolve tree (view.resolveRead raw.normalize.toPath) =
      walk tree MAXSYMLINKS .name p.source (rest.map .normal) := by
    have hcomponents := view.components_resolveRead raw.normalize.toPath
    rw [AbsPath.normalize_toPath, hlocate] at hcomponents
    rw [resolve, steps_of_components hcomponents, List.map_append,
      (hsources p hp).arrives.walk, List.nil_append, hread]
    -- the source itself is a directory, and below it nothing comes after the last name
    by_cases hroot : rest = []
    · rw [hroot, List.map_nil, walk_nil, walk_nil]
    · rw [ending_join hroot]
  have hending : resolve (view.guestTree tree) raw =
      walk (view.guestTree tree) MAXSYMLINKS .name [] (steps raw.bytes) := by
    by_cases hname : ending raw = .name
    · rw [resolve, hname]
    · obtain ⟨budget, cur, harrives⟩ := hstays.directory hname
      rw [resolve, harrives.walk_object, harrives.walk_object]
  have hguest : resolve (view.guestTree tree) raw =
      walk (view.guestTree tree) MAXSYMLINKS .name p.destination (rest.map .normal) := by
    rw [hending, walk_lexical (fun c => steps_ne_root) hstays.cancels, ← OsStr.normalize_eq, hrest,
      List.map_append, (BindView.directories_destination hsources hp).arrives.walk,
      List.nil_append]
  rw [hhost, hguest, ← BindView.locate_destination hp]
  exact walk_map BindView.locate_root (hstays.alike p rest hlongest hrest)

end

/-- The directory `/s` seen at `/a`. -/
def linkBind : BindView where
  projections :=
    [⟨(osStr ['/', 's']).normalize, (osStr ['/', 'a']).normalize, by decide, by decide⟩]
  deepestFirst := by simp
  distinct := by simp

/-- In the source an absolute link `l`, and relative links `r` and `k`; and another `x` in the
Pod's own `/a`. -/
def linkTree : Tree := .ofList [
  (osStr ['/'], .dir), (osStr ['/', 's'], .dir), (osStr ['/', 'a'], .dir),
  (osStr ['/', 's', '/', 'l'], .link (osStr ['/', 'a', '/', 'x'])),
  (osStr ['/', 's', '/', 'r'], .link (osStr ['x'])),
  (osStr ['/', 's', '/', 'k'], .link (osStr ['d', '/', 'e'])),
  (osStr ['/', 's', '/', 'x'], .file), (osStr ['/', 'a', '/', 'x'], .file),
  (osStr ['/', 's', '/', 'd'], .dir), (osStr ['/', 's', '/', 'd', '/', 'e'], .dir)]

theorem linkBind_sourcesInPlace : linkBind.SourcesInPlace linkTree := by
  intro p hp
  obtain rfl := List.mem_singleton.mp hp
  decide

theorem symlinks_in_guest_relative :
    resolve linkTree (linkBind.resolveRead (osStr ['/', 'a', '/', 'r']).normalize.toPath) =
      (resolve (linkBind.guestTree linkTree) (osStr ['/', 'a', '/', 'r'])).map linkBind.locate := by
  refine symlinks_in_guest linkBind_sourcesInPlace (by decide)
    ⟨cancels_of_names (by decide), fun h => absurd (by decide) h, fun p rest hlongest hrest => ?_⟩
  obtain ⟨q, hq, hmount⟩ := List.mem_map.mp hlongest.mem
  obtain rfl := List.mem_singleton.mp hq
  have hdestination : p.destination = (osStr ['/', 'a']).normalize :=
    (congrArg Mount.target hmount).symm
  rw [hdestination] at hrest ⊢
  have hname : (osStr ['/', 'r']).normalize = rest := List.append_cancel_left hrest
  subst hname
  decide

/-- The same where the Pod's own `/a` happens to be a link to the source. -/
def chanceTree : Tree := .ofList [
  (osStr ['/'], .dir), (osStr ['/', 's'], .dir), (osStr ['/', 'a'], .link (osStr ['/', 's'])),
  (osStr ['/', 's', '/', 'l'], .link (osStr ['/', 'a', '/', 'x'])),
  (osStr ['/', 's', '/', 'x'], .file)]

-- A link that is followed in the Pod's namespace can come to the right object by chance.
example : ¬ WalksAlike linkBind.locate (linkBind.guestTree chanceTree) chanceTree MAXSYMLINKS
      (osStr ['/', 'a']).normalize ((osStr ['/', 'l']).normalize.map .normal) ∧
    resolve chanceTree (linkBind.resolveRead (osStr ['/', 'a', '/', 'l']).normalize.toPath) =
      (resolve (linkBind.guestTree chanceTree) (osStr ['/', 'a', '/', 'l'])).map
        linkBind.locate := by
  decide

/-- `/a/l` leads to the `x` of the Pod's own tree instead of the source's, `/a/k/../x` to `/s/x`
where the guest path is `/s/d/x`, which does not exist, and `/a/x/` to a file that is no
directory. -/
theorem symlinks_in_pod : linkBind.SourcesInPlace linkTree ∧
    resolve linkTree (linkBind.resolveRead (osStr ['/', 'a', '/', 'l']).normalize.toPath) =
      .object (osStr ['/', 'a', '/', 'x']).normalize ∧
    (resolve (linkBind.guestTree linkTree) (osStr ['/', 'a', '/', 'l'])).map linkBind.locate =
      .object (osStr ['/', 's', '/', 'x']).normalize ∧
    resolve linkTree (linkBind.resolveRead
      (osStr ['/', 'a', '/', 'k', '/', '.', '.', '/', 'x']).normalize.toPath) =
      .object (osStr ['/', 's', '/', 'x']).normalize ∧
    (resolve (linkBind.guestTree linkTree)
      (osStr ['/', 'a', '/', 'k', '/', '.', '.', '/', 'x'])).map linkBind.locate =
      .missing (osStr ['/', 's', '/', 'd', '/', 'x']).normalize ∧
    resolve linkTree (linkBind.resolveRead (osStr ['/', 'a', '/', 'x', '/']).normalize.toPath) =
      .object (osStr ['/', 's', '/', 'x']).normalize ∧
    resolve (linkBind.guestTree linkTree) (osStr ['/', 'a', '/', 'x', '/']) = .failed :=
  ⟨linkBind_sourcesInPlace, by decide⟩

end PathShim
