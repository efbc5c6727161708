import PathShim.Bind.Symlinks
import PathShim.Linux.Dispatch

/-!
# Listing and lookup

`list_dir` selects a projection for the directory, a lookup below it selects one
for the longer path. They speak of the same entry unless the entry's own path
is a destination: then the listing shows what the directory's source has under
that name, and the lookup goes to the other source.
-/

namespace PathShim

open UnixPath Effects

/-- A host without symbolic links: what `lstat` says of each location. -/
structure PlainTree where
  entry : AbsPath → Option Metadata
  noLinks : ∀ path m, entry path = some m → m.fileType ≠ .symlink
  parents : ∀ path name, entry (path ++ [name]) ≠ none → ∃ m, entry path = some m ∧ m.isDir = true

/-- `m` is there under the names of a host path. -/
def PlainTree.Finds (tree : PlainTree) (path : OsStr) (m : Metadata) : Prop :=
  tree.entry path.normalize = some m

instance (tree : PlainTree) (path : OsStr) (m : Metadata) : Decidable (tree.Finds path m) :=
  inferInstanceAs (Decidable (tree.entry path.normalize = some m))

/-- What the host answers while a directory is listed: each name once, in any order. -/
def PlainTree.Answers (tree : PlainTree) : Env Op.Answer
  | .readDir path, r => (∃ m, tree.Finds path m ∧ m.isDir = true) → ∃ names : List Name,
    r = .ok (names.map .ok) ∧ names.Nodup ∧
      ∀ name, name ∈ names ↔ tree.entry (path.normalize ++ [name]) ≠ none
  | .symlinkMetadata path, r => ∀ m, tree.Finds path m → r = .ok m
  | _, _ => True

section
variable {tree : PlainTree} {view : BindView} {tr : Trace} {v : AbsPath}

/-- What a listing says about an entry. -/
def listed (name : Name) (m : Metadata) : DirEntry := ⟨name, m.inode, metadataToDirType m⟩

theorem normalize_join_name (directory : OsStr) (name : Name) :
    (directory.join (relative [.normal name])).normalize = directory.normalize ++ [name] := by
  have hname : relative [.normal name] = relative ([name].map .normal) := rfl
  rw [hname, OsStr.normalize_join (relative_isAbsolute _), steps_relative, lexical_names]

theorem exec_listEntries {directory : OsStr} {names : List Name}
    (hnames : ∀ name ∈ names, tree.entry (directory.normalize ++ [name]) ≠ none)
    {out : Option (IoResult (List DirEntry))}
    (hx : Exec tree.Answers (listEntries directory (names.map .ok)) tr out) :
    ∃ entries, out = some (.ok entries) ∧ entries.map DirEntry.name = names ∧
      ∀ entry ∈ entries, ∃ m, tree.entry (directory.normalize ++ [entry.name]) = some m ∧
        entry = listed entry.name m := by
  induction names generalizing tr out with
  | nil =>
    obtain ⟨-, rfl⟩ := exec_ret.mp hx
    exact ⟨[], rfl, rfl, by simp⟩
  | cons name names ih =>
    obtain ⟨m, hm⟩ := Option.ne_none_iff_exists'.mp (hnames name List.mem_cons_self)
    obtain ⟨r, rest, hr, hrest, rfl⟩ := exec_perform_bind.mp hx
    have hfinds : tree.Finds (directory.join (relative [.normal name])) m := by
      rw [PlainTree.Finds, normalize_join_name]
      exact hm
    obtain rfl := hr m hfinds
    dsimp only at hrest
    rcases exec_bind.mp hrest with ⟨listing, first, last, hfirst, hlast, rfl⟩ | ⟨hnone, -⟩
    · obtain ⟨entries, hlisting, hmap, hall⟩ :=
        ih (fun n hn => hnames n (List.mem_cons_of_mem _ hn)) hfirst
      obtain rfl := Option.some.inj hlisting
      obtain ⟨-, rfl⟩ := exec_ret.mp hlast
      have hmap' : (listed name m :: entries).map DirEntry.name = name :: names := by
        rw [List.map_cons, hmap]
        rfl
      refine ⟨listed name m :: entries, rfl, hmap', fun entry hentry => ?_⟩
      rcases List.mem_cons.mp hentry with rfl | hentry
      · exact ⟨m, hm, rfl⟩
      · exact hall entry hentry
    · obtain ⟨entries, hlisting, -⟩ :=
        ih (fun n hn => hnames n (List.mem_cons_of_mem _ hn)) hnone
      cases hlisting

/-- The entries of a listing are those of the source directory, each once. -/
theorem exec_listDir {m : Metadata} (hdir : tree.entry (view.locate v) = some m)
    (hisDir : m.isDir = true) {out : Option (IoResult (List DirEntry))}
    (hx : Exec tree.Answers (view.listDir v.toPath) tr out) :
    ∃ entries, out = some (.ok entries) ∧ (entries.map DirEntry.name).Nodup ∧
      ∀ entry, entry ∈ entries ↔ ∃ m, tree.entry (view.locate v ++ [entry.name]) = some m ∧
        entry = listed entry.name m := by
  have hlocate : (view.resolveProjected v.toPath).normalize = view.locate v := by
    have h := view.normalize_resolveRead v.toPath
    rwa [AbsPath.normalize_toPath] at h
  have hfinds : tree.Finds (view.resolveProjected v.toPath) m := by
    rwa [PlainTree.Finds, hlocate]
  obtain ⟨r, rest, hr, hrest, rfl⟩ := exec_perform_bind.mp hx
  obtain ⟨names, rfl, hnodup, hnames⟩ := hr ⟨m, hfinds, hisDir⟩
  obtain ⟨entries, rfl, hmap, hall⟩ :=
    exec_listEntries (fun name hname => (hnames name).mp hname) hrest
  rw [hlocate] at hnames hall
  refine ⟨entries, rfl, hmap ▸ hnodup, fun entry => ⟨hall entry, ?_⟩⟩
  rintro ⟨m', hm', hentry⟩
  have hname : entry.name ∈ entries.map DirEntry.name := by
    rw [hmap, hnames, hm']
    exact Option.some_ne_none m'
  obtain ⟨entry', hmem, hname'⟩ := List.mem_map.mp hname
  obtain ⟨m'', hm'', hentry'⟩ := hall entry' hmem
  rw [hname', hm', Option.some.injEq] at hm''
  have heq : entry' = entry := by rw [hentry', hentry, hname', hm'']
  exact heq ▸ hmem

-- ---------------------------------------------------------------------------
-- Agreement
-- ---------------------------------------------------------------------------

/-- The listing of a guest directory says of each name what a lookup finds, unless that path is
itself a destination. There it says what the directory's own source has. -/
theorem listing_lookup {m : Metadata} (hdir : tree.Finds (view.resolveRead v.toPath) m)
    (hisDir : m.isDir = true) {out : Option (IoResult (List DirEntry))}
    (hx : Exec tree.Answers (view.listDir v.toPath) tr out) :
    ∃ entries, out = some (.ok entries) ∧ (entries.map DirEntry.name).Nodup ∧
      (∀ name, (∀ p ∈ view.projections, p.destination ≠ v ++ [name]) → ∀ inode fileType,
        ⟨name, inode, fileType⟩ ∈ entries ↔ ∃ m,
          tree.Finds (view.resolveRead (AbsPath.toPath (v ++ [name]))) m ∧
          inode = m.inode ∧ fileType = metadataToDirType m) ∧
      ∀ name inode fileType, ⟨name, inode, fileType⟩ ∈ entries ↔ ∃ m,
        tree.Finds ((view.resolveRead v.toPath).join (relative [.normal name])) m ∧
        inode = m.inode ∧ fileType = metadataToDirType m := by
  have hlocate (path : AbsPath) : (view.resolveRead path.toPath).normalize = view.locate path := by
    rw [view.normalize_resolveRead, AbsPath.normalize_toPath]
  rw [PlainTree.Finds, hlocate] at hdir
  obtain ⟨entries, rfl, hnodup, hentries⟩ := exec_listDir hdir hisDir hx
  refine ⟨entries, rfl, hnodup, fun name hname inode fileType => ?_, fun name inode fileType => ?_⟩
  · simp only [PlainTree.Finds, hlocate, BindView.locate_concat hname, hentries, listed,
      DirEntry.mk.injEq, true_and]
  · simp only [PlainTree.Finds, normalize_join_name, hlocate, hentries, listed, DirEntry.mk.injEq,
      true_and]

end

-- ---------------------------------------------------------------------------
-- A destination that is not listed
-- ---------------------------------------------------------------------------

/-- The tree of a list of entries, each in a directory of the list. -/
def PlainTree.ofEntries (entries : List (AbsPath × Metadata))
    (hlinks : ∀ e ∈ entries, e.2.fileType ≠ .symlink)
    (hparents : ∀ e ∈ entries, e.1 ≠ [] → (entries.lookup e.1.dropLast).any Metadata.isDir) :
    PlainTree where
  entry := fun path => entries.lookup path
  noLinks := by
    intro path m hm
    obtain ⟨before, after, rfl, -⟩ := List.lookup_eq_some_iff.mp hm
    exact hlinks (path, m) (List.mem_append_right before List.mem_cons_self)
  parents := by
    intro path name h
    obtain ⟨m, hm⟩ := Option.ne_none_iff_exists'.mp h
    obtain ⟨before, after, heq, -⟩ := List.lookup_eq_some_iff.mp hm
    have hmem : (path ++ [name], m) ∈ entries := by simp [heq]
    have hparent := hparents _ hmem (by simp)
    rw [List.dropLast_concat, Option.any_eq_true] at hparent
    exact hparent

/-- The sources of `nestedBinds`, both empty. -/
def emptySources : PlainTree :=
  .ofEntries [([], ⟨2, .dir⟩), ([nameS], ⟨3, .dir⟩), ([nameT], ⟨4, .dir⟩)] (by decide) (by decide)

/-- `/a` lists as empty, and yet `/a/x` is there. -/
theorem listing_hides_destination : ∃ view, BindView.open plainHost nestedBinds = .ok view ∧
    (∃ tr, Exec emptySources.Answers (view.listDir (osStr ['/', 'a'])) tr (some (.ok []))) ∧
    view.projects (osStr ['/', 'a']) = true ∧
    ∃ m, emptySources.Finds (view.resolveRead (osStr ['/', 'a', '/', 'x'])) m := by
  obtain ⟨view, hview⟩ : ∃ view, BindView.open plainHost nestedBinds = .ok view := ⟨_, rfl⟩
  have hread : (view.resolveProjected (osStr ['/', 'a'])).normalize = [nameS] := by
    cases hview
    decide
  refine ⟨view, hview,
    ⟨_, .call (r := .ok []) (fun _ => ⟨[], rfl, List.nodup_nil, ?_⟩) .ret⟩, ?_, ?_⟩
  · intro name
    simp [hread, emptySources, PlainTree.ofEntries, List.lookup_cons]
  · cases hview
    decide
  · cases hview
    exact ⟨⟨4, .dir⟩, by decide⟩

/-- Two files below `/s`, one of them under the name of the other destination. -/
def filledSources : PlainTree :=
  .ofEntries [([], ⟨2, .dir⟩), ([nameS], ⟨3, .dir⟩), ([nameS, nameT], ⟨7, .file⟩),
    ([nameS, nameX], ⟨8, .file⟩), ([nameT], ⟨4, .dir⟩)] (by decide) (by decide)

/-- The host lists `x` first. -/
def filledEntries : List DirEntry := [listed nameX ⟨8, .file⟩, listed nameT ⟨7, .file⟩]

theorem runs_listEntries_cons {tree : PlainTree} {directory : OsStr} {name : Name} {m : Metadata}
    {names : List Name} {entries : List DirEntry}
    (hm : tree.entry (directory.normalize ++ [name]) = some m)
    (hrest : ∃ tr, Exec tree.Answers (listEntries directory (names.map .ok)) tr
      (some (.ok entries))) :
    ∃ tr, Exec tree.Answers (listEntries directory ((name :: names).map .ok)) tr
      (some (.ok (listed name m :: entries))) := by
  obtain ⟨tr, hx⟩ := hrest
  have hanswer : tree.Answers (.symlinkMetadata (directory.join (relative [.normal name])))
      (.ok m) := by
    intro m' hm'
    rw [PlainTree.Finds, normalize_join_name, hm] at hm'
    rw [Option.some.inj hm']
  exact ⟨_, exec_perform_bind.mpr ⟨_, _, hanswer,
    exec_bind.mpr (.inl ⟨_, _, _, hx, .ret, rfl⟩), rfl⟩⟩

theorem runs_listDir_filled {view : BindView}
    (hview : BindView.open plainHost nestedBinds = .ok view) :
    ∃ tr, Exec filledSources.Answers (view.listDir (AbsPath.toPath [nameA])) tr
      (some (.ok filledEntries)) := by
  have hread : (view.resolveProjected (AbsPath.toPath [nameA])).normalize = [nameS] := by
    cases hview
    decide
  have hnames (name : Name) :
      name ∈ [nameX, nameT] ↔ filledSources.entry ([nameS] ++ [name]) ≠ none := by
    rw [← Option.isSome_iff_ne_none, filledSources, PlainTree.ofEntries, List.lookup_isSome_iff]
    simp [or_comm]
  have hlist : ∃ tr, Exec filledSources.Answers (listEntries
      (view.resolveProjected (AbsPath.toPath [nameA])) ([nameX, nameT].map .ok)) tr
      (some (.ok filledEntries)) := by
    refine runs_listEntries_cons ?_ (runs_listEntries_cons ?_ ⟨[], .ret⟩)
    all_goals
      rw [hread]
      rfl
  obtain ⟨tr, hx⟩ := hlist
  have hanswer : filledSources.Answers (.readDir (view.resolveProjected (AbsPath.toPath [nameA])))
      (.ok ([nameX, nameT].map .ok)) :=
    fun _ => ⟨[nameX, nameT], rfl, by decide, fun name => hread.symm ▸ hnames name⟩
  exact ⟨_, exec_perform_bind.mpr ⟨_, _, hanswer, hx, rfl⟩⟩

/-- `/a` lists the two files of `/s`. The lookup of `/a/t` finds the one, that of `/a/x` the other
source and not the file that is listed. -/
theorem listing_lookup_nested : ∃ view entries, BindView.open plainHost nestedBinds = .ok view ∧
    (∃ tr, Exec filledSources.Answers (view.listDir (AbsPath.toPath [nameA])) tr
      (some (.ok entries))) ∧
    entries = filledEntries ∧ (entries.map DirEntry.name).Nodup ∧
    (∀ inode fileType, ⟨nameT, inode, fileType⟩ ∈ entries ↔ ∃ m, filledSources.Finds
      (view.resolveRead (AbsPath.toPath [nameA, nameT])) m ∧
      inode = m.inode ∧ fileType = metadataToDirType m) ∧
    filledSources.Finds (view.resolveRead (AbsPath.toPath [nameA, nameT])) ⟨7, .file⟩ ∧
    (∀ inode fileType, ⟨nameX, inode, fileType⟩ ∈ entries ↔ ∃ m, filledSources.Finds
      ((view.resolveRead (AbsPath.toPath [nameA])).join (relative [.normal nameX])) m ∧
      inode = m.inode ∧ fileType = metadataToDirType m) ∧
    filledSources.Finds (view.resolveRead (AbsPath.toPath [nameA, nameX])) ⟨4, .dir⟩ := by
  obtain ⟨view, hview⟩ : ∃ view, BindView.open plainHost nestedBinds = .ok view := ⟨_, rfl⟩
  obtain ⟨tr, hx⟩ := runs_listDir_filled hview
  have hdir : filledSources.Finds (view.resolveRead (AbsPath.toPath [nameA])) ⟨3, .dir⟩ := by
    cases hview
    decide
  obtain ⟨entries, hout, hnodup, hlookup, hsource⟩ := listing_lookup hdir rfl hx
  obtain rfl := Except.ok.inj (Option.some.inj hout)
  refine ⟨view, filledEntries, hview, ⟨tr, hx⟩, rfl, hnodup, hlookup nameT ?_, ?_, hsource nameX,
    ?_⟩
  all_goals
    cases hview
    decide

end PathShim
