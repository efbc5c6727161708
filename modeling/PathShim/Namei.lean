import PathShim.UnixPath

/-!
# Pathname lookup

How a kernel walks a pathname through a tree with symbolic links. Removing `..`
from the text first changes nothing as long as every `..` follows a directory,
and two trees are walked alike when one locates what the other names.
-/

namespace Namei

open UnixPath

inductive Entry where
  | dir
  | file
  | link (target : OsStr)
  deriving DecidableEq

/-- What there is at each location. -/
abbrev Tree := AbsPath → Option Entry

/-- An object; or no entry under the last name; or an error on the way. -/
inductive Outcome where
  | object (path : AbsPath)
  | missing (path : AbsPath)
  | failed
  deriving DecidableEq

def Outcome.map (f : AbsPath → AbsPath) : Outcome → Outcome
  | .object path => .object (f path)
  | .missing path => .missing (f path)
  | .failed => .failed

/-- What comes after the last name of a pathname: what stands before a slash or a dot must be a
directory, and before a dot it must be there. -/
inductive Ending where
  | name
  | slash
  | dot
  deriving DecidableEq

def ending (path : OsStr) : Ending :=
  let pieces := path.bytes.splitOn slash
  if (pieces.filter fun piece => !piece.isEmpty).getLast? = some [dot] then .dot
  else if pieces.getLast? = some [] then .slash
  else .name

/-- A link as the last name, and the pathname in it. -/
def Ending.and : Ending → Ending → Ending
  | .dot, _ | _, .dot => .dot
  | .slash, _ | _, .slash => .slash
  | .name, .name => .name

/-- The walk up to the first link, where `follow` takes over. -/
def walkNames (tree : Tree) (follow : OsStr → AbsPath → List Component → Outcome) (e : Ending) :
    AbsPath → List Component → Outcome
  | cur, [] => .object cur
  | cur, .parentDir :: cs => walkNames tree follow e cur.dropLast cs
  | cur, .rootDir :: cs => walkNames tree follow e cur cs
  | cur, .curDir :: cs => walkNames tree follow e cur cs
  | cur, .normal n :: cs =>
    match tree (cur ++ [n]) with
    | none => if cs = [] ∧ e ≠ .dot then .missing (cur ++ [n]) else .failed
    | some .dir => walkNames tree follow e (cur ++ [n]) cs
    | some .file => if cs = [] ∧ e = .name then .object (cur ++ [n]) else .failed
    | some (.link target) => follow target cur cs

/-- Where the walk goes on at a link that stands in `cur`. -/
def linkStart (target : OsStr) (cur : AbsPath) : AbsPath := if target.isAbsolute then [] else cur

/-- The ending that counts after a link with `cs` to follow. -/
def linkEnding (target : OsStr) (e : Ending) (cs : List Component) : Ending :=
  if cs = [] then e.and (ending target) else e

/-- The walk that follows at most `budget` links. -/
def walk (tree : Tree) : Nat → Ending → AbsPath → List Component → Outcome
  | 0, e => walkNames tree (fun _ _ _ => .failed) e
  | budget + 1, e => walkNames tree (fun target cur cs =>
    walk tree budget (linkEnding target e cs) (linkStart target cur) (steps target.bytes ++ cs)) e

/-- The directories of a walk with the components looked up there, up to the first link. -/
def lookupNames (tree : Tree)
    (follow : OsStr → AbsPath → List Component → List (AbsPath × Component)) :
    AbsPath → List Component → List (AbsPath × Component)
  | _, [] => []
  | cur, .parentDir :: cs => (cur, .parentDir) :: lookupNames tree follow cur.dropLast cs
  | cur, .rootDir :: cs => lookupNames tree follow cur cs
  | cur, .curDir :: cs => lookupNames tree follow cur cs
  | cur, .normal n :: cs =>
    (cur, .normal n) ::
      match tree (cur ++ [n]) with
      | none => []
      | some .dir => lookupNames tree follow (cur ++ [n]) cs
      | some .file => []
      | some (.link target) => follow target cur cs

/-- Everything the walk looks up. -/
def lookups (tree : Tree) : Nat → AbsPath → List Component → List (AbsPath × Component)
  | 0 => lookupNames tree fun _ _ _ => []
  | budget + 1 => lookupNames tree fun target cur cs =>
    lookups tree budget (linkStart target cur) (steps target.bytes ++ cs)

def MAXSYMLINKS : Nat := 40

/-- The object an absolute pathname leads to. -/
def resolve (tree : Tree) (path : OsStr) : Outcome :=
  walk tree MAXSYMLINKS (ending path) [] (steps path.bytes)

/-- The tree with these entries. -/
def Tree.ofList (entries : List (OsStr × Entry)) : Tree := fun path =>
  (entries.find? fun e => e.1.normalize == path).map Prod.snd

variable {tree tree' : Tree} {budget budget' : Nat} {cur cur' : AbsPath} {cs : List Component}
  {n : Name} {e : Ending}

-- ---------------------------------------------------------------------------
-- How a pathname ends
-- ---------------------------------------------------------------------------

theorem ending_of_last {path : OsStr} {pieces : List Bytes}
    (h : path.bytes.splitOn slash = pieces ++ [n.bytes]) : ending path = .name := by
  have hn := n.isName
  simp [ending, h, List.filter_append, hn.1, hn.2.1]

/-- A path put together from names ends in a name. -/
theorem ending_join {base names : AbsPath} (h : names ≠ []) :
    ending (base.toPath.join (relative (names.map .normal))) = .name := by
  obtain ⟨before, hbytes⟩ : ∃ before, (base.toPath.join (relative (names.map .normal))).bytes =
      before ++ slash :: (relative (names.map .normal)).bytes := by
    rw [OsStr.join, relative_isAbsolute]
    simp only [Bool.false_eq_true, if_false]
    split
    · rename_i hslash
      have hslash := hslash.resolve_left (by simp [AbsPath.toPath])
      obtain ⟨body, hbody⟩ := List.getLast?_eq_some_iff.mp hslash
      exact ⟨body, by simp [hbody]⟩
    · exact ⟨_, rfl⟩
  obtain ⟨init, n, hnames⟩ := (List.eq_nil_or_concat names).resolve_left h
  refine @ending_of_last n _ (before.splitOn slash ++ init.map Name.bytes) ?_
  rw [hbytes, List.splitOn_append_cons_self, splitOn_relative h, hnames]
  simp

-- ---------------------------------------------------------------------------
-- One component
-- ---------------------------------------------------------------------------

@[simp] theorem walk_nil : walk tree budget e cur [] = .object cur := by
  cases budget <;> rfl

@[simp] theorem walk_parentDir :
    walk tree budget e cur (.parentDir :: cs) = walk tree budget e cur.dropLast cs := by
  cases budget <;> rfl

@[simp] theorem walk_rootDir :
    walk tree budget e cur (.rootDir :: cs) = walk tree budget e cur cs := by
  cases budget <;> rfl

@[simp] theorem walk_curDir :
    walk tree budget e cur (.curDir :: cs) = walk tree budget e cur cs := by
  cases budget <;> rfl

theorem walk_missing (h : tree (cur ++ [n]) = none) :
    walk tree budget e cur (.normal n :: cs) =
      if cs = [] ∧ e ≠ .dot then .missing (cur ++ [n]) else .failed := by
  cases budget <;> simp [walk, walkNames, h]

theorem walk_dir (h : tree (cur ++ [n]) = some .dir) :
    walk tree budget e cur (.normal n :: cs) = walk tree budget e (cur ++ [n]) cs := by
  cases budget <;> simp [walk, walkNames, h]

theorem walk_file (h : tree (cur ++ [n]) = some .file) :
    walk tree budget e cur (.normal n :: cs) =
      if cs = [] ∧ e = .name then .object (cur ++ [n]) else .failed := by
  cases budget <;> simp [walk, walkNames, h]

theorem walk_link {target : OsStr} (h : tree (cur ++ [n]) = some (.link target)) :
    walk tree (budget + 1) e cur (.normal n :: cs) =
      walk tree budget (linkEnding target e cs) (linkStart target cur)
        (steps target.bytes ++ cs) := by
  simp [walk, walkNames, h]

theorem walk_loop {target : OsStr} (h : tree (cur ++ [n]) = some (.link target)) :
    walk tree 0 e cur (.normal n :: cs) = .failed := by
  simp [walk, walkNames, h]

/-- A component uses up itself or a link of the budget. -/
theorem walk_induction {P : Nat → AbsPath → List Component → Prop}
    (nil : ∀ budget cur, P budget cur [])
    (cons : ∀ budget cur c cs, (∀ cur', P budget cur' cs) →
      (∀ budget' cur' cs', budget' < budget → P budget' cur' cs') → P budget cur (c :: cs)) :
    P budget cur cs := by
  induction budget using Nat.strong_induction_on generalizing cur cs with
  | _ budget ihbudget =>
    induction cs generalizing cur with
    | nil => exact nil budget cur
    | cons c cs ih =>
      exact cons budget cur c cs (fun _ => ih) fun budget' _ _ hlt => ihbudget budget' hlt

-- ---------------------------------------------------------------------------
-- Arriving in a directory
-- ---------------------------------------------------------------------------

/-- Walking `cs` from `cur` arrives in a directory, with some of the budget left. -/
inductive Arrives (tree : Tree) :
    Nat → AbsPath → List Component → Nat → AbsPath → Prop
  | nil {b p} : Arrives tree b p [] b p
  | parentDir {b p rest b' p'} : Arrives tree b p.dropLast rest b' p' →
      Arrives tree b p (.parentDir :: rest) b' p'
  | dir {b p m rest b' p'} : tree (p ++ [m]) = some .dir → Arrives tree b (p ++ [m]) rest b' p' →
      Arrives tree b p (.normal m :: rest) b' p'
  | link {b p m target rest b' p'} : tree (p ++ [m]) = some (.link target) →
      Arrives tree b (linkStart target p) (steps target.bytes ++ rest) b' p' →
      Arrives tree (b + 1) p (.normal m :: rest) b' p'

/-- After that only the rest of the pathname matters. -/
theorem Arrives.walk (h : Arrives tree budget cur cs budget' cur') (rest : List Component) :
    walk tree budget e cur (cs ++ rest) = Namei.walk tree budget' e cur' rest := by
  induction h generalizing e with
  | nil => rfl
  | parentDir _ ih => rw [List.cons_append, walk_parentDir, ih]
  | dir hdir _ ih => rw [List.cons_append, walk_dir hdir, ih]
  | link hlink _ ih =>
    rw [List.cons_append, walk_link hlink, ← List.append_assoc, ih]
    -- the link was the last name only if nothing is left
    cases rest with
    | nil => rw [walk_nil, walk_nil]
    | cons c rest => simp [linkEnding]

/-- A directory is found whatever the ending asks for. -/
theorem Arrives.walk_object (h : Arrives tree budget cur cs budget' cur') :
    Namei.walk tree budget e cur cs = .object cur' := by
  have hwalk := h.walk (e := e) []
  rwa [List.append_nil, walk_nil] at hwalk

/-- `path` below `cur` and everything on the way is a directory. -/
def Directories (tree : Tree) (cur path : AbsPath) : Prop :=
  ∀ q, q <+: path → tree (cur ++ q) = some .dir

instance (path : AbsPath) : Decidable (Directories tree cur path) :=
  decidable_of_iff (∀ q ∈ path.inits, tree (cur ++ q) = some .dir) (by simp [Directories])

theorem Directories.arrives {path : AbsPath} (h : Directories tree cur path) :
    Arrives tree budget cur (path.map .normal) budget (cur ++ path) := by
  induction path generalizing cur with
  | nil =>
    rw [List.append_nil]
    exact .nil
  | cons n path ih =>
    have hpath : cur ++ n :: path = cur ++ [n] ++ path := by simp
    refine .dir (h [n] (by simp)) ?_
    rw [hpath]
    refine ih fun q hq => ?_
    rw [List.append_assoc]
    exact h (n :: q) (List.cons_prefix_cons.mpr ⟨rfl, hq⟩)

-- ---------------------------------------------------------------------------
-- Lexical removal of `..`
-- ---------------------------------------------------------------------------

/-- Every `..` that would be removed with a name before it follows a directory of that name. -/
def Cancels (tree : Tree) (budget : Nat) (cs : List Component) : Prop :=
  ∀ before after, cs = before ++ .parentDir :: after → ∀ path n, lexical [] before = path ++ [n] →
    ∃ budget' cur, Arrives tree budget [] (path.map .normal) budget' cur ∧
      tree (cur ++ [n]) = some .dir

theorem cancels_of_names (h : Component.parentDir ∉ cs) : Cancels tree budget cs := by
  rintro before after rfl
  simp at h

theorem walk_lexical (hcs : ∀ c ∈ cs, c = .parentDir ∨ ∃ n, c = .normal n)
    (h : Cancels tree budget cs) :
    walk tree budget e [] cs = walk tree budget e [] ((lexical [] cs).map .normal) := by
  have hsplit (before after : List Component) (heq : cs = before ++ after) :
      walk tree budget e [] cs =
        walk tree budget e [] ((lexical [] before).map .normal ++ after) := by
    induction before using List.reverseRecOn generalizing after with
    | nil => rw [heq]; rfl
    | append_singleton before c ih =>
      rw [List.append_assoc, List.singleton_append] at heq
      rw [ih (c :: after) heq, lexical_append]
      rcases hcs c (by simp [heq]) with rfl | ⟨n, rfl⟩
      · rcases List.eq_nil_or_concat (lexical [] before) with hnil | ⟨path, n, hpath⟩
        · simp [hnil, lexStep]
        · rw [List.concat_eq_append] at hpath
          obtain ⟨budget', cur, harrives, hdir⟩ := h before after heq path n hpath
          -- in and out of a directory
          have hback : walk tree budget e [] ((path ++ [n] : AbsPath).map .normal ++
              .parentDir :: after) = walk tree budget e [] (path.map .normal ++ after) := by
            rw [List.map_append, List.append_assoc, harrives.walk, harrives.walk]
            simp [walk_dir hdir]
          rw [hpath, hback]
          simp [lexStep]
      · simp [lexStep]
  simpa using hsplit cs [] (by simp)

-- ---------------------------------------------------------------------------
-- Two trees
-- ---------------------------------------------------------------------------

/-- A component does the same at `d` in `tree` as at the location of `d` in `tree'`. -/
def Alike (locate : AbsPath → AbsPath) (tree tree' : Tree) (d : AbsPath) : Component → Prop
  | .rootDir | .curDir => True
  | .parentDir => locate d.dropLast = (locate d).dropLast
  | .normal n => locate (d ++ [n]) = locate d ++ [n] ∧ tree (d ++ [n]) = tree' (locate (d ++ [n]))

instance (locate : AbsPath → AbsPath) (d : AbsPath) (c : Component) :
    Decidable (Alike locate tree tree' d c) :=
  match c with
  | .rootDir | .curDir => inferInstanceAs (Decidable True)
  | .parentDir => inferInstanceAs (Decidable (_ = _))
  | .normal _ => inferInstanceAs (Decidable (_ ∧ _))

/-- Everything a walk looks up is alike. -/
def WalksAlike (locate : AbsPath → AbsPath) (tree tree' : Tree) (budget : Nat) (cur : AbsPath)
    (cs : List Component) : Prop :=
  ∀ q ∈ lookups tree budget cur cs, Alike locate tree tree' q.1 q.2

instance (locate : AbsPath → AbsPath) : Decidable (WalksAlike locate tree tree' budget cur cs) :=
  inferInstanceAs (Decidable (∀ q ∈ lookups tree budget cur cs, Alike locate tree tree' q.1 q.2))

section
variable {locate : AbsPath → AbsPath}

theorem WalksAlike.parentDir (h : WalksAlike locate tree tree' budget cur (.parentDir :: cs)) :
    locate cur.dropLast = (locate cur).dropLast ∧
      WalksAlike locate tree tree' budget cur.dropLast cs := by
  have hcons : lookups tree budget cur (.parentDir :: cs) =
      (cur, .parentDir) :: lookups tree budget cur.dropLast cs := by
    cases budget <;> rfl
  rw [WalksAlike, hcons] at h
  exact List.forall_mem_cons.mp h

theorem WalksAlike.skip {c : Component} (hc : c = .rootDir ∨ c = .curDir)
    (h : WalksAlike locate tree tree' budget cur (c :: cs)) :
    WalksAlike locate tree tree' budget cur cs := by
  rcases hc with rfl | rfl <;> cases budget <;> exact h

theorem lookups_normal : lookups tree budget cur (.normal n :: cs) =
    (cur, .normal n) :: (lookups tree budget cur (.normal n :: cs)).tail := by
  cases budget <;> rfl

theorem WalksAlike.normal (h : WalksAlike locate tree tree' budget cur (.normal n :: cs)) :
    locate (cur ++ [n]) = locate cur ++ [n] ∧ tree (cur ++ [n]) = tree' (locate (cur ++ [n])) := by
  rw [WalksAlike, lookups_normal] at h
  exact (List.forall_mem_cons.mp h).1

theorem WalksAlike.dir (hdir : tree (cur ++ [n]) = some .dir)
    (h : WalksAlike locate tree tree' budget cur (.normal n :: cs)) :
    WalksAlike locate tree tree' budget (cur ++ [n]) cs := by
  have htail : (lookups tree budget cur (.normal n :: cs)).tail =
      lookups tree budget (cur ++ [n]) cs := by
    cases budget <;> simp [lookups, lookupNames, hdir]
  rw [WalksAlike, lookups_normal, htail] at h
  exact (List.forall_mem_cons.mp h).2

theorem WalksAlike.link {target : OsStr} (hlink : tree (cur ++ [n]) = some (.link target))
    (h : WalksAlike locate tree tree' (budget + 1) cur (.normal n :: cs)) :
    WalksAlike locate tree tree' budget (linkStart target cur) (steps target.bytes ++ cs) := by
  have htail : (lookups tree (budget + 1) cur (.normal n :: cs)).tail =
      lookups tree budget (linkStart target cur) (steps target.bytes ++ cs) := by
    simp [lookups, lookupNames, hlink]
  rw [WalksAlike, lookups_normal, htail] at h
  exact (List.forall_mem_cons.mp h).2

/-- A walk whose lookups are all alike ends alike. -/
theorem walk_map (hroot : locate [] = []) (h : WalksAlike locate tree tree' budget cur cs) :
    walk tree' budget e (locate cur) cs = (walk tree budget e cur cs).map locate := by
  revert h e
  refine walk_induction (P := fun budget cur cs => ∀ {e},
    WalksAlike locate tree tree' budget cur cs →
    walk tree' budget e (locate cur) cs = (walk tree budget e cur cs).map locate) ?_ ?_
  · intro budget cur e _
    simp [Outcome.map]
  · intro budget cur c cs ih ihbudget e h
    cases c with
    | rootDir => simpa using ih cur (h.skip (.inl rfl))
    | curDir => simpa using ih cur (h.skip (.inr rfl))
    | parentDir =>
      rw [walk_parentDir, walk_parentDir, ← h.parentDir.1]
      exact ih _ h.parentDir.2
    | normal n =>
      obtain ⟨hdown, hsame⟩ := h.normal
      rw [hdown] at hsame
      cases hentry : tree (cur ++ [n]) with
      | none =>
        rw [walk_missing hentry, walk_missing (hsame.symm.trans hentry)]
        split
        · simp [Outcome.map, hdown]
        · rfl
      | some entry =>
        cases entry with
        | dir =>
          rw [walk_dir hentry, walk_dir (hsame.symm.trans hentry), ← hdown]
          exact ih _ (h.dir hentry)
        | file =>
          rw [walk_file hentry, walk_file (hsame.symm.trans hentry)]
          split
          · simp [Outcome.map, hdown]
          · rfl
        | link target =>
          cases budget with
          | zero =>
            rw [walk_loop hentry, walk_loop (hsame.symm.trans hentry)]
            rfl
          | succ budget =>
            have hstart : linkStart target (locate cur) = locate (linkStart target cur) := by
              unfold linkStart
              split
              · exact hroot.symm
              · rfl
            rw [walk_link hentry, walk_link (hsame.symm.trans hentry), hstart]
            exact ihbudget _ _ _ (Nat.lt_succ_self _) (h.link hentry)

end

end Namei
