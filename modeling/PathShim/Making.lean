import Mathlib.Logic.Function.Basic
import PathShim.Namei

/-!
# Making directories

A tree without symbolic links, and how it grows when directories are made in
it one by one: nothing that is there changes, and what is new is a directory
on the way to the one that was asked for.
-/

namespace Namei

open UnixPath

structure LinkFree (tree : Tree) : Prop where
  root : tree [] = some .dir
  parents : ∀ path n, tree (path ++ [n]) ≠ none → tree path = some .dir
  noLink : ∀ path target, tree path ≠ some (.link target)

/-- The tree with a directory at `path`. -/
def made (tree : Tree) (path : AbsPath) : Tree := Function.update tree path (some .dir)

def DirectoriesStay (tree later : Tree) : Prop :=
  ∀ path, tree path = some .dir → later path = some .dir

/-- What is new is a directory on the way to `path`. -/
def OnTheWay (path : AbsPath) (tree later : Tree) : Prop :=
  ∀ q, later q = tree q ∨ q <+: path ∧ tree q = none ∧ later q = some .dir

variable {tree tree' later : Tree} {path cur p : AbsPath} {budget : Nat} {names : List Name}
  {e : Ending}

-- ---------------------------------------------------------------------------
-- Trees without links
-- ---------------------------------------------------------------------------

theorem LinkFree.directories (h : LinkFree tree) (hpath : tree path = some .dir) :
    Directories tree [] path := by
  induction path using List.reverseRecOn with
  | nil =>
    intro q hq
    obtain rfl := List.prefix_nil.mp hq
    exact hpath
  | append_singleton path n ih =>
    intro q hq
    rcases List.prefix_concat_iff.mp hq with rfl | hq
    · exact hpath
    · exact ih (h.parents path n (by simp [hpath])) q hq

/-- The walk along names arrives at the object they name. -/
theorem LinkFree.walk_object (h : LinkFree tree)
    (hwalk : walk tree budget e cur (names.map .normal) = .object p) : p = cur ++ names := by
  induction names generalizing cur with
  | nil => simpa using hwalk.symm
  | cons n names ih =>
    rw [List.map_cons] at hwalk
    cases hentry : tree (cur ++ [n]) with
    | none =>
      rw [walk_missing hentry] at hwalk
      split at hwalk <;> cases hwalk
    | some entry =>
      cases entry with
      | dir =>
        rw [walk_dir hentry] at hwalk
        simpa using ih hwalk
      | file =>
        rw [walk_file hentry] at hwalk
        split at hwalk
        · rename_i hlast
          cases hwalk
          simp [List.map_eq_nil_iff.mp hlast.1]
        · cases hwalk
      | link target => exact absurd hentry (h.noLink _ target)

/-- It misses only the last of them, in a directory. -/
theorem LinkFree.walk_missing (h : LinkFree tree) (hcur : tree cur = some .dir)
    (hwalk : walk tree budget e cur (names.map .normal) = .missing p) :
    ∃ init n, cur ++ names = init ++ [n] ∧ p = init ++ [n] ∧ tree init = some .dir ∧
      tree p = none := by
  induction names generalizing cur with
  | nil => simp at hwalk
  | cons n names ih =>
    rw [List.map_cons] at hwalk
    cases hentry : tree (cur ++ [n]) with
    | none =>
      rw [Namei.walk_missing hentry] at hwalk
      split at hwalk
      · rename_i hlast
        cases hwalk
        exact ⟨cur, n, by simp [List.map_eq_nil_iff.mp hlast.1], rfl, hcur, hentry⟩
      · cases hwalk
    | some entry =>
      cases entry with
      | dir =>
        rw [walk_dir hentry] at hwalk
        simpa using ih hentry hwalk
      | file =>
        rw [walk_file hentry] at hwalk
        split at hwalk <;> cases hwalk
      | link target => exact absurd hentry (h.noLink _ target)

theorem LinkFree.made {n : Name} (h : LinkFree tree) (hpath : tree path = some .dir) :
    LinkFree (made tree (path ++ [n])) where
  root := by
    have hne : [] ≠ path ++ [n] := by simp
    rw [Namei.made, Function.update_of_ne hne]
    exact h.root
  parents := by
    intro q m hq
    by_cases hmade : q = path ++ [n]
    · rw [hmade, Namei.made, Function.update_self]
    · rw [Namei.made, Function.update_of_ne hmade]
      by_cases hlast : q ++ [m] = path ++ [n]
      · rw [(List.append_inj' hlast rfl).1]
        exact hpath
      · rw [Namei.made, Function.update_of_ne hlast] at hq
        exact h.parents q m hq
  noLink := by
    intro q target
    by_cases hmade : q = path ++ [n]
    · rw [hmade, Namei.made, Function.update_self]
      simp
    · rw [Namei.made, Function.update_of_ne hmade]
      exact h.noLink q target

-- ---------------------------------------------------------------------------
-- Growing
-- ---------------------------------------------------------------------------

theorem OnTheWay.refl : OnTheWay path tree tree := fun _ => .inl rfl

theorem OnTheWay.trans (h : OnTheWay path tree tree') (h' : OnTheWay path tree' later) :
    OnTheWay path tree later := by
  intro q
  rcases h' q with hsame | ⟨hbefore, hnone, hdir⟩
  · rw [hsame]
    exact h q
  · rcases h q with hsame | ⟨-, -, hold⟩
    · exact .inr ⟨hbefore, hsame ▸ hnone, hdir⟩
    · rw [hnone] at hold
      cases hold

theorem OnTheWay.mono {path' : AbsPath} (h : OnTheWay path tree later) (hpath : path <+: path') :
    OnTheWay path' tree later := fun q =>
  (h q).imp_right fun ⟨hbefore, hnone, hdir⟩ => ⟨hbefore.trans hpath, hnone, hdir⟩

theorem OnTheWay.directoriesStay (h : OnTheWay path tree later) : DirectoriesStay tree later := by
  intro q hdir
  rcases h q with hsame | ⟨-, hnone, -⟩
  · rw [hsame, hdir]
  · rw [hdir] at hnone
    cases hnone

theorem onTheWay_made (h : tree path = none) : OnTheWay path tree (made tree path) := by
  intro q
  by_cases hq : q = path
  · subst hq
    exact .inr ⟨List.prefix_rfl, h, by rw [made, Function.update_self]⟩
  · exact .inl (by rw [made, Function.update_of_ne hq])

-- ---------------------------------------------------------------------------
-- Pathnames
-- ---------------------------------------------------------------------------

section
variable {pathname : OsStr} (hname : pathname.components = path.toPath.components)
include hname

theorem LinkFree.resolve_object (h : LinkFree tree)
    (hresolve : resolve tree pathname = .object p) : p = path := by
  rw [resolve, steps_of_components hname] at hresolve
  simpa using h.walk_object hresolve

theorem LinkFree.resolve_missing (h : LinkFree tree)
    (hresolve : resolve tree pathname = .missing p) :
    ∃ init n, path = init ++ [n] ∧ p = path ∧ tree init = some .dir ∧ tree path = none := by
  rw [resolve, steps_of_components hname] at hresolve
  obtain ⟨init, n, hpath, rfl, hinit, hnone⟩ := h.walk_missing h.root hresolve
  rw [List.nil_append] at hpath
  exact ⟨init, n, hpath, hpath.symm, hinit, hpath ▸ hnone⟩

end

end Namei
