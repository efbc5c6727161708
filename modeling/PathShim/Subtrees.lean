import Mathlib.Data.List.Infix

/-!
# Moving a subtree

A namespace says what there is at each location, locations being lists over any
alphabet. A move carries everything below one location to below another.
-/

namespace Subtrees

variable {α β : Type*}

abbrev Space (α β : Type*) := List α → Option β

variable {space : Space α β} {source target path : List α}

/-- Neither lies below the other. -/
def Apart (source target : List α) : Prop := ¬ source <+: target ∧ ¬ target <+: source

/-- Two locations with something below both are not apart. -/
theorem Apart.not_prefix (h : Apart source target) (hpath : source <+: path) :
    ¬ target <+: path := fun htarget =>
  (List.prefix_or_prefix_of_prefix hpath htarget).elim h.1 h.2

variable [DecidableEq α]

def moved (space : Space α β) (source target : List α) : Space α β := fun path =>
  if target <+: path then space (source ++ path.drop target.length)
  else if source <+: path then none
  else space path

/-- What was below the source is below the target. -/
theorem moved_target (rest : List α) : moved space source target (target ++ rest) =
    space (source ++ rest) := by
  rw [moved, if_pos (List.prefix_append _ _), List.drop_left]

theorem moved_source (h : Apart source target) (rest : List α) :
    moved space source target (source ++ rest) = none := by
  have hpath : source <+: source ++ rest := List.prefix_append _ _
  rw [moved, if_neg (h.not_prefix hpath), if_pos hpath]

theorem moved_elsewhere (hsource : ¬ source <+: path) (htarget : ¬ target <+: path) :
    moved space source target path = space path := by
  rw [moved, if_neg htarget, if_neg hsource]

end Subtrees
