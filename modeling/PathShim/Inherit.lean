import Mathlib.Logic.Function.Basic

/-!
# Values inherited along a chain

Every index may have a value of its own; one without takes that of the nearest
index above it, where only the first `n` on the way up are looked at. The laws
say what a new value, a new index and a longer search change.
-/

namespace Inherit

variable {ι α : Type}

/-- The value at `i` or at the nearest index above it, of the first `n`. -/
def find (up : ι → Option ι) (own : ι → Option α) : Nat → ι → Option α
  | 0, _ => none
  | n + 1, i =>
    match own i with
    | some a => some a
    | none =>
      match up i with
      | none => none
      | some j => find up own n j

/-- The search from `i` comes to `key`. -/
def reaches [DecidableEq ι] (up : ι → Option ι) (own : ι → Option α) (key : ι) : Nat → ι → Bool
  | 0, _ => false
  | n + 1, i =>
    if i = key then true
    else
      match own i with
      | some _ => false
      | none =>
        match up i with
        | none => false
        | some j => reaches up own key n j

variable {up up' : ι → Option ι} {own : ι → Option α} {a : α} {i key : ι} {n : Nat}

theorem find_own (h : own i = some a) : find up own (n + 1) i = some a := by simp [find, h]

theorem find_up {j : ι} (h : own i = none) (hup : up i = some j) :
    find up own (n + 1) i = find up own n j := by simp [find, h, hup]

theorem reaches_self [DecidableEq ι] : reaches up own key (n + 1) key = true := by simp [reaches]

/-- A new value is seen by those whose search comes to its index. -/
theorem find_update [DecidableEq ι] (n : Nat) (i : ι) :
    find up (Function.update own key (some a)) n i =
      if reaches up own key n i then some a else find up own n i := by
  induction n generalizing i with
  | zero => rfl
  | succ n ih =>
    by_cases hi : i = key
    · subst hi
      simp [find, reaches]
    · simp only [find, reaches, Function.update_of_ne hi, if_neg hi]
      cases own i with
      | some b => rfl
      | none =>
        cases up i with
        | none => rfl
        | some j => exact ih j

/-- A longer search finds what a shorter one found. -/
theorem find_mono (h : find up own n i = some a) : find up own (n + 1) i = some a := by
  induction n generalizing i with
  | zero => cases h
  | succ n ih =>
    cases hown : own i with
    | some b =>
      rw [find_own hown] at h ⊢
      exact h
    | none =>
      cases hup : up i with
      | none => simp [find, hown, hup] at h
      | some j =>
        rw [find_up hown hup] at h ⊢
        exact ih h

/-- The search only depends on the indices it can come to. -/
theorem find_congr {S : ι → Prop} (hclosed : ∀ i j, S i → up i = some j → S j)
    (hup : ∀ i, S i → up' i = up i) (hi : S i) : find up' own n i = find up own n i := by
  induction n generalizing i with
  | zero => rfl
  | succ n ih =>
    cases hown : own i with
    | some b => rw [find_own hown, find_own hown]
    | none =>
      cases hj : up i with
      | none => simp [find, hown, hj, hup i hi]
      | some j =>
        rw [find_up hown hj, find_up hown ((hup i hi).trans hj)]
        exact ih (hclosed i j hi hj)

end Inherit
