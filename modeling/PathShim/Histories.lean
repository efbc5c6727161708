import Mathlib.Logic.Basic

/-!
# Histories of a transition system

The moves of a run in order, with the states around each. What holds at first
and is kept by every move holds throughout, and a run can be cut before any of
its moves.
-/

namespace Histories

structure Move (σ ℓ : Type) where
  before : σ
  label : ℓ
  after : σ

variable {σ ℓ : Type} {step : σ → ℓ → σ → Prop} {start c : σ} {t : Move σ ℓ}
  {first rest : List (Move σ ℓ)} {P : σ → Prop}

inductive Moves (step : σ → ℓ → σ → Prop) (start : σ) : List (Move σ ℓ) → σ → Prop
  | nil : Moves step start [] start
  | snoc {ts c label c'} : Moves step start ts c → step c label c' →
      Moves step start (ts ++ [⟨c, label, c'⟩]) c'

theorem Moves.cons {label : ℓ} {c' : σ} (hfirst : step start label c)
    (hrun : Moves step c rest c') : Moves step start (⟨start, label, c⟩ :: rest) c' := by
  induction hrun with
  | nil => exact .snoc .nil hfirst
  | snoc _ hlast ih => exact .snoc ih hlast

theorem Moves.inv (hrun : Moves step start rest c) (hstart : P start)
    (hstep : ∀ t ∈ rest, step t.before t.label t.after → P t.before → P t.after) : P c := by
  induction hrun with
  | nil => exact hstart
  | snoc _ hlast ih =>
    refine hstep _ (List.mem_append_right _ List.mem_cons_self) hlast (ih fun t ht => ?_)
    exact hstep t (List.mem_append_left _ ht)

/-- A run goes through the states around each of its moves. -/
theorem Moves.cut (hrun : Moves step start (first ++ t :: rest) c) :
    Moves step start first t.before ∧ step t.before t.label t.after ∧
      Moves step t.after rest c := by
  generalize hmoves : first ++ t :: rest = moves at hrun
  induction hrun generalizing rest with
  | nil => simp at hmoves
  | @snoc ts b label b' hinit hlast ih =>
    rcases List.eq_nil_or_concat rest with rfl | ⟨rest, last, rfl⟩
    · obtain ⟨rfl, hmove⟩ := List.append_inj' hmoves rfl
      obtain rfl := List.singleton_inj.mp hmove
      exact ⟨hinit, hlast, .nil⟩
    · rw [List.concat_eq_append, ← List.cons_append, ← List.append_assoc] at hmoves
      obtain ⟨hts, hmove⟩ := List.append_inj' hmoves rfl
      obtain rfl := List.singleton_inj.mp hmove
      obtain ⟨hfirst, hcut, hrest⟩ := ih hts
      rw [List.concat_eq_append]
      exact ⟨hfirst, hcut, .snoc hrest hlast⟩

/-- What every move keeps holds before each of them. -/
theorem Moves.before (hrun : Moves step start rest c) (hstart : P start)
    (hstep : ∀ t ∈ rest, step t.before t.label t.after → P t.before → P t.after) :
    ∀ t ∈ rest, P t.before ∧ step t.before t.label t.after := by
  intro t ht
  obtain ⟨first, later, rfl⟩ := List.append_of_mem ht
  obtain ⟨hfirst, hmove, -⟩ := hrun.cut
  refine ⟨hfirst.inv hstart fun t' ht' => ?_, hmove⟩
  exact hstep t' (List.mem_append_left _ ht')

theorem Moves.steps (hrun : Moves step start rest c) :
    ∀ t ∈ rest, step t.before t.label t.after :=
  fun t ht => (hrun.before (P := fun _ => True) trivial (fun _ _ _ _ => trivial) t ht).2

end Histories
