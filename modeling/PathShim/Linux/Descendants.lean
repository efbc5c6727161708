import PathShim.Linux.Lifecycle

/-!
# Inherited working directories

Nothing is copied when a process is forked: a process without a record is in the
directory of its nearest ancestor with one, which the supervisor looks for among
sixteen processes, the process itself included.
-/

namespace PathShim

open UnixPath Effects Histories

-- ---------------------------------------------------------------------------
-- Chains of processes
-- ---------------------------------------------------------------------------

/-- A chain of live processes from `first` down to the last, each in its own thread group and the
parent of the next. The processes after the first are listed from the last one up. -/
inductive World.Descends (w : World) (first : Pid) : List Pid → Pid → Prop
  | first : w.tgid first = some first → Descends w first [] first
  | child {later parent child} : Descends w first later parent → w.parent child = some parent →
      parent ≠ child → w.tgid child = some child → Descends w first (child :: later) child

section
variable {w : World} {s : State} {first last : Pid} {later : List Pid} {cwd : AbsPath}

theorem World.Descends.leader (h : w.Descends first later last) : w.tgid last = some last := by
  cases h with
  | first hleader => exact hleader
  | child _ _ _ hleader => exact hleader

/-- A fork by the last process makes the chain longer. -/
theorem World.Descends.fork {child : Pid} (h : w.Descends first later last)
    (hchild : ¬ w.Alive child) : (w.forked last child).Descends first (child :: later) child := by
  have hframe {pid : Pid} (hpid : w.tgid pid = some pid) : pid ≠ child := by
    rintro rfl
    exact hchild (by simp [World.Alive, hpid])
  have hkept : ∀ {later' last'}, w.Descends first later' last' →
      (w.forked last child).Descends first later' last' := by
    intro later' last' h'
    induction h' with
    | first hleader => exact .first ((Function.update_of_ne (hframe hleader) _ _).trans hleader)
    | @child later parent task _ hparent hne hleader ih =>
      refine .child ih ?_ hne ((Function.update_of_ne (hframe hleader) _ _).trans hleader)
      exact (Function.update_of_ne (hframe hleader) _ _).trans hparent
  refine .child (hkept h) ?_ (hframe h.leader) (Function.update_self _ _ _)
  exact (Function.update_self _ _ _).trans (congrArg some (World.key_eq h.leader))

end

-- ---------------------------------------------------------------------------
-- What a process in `cwd` gets
-- ---------------------------------------------------------------------------

end PathShim
