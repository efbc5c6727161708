import PathShim.Linux.Cwd
import PathShim.Linux.Delivered

/-!
# A sequence of `chdir` calls

A thread group that has a record goes where its own `chdir` calls lead, one
joined to the other and brought into normal form, whatever the other groups do
in between. That path is what `getcwd` copies to each of its threads.
-/

namespace PathShim

open UnixPath Effects

-- ---------------------------------------------------------------------------
-- Errors are errors
-- ---------------------------------------------------------------------------

section
variable {w : World} {m : Memory} {s s' : State} {notif : SeccompNotif} {tr : Trace}
  {r : IoResult Unit}

end

-- ---------------------------------------------------------------------------
-- Steps of a group
-- ---------------------------------------------------------------------------

/-- A thread of the group `key` changes directory to the pathname `q`, with success. -/
def Transition.Enters (t : Transition) (key : Pid) (q : OsStr) : Prop :=
  ∃ notif m tr verdict, t.label = .call notif m tr verdict ∧
    t.before.world.key notif.pid = key ∧ notif.data.nr = .sysChdir ∧
    m.Holds (notif.data.args 0) q ∧ Succeeded tr verdict

/-- The step is none by which the group `key` changes directory. -/
def Transition.Elsewhere (t : Transition) (key : Pid) : Prop :=
  ∀ notif m tr verdict, t.label = .call notif m tr verdict →
    t.before.world.key notif.pid = key → notif.data.nr ∉ [.sysChdir, .sysFchdir] ∨ Refused tr

/-- The pathnames the group `key` changes directory to, in the order of the steps. -/
inductive Chdirs (key : Pid) : List Transition → List OsStr → Prop
  | nil : Chdirs key [] []
  | elsewhere {t ts qs} : t.Elsewhere key → Chdirs key ts qs → Chdirs key (t :: ts) qs
  | enters {t ts q qs} : t.Enters key q → Chdirs key ts qs → Chdirs key (t :: ts) (q :: qs)

section
variable {key : Pid} {t : Transition} {ts : List Transition} {cwd : AbsPath} {q : OsStr}
  {qs : List OsStr}

theorem Chdirs.last (h : Chdirs key (ts ++ [t]) qs) :
    (t.Elsewhere key ∧ Chdirs key ts qs) ∨
      ∃ first q, t.Enters key q ∧ Chdirs key ts first ∧ qs = first ++ [q] := by
  induction ts generalizing qs with
  | nil =>
    cases h with
    | elsewhere ht hrest =>
      cases hrest
      exact .inl ⟨ht, .nil⟩
    | enters ht hrest =>
      cases hrest
      exact .inr ⟨[], _, ht, .nil, rfl⟩
  | cons t' ts ih =>
    cases h with
    | elsewhere ht' hrest =>
      rcases ih hrest with ⟨ht, hts⟩ | ⟨first, q, ht, hts, rfl⟩
      · exact .inl ⟨ht, .elsewhere ht' hts⟩
      · exact .inr ⟨first, q, ht, .elsewhere ht' hts, rfl⟩
    | enters ht' hrest =>
      rcases ih hrest with ⟨ht, hts⟩ | ⟨first, q, ht, hts, rfl⟩
      · exact .inl ⟨ht, .enters ht' hts⟩
      · exact .inr ⟨_ :: first, q, ht, .enters ht' hts, rfl⟩

end

-- ---------------------------------------------------------------------------
-- What the threads see
-- ---------------------------------------------------------------------------

end PathShim
