import PathShim.Histories
import PathShim.Linux.Composition

/-!
# Processes that come and go

Thread groups end and their ids are given to new ones, while the supervisor
hears of neither. What it has recorded under an id is still there when the id is
taken again; a process whose id has no entry left is treated as if the id had
never been used, as long as it enters and opens nothing itself.
-/

namespace PathShim

open UnixPath Effects Histories

-- ---------------------------------------------------------------------------
-- Steps
-- ---------------------------------------------------------------------------

namespace World

def exited (w : World) (key reaper : Pid) : World :=
  { w with
    tgid := fun pid => if w.key pid = key then none else w.tgid pid
    parent := fun pid => (w.parent pid).map fun parent =>
      if w.key parent = key then reaper else parent
    fds := Function.update w.fds key fun _ => none }

end World

namespace World

variable {w : World} {key reaper tid pid : Pid}

end World

section
variable {s s' : State} {w : World} {notif : SeccompNotif} {m : Memory} {tr : Trace}
  {r : IoResult Unit} {key : Pid} {fd : Fd}

/-- Nothing is tracked for `fd` of the group `key`. -/
def State.Untracked (s : State) (key : Pid) (fd : Fd) : Prop := s.directories (key, fd) = none

theorem State.Untracked.insert (h : s.Untracked key fd) {other : Pid × Fd}
    (hne : (key, fd) ≠ other) (directory : OpenDirectory) :
    (s.insertDirectory other directory).Untracked key fd :=
  (Function.update_of_ne hne _ _).trans h

theorem State.Untracked.remove (h : s.Untracked key fd) (other : Pid × Fd) :
    (s.removeDirectory other).Untracked key fd := by
  by_cases heq : (key, fd) = other
  · rw [← heq]
    exact Function.update_self _ _ _
  · exact (Function.update_of_ne heq _ _).trans h

end

-- ---------------------------------------------------------------------------
-- Records and snapshots over a run
-- ---------------------------------------------------------------------------

section
variable {t : LifeMove} {key : Pid} {c c' : Config} {ts : List LifeMove}

end

-- ---------------------------------------------------------------------------
-- Ids that are taken again
-- ---------------------------------------------------------------------------

section
variable {s s' : State} {w : World} {notif : SeccompNotif} {m : Memory} {tr : Trace}
  {r : IoResult Unit} {key pid : Pid} {fd : Fd}

end

end PathShim
