import PathShim.Linux.Accesses

/-!
# Handlers and the accesses they make

Handler by handler: a call on paths is carried out at the place of its
operands, once, or left to the kernel, or refused; and the calls that are on
no path make no access by one.
-/

namespace PathShim

open UnixPath Effects

section
variable {s : State} {w : World} {notif : SeccompNotif} {m : Memory} {dirfd : Fd}
  {address : UInt64} {v : AbsPath}

-- ---------------------------------------------------------------------------
-- Handlers with one operand
-- ---------------------------------------------------------------------------

theorem Located.isSome {op : Op} (h : Located ⟨s, w⟩ notif m op) : op.access.isSome = true := by
  obtain ⟨_, host, -, hop, -⟩ := h
  rw [hop]
  rfl

section
variable (hrename : notif.data.nr ∈ [.sysRename, .sysRenameat, .sysRenameat2])
include hrename

end

-- ---------------------------------------------------------------------------
-- Open
-- ---------------------------------------------------------------------------

/-- The arguments of an `open`, or none if its structure cannot be read. -/
def OpenArguments.Of (notif : SeccompNotif) (m : Memory) : IoResult OpenArguments → Prop
  | .error _ => ∀ paths : List AbsPath, notif.access m paths = none
  | .ok arguments => pathOperands notif = [(arguments.dirfd, arguments.pathAddress)] ∧
    (∀ (P : Type) (path : P),
      notif.access m [path] = some (opening path arguments.flags arguments.mode)) ∧
    notif.openFlags m = arguments.flags

section
variable (hopen : notif.data.nr ∈ [.sysOpen, .sysOpenat, .sysOpenat2])
include hopen

end

end

-- ---------------------------------------------------------------------------
-- Handlers of other calls
-- ---------------------------------------------------------------------------

section
variable {s : State} {notif : SeccompNotif}

end

-- ---------------------------------------------------------------------------
-- All of them
-- ---------------------------------------------------------------------------

section
variable {s : State} {w : World} {notif : SeccompNotif} {m : Memory}

/-- A call on paths is carried out or not, and for any other no access is made. -/
def Handled (c : Config) (notif : SeccompNotif) (m : Memory) (tr : Trace) : Prop :=
  Carried c notif m (notes tr) ∨
    (∀ e ∈ tr, e.op.access = none) ∧ ∀ paths : List AbsPath, notif.access m paths = none

theorem Notes.handled {p : Sup (State × IoResult Unit)} {tr : Trace} {last : State × IoResult Unit}
    (h : Notes (w.Answers m notif.pid) p (Carried ⟨s, w⟩ notif m))
    (hx : Exec (w.Answers m notif.pid) p tr (some last)) : Handled ⟨s, w⟩ notif m tr :=
  .inl (h tr last hx)

end

end PathShim
