import PathShim.Linux.FallThrough
import PathShim.Linux.StateFrame

/-!
# Opens inside a bind

An open whose pathname resolves to a projected path looks first, and then goes
one of the three ways of `OpenRun`.
-/

namespace PathShim

open UnixPath Effects

/-- No descriptor was installed. -/
def Unsent (tr : Trace) : Prop :=
  ∀ request fd, (⟨.addFd request, .ok fd⟩ : Event Op.Answer) ∉ tr

/-- An open whose pathname resolves to a projected path. -/
structure Opens (state : State) (notif : SeccompNotif) (ans : (op : Op) → op.Answer)
    (arguments : OpenArguments) (v : AbsPath) : Prop where
  number : notif.data.nr ∈ [.sysOpen, .sysOpenat, .sysOpenat2]
  reads : (openArguments notif).eval ans = some (.ok arguments)
  resolves : Resolves state notif ans (arguments.dirfd, arguments.pathAddress) v
  projected : state.view.Projected v

section
variable {E : Env Op.Answer} {state after : State} {notif : SeccompNotif}
  {ans : (op : Op) → op.Answer} {arguments : OpenArguments} {v : AbsPath} {r : IoResult Unit}

theorem handle_open (h : notif.data.nr ∈ [.sysOpen, .sysOpenat, .sysOpenat2]) :
    handle state notif = handleOpen state notif := by
  simp only [List.mem_cons, List.not_mem_nil, or_false] at h
  rcases h with hnr | hnr | hnr <;> simp only [handle, hnr]

theorem calls_arguments : (openArguments notif).Calls Op.Observes :=
  calls_openArguments (reads_observes.memory _)

variable (h : Opens state notif ans arguments v)
include h

theorem Opens.exec {tr : Trace} (hE : ∀ op r, op.Observes → E op r → r = ans op)
    (hx : Exec E (handle state notif) tr (some (after, r))) :
    ∃ looks rest, tr = looks ++ rest ∧ (∀ e ∈ looks, e.op.Observes) ∧
      OpenRun E state notif arguments v after r rest := by
  rw [handle_open h.number] at hx
  obtain ⟨first, rest, rfl, hfirst, hx⟩ := exec_observing hE calls_arguments h.reads hx
  obtain ⟨second, rest, rfl, hsecond, hx⟩ := exec_resolved hE h.resolves hx
  simp only [BindView.projects_toPath.mpr h.projected, if_true] at hx
  refine ⟨first ++ second, rest, (List.append_assoc ..).symm, fun e he => ?_,
    exec_openProjected.mp hx⟩
  exact (List.mem_append.mp he).elim (hfirst e) (hsecond e)

/-- Each way through is one the call can go. -/
theorem Opens.run {rest : Trace} (hE : ∀ op, op.Observes → E op (ans op))
    (hrun : OpenRun E state notif arguments v after r rest) :
    ∃ looks, (∀ e ∈ looks, e.op.Observes) ∧
      Exec E (handle state notif) (looks ++ rest) (some (after, r)) := by
  obtain ⟨first, hfirst⟩ := exec_of_eval hE calls_arguments h.reads
  obtain ⟨second, hsecond⟩ := exec_of_eval hE (calls_operand _ _) h.resolves
  refine ⟨first ++ second, fun e he => ?_, ?_⟩
  · exact (List.mem_append.mp he).elim (hfirst.calls calls_arguments e)
      (hsecond.calls (calls_operand _ _) e)
  · rw [handle_open h.number, List.append_assoc]
    refine exec_bind.mpr (.inl ⟨.ok arguments, first, _, hfirst, ?_, rfl⟩)
    refine exec_bind.mpr (.inl ⟨.ok v, second, rest, hsecond, ?_, rfl⟩)
    simp only [BindView.projects_toPath.mpr h.projected, if_true]
    exact exec_openProjected.mpr hrun

end

end PathShim
