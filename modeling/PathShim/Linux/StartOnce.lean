import PathShim.Bind.Symlinks
import PathShim.Linux.Handshake

/-!
# The command is started at most once

The child reaches its exec only after reading two bytes; the parent passes the
command through only after giving up, which it does with fewer than two bytes
written, and it writes no more after that. Once it has given up it goes on to
the one exec, unless the line it prints before that cannot be written.
-/

namespace PathShim

open UnixPath Effects

-- ---------------------------------------------------------------------------
-- What each side does by itself
-- ---------------------------------------------------------------------------

section
variable {quiet : Bool} {h : History}

/-- A side that calls exec only for the first time does so once. -/
theorem execs_le_one {accepts : History → SetupOp → Prop} (hrecorded : Recorded accepts h)
    (hexec : ∀ h command, accepts h (.exec command) → execs h = 0) : execs h ≤ 1 := by
  induction h using List.reverseRecOn with
  | nil => exact Nat.zero_le 1
  | append_singleton h e ih =>
    obtain ⟨hbefore, haccepts⟩ := each_concat.mp hrecorded
    rw [execs_append, execs_cons, execs_nil]
    obtain ⟨op, r⟩ := e
    cases op with
    | exec command => simp [hexec h command haccepts, isExec]
    | _ => exact ih hbefore

theorem gaveUp_of_execs (hrecorded : Recorded (parentRules quiet).accepts h)
    (hexecs : execs h ≠ 0) : GaveUp h := by
  obtain ⟨⟨op, r⟩, he, hexec⟩ := List.countP_pos_iff.mp (Nat.pos_of_ne_zero hexecs)
  cases op with
  | exec command =>
    obtain ⟨first, rest, rfl, -, -, hgave, -⟩ := hrecorded.mem he
    exact (gaveUp_append _ _).mpr (.inl hgave)
  | _ => cases hexec

theorem few_of_gaveUp (hrecorded : Recorded (parentRules quiet).accepts h) (hgave : GaveUp h) :
    written h < 2 := by
  induction h using List.reverseRecOn with
  | nil => exact Nat.zero_lt_two
  | append_singleton h e ih =>
    obtain ⟨hbefore, -, -, hpasses⟩ := each_concat.mp hrecorded
    rcases (gaveUp_append _ _).mp hgave with hearlier | ⟨e', he', hgives⟩
    · -- nothing is written any more
      have hnot : isWritten e = false := by
        obtain ⟨op, r⟩ := e
        cases op with
        | write payload => exact absurd hearlier hpasses
        | _ => rfl
      simpa [hnot] using ih hbefore hearlier
    · obtain rfl := List.mem_singleton.mp he'
      obtain ⟨op, r⟩ := e'
      cases op with
      | returned outcome =>
        cases outcome with
        | error e => cases hgives
        | ok outcome =>
          cases outcome with
          | exited status => cases hgives
          | unavailable command reason e => simpa [isWritten] using hpasses.2
      | _ => cases hgives

/-- After a line that could not be written no call is made. -/
theorem execs_of_not_printed (hrecorded : Recorded (parentRules quiet).accepts h)
    (hnot : ¬ Printed h) : execs h = 0 := by
  induction h using List.reverseRecOn with
  | nil => rfl
  | append_singleton h e _ =>
    obtain ⟨-, hprinted, -, -⟩ := each_concat.mp hrecorded
    by_contra hexecs
    refine hnot (hprinted.concat fun _ hzero => ?_)
    obtain ⟨op, r⟩ := e
    cases op with
    | eprintln message error => simp [hzero, isExec] at hexecs
    | _ => rfl

theorem printed_of_quiet (hrecorded : Recorded (parentRules true).accepts h) : Printed h := by
  rintro first ⟨op, r⟩ rest hsplit hgave hzero
  obtain ⟨-, -, hpasses⟩ := hrecorded first ⟨op, r⟩ rest hsplit
  cases op with
  | eprintln message error => exact absurd (hpasses hgave hzero) (by simp)
  | _ => rfl

/-- Calls between giving up and the end of the program. -/
def SetupOp.towardsExec : SetupOp → Bool
  | .exec _ | .eprintln .. => true
  | _ => false

theorem towardsExec_of_accepts {op : SetupOp} (haccepts : (parentRules quiet).accepts h op)
    (hgave : GaveUp h) (hexecs : execs h = 0) : op.towardsExec = true := by
  obtain ⟨-, -, hpasses⟩ := haccepts
  cases op with
  | exec command => rfl
  | eprintln message error => rfl
  | write payload => exact absurd hgave hpasses
  | returned outcome =>
    cases outcome with
    | error e => exact absurd hexecs (hpasses hgave)
    | ok outcome =>
      cases outcome with
      | exited status => exact absurd hexecs (hpasses hgave)
      | unavailable command reason e => exact absurd hgave hpasses.1
  | _ => exact absurd hexecs (hpasses hgave)

end

-- ---------------------------------------------------------------------------
-- Both together
-- ---------------------------------------------------------------------------

section
variable {turns : Nat} {view : BindView} {command : Command} {quiet : Bool}
  {c : Pool Who SetupOp.Answer Sockets}

/-- What the queue holds was written and not read. -/
theorem taken_queue_le_written
    (h : (startup view command).Reaches (initial turns command quiet) c) :
    taken (eventsOf .child c.log) + c.shared.toChild.length ≤ written (eventsOf .parent c.log) := by
  induction h with
  | refl => exact Nat.le_refl 0
  | @tail b _ _ hstep ih =>
    cases hstep with
    | stop => exact ih
    | @call who op next r shared hcall heffect hnew =>
      dsimp only
      generalize b.shared = before at heffect ih
      have hidle (hnothing : isWritten ⟨op, r⟩ = false ∧ isTaken ⟨op, r⟩ = false) :
          taken (eventsOf .child (b.log ++ [(who, ⟨op, r⟩)])) + before.toChild.length ≤
            written (eventsOf .parent (b.log ++ [(who, ⟨op, r⟩)])) := by
        cases who with
        | parent =>
          rw [eventsOf_self, eventsOf_other (by decide)]
          simpa [hnothing.1] using ih
        | child =>
          rw [eventsOf_self, eventsOf_other (by decide)]
          simpa [hnothing.2] using ih
      cases heffect with
      | @write payload transfer s hresult =>
        rw [eventsOf_self, eventsOf_other (by decide)]
        simp only [written_append, written_cons, isWritten, hresult, List.length_append,
          List.length_singleton, written_nil, decide_true, if_true]
        omega
      | @read length transfer s message rest hqueue hresult =>
        rw [hqueue, List.length_cons] at ih
        rw [eventsOf_self, eventsOf_other (by decide)]
        simp only [taken_append, taken_cons, taken_nil]
        split <;> omega
      | @writeFailed payload transfer _ hresult =>
        have hnot : transfer.result ≠ payload.length := by omega
        exact hidle (by simp [isWritten, isTaken, hnot])
      | @readFailed length transfer _ hresult =>
        have hnot : transfer.result ≠ 1 := by omega
        exact hidle (by simp [isWritten, isTaken, hnot])
      | elsewhere hop => exact hidle (still_event hop).2.2
      | _ => exact hidle ⟨rfl, rfl⟩

/-- The child reads no byte that was not written. -/
theorem taken_le_written (h : (startup view command).Reaches (initial turns command quiet) c) :
    taken (eventsOf .child c.log) ≤ written (eventsOf .parent c.log) :=
  Nat.le_of_add_right_le (taken_queue_le_written h)

theorem exists_probePath (view : BindView) :
    ∃ probePath, ∀ path ∈ view.probePath?, path = probePath := by
  cases hprobe : view.probePath? with
  | none => exact ⟨osStr [], by simp⟩
  | some path => exact ⟨path, by simp⟩

/-- The parent's calls, and the state of its program after them. -/
theorem parent_recorded (h : (startup view command).Reaches (initial turns command quiet) c) :
    Recorded (parentRules quiet).accepts (eventsOf .parent c.log) := by
  obtain ⟨probePath, hprobe⟩ := exists_probePath view
  exact System.recorded (startup_ruled hprobe) h .parent

theorem parent_obeys (h : (startup view command).Reaches (initial turns command quiet) c)
    {p : Startup Unit} (hp : c.thread .parent = some p) :
    p.Obeys (parentRules quiet) parentEnd (eventsOf .parent c.log) := by
  obtain ⟨probePath, hprobe⟩ := exists_probePath view
  exact System.obeys (startup_ruled hprobe) h .parent hp

/-- A child that executes the command has read two bytes. -/
theorem child_execs (h : (startup view command).Reaches (initial turns command quiet) c) :
    execs (eventsOf .child c.log) ≤ 1 ∧
      (execs (eventsOf .child c.log) ≠ 0 → 2 ≤ taken (eventsOf .child c.log)) := by
  obtain ⟨probePath, hprobe⟩ := exists_probePath view
  have hrecorded : Recorded (childMay probePath) (eventsOf .child c.log) :=
    System.recorded (startup_ruled hprobe) h .child
  refine ⟨execs_le_one hrecorded fun _ _ haccepts => haccepts.2, fun hexecs => ?_⟩
  obtain ⟨⟨op, r⟩, he, hexec⟩ := List.countP_pos_iff.mp (Nat.pos_of_ne_zero hexecs)
  cases op with
  | exec command =>
    obtain ⟨first, rest, hsplit, htaken, -⟩ := hrecorded.mem he
    rw [hsplit, taken_append, htaken]
    exact Nat.le_add_right 2 _
  | _ => cases hexec

/-- The child that was given up stays before its exec. -/
theorem child_gaveUp (h : (startup view command).Reaches (initial turns command quiet) c)
    (hgave : GaveUp (eventsOf .parent c.log)) :
    taken (eventsOf .child c.log) < 2 ∧ execs (eventsOf .child c.log) = 0 := by
  have hfew := Nat.lt_of_le_of_lt (taken_le_written h) (few_of_gaveUp (parent_recorded h) hgave)
  refine ⟨hfew, ?_⟩
  by_contra hexecs
  exact absurd ((child_execs h).2 hexecs) (Nat.not_le.mpr hfew)

/-- The command is passed through, or will be as the next thing but for a line that is printed,
or the parent was stopped. -/
def PassesThrough (c : Pool Who SetupOp.Answer Sockets) : Prop :=
  execs (eventsOf .parent c.log) = 1 ∨ c.thread .parent = none ∨
    ∃ op next, c.thread .parent = some (.call op next) ∧ op.towardsExec = true

theorem parent_execs_le (h : (startup view command).Reaches (initial turns command quiet) c) :
    execs (eventsOf .parent c.log) ≤ 1 :=
  execs_le_one (parent_recorded h) fun _ _ haccepts => haccepts.2.2.2

theorem passesThrough_of_printed
    (h : (startup view command).Reaches (initial turns command quiet) c)
    (hgave : GaveUp (eventsOf .parent c.log)) (hprinted : Printed (eventsOf .parent c.log)) :
    PassesThrough c := by
  by_cases hexecs : execs (eventsOf .parent c.log) = 0
  · cases hthread : c.thread .parent with
    | none => exact .inr (.inl hthread)
    | some p =>
      have hobeys := parent_obeys h hthread
      cases p with
      | ret a => exact absurd hexecs (hobeys hgave)
      | panic => exact absurd hprinted (hobeys hgave hexecs)
      | call op next =>
        exact .inr (.inr ⟨op, next, hthread, towardsExec_of_accepts hobeys.1 hgave hexecs⟩)
  · have hle := parent_execs_le h
    exact .inl (by omega)

/-- A parent that could not print is at its end without having passed the command through. -/
theorem stuck_of_not_printed
    (h : (startup view command).Reaches (initial turns command quiet) c)
    (hnot : ¬ Printed (eventsOf .parent c.log)) : execs (eventsOf .parent c.log) = 0 ∧
      ∀ op next, c.thread .parent ≠ some (.call op next) := by
  refine ⟨execs_of_not_printed (parent_recorded h) hnot, fun op next hthread => ?_⟩
  exact hnot (parent_obeys h hthread).1.1

/-- It stays so. -/
theorem never_started (h : (startup view command).Reaches (initial turns command quiet) c)
    (hgave : GaveUp (eventsOf .parent c.log)) (hnot : ¬ Printed (eventsOf .parent c.log))
    {c' : Pool Who SetupOp.Answer Sockets} (hlater : (startup view command).Reaches c c') :
    execs (eventsOf .parent c'.log) + execs (eventsOf .child c'.log) = 0 := by
  obtain ⟨rest, hlog⟩ := hlater.log
  have hreach := h.trans hlater
  have hparent : eventsOf .parent c'.log = eventsOf .parent c.log ++ eventsOf .parent rest := by
    rw [hlog, eventsOf_append]
  have hgave' : GaveUp (eventsOf .parent c'.log) := by
    rw [hparent]
    exact (gaveUp_append _ _).mpr (.inl hgave)
  have hnot' : ¬ Printed (eventsOf .parent c'.log) := by
    rw [hparent]
    exact fun hprinted => hnot hprinted.left
  rw [(stuck_of_not_printed hreach hnot').1, (child_gaveUp hreach hgave').2]

/-- Under any interleaving, any failures and any deaths: at most one of the two processes calls
exec for the command, and once. If `linux::run` has returned `Unavailable`, the child has not read
the second byte and has not called exec, now or later. The command is then passed through once if
the parent is quiet or can print the reason, and never if it cannot. -/
theorem starts_once (h : (startup view command).Reaches (initial turns command quiet) c) :
    execs (eventsOf .parent c.log) + execs (eventsOf .child c.log) ≤ 1 ∧
    (execs (eventsOf .parent c.log) = 1 → GaveUp (eventsOf .parent c.log)) ∧
    (GaveUp (eventsOf .parent c.log) →
      taken (eventsOf .child c.log) < 2 ∧ execs (eventsOf .child c.log) = 0 ∧
      (quiet = true ∨ Printed (eventsOf .parent c.log) → PassesThrough c) ∧
      (¬ Printed (eventsOf .parent c.log) → execs (eventsOf .parent c.log) = 0 ∧
        ∀ op next, c.thread .parent ≠ some (.call op next))) := by
  have hrecorded := parent_recorded h
  refine ⟨?_, fun hone => gaveUp_of_execs hrecorded (by simp [hone]), fun hgave => ?_⟩
  · by_cases hzero : execs (eventsOf .parent c.log) = 0
    · rw [hzero, Nat.zero_add]
      exact (child_execs h).1
    · rw [(child_gaveUp h (gaveUp_of_execs hrecorded hzero)).2]
      exact parent_execs_le h
  · obtain ⟨hfew, hnone⟩ := child_gaveUp h hgave
    refine ⟨hfew, hnone, ?_, stuck_of_not_printed h⟩
    rintro (rfl | hprinted)
    · exact passesThrough_of_printed h hgave (printed_of_quiet hrecorded)
    · exact passesThrough_of_printed h hgave hprinted

end

/-- A transfer of so many bytes. -/
def transferOf (length : Nat) : Transfer := ⟨length, 0⟩

def ENOSPC : Errno := 28

/-- What the parent returns on a machine that has no filter with a listener. -/
def unfilteredOutcome : RunOutcome :=
  .unavailable sampleCommand "bind-view-unavailable" (.os (Int32.ofInt EINVAL).toInt)

/-- The run there up to the return of `linux::run`. -/
theorem run_unfiltered (quiet : Bool) : ∃ c : Pool Who SetupOp.Answer Sockets,
    (startup linkBind sampleCommand).Reaches (initial 1 sampleCommand quiet) c ∧
    GaveUp (eventsOf .parent c.log) ∧ execs (eventsOf .parent c.log) = 0 ∧
    c.thread .parent = some (diagnostic quiet
      ("collect mode=passthrough reason=" ++ "bind-view-unavailable")
      (some (.os (Int32.ofInt EINVAL).toInt)) >>= fun _ =>
        execPassthrough (passthroughCommand sampleCommand)) := by
  have h₀ : (startup linkBind sampleCommand).Reaches (initial 1 sampleCommand quiet) _ := .refl
  have h := h₀.plain .parent .reopen (.ok linkBind) rfl (.elsewhere rfl) rfl
  have h := h.plain .parent .socketPair (.ok ()) rfl (.elsewhere rfl) rfl
  have h := h.starting .parent .fork (.ok 5) rfl (.elsewhere rfl) rfl rfl (by simp [initial])
  have h := h.plain .child .setNoNewPrivs (.ok ()) rfl (.elsewhere rfl) rfl
  have h := h.plain .child .setFilter (.error EINVAL) rfl (.elsewhere rfl) rfl
  have h := h.plain .child (.send (SETUP_UNAVAILABLE :: toNeBytes (Int32.ofInt EINVAL)))
    (transferOf 5) rfl (.send rfl) rfl
  have h := h.plain .child (.exit 0) () rfl (.elsewhere rfl) rfl
  have h := h.plain .parent (.recvmsg 5)
    (.ok ⟨SETUP_UNAVAILABLE :: toNeBytes (Int32.ofInt EINVAL), false⟩) rfl
    (@Delivers.recvmsg 5 _ ⟨SETUP_UNAVAILABLE :: toNeBytes (Int32.ofInt EINVAL), false⟩ [] rfl) rfl
  have h := h.plain .parent (.waitpid 5) (.ok (.exited 0)) rfl (.elsewhere rfl) rfl
  have h := h.plain .parent (.returned (.ok unfilteredOutcome)) () rfl (.elsewhere rfl) rfl
  refine ⟨_, h, ?_, rfl, rfl⟩
  rw [eventsOf_self]
  exact ⟨_, List.mem_append_right _ List.mem_cons_self, rfl⟩

theorem starts_once_unfiltered : ∃ c : Pool Who SetupOp.Answer Sockets,
    execs (eventsOf .parent c.log) = 1 ∧
    (execs (eventsOf .parent c.log) + execs (eventsOf .child c.log) ≤ 1 ∧
    (execs (eventsOf .parent c.log) = 1 → GaveUp (eventsOf .parent c.log)) ∧
    (GaveUp (eventsOf .parent c.log) →
      taken (eventsOf .child c.log) < 2 ∧ execs (eventsOf .child c.log) = 0 ∧
      (false = true ∨ Printed (eventsOf .parent c.log) → PassesThrough c) ∧
      (¬ Printed (eventsOf .parent c.log) → execs (eventsOf .parent c.log) = 0 ∧
        ∀ op next, c.thread .parent ≠ some (.call op next)))) := by
  obtain ⟨c, h, -, hzero, hthread⟩ := run_unfiltered false
  have hprint := h.plain .parent (.eprintln _ _) (.ok ()) hthread (.elsewhere rfl) rfl
  have hexec := hprint.plain .parent (.exec (passthroughCommand sampleCommand)) (.ok ()) rfl
    (.elsewhere rfl) rfl
  refine ⟨_, ?_, starts_once hexec⟩
  rw [eventsOf_self, eventsOf_self, execs_append, execs_append, hzero]
  rfl

/-- Standard error is on a full disk: the command is not started, and will not be. -/
theorem passthrough_unprinted : ∃ c : Pool Who SetupOp.Answer Sockets,
    (startup linkBind sampleCommand).Reaches (initial 1 sampleCommand false) c ∧
    c.thread .parent = some .panic ∧ GaveUp (eventsOf .parent c.log) ∧
    ∀ c', (startup linkBind sampleCommand).Reaches c c' →
      execs (eventsOf .parent c'.log) + execs (eventsOf .child c'.log) = 0 := by
  obtain ⟨c, h, hgave, hzero, hthread⟩ := run_unfiltered false
  have hprint := h.plain .parent (.eprintln _ _) (.error (.os ENOSPC)) hthread (.elsewhere rfl) rfl
  have hlater : GaveUp (eventsOf .parent c.log ++ [⟨.eprintln
      ("collect mode=passthrough reason=" ++ "bind-view-unavailable")
      (some (.os (Int32.ofInt EINVAL).toInt)), .error (.os ENOSPC)⟩]) :=
    (gaveUp_append _ _).mpr (.inl hgave)
  rw [← eventsOf_self] at hlater
  refine ⟨_, hprint, rfl, hlater, fun c' hreaches => never_started hprint hlater ?_ hreaches⟩
  rw [eventsOf_self]
  intro hprinted
  have hwritten := (each_concat.mp hprinted).2 hgave hzero
  cases hwritten

end PathShim
