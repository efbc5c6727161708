import PathShim.Linux.FallThrough
import PathShim.Linux.Outcome
import PathShim.Linux.Startup

/-!
# The supervision loop

`supervise`: poll the listener, receive a notification, handle it, and again
until the stop flag is set. Signals that are forwarded to the command may
interrupt any of the calls on the listener, and a tracee may go away at any
time; only some of these failures are told from the ones that end the loop.
-/

namespace PathShim

open UnixPath Effects

-- ---------------------------------------------------------------------------
-- Calls and answers
-- ---------------------------------------------------------------------------

inductive SuperviseOp where
  | stop
  | poll (timeout : Int32)
  | receive
  | handler (op : Op)

@[reducible] def SuperviseOp.Answer : SuperviseOp → Type
  | .stop => Bool
  | .poll _ => Except Errno Polled
  | .receive => Except Errno SeccompNotif
  | .handler op => op.Answer

abbrev listen (op : SuperviseOp) : Prog SuperviseOp.Answer op.Answer := perform op

/-- A handler's calls among those of the loop. -/
def within : Sup α → Prog SuperviseOp.Answer α
  | .ret a => .ret a
  | .panic => .panic
  | .call op next => .call (.handler op) fun r => within (next r)

def handled (e : Event Op.Answer) : Event SuperviseOp.Answer := ⟨.handler e.op, e.answer⟩

theorem exec_within {p : Sup α} {tr : List (Event SuperviseOp.Answer)} {out : Option α}
    (hx : Exec Env.any (within p) tr out) :
    ∃ inner, Exec Env.any p inner out ∧ tr = inner.map handled := by
  induction p generalizing tr with
  | ret a =>
    obtain ⟨rfl, rfl⟩ := exec_ret.mp hx
    exact ⟨[], .ret, rfl⟩
  | panic =>
    obtain ⟨rfl, rfl⟩ := exec_panic.mp hx
    exact ⟨[], .panic, rfl⟩
  | call op next ih =>
    obtain ⟨r, rest, -, hrest, rfl⟩ := exec_call.mp hx
    obtain ⟨inner, hinner, rfl⟩ := ih r hrest
    exact ⟨⟨op, r⟩ :: inner, .call trivial hinner, rfl⟩

-- ---------------------------------------------------------------------------
-- The loop
-- ---------------------------------------------------------------------------

def POLLERR : UInt16 := 0x8
def POLLHUP : UInt16 := 0x10
def POLLNVAL : UInt16 := 0x20

/-- Still in the loop, or returned. -/
inductive Supervision where
  | running (state : State)
  | ended (result : IoResult Unit)

/-- The part of a turn with a notification to receive. `next` is the next turn. -/
def receiveAndHandle (next : State → Prog SuperviseOp.Answer Supervision) (state : State) :
    Prog SuperviseOp.Answer Supervision := do
  match ← listen .receive with
  | .error e => if e = ENOENT then next state else return .ended (.error (.os e))
  | .ok notification =>
    let handled ← within (handle state notification)
    match handled.2 with
    | .ok () => next handled.1
    | .error e =>
      if e.rawOsError = some ENOENT then next handled.1 else return .ended (.error e)

def pollTurn (next : State → Prog SuperviseOp.Answer Supervision) (state : State) :
    Prog SuperviseOp.Answer Supervision := do
  match ← listen (.poll 100) with
  | .error e => if e = EINTR then next state else return .ended (.error (.os e))
  | .ok polled =>
    if polled.ready = 0 then next state
    else if polled.revents &&& (POLLHUP ||| POLLERR ||| POLLNVAL) ≠ 0 then return .ended (.ok ())
    else if polled.revents &&& POLLIN = 0 then next state
    else receiveAndHandle next state

/-- The first `turns` turns of the loop. -/
def superviseLoop : Nat → State → Prog SuperviseOp.Answer Supervision
  | 0, state => return .running state
  | turns + 1, state => do
    if ← listen .stop then return .ended (.ok ()) else pollTurn (superviseLoop turns) state

def supervise (turns : Nat) (view : BindView) : Prog SuperviseOp.Answer Supervision :=
  superviseLoop turns (State.new view)

-- ---------------------------------------------------------------------------
-- Failures
-- ---------------------------------------------------------------------------

/-- The error of a failed `poll`, `receive` or replying call. -/
def failureOf (e : Event SuperviseOp.Answer) : Option Errno :=
  match e with
  | ⟨.poll _, .error e⟩ => some e
  | ⟨.receive, .error e⟩ => some e
  | ⟨.handler (.respond _), .error e⟩ => some e
  | ⟨.handler (.addFd _), .error e⟩ => some e
  | _ => none

/-- Only interruptions and tracees that went away, and no hang-up. -/
structure Transient (tr : List (Event SuperviseOp.Answer)) : Prop where
  failures : ∀ event ∈ tr, ∀ e, failureOf event = some e → e = EINTR ∨ e = ENOENT
  noHangUp : ∀ timeout polled, (⟨.poll timeout, .ok polled⟩ : Event SuperviseOp.Answer) ∈ tr →
    polled.ready ≠ 0 → polled.revents &&& (POLLHUP ||| POLLERR ||| POLLNVAL) = 0

/-- An interrupted `receive` or response, or a `poll` that fails like a lost tracee. -/
def Unclassified (event : Event SuperviseOp.Answer) : Prop :=
  match event with
  | ⟨.poll _, .error e⟩ => e = ENOENT
  | ⟨.receive, .error e⟩ => e = EINTR
  | ⟨.handler (.respond _), .error e⟩ => e = EINTR
  | _ => False

/-- After all its turns the loop is still running, or it has seen the stop flag. -/
def Supervising (tr : List (Event SuperviseOp.Answer)) (out : Option Supervision) : Prop :=
  (∃ state, out = some (.running state)) ∨
    (out = some (.ended (.ok ())) ∧ (⟨.stop, true⟩ : Event SuperviseOp.Answer) ∈ tr)

/-- All failures so far were told from errors and the loop goes on; or the last one was not, and
ended it. -/
inductive Course (tr : List (Event SuperviseOp.Answer)) (out : Option Supervision) : Prop
  | supervising : (∀ event ∈ tr, ¬ Unclassified event) → Supervising tr out → Course tr out
  | failed {event e} : event ∈ tr → Unclassified event → out = some (.ended (.error e)) →
      Course tr out

section
variable {tr first rest : List (Event SuperviseOp.Answer)} {out : Option Supervision}

theorem Transient.left (h : Transient (first ++ rest)) : Transient first where
  failures event he := h.failures event (List.mem_append_left _ he)
  noHangUp timeout polled he := h.noHangUp timeout polled (List.mem_append_left _ he)

theorem Transient.right (h : Transient (first ++ rest)) : Transient rest where
  failures event he := h.failures event (List.mem_append_right _ he)
  noHangUp timeout polled he := h.noHangUp timeout polled (List.mem_append_right _ he)

/-- The next turn. -/
theorem Course.after (h : Course rest out) (hfirst : ∀ event ∈ first, ¬ Unclassified event) :
    Course (first ++ rest) out := by
  cases h with
  | supervising hrest hout =>
    refine .supervising (fun event he => ?_) ?_
    · exact (List.mem_append.mp he).elim (hfirst event) (hrest event)
    · exact hout.imp_right fun ⟨hended, hstop⟩ => ⟨hended, List.mem_append_right _ hstop⟩
  | failed he hevent hout => exact .failed (List.mem_append_right _ he) hevent hout

/-- The result of a handler is unclassified with its response. -/
theorem handler_course {inner : Trace} {r : IoResult Unit} (htold : Told inner r)
    (htransient : Transient (inner.map handled)) :
    (r = .ok () ∨ r = .error (.os ENOENT)) ∧ (∀ event ∈ inner.map handled, ¬ Unclassified event) ∨
      r = .error (.os EINTR) ∧ ∃ event ∈ inner.map handled, Unclassified event := by
  have hresult (e : Event Op.Answer) (he : e ∈ inner) (hevent : Unclassified (handled e)) :
      resultOf e = some (.error (.os EINTR)) := by
    obtain ⟨op, answer⟩ := e
    cases op with
    | respond response =>
      cases answer with
      | ok => cases hevent
      | error e =>
        obtain rfl : e = EINTR := hevent
        rfl
    | _ => cases hevent
  rcases htold with htold | ⟨hnone, rfl⟩
  · have hmem : r ∈ inner.filterMap resultOf := by simp [htold]
    obtain ⟨e, he, hr⟩ := List.mem_filterMap.mp hmem
    obtain ⟨op, answer⟩ := e
    cases op with
    | respond response =>
      obtain rfl := Option.some.inj hr
      have hother {event : Event SuperviseOp.Answer} (h : event ∈ inner.map handled)
          (hevent : Unclassified event) : osResult answer = .error (.os EINTR) := by
        obtain ⟨e', he', rfl⟩ := List.mem_map.mp h
        have hmem' : (.error (.os EINTR) : IoResult Unit) ∈ inner.filterMap resultOf :=
          List.mem_filterMap.mpr ⟨e', he', hresult e' he' hevent⟩
        rw [htold] at hmem'
        exact (List.mem_singleton.mp hmem').symm
      cases answer with
      | ok => exact .inl ⟨.inl rfl, fun event h hevent => by cases hother h hevent⟩
      | error e =>
        have hevent : handled ⟨.respond response, .error e⟩ ∈ inner.map handled :=
          List.mem_map_of_mem he
        rcases htransient.failures _ hevent e rfl with rfl | rfl
        · exact .inr ⟨rfl, _, hevent, rfl⟩
        · exact .inl ⟨.inr rfl, fun event h hevent => by cases hother h hevent⟩
    | _ => cases hr
  · refine .inl ⟨.inl rfl, fun event h hevent => ?_⟩
    obtain ⟨e, he, rfl⟩ := List.mem_map.mp h
    have hmem : (.error (.os EINTR) : IoResult Unit) ∈ inner.filterMap resultOf :=
      List.mem_filterMap.mpr ⟨e, he, hresult e he hevent⟩
    rw [hnone] at hmem
    cases hmem

-- ---------------------------------------------------------------------------
-- The turns
-- ---------------------------------------------------------------------------

section
variable {next : State → Prog SuperviseOp.Answer Supervision} {state : State}
  (hnext : ∀ state tr, Exec Env.any (next state) tr out → Transient tr → Course tr out)

/-- An event that is told from an error, or is none. -/
theorem Course.cons {event : Event SuperviseOp.Answer} (h : Course rest out)
    (hevent : ¬ Unclassified event) : Course (event :: rest) out := by
  rw [← List.singleton_append]
  refine h.after fun event' he => ?_
  rw [List.mem_singleton.mp he]
  exact hevent

theorem Transient.tail {event : Event SuperviseOp.Answer} (h : Transient (event :: rest)) :
    Transient rest where
  failures event he := h.failures event (List.mem_cons_of_mem _ he)
  noHangUp timeout polled he := h.noHangUp timeout polled (List.mem_cons_of_mem _ he)

include hnext

theorem course_receiveAndHandle (hx : Exec Env.any (receiveAndHandle next state) tr out)
    (htransient : Transient tr) : Course tr out := by
  obtain ⟨received, rest, -, hrest, rfl⟩ := exec_perform_bind.mp hx
  cases received with
  | error e =>
    dsimp only at hrest
    split at hrest
    · rename_i hgone
      subst hgone
      exact (hnext _ _ hrest htransient.tail).cons (by decide : ENOENT ≠ EINTR)
    · rename_i hother
      obtain ⟨rfl, rfl⟩ := exec_ret.mp hrest
      have hinterrupted := (htransient.failures _ List.mem_cons_self e rfl).resolve_right hother
      exact .failed List.mem_cons_self hinterrupted rfl
  | ok notification =>
    refine Course.cons ?_ id
    rcases exec_bind.mp hrest with ⟨⟨state', r⟩, first, last, hfirst, hlast, rfl⟩ | ⟨hnone, -⟩
    · obtain ⟨inner, hinner, rfl⟩ := exec_within hfirst
      rcases handler_course (handle_result hinner) htransient.tail.left with
        ⟨hresult, hclassified⟩ | ⟨rfl, event, he, hevent⟩
      · refine Course.after ?_ hclassified
        rcases hresult with rfl | rfl
        · exact hnext _ _ hlast htransient.tail.right
        · exact hnext _ _ hlast htransient.tail.right
      · obtain ⟨rfl, rfl⟩ := exec_ret.mp hlast
        exact .failed (List.mem_append_left _ he) hevent rfl
    · obtain ⟨inner, hinner, rfl⟩ := exec_within hnone
      cases handle_returns hinner

theorem course_pollTurn (hx : Exec Env.any (pollTurn next state) tr out)
    (htransient : Transient tr) : Course tr out := by
  obtain ⟨polled, rest, -, hrest, rfl⟩ := exec_perform_bind.mp hx
  cases polled with
  | error e =>
    dsimp only at hrest
    split at hrest
    · rename_i hinterrupted
      subst hinterrupted
      exact (hnext _ _ hrest htransient.tail).cons (by decide : EINTR ≠ ENOENT)
    · rename_i hother
      obtain ⟨rfl, rfl⟩ := exec_ret.mp hrest
      have hgone := (htransient.failures _ List.mem_cons_self e rfl).resolve_left hother
      exact .failed List.mem_cons_self hgone rfl
  | ok polled =>
    refine Course.cons ?_ id
    dsimp only at hrest
    split at hrest
    · exact hnext _ _ hrest htransient.tail
    · rename_i hready
      split at hrest
      · rename_i hhangUp
        exact absurd (htransient.noHangUp 100 polled List.mem_cons_self hready) hhangUp
      · split at hrest
        · exact hnext _ _ hrest htransient.tail
        · exact course_receiveAndHandle hnext hrest htransient.tail

end

/-- One turn after the other. -/
theorem course_superviseLoop {turns : Nat} {state : State}
    (hx : Exec Env.any (superviseLoop turns state) tr out) (htransient : Transient tr) :
    Course tr out := by
  induction turns generalizing state tr with
  | zero =>
    obtain ⟨rfl, rfl⟩ := exec_ret.mp hx
    exact .supervising (by simp) (.inl ⟨state, rfl⟩)
  | succ turns ih =>
    obtain ⟨stop, rest, -, hrest, rfl⟩ := exec_perform_bind.mp hx
    cases stop with
    | true =>
      obtain ⟨rfl, rfl⟩ := exec_ret.mp hrest
      refine .supervising (fun event he => ?_) (.inr ⟨rfl, List.mem_cons_self⟩)
      obtain rfl := List.mem_singleton.mp he
      exact id
    | false =>
      have hturn : Exec Env.any (pollTurn (superviseLoop turns) state) rest out := hrest
      refine Course.cons ?_ id
      exact course_pollTurn (fun _ _ hx htransient => ih hx htransient) hturn htransient.tail

end

/-- Transient failures leave the loop running until the stop flag is set, exactly if none of them
is an interrupted `receive`, an interrupted response, or a `poll` that fails with `ENOENT`. -/
theorem supervises_iff {turns : Nat} {view : BindView} {tr : List (Event SuperviseOp.Answer)}
    {out : Option Supervision} (hx : Exec Env.any (supervise turns view) tr out)
    (htransient : Transient tr) :
    Supervising tr out ↔ ∀ event ∈ tr, ¬ Unclassified event := by
  cases course_superviseLoop hx htransient with
  | supervising hclassified hout => exact ⟨fun _ => hclassified, fun _ => hout⟩
  | failed he hevent hout =>
    constructor
    · rintro (⟨state, hrunning⟩ | ⟨hended, -⟩)
      · cases hout.symm.trans hrunning
      · cases hout.symm.trans hended
    · intro hclassified
      exact absurd hevent (hclassified _ he)

-- ---------------------------------------------------------------------------
-- An interrupted `poll` and an interrupted `receive`
-- ---------------------------------------------------------------------------

def interruptedPoll : List (Event SuperviseOp.Answer) :=
  [⟨.stop, false⟩, ⟨.poll 100, .error EINTR⟩, ⟨.stop, true⟩]

theorem supervises_interruptedPoll :
    Supervising interruptedPoll (some (.ended (.ok ()))) := by
  have hx : Exec Env.any (supervise 2 oneBind) interruptedPoll (some (.ended (.ok ()))) :=
    .call trivial (.call trivial (.call trivial .ret))
  refine (supervises_iff hx ⟨?_, ?_⟩).mpr ?_
  · simp [interruptedPoll, failureOf]
  · simp [interruptedPoll]
  · simp [interruptedPoll, Unclassified, EINTR, ENOENT]

def interruptedReceive : List (Event SuperviseOp.Answer) :=
  [⟨.stop, false⟩, ⟨.poll 100, .ok ⟨1, POLLIN⟩⟩, ⟨.receive, .error EINTR⟩]

/-- A signal that arrives while a notification is received ends the loop. -/
theorem interruptedReceive_ends : Transient interruptedReceive ∧
    Exec Env.any (supervise 1 oneBind) interruptedReceive
      (some (.ended (.error (.os EINTR)))) := by
  refine ⟨⟨?_, ?_⟩, .call trivial (.call trivial (.call trivial .ret))⟩
  · simp [interruptedReceive, failureOf]
  · intro timeout polled h _
    simp only [interruptedReceive, List.mem_cons, List.not_mem_nil, or_false] at h
    rcases h with h | h | h
    · cases h
    · cases h
      decide
    · cases h

end PathShim
