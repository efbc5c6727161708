import PathShim.Histories
import PathShim.Linux.Confined
import PathShim.Linux.StateFrame
import PathShim.Linux.Supervise

/-!
# Serving notifications

A run of the supervision loop, whatever fails in it, is a sequence of turns: a
notification that is received, and the calls its handler makes on the state
that the turn before has left. What a handler guarantees for one notification
then holds for every notification of the run.
-/

namespace PathShim

open UnixPath Effects Histories

-- ---------------------------------------------------------------------------
-- Turns
-- ---------------------------------------------------------------------------

/-- A notification and the calls made after it was received. -/
abbrev Turn := SeccompNotif × Trace

/-- The calls made before anything is received, and the turns. -/
def turnsOf : List (Event SuperviseOp.Answer) → Trace × List Turn
  | [] => ([], [])
  | ⟨.stop, _⟩ :: rest | ⟨.poll _, _⟩ :: rest | ⟨.receive, .error _⟩ :: rest => turnsOf rest
  | ⟨.receive, .ok notification⟩ :: rest =>
    ([], (notification, (turnsOf rest).1) :: (turnsOf rest).2)
  | ⟨.handler op, r⟩ :: rest => (⟨op, r⟩ :: (turnsOf rest).1, (turnsOf rest).2)

/-- The calls of a handler belong to the turn they are made in. -/
theorem turnsOf_handled (inner : Trace) (rest : List (Event SuperviseOp.Answer)) :
    turnsOf (inner.map handled ++ rest) = (inner ++ (turnsOf rest).1, (turnsOf rest).2) := by
  induction inner with
  | nil => rfl
  | cons e inner ih =>
    obtain ⟨op, r⟩ := e
    simp only [List.map_cons, List.cons_append, handled, turnsOf, ih]

/-- The answers handlers get. -/
def handlerEnv (E : Env SuperviseOp.Answer) : Env Op.Answer := fun op r => E (.handler op) r

/-- One notification is handled. -/
def Takes (E : Env Op.Answer) (s : State) (turn : Turn) (s' : State) : Prop :=
  ∃ r, Exec E (handle s turn.1) turn.2 (some (s', r))

/-- A run from `state` that is nothing but turns, and returns the state of the last. -/
def Served (E : Env SuperviseOp.Answer) (state : State) (tr : List (Event SuperviseOp.Answer))
    (out : Option Supervision) : Prop :=
  (turnsOf tr).1 = [] ∧ ∃ ts last, Moves (Takes (handlerEnv E)) state ts last ∧
    (turnsOf tr).2 = ts.map Move.label ∧ out.isSome ∧
    ∀ final, out = some (.running final) → final = last

section
variable {E : Env SuperviseOp.Answer} {state : State} {out : Option Supervision}
  {tr rest : List (Event SuperviseOp.Answer)}

theorem exec_handler {p : Sup α} {out : Option α} (hx : Exec E (within p) tr out) :
    ∃ inner, Exec (handlerEnv E) p inner out ∧ tr = inner.map handled := by
  obtain ⟨inner, hinner, rfl⟩ := exec_within (hx.mono fun _ _ _ => trivial)
  refine ⟨inner, hinner.allowed fun e he => ?_, rfl⟩
  exact hx.answers (handled e) (List.mem_map_of_mem he)

theorem Served.idle {event : Event SuperviseOp.Answer}
    (hevent : turnsOf (event :: rest) = turnsOf rest) (h : Served E state rest out) :
    Served E state (event :: rest) out := by
  rw [Served, hevent]
  exact h

theorem served_ended {result : IoResult Unit} (h : turnsOf tr = ([], [])) :
    Served E state tr (some (.ended result)) := by
  rw [Served, h]
  refine ⟨rfl, [], state, .nil, rfl, rfl, fun final hfinal => ?_⟩
  cases hfinal

theorem served_turn {notification : SeccompNotif} {s' : State} {r : IoResult Unit} {inner : Trace}
    (hinner : Exec (handlerEnv E) (handle state notification) inner (some (s', r)))
    (h : Served E s' rest out) :
    Served E state (⟨.receive, .ok notification⟩ :: (inner.map handled ++ rest)) out := by
  obtain ⟨hfirst, ts, last, hmoves, hturns, hout⟩ := h
  have htakes : Takes (handlerEnv E) state (notification, inner) s' := ⟨r, hinner⟩
  refine ⟨rfl, _, last, hmoves.cons htakes, ?_, hout⟩
  simp only [turnsOf, turnsOf_handled, hfirst, hturns, List.append_nil, List.map_cons]

section
variable {next : State → Prog SuperviseOp.Answer Supervision}
  (hnext : ∀ s tr, Exec E (next s) tr out → Served E s tr out)
include hnext

theorem served_receiveAndHandle (hx : Exec E (receiveAndHandle next state) tr out) :
    Served E state tr out := by
  obtain ⟨received, rest, -, hrest, rfl⟩ := exec_perform_bind.mp hx
  cases received with
  | error e =>
    dsimp only at hrest
    split at hrest
    · exact (hnext _ _ hrest).idle rfl
    · obtain ⟨rfl, rfl⟩ := exec_ret.mp hrest
      exact served_ended rfl
  | ok notification =>
    rcases exec_bind.mp hrest with ⟨⟨s', r⟩, first, last, hfirst, hlast, rfl⟩ | ⟨hnone, -⟩
    · obtain ⟨inner, hinner, rfl⟩ := exec_handler hfirst
      refine served_turn hinner ?_
      cases r with
      | ok _ => exact hnext _ _ hlast
      | error e =>
        dsimp only at hlast
        split at hlast
        · exact hnext _ _ hlast
        · obtain ⟨rfl, rfl⟩ := exec_ret.mp hlast
          exact served_ended rfl
    · obtain ⟨inner, hinner, rfl⟩ := exec_handler hnone
      cases handle_returns (hinner.mono fun _ _ _ => trivial)

theorem served_pollTurn (hx : Exec E (pollTurn next state) tr out) : Served E state tr out := by
  obtain ⟨polled, rest, -, hrest, rfl⟩ := exec_perform_bind.mp hx
  cases polled with
  | error e =>
    dsimp only at hrest
    split at hrest
    · exact (hnext _ _ hrest).idle rfl
    · obtain ⟨rfl, rfl⟩ := exec_ret.mp hrest
      exact served_ended rfl
  | ok polled =>
    refine Served.idle rfl ?_
    dsimp only at hrest
    split at hrest
    · exact hnext _ _ hrest
    · split at hrest
      · obtain ⟨rfl, rfl⟩ := exec_ret.mp hrest
        exact served_ended rfl
      · split at hrest
        · exact hnext _ _ hrest
        · exact served_receiveAndHandle hnext hrest

end

/-- One turn after the other. -/
theorem served_superviseLoop {turns : Nat} (hx : Exec E (superviseLoop turns state) tr out) :
    Served E state tr out := by
  induction turns generalizing state tr with
  | zero =>
    obtain ⟨rfl, rfl⟩ := exec_ret.mp hx
    refine ⟨rfl, [], state, .nil, rfl, rfl, fun final h => ?_⟩
    cases h
    rfl
  | succ turns ih =>
    obtain ⟨stop, rest, -, hrest, rfl⟩ := exec_perform_bind.mp hx
    cases stop with
    | true =>
      obtain ⟨rfl, rfl⟩ := exec_ret.mp hrest
      exact served_ended rfl
    | false =>
      have hturn : Exec E (pollTurn (superviseLoop turns) state) rest out := hrest
      exact (served_pollTurn (fun _ _ hx => ih hx) hturn).idle rfl

end

-- ---------------------------------------------------------------------------
-- What every turn keeps
-- ---------------------------------------------------------------------------

/-- The view is fixed, and only directories in it are tracked. -/
structure Tracking (view : BindView) (s : State) : Prop where
  view : s.view = view
  tracks : s.TracksProjected

def KeepsTracking (E : Env Op.Answer) (view : BindView) (p : Sup (State × IoResult Unit)) : Prop :=
  ∀ a, Returns E p a → Tracking view a.1

section
variable {E : Env Op.Answer} {view : BindView} {s s' : State} {notif : SeccompNotif}

theorem KeepsTracking.answered {reply : Sup (IoResult Unit)} (h : Tracking view s) :
    KeepsTracking E view (answered s reply) := by
  rintro ⟨last, r⟩ ⟨tr, hx⟩
  obtain ⟨rfl, -⟩ := exec_answered_ok hx
  exact h

theorem KeepsTracking.after {p : Sup α} {f : α → Sup (State × IoResult Unit)}
    (h : ∀ a, KeepsTracking E view (f a)) : KeepsTracking E view (p >>= f) := by
  intro b hb
  obtain ⟨a, -, ha⟩ := returns_bind.mp hb
  exact h a b ha

theorem Tracking.insertCwd (h : Tracking view s) (key : Pid) (v : AbsPath) :
    Tracking view (s.insertCwd key v) := ⟨h.view, h.tracks⟩

theorem Tracking.removeDirectory (h : Tracking view s) (key : Pid × Fd) :
    Tracking view (s.removeDirectory key) :=
  ⟨h.view, (kept_removeDirectory key).tracks h.tracks⟩

section
variable (h : Tracking view s)
include h

theorem keepsTracking_chdirTo (v : AbsPath) : KeepsTracking E view (chdirTo s notif v) := by
  unfold chdirTo
  split
  · refine .after fun r => ?_
    cases r with
    | error e => exact .answered h
    | ok metadata =>
      dsimp only
      split
      · exact .after fun key => .answered (h.insertCwd key v)
      · exact .answered h
  · exact .after fun key => .answered (h.insertCwd key v)

theorem keepsTracking_handleChdir : KeepsTracking E view (handleChdir s notif) := by
  unfold handleChdir
  split
  · refine .after fun r => ?_
    cases r with
    | error e => exact .answered h
    | ok v => exact keepsTracking_chdirTo h v
  · refine .after fun key => ?_
    dsimp only
    split
    · exact .answered h
    · refine .after fun valid => ?_
      cases valid with
      | true => exact keepsTracking_chdirTo h _
      | false => exact .answered (h.removeDirectory _)

theorem Tracking.handle {tr : Trace} {r : IoResult Unit}
    (hx : Exec E (handle s notif) tr (some (s', r))) : Tracking view s' := by
  by_cases hchdir : notif.data.nr ∈ [.sysChdir, .sysFchdir]
  · have hkeeps : KeepsTracking E view (PathShim.handle s notif) := by
      simp only [List.mem_cons, List.not_mem_nil, or_false] at hchdir
      rcases hchdir with hnr | hnr <;> simp only [PathShim.handle, hnr] <;>
        exact keepsTracking_handleChdir h
    exact hkeeps _ ⟨tr, hx⟩
  · have hkept := kept_handle hchdir hx
    exact ⟨hkept.view.trans h.view, hkept.tracks h.tracks⟩

end

end

-- ---------------------------------------------------------------------------
-- Every turn
-- ---------------------------------------------------------------------------

/-- The calls of one turn and their answers. -/
def among (calls : Trace) : Env Op.Answer := fun op r => ⟨op, r⟩ ∈ calls

section
variable {E : Env SuperviseOp.Answer} {view : BindView} {out : Option Supervision}
  {tr : List (Event SuperviseOp.Answer)}

theorem Served.returns {state : State} (h : Served E state tr out) : out.isSome := by
  obtain ⟨-, ts, last, -, -, hreturns, -⟩ := h
  exact hreturns

/-- Every turn is handled in a state that tracks only directories of the view. -/
theorem Served.turn (h : Served E (State.new view) tr out) {turn : Turn}
    (hturn : turn ∈ (turnsOf tr).2) :
    ∃ s s', Tracking view s ∧ Takes (among turn.2) s turn s' := by
  obtain ⟨-, ts, last, hmoves, hturns, -⟩ := h
  rw [hturns] at hturn
  obtain ⟨t, ht, rfl⟩ := List.mem_map.mp hturn
  have hstart : Tracking view (State.new view) := ⟨rfl, fun _ _ h => by cases h⟩
  obtain ⟨htracking, r, hserved⟩ := hmoves.before hstart (fun t _ ⟨r, hx⟩ h => h.handle hx) t ht
  exact ⟨t.before, t.after, htracking, r, hserved.allowed fun e he => he⟩

theorem Served.confined (h : Served E (State.new view) tr out) {turn : Turn}
    (hturn : turn ∈ (turnsOf tr).2) : ∀ e ∈ turn.2, Confined (among turn.2) view turn.1 e.op := by
  obtain ⟨s, s', htracking, r, hserved⟩ := h.turn hturn
  rw [← htracking.view]
  exact confines_handle htracking.tracks _ _ hserved

/-- What a handler does is part of a turn. -/
theorem mem_turnsOf {e : Event Op.Answer} (he : handled e ∈ tr) :
    e ∈ (turnsOf tr).1 ∨ ∃ turn ∈ (turnsOf tr).2, e ∈ turn.2 := by
  induction tr using turnsOf.induct with
  | case1 => cases he
  | case2 r rest ih | case3 t r rest ih | case4 e' rest ih =>
    rcases List.mem_cons.mp he with h | h
    · cases h
    · simpa [turnsOf] using ih h
  | case5 notification rest ih =>
    rcases List.mem_cons.mp he with h | h
    · cases h
    · rcases ih h with h | ⟨turn, hturn, h⟩
      · exact .inr ⟨_, List.mem_cons_self, h⟩
      · exact .inr ⟨turn, List.mem_cons_of_mem _ hturn, h⟩
  | case6 op r rest ih =>
    rcases List.mem_cons.mp he with h | h
    · cases h
      exact .inl List.mem_cons_self
    · rcases ih h with h | h
      · exact .inl (List.mem_cons_of_mem _ h)
      · exact .inr h

theorem Served.handled (h : Served E (State.new view) tr out) {e : Event Op.Answer}
    (he : handled e ∈ tr) :
    ∃ turn ∈ (turnsOf tr).2, e ∈ turn.2 ∧ Confined (among turn.2) view turn.1 e.op := by
  rcases mem_turnsOf he with hfirst | ⟨turn, hturn, he⟩
  · rw [h.1] at hfirst
    cases hfirst
  · exact ⟨turn, hturn, he, h.confined hturn e he⟩

end

/-- Over a whole run, the supervisor names no host path that is not at or below a source. -/
theorem supervise_files (E : Env SuperviseOp.Answer) (turns : Nat) (view : BindView) :
    Ensures E (supervise turns view) fun tr _ =>
      ∀ op answer, (⟨.handler op, answer⟩ : Event SuperviseOp.Answer) ∈ tr →
        ∀ path ∈ op.hostPaths, view.InSource path := by
  intro tr out hx op answer he path hpath
  obtain ⟨turn, hturn, hmem, hconfined⟩ :=
    (served_superviseLoop hx).handled (e := ⟨op, answer⟩) he
  cases op <;> first | exact hconfined path hpath | simp [Op.hostPaths] at hpath

-- ---------------------------------------------------------------------------
-- The order of replies
-- ---------------------------------------------------------------------------

end PathShim
