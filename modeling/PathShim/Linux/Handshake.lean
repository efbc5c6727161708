import PathShim.Linux.Messages

/-!
# The two sides of the handshake

Parent and child do what they may, on every branch and whatever their calls
are answered.
-/

namespace PathShim

open UnixPath Effects

-- ---------------------------------------------------------------------------
-- The child
-- ---------------------------------------------------------------------------

/-- How many bytes the child has read, and what it has sent. -/
structure ChildAt (n : Nat) (messages : List Message) (h : History) : Prop where
  taken : taken h = n
  posted : posted h = messages
  trying : Trying h

theorem ChildAt.start : ChildAt 0 [] [] := ⟨rfl, rfl, by simp [Trying]⟩

section
variable {probePath : OsStr} {h ext : History} {n : Nat} {messages : List Message}

theorem ChildAt.append (hat : ChildAt n messages h) (hstill : Still ext) (htrying : Trying ext) :
    ChildAt n messages (h ++ ext) where
  taken := by simp [hat.taken, hstill.taken]
  posted := by simp [hat.posted, hstill.posted]
  trying := hat.trying.append htrying

theorem ChildAt.plain (hat : ChildAt n messages h) (hext : AllPlain ext) :
    ChildAt n messages (h ++ ext) := hat.append hext.still hext.trying

/-- The child at its end has nothing to show. -/
def childEnd (_ : History) (_ : α) : Prop := True

theorem child_plain {p : Startup α} {f : α → Startup Unit}
    (hp : p.Calls fun op => op.plain = true)
    (hf : ∀ a tr, Exec Env.any p tr (some a) → AllPlain tr →
      (f a).Obeys (childRules probePath) childEnd (h ++ tr)) :
    (p >>= f).Obeys (childRules probePath) childEnd h :=
  Prog.Obeys.through hp (fun _ _ _ hop => SetupOp.plain_child hop probePath _)
    (fun _ _ => trivial) hf

theorem child_ends {p : Startup Unit} (hp : p.Calls fun op => op.plain = true) :
    p.Obeys (childRules probePath) childEnd h :=
  Prog.Obeys.throughout hp (fun _ _ _ hop => SetupOp.plain_child hop probePath _)
    (fun _ _ => trivial) fun _ _ _ _ => trivial

theorem child_fails {message : String} {error : IoError} :
    (childError message error).Obeys (childRules probePath) childEnd h :=
  child_ends (calls_childError rfl rfl)

theorem exec_installListener {tr : History} {r : IoResult Unit}
    (hx : Exec Env.any installListener tr (some r)) :
    r = .ok () ∧ Made tr .setFilter (.ok ()) ∨ ∃ e, r = .error (.os e) ∧ FilterRefused tr e := by
  obtain ⟨privs, rest, -, hrest, rfl⟩ := exec_perform_bind.mp hx
  cases privs with
  | error e =>
    obtain ⟨rfl, hr⟩ := exec_ret.mp hrest
    cases hr
    exact .inr ⟨e, rfl, .inl List.mem_cons_self⟩
  | ok _ =>
    obtain ⟨filter, last, -, hlast, rfl⟩ := exec_perform_bind.mp hrest
    obtain ⟨rfl, hr⟩ := exec_ret.mp hlast
    cases hr
    cases filter with
    | error e => exact .inr ⟨e, rfl, .inr (List.mem_cons_of_mem _ List.mem_cons_self)⟩
    | ok _ => exact .inl ⟨rfl, List.mem_cons_of_mem _ List.mem_cons_self⟩

/-- What the child does while it probes. -/
def probes (probePath : OsStr) : SetupOp → Prop
  | .fstatat path | .openDirectory path => path = probePath
  | .close _ => True
  | _ => False

theorem probes_onSocket {op : SetupOp} (hop : probes probePath op) : op.onSocket = false := by
  cases op <;> first | rfl | cases hop

theorem calls_probeProjection (probePath : OsStr) :
    (probeProjection probePath).Calls (probes probePath) := by
  rw [probeProjection, cString_eq]
  refine Prog.Calls.bind (.perform rfl) fun r => ?_
  cases r with
  | error e => trivial
  | ok _ =>
    refine Prog.Calls.bind (.perform rfl) fun r => ?_
    cases r with
    | error e => trivial
    | ok fd => exact Prog.Calls.bind (.perform trivial) fun _ => trivial

theorem exec_probeProjection {tr : History} {r : IoResult Unit}
    (hx : Exec Env.any (probeProjection probePath) tr (some r)) :
    r = .ok () ∧ ProbeSucceeds probePath tr ∨
      ∃ e, r = .error (.os e) ∧ ProbeFails probePath tr e := by
  rw [probeProjection, cString_eq] at hx
  obtain ⟨stat, rest, -, hrest, rfl⟩ := exec_perform_bind.mp hx
  cases stat with
  | error e =>
    obtain ⟨rfl, hr⟩ := exec_ret.mp hrest
    cases hr
    exact .inr ⟨e, rfl, .inl List.mem_cons_self⟩
  | ok _ =>
    obtain ⟨opened, last, -, hlast, rfl⟩ := exec_perform_bind.mp hrest
    cases opened with
    | error e =>
      obtain ⟨rfl, hr⟩ := exec_ret.mp hlast
      cases hr
      exact .inr ⟨e, rfl, .inr (List.mem_cons_of_mem _ List.mem_cons_self)⟩
    | ok fd =>
      obtain ⟨_, closed, -, hclosed, rfl⟩ := exec_call.mp hlast
      obtain ⟨rfl, hr⟩ := exec_ret.mp hclosed
      cases hr
      exact .inl ⟨rfl, List.mem_cons_self, fd, List.mem_cons_of_mem _ List.mem_cons_self⟩

theorem obeys_readByte {f : IoResult Unit → Startup Unit} (hat : ChildAt n messages h)
    (hok : ∀ h', ChildAt (n + 1) messages h' →
      (f (.ok ())).Obeys (childRules probePath) childEnd h')
    (herror : ∀ e h', (f (.error e)).Obeys (childRules probePath) childEnd h') :
    (readByte >>= f).Obeys (childRules probePath) childEnd h := by
  refine ⟨trivial, fun r => ?_⟩
  show (f (transferred 1 r)).Obeys _ childEnd (h ++ [⟨.read 1, r⟩])
  by_cases hone : r.result = 1
  · have htransferred : transferred 1 r = .ok () := by simp [transferred, hone]
    rw [htransferred]
    refine hok _ ⟨?_, ?_, hat.trying.append (by simp [Trying, givesUp, isExec])⟩
    · simp [isTaken, hone, hat.taken]
    · simp [postOf, hat.posted]
  · have htransferred : transferred 1 r = .error (.os r.errno) := by simp [transferred, hone]
    rw [htransferred]
    exact herror _ _

theorem obeys_writeI32 {value : Int32} {f : IoResult Unit → Startup Unit}
    (hat : ChildAt n [readyMessage] h) (hreports : ProbeReports probePath h value)
    (hok : ∀ h', ChildAt n [readyMessage, ⟨toNeBytes value, false⟩] h' →
      (f (.ok ())).Obeys (childRules probePath) childEnd h')
    (herror : ∀ e h', (f (.error e)).Obeys (childRules probePath) childEnd h') :
    (writeI32 value >>= f).Obeys (childRules probePath) childEnd h := by
  refine ⟨.inr ⟨hat.posted, value, hreports, rfl⟩, fun r => ?_⟩
  show (f (transferred 4 r)).Obeys _ childEnd (h ++ [⟨.send (toNeBytes value), r⟩])
  by_cases hfour : r.result = 4
  · have htransferred : transferred 4 r = .ok () := by simp [transferred, hfour]
    rw [htransferred]
    refine hok _ ⟨?_, ?_, hat.trying.append (by simp [Trying, givesUp, isExec])⟩
    · simp [isTaken, hat.taken]
    · simp [postOf, hfour, hat.posted]
  · have htransferred : transferred 4 r = .error (.os r.errno) := by simp [transferred, hfour]
    rw [htransferred]
    exact herror _ _

theorem obeys_probeProjection (hat : ChildAt 1 [readyMessage] h) {f : IoResult Unit → Startup Unit}
    (hf : ∀ r h', ChildAt 1 [readyMessage] h' →
      (r = .ok () ∧ ProbeSucceeds probePath h' ∨
        ∃ e, r = .error (.os e) ∧ ProbeFails probePath h' e) →
      (f r).Obeys (childRules probePath) childEnd h') :
    (probeProjection probePath >>= f).Obeys (childRules probePath) childEnd h := by
  have hafter {tr : History} (hcalls : ∀ e ∈ tr, probes probePath e.op) :
      ChildAt 1 [readyMessage] (h ++ tr) := by
    refine hat.append (still_of_onSocket fun e he => probes_onSocket (hcalls e he)) ?_
    rintro ⟨op, r⟩ he
    have hop := hcalls _ he
    cases op <;> first | exact ⟨rfl, rfl⟩ | cases hop
  refine Prog.Obeys.through (calls_probeProjection probePath) ?_ (fun _ _ => trivial)
    fun r tr hx hcalls => hf r _ (hafter hcalls) ?_
  · intro ext hext op hop
    obtain ⟨hone, hready, -⟩ := hafter hext
    cases op <;> first | exact ⟨hop, hone, hready⟩ | trivial
  · refine (exec_probeProjection hx).imp ?_ ?_
    · rintro ⟨rfl, hstat, fd, hopened⟩
      exact ⟨rfl, List.mem_append_right _ hstat, fd, List.mem_append_right _ hopened⟩
    · rintro ⟨e, rfl, hfails⟩
      exact ⟨e, rfl, hfails.imp (List.mem_append_right _) (List.mem_append_right _)⟩

theorem obeys_childMain (command : Command) :
    (childMain command probePath).Obeys (childRules probePath) childEnd [] := by
  refine child_plain (calls_installListener rfl rfl) fun r tr hx htr => ?_
  have hat := ChildAt.start.plain htr
  rcases exec_installListener hx with ⟨rfl, hfilter⟩ | ⟨e, rfl, hrefused⟩
  · refine ⟨⟨rfl, hat.posted, hfilter⟩, fun r => ?_⟩
    cases r with
    | error e => exact child_fails
    | ok _ =>
      have hsent : ChildAt 0 [readyMessage] ([] ++ tr ++ [⟨.sendmsg [SETUP_READY], .ok ()⟩]) := by
        refine ⟨?_, ?_, hat.trying.append (by simp [Trying, givesUp, isExec])⟩
        · simp [htr.still.taken, isTaken]
        · simp [htr.still.posted, postOf, readyMessage]
      refine obeys_readByte hsent (fun h₁ hat₁ => ?_) fun e h' => child_fails
      refine obeys_probeProjection hat₁ fun r h₂ hat₂ hprobe => ?_
      rcases hprobe with ⟨rfl, hsucceeds⟩ | ⟨e, rfl, hfails⟩
      · refine obeys_writeI32 hat₂ (.inl ⟨rfl, hsucceeds⟩) (fun h₃ hat₃ => ?_)
          fun e h' => child_fails
        refine obeys_readByte hat₃ (fun h₄ hat₄ => ?_) fun e h' => child_fails
        refine ⟨⟨hat₄.taken, hat₄.trying.execs⟩, fun r => ?_⟩
        cases r with
        | error e => exact child_fails
        | ok _ => trivial
      · exact ⟨.inr ⟨hat₂.posted, _, .inr ⟨e, hfails, rfl⟩, rfl⟩,
          fun _ => ⟨trivial, fun _ => trivial⟩⟩
  · exact ⟨.inl ⟨hat.posted, e, hrefused, rfl⟩, fun _ => ⟨trivial, fun _ => trivial⟩⟩

end

-- ---------------------------------------------------------------------------
-- The parent
-- ---------------------------------------------------------------------------

theorem calls_exitWithStatus (status : ChildStatus) :
    (exitWithStatus status).Calls fun op => op.offstage = true := by
  cases status with
  | exited code => exact .perform rfl
  | signaled signal =>
    exact Prog.Calls.bind (.perform rfl) fun _ => Prog.Calls.bind (.perform rfl) fun _ =>
      Prog.Calls.bind (.perform rfl) fun _ => .perform rfl

theorem exec_installLoop {previous : List (Int32 × SignalAction)} {signals : List Int32}
    {tr : History} {installed : List (Int32 × SignalAction)}
    (hx : Exec Env.any (installLoop previous signals) tr (some (.ok installed))) :
    ∀ signal ∈ signals, ∃ old, Made tr (.sigaction signal .forwardSignal) (.ok old) := by
  induction signals generalizing previous tr with
  | nil => simp
  | cons signal signals ih =>
    obtain ⟨r, rest, -, hrest, rfl⟩ := exec_perform_bind.mp hx
    cases r with
    | error e =>
      rcases exec_bind.mp hrest with ⟨_, _, _, -, hlast, -⟩ | ⟨-, hnone⟩
      · obtain ⟨-, hr⟩ := exec_ret.mp hlast
        cases hr
      · cases hnone
    | ok old =>
      intro signal' hsignal
      rcases List.mem_cons.mp hsignal with rfl | hsignal
      · exact ⟨old, List.mem_cons_self⟩
      · obtain ⟨old', hmade⟩ := ih hrest signal' hsignal
        exact ⟨old', List.mem_cons_of_mem _ hmade⟩

theorem exec_waitForChild {turns : Nat} {pid : Int32} {tr : History} {status : ChildStatus}
    (hx : Exec Env.any (waitForChild turns pid) tr (some (.ok status))) : Reaped tr := by
  induction turns generalizing tr with
  | zero =>
    obtain ⟨-, hnone⟩ := exec_panic.mp hx
    cases hnone
  | succ turns ih =>
    obtain ⟨r, rest, -, hrest, rfl⟩ := exec_perform_bind.mp hx
    have hlater (hrest : Exec Env.any (waitForChild turns pid) rest (some (.ok status))) :
        Reaped (⟨.waitpid pid, r⟩ :: rest) := by
      obtain ⟨pid', status', hstatus, hmade⟩ := ih hrest
      exact ⟨pid', status', hstatus, List.mem_cons_of_mem _ hmade⟩
    cases r with
    | error e =>
      dsimp only at hrest
      split at hrest
      · exact hlater hrest
      · obtain ⟨-, hr⟩ := exec_ret.mp hrest
        cases hr
    | ok reported =>
      cases reported with
      | exited code => exact ⟨pid, .exited code, by simp, List.mem_cons_self⟩
      | signaled signal => exact ⟨pid, .signaled signal, by simp, List.mem_cons_self⟩
      | other => exact hlater hrest

theorem Reaped.append {h : History} (hreaped : Reaped h) (ext : History) : Reaped (h ++ ext) := by
  obtain ⟨pid, status, hstatus, hmade⟩ := hreaped
  exact ⟨pid, status, hstatus, hmade.append ext⟩

theorem Attended.append {h : History} (hattended : Attended h) (ext : History) :
    Attended (h ++ ext) where
  supervisor := hattended.supervisor.append ext
  signals signal hsignal := by
    obtain ⟨old, hmade⟩ := hattended.signals signal hsignal
    exact ⟨old, hmade.append ext⟩

theorem Reported.append {h : History} {value : Int32} (htold : Reported h value) (ext : History) :
    Reported (h ++ ext) value := by
  obtain ⟨bytes, hmade, hbytes⟩ := htold
  exact ⟨bytes, hmade.append ext, hbytes⟩

theorem Going.append {h ext : History} (hgoing : Going h) (hext : Going ext) :
    Going (h ++ ext) := fun e he =>
  (List.mem_append.mp he).elim (hgoing e) (hext e)

theorem Blames.append {h : History} {reason : String} {e : IoError} (hblames : Blames h reason e)
    (ext : History) : Blames (h ++ ext) reason e where
  unavailable hreason := by
    obtain ⟨bytes, rights, hmade, hbytes⟩ := hblames.unavailable hreason
    exact ⟨bytes, rights, hmade.append ext, hbytes⟩
  probeFailed hreason := by
    obtain ⟨value, htold, hvalue⟩ := hblames.probeFailed hreason
    exact ⟨value, htold.append ext, hvalue⟩

/-- The other reasons come from no message. -/
theorem blames_other {h : History} {reason : String} {e : IoError}
    (hunavailable : reason ≠ "bind-view-unavailable")
    (hprobe : reason ≠ "bind-view-probe-failed") : Blames h reason e :=
  ⟨fun hreason => absurd hreason hunavailable, fun hreason => absurd hreason hprobe⟩

/-- What `linux::run` returns with. -/
structure Concluded (h : History) (outcome : IoResult RunOutcome) : Prop where
  trying : Trying h
  exited : ∀ status, outcome = .ok (.exited status) → Reaped h
  unavailable : ∀ command reason e, outcome = .ok (.unavailable command reason e) →
    Blames h reason e ∧ written h < 2

theorem concluded_unavailable {h : History} {command : Command} {reason : String} {e : IoError}
    (htrying : Trying h) (hwritten : written h < 2) (hblames : Blames h reason e) :
    Concluded h (.ok (.unavailable command reason e)) where
  trying := htrying
  exited := by
    rintro status heq
    cases heq
  unavailable := by
    rintro _ _ _ heq
    cases heq
    exact ⟨hblames, hwritten⟩

theorem concluded_exited {h : History} {status : ChildStatus} (htrying : Trying h)
    (hreaped : Reaped h) : Concluded h (.ok (.exited status)) where
  trying := htrying
  exited _ _ := hreaped
  unavailable := by
    rintro _ _ _ heq
    cases heq

theorem concluded_error {h : History} {e : IoError} (htrying : Trying h) :
    Concluded h (.error e) where
  trying := htrying
  exited := by
    rintro _ heq
    cases heq
  unavailable := by
    rintro _ _ _ heq
    cases heq

section
variable {h : History} {quiet : Bool} {p : Startup α} {f : α → Startup β}
  {post : History → β → Prop}

theorem accepts_offstage (htrying : Trying h) (hends : written h < 2 ∨ Reaped h) {op : SetupOp}
    (hop : op.offstage = true) : (parentRules quiet).accepts h op := by
  refine htrying.accepts op ?_ ?_ ?_ quiet
  · cases op <;> first | exact hends | trivial
  · rintro command rfl
    cases hop
  · rintro command reason e rfl
    cases hop

theorem parent_plain (hp : p.Calls fun op => op.plain = true) (htrying : Trying h)
    (hf : ∀ a tr, Exec Env.any p tr (some a) → AllPlain tr →
      (f a).Obeys (parentRules quiet) post (h ++ tr)) :
    (p >>= f).Obeys (parentRules quiet) post h := by
  refine Prog.Obeys.through hp ?_ (fun ext hext => ?_) hf
  · intro ext hext op hop
    exact (htrying.append (AllPlain.trying hext)).accepts_plain hop quiet
  · exact (htrying.append (AllPlain.trying hext)).panics quiet

theorem parent_offstage (hp : p.Calls fun op => op.offstage = true) (htrying : Trying h)
    (hends : written h < 2 ∨ Reaped h)
    (hf : ∀ a tr, Exec Env.any p tr (some a) → Offstage tr →
      (f a).Obeys (parentRules quiet) post (h ++ tr)) :
    (p >>= f).Obeys (parentRules quiet) post h := by
  refine Prog.Obeys.through hp ?_ (fun ext hext => ?_) hf
  · intro ext hext op hop
    have hends' : written (h ++ ext) < 2 ∨ Reaped (h ++ ext) :=
      hends.imp (by simp [(Offstage.still hext).written]) (·.append ext)
    exact accepts_offstage (htrying.append (Offstage.trying hext)) hends' hop
  · exact (htrying.append (Offstage.trying hext)).panics quiet

end

/-- What `receive_setup` makes of what it received. -/
def decodeSetup : Except Errno Message → IoResult Setup
  | .error e => .error (.os e)
  | .ok message =>
    if message.payload.length = 5 ∧ message.payload.head? = some SETUP_UNAVAILABLE then
      .ok (.unavailable (.os (fromNeBytes message.payload.tail).toInt))
    else if message.payload.length ≠ 1 ∨ message.payload.head? ≠ some SETUP_READY then
      .error (.new .invalidData "invalid filesystem listener setup response" none)
    else if message.rights then .ok .ready
    else .error (.new .invalidData "listener fd missing" none)

theorem receiveSetup_eq : receiveSetup =
    request (SetupOp.recvmsg 5) >>= fun r => .ret (decodeSetup r) := by
  unfold receiveSetup
  refine congrArg (Prog.call (SetupOp.recvmsg 5)) (funext fun r => ?_)
  cases r with
  | error e => rfl
  | ok message =>
    show (if _ then _ else _ : Startup (IoResult Setup)) = .ret (decodeSetup (.ok message))
    rw [decodeSetup]
    split
    · rfl
    · split
      · rfl
      · split <;> rfl

theorem decodeSetup_unavailable {r : Except Errno Message} {e : IoError}
    (h : decodeSetup r = .ok (.unavailable e)) : ∃ bytes rights,
      r = .ok ⟨SETUP_UNAVAILABLE :: bytes, rights⟩ ∧ bytes.length = 4 ∧
      e = .os (fromNeBytes bytes).toInt := by
  cases r with
  | error e => cases h
  | ok message =>
    obtain ⟨payload, rights⟩ := message
    rw [decodeSetup] at h
    split at h
    · rename_i hrefused
      obtain ⟨hlength, hhead⟩ := hrefused
      cases payload with
      | nil => cases hhead
      | cons b bytes =>
        obtain rfl : b = SETUP_UNAVAILABLE := Option.some.inj hhead
        cases h
        exact ⟨bytes, rights, rfl, by simpa using hlength, rfl⟩
    · split at h
      · cases h
      · split at h <;> cases h

theorem decodeSetup_ready {r : Except Errno Message} (h : decodeSetup r = .ok .ready) :
    r = .ok readyMessage := by
  cases r with
  | error e => cases h
  | ok message =>
    obtain ⟨payload, rights⟩ := message
    rw [decodeSetup] at h
    split at h
    · cases h
    · split at h
      · cases h
      · rename_i hone
        split at h
        · rename_i hrights
          obtain ⟨hlength, hhead⟩ := not_or.mp hone
          obtain ⟨b, rfl⟩ := List.length_eq_one_iff.mp (not_not.mp hlength)
          obtain rfl : b = SETUP_READY := Option.some.inj (not_not.mp hhead)
          obtain rfl : rights = true := hrights
          rfl
        · cases h

theorem obeys_receiveSetup {h : History} {quiet : Bool} {f : IoResult Setup → Startup β}
    {post : History → β → Prop} (htrying : Trying h) (hreceipts : receipts h = [])
    (hf : ∀ answer, (f (decodeSetup answer)).Obeys (parentRules quiet) post
      (h ++ [⟨.recvmsg 5, answer⟩])) :
    (receiveSetup >>= f).Obeys (parentRules quiet) post h := by
  rw [receiveSetup_eq]
  exact ⟨htrying.accepts (.recvmsg 5) ⟨rfl, hreceipts⟩ (by simp) (by simp) quiet, hf⟩

/-- What `read_i32_timeout` makes of what it received. -/
def decodeReport : Except Errno Bytes → IoResult Int32
  | .ok bytes =>
    if bytes.length = 4 then .ok (fromNeBytes bytes)
    else .error (.new .unexpectedEof "filesystem capability probe result missing" none)
  | .error _ => .error (.new .unexpectedEof "filesystem capability probe result missing" none)

theorem decodeReport_ok {answer : Except Errno Bytes} {value : Int32}
    (h : decodeReport answer = .ok value) :
    ∃ bytes, answer = .ok bytes ∧ bytes.length = 4 ∧ fromNeBytes bytes = value := by
  cases answer with
  | error e => cases h
  | ok bytes =>
    rw [decodeReport] at h
    split at h
    · rename_i hlength
      cases h
      exact ⟨bytes, rfl, hlength, rfl⟩
    · cases h

/-- A turn of `read_i32_timeout` after `poll`. -/
def afterPoll (turns : Nat) (timeout : Int32) : Except Errno Polled → Startup (IoResult Int32)
  | .error e => if e = EINTR then readI32Timeout turns timeout else .ret (.error (.os e))
  | .ok polled =>
    if polled.ready = 0 then
      .ret (.error (.new .timedOut "filesystem capability probe timed out" none))
    else if polled.revents &&& POLLIN != 0 then
      request (SetupOp.recv 4) >>= fun r => .ret (decodeReport r)
    else .ret (.error (.new .brokenPipe "filesystem capability probe process stopped" none))

theorem readI32Timeout_succ (turns : Nat) (timeout : Int32) :
    readI32Timeout (turns + 1) timeout =
      request (SetupOp.poll timeout) >>= afterPoll turns timeout := by
  refine congrArg (Prog.call (SetupOp.poll timeout)) (funext fun r => ?_)
  cases r with
  | error e => rfl
  | ok polled =>
    show (if _ then _ else _ : Startup (IoResult Int32)) = afterPoll turns timeout (.ok polled)
    rw [afterPoll]
    split
    · rfl
    · split
      · refine congrArg (Prog.call (SetupOp.recv 4)) (funext fun r => ?_)
        cases r with
        | error e => rfl
        | ok bytes =>
          show (if _ then _ else _ : Startup (IoResult Int32)) = .ret (decodeReport (.ok bytes))
          rw [decodeReport]
          split <;> rfl
      · rfl

theorem obeys_readI32Timeout {h : History} {quiet : Bool} {f : IoResult Int32 → Startup β}
    {post : History → β → Prop} (turns : Nat) (timeout : Int32) (htrying : Trying h)
    (hreceipts : receipts h = [(5, [SETUP_READY])])
    (herror : ∀ e tr, AllPlain tr → (f (.error e)).Obeys (parentRules quiet) post (h ++ tr))
    (hreport : ∀ answer tr, AllPlain tr →
      (f (decodeReport answer)).Obeys (parentRules quiet) post (h ++ tr ++ [⟨.recv 4, answer⟩])) :
    (readI32Timeout turns timeout >>= f).Obeys (parentRules quiet) post h := by
  induction turns generalizing h with
  | zero => exact htrying.panics quiet
  | succ turns ih =>
    rw [readI32Timeout_succ]
    refine ⟨htrying.accepts_plain rfl quiet, fun r => ?_⟩
    have hpoll : AllPlain [(⟨.poll timeout, r⟩ : Event SetupOp.Answer)] := by
      simp [AllPlain, SetupOp.plain, SetupOp.onSocket]
    have htrying' := htrying.append hpoll.trying
    have hreceipts' : receipts (h ++ [⟨.poll timeout, r⟩]) = [(5, [SETUP_READY])] := by
      simp [hreceipts, hpoll.still.receipts]
    show (afterPoll turns timeout r >>= f).Obeys _ post _
    cases r with
    | error e =>
      rw [afterPoll]
      split
      · refine ih htrying' hreceipts' ?_ ?_
        · intro e' tr htr
          simpa using herror e' _ (hpoll.append htr)
        · intro answer tr htr
          simpa using hreport answer _ (hpoll.append htr)
      · exact herror _ _ hpoll
    | ok polled =>
      rw [afterPoll]
      split
      · exact herror _ _ hpoll
      · split
        · exact ⟨htrying'.accepts (.recv 4) ⟨rfl, hreceipts'⟩ (by simp) (by simp) quiet,
            fun answer => hreport answer _ hpoll⟩
        · exact herror _ _ hpoll

/-- The attempt is going on with the supervisor running. -/
structure Underway (h : History) : Prop where
  attended : Attended h
  going : Going h
  trying : Trying h

theorem Underway.append {h ext : History} (hunder : Underway h) (hgoing : Going ext)
    (htrying : Trying ext) : Underway (h ++ ext) :=
  ⟨hunder.attended.append ext, hunder.going.append hgoing, hunder.trying.append htrying⟩

theorem Underway.plain {h ext : History} (hunder : Underway h) (hext : AllPlain ext) :
    Underway (h ++ ext) := hunder.append hext.going hext.trying

theorem going_singleton {e : Event SetupOp.Answer} (h : e.op.ends = false) : Going [e] := by
  rintro e' he'
  rw [List.mem_singleton.mp he', h]

theorem trying_singleton {e : Event SetupOp.Answer} (hgives : givesUp e = false)
    (hexec : isExec e = false) : Trying [e] := by
  rintro e' he'
  rw [List.mem_singleton.mp he']
  exact ⟨hgives, hexec⟩

section
variable {h : History} {turns : Nat} {pid : Int32} {installed : List (Int32 × SignalAction)}
  {command : Command} {quiet : Bool}

theorem obeys_writeByte {byte : UInt8} {f : IoResult Unit → Startup β}
    {post : History → β → Prop} (hunder : Underway h)
    (hturn : written h = 0 ∨ written h = 1 ∧ Reported h 0)
    (hok : ∀ ext, Going ext → Trying ext → receipts ext = [] → written ext = 1 →
      (f (.ok ())).Obeys (parentRules quiet) post (h ++ ext))
    (herror : ∀ e ext, Trying ext → written ext = 0 →
      (f (.error e)).Obeys (parentRules quiet) post (h ++ ext)) :
    (writeByte byte >>= f).Obeys (parentRules quiet) post h := by
  have hmay : parentMay h (.write [byte]) := ⟨hunder.attended, hunder.going, hturn⟩
  refine ⟨hunder.trying.accepts _ hmay (by simp) (by simp) quiet, fun r => ?_⟩
  show (f (transferred 1 r)).Obeys _ post _
  by_cases hone : r.result = 1
  · have hsent : transferred 1 r = .ok () := by simp [transferred, hone]
    rw [hsent]
    exact hok _ (going_singleton rfl) (trying_singleton rfl rfl) (by simp [receiptOf])
      (by simp [isWritten, hone])
  · have hlost : transferred 1 r = .error (.os r.errno) := by simp [transferred, hone]
    rw [hlost]
    exact herror _ _ (trying_singleton rfl rfl) (by simp [isWritten, hone])

theorem obeys_giveUp {reason : String} {e : IoError} (htrying : Trying h)
    (hwritten : written h < 2) (hblames : Blames h reason e) :
    (giveUp turns pid installed (.unavailable command reason e)).Obeys (parentRules quiet)
      Concluded h := by
  refine parent_plain (calls_restore fun _ _ => rfl) htrying fun _ tr _ htr => ?_
  refine parent_offstage (calls_stopAttempt rfl rfl rfl rfl) (htrying.append htr.trying)
    (.inl (htr.still.few hwritten)) fun _ tr' _ htr' => ?_
  exact concluded_unavailable ((htrying.append htr.trying).append htr'.trying)
    (htr'.still.few (htr.still.few hwritten)) ((hblames.append tr).append tr')

/-- The child is killed and waited for before anything is written. -/
theorem obeys_killAndWait {outcome : RunOutcome} {post : History → IoResult RunOutcome → Prop}
    (htrying : Trying h) (hwritten : written h < 2)
    (hpost : ∀ tr, Offstage tr → post (h ++ tr) (.ok outcome)) :
    (do
      killAndWait turns pid
      return .ok outcome : Startup (IoResult RunOutcome)).Obeys (parentRules quiet) post h :=
  parent_offstage (calls_killAndWait rfl rfl) htrying (.inl hwritten) fun _ tr _ htr => hpost tr htr

theorem obeys_startCommand (hunder : Underway h) (hwritten : written h = 1)
    (htold : Reported h 0) :
    (startCommand turns pid installed command quiet).Obeys (parentRules quiet) Concluded h := by
  refine parent_plain (calls_diagnostic rfl) hunder.trying fun _ tr _ htr => ?_
  have hwritten' : written (h ++ tr) = 1 := by simpa [htr.still.written] using hwritten
  have hunder' := hunder.plain htr
  refine obeys_writeByte hunder' (.inr ⟨hwritten', htold.append tr⟩) ?_ ?_
  · intro ext _ hext _ _
    refine parent_plain (calls_waitForChild rfl) (hunder'.trying.append hext)
      fun r waited hwaited hplain => ?_
    have htrying := (hunder'.trying.append hext).append hplain.trying
    cases r with
    | error e =>
      exact parent_plain (calls_restore fun _ _ => rfl) htrying fun _ _ _ htr =>
        concluded_error (htrying.append htr.trying)
    | ok status =>
      have hreaped : Reaped waited := exec_waitForChild hwaited
      refine parent_plain (calls_restore fun _ _ => rfl) htrying fun _ restored _ hrestored => ?_
      have hdone : Reaped (h ++ tr ++ ext ++ waited ++ restored) := by
        obtain ⟨pid', status', hstatus, hmade⟩ := hreaped
        exact ⟨pid', status', hstatus,
          List.mem_append_left _ (List.mem_append_right _ hmade)⟩
      have htrying' := htrying.append hrestored.trying
      refine parent_offstage (p := request .stopSupervisor) (.perform rfl) htrying' (.inr hdone)
        fun _ stopped _ hstopped => ?_
      refine parent_offstage (p := request .joinSupervisor) (.perform rfl)
        (htrying'.append hstopped.trying) (.inr (hdone.append _)) fun _ joined _ hjoined => ?_
      exact concluded_exited ((htrying'.append hstopped.trying).append hjoined.trying)
        ((hdone.append _).append _)
  · intro e ext hext hnothing
    have hfew : written (h ++ tr ++ ext) < 2 := by
      rw [written_append, hwritten', hnothing]
      decide
    exact obeys_giveUp (hunder'.trying.append hext) hfew (blames_other (by decide) (by decide))

/-- From the fork on, with nothing transferred yet. -/
theorem obeys_superviseChild (hgoing : Going h) (htrying : Trying h) (hstill : Still h) :
    (superviseChild turns pid command quiet).Obeys (parentRules quiet) Concluded h := by
  refine obeys_receiveSetup htrying hstill.receipts fun answer => ?_
  have hwritten : written (h ++ [⟨.recvmsg 5, answer⟩]) = 0 := by simp [hstill.written, isWritten]
  have hfew : written (h ++ [⟨.recvmsg 5, answer⟩]) < 2 := by
    rw [hwritten]
    decide
  have htrying₁ : Trying (h ++ [⟨.recvmsg 5, answer⟩]) :=
    htrying.append (trying_singleton rfl rfl)
  cases hdecode : decodeSetup answer with
  | error e =>
    exact obeys_killAndWait htrying₁ hfew fun tr htr => concluded_unavailable
      (htrying₁.append htr.trying) (htr.still.few hfew) (blames_other (by decide) (by decide))
  | ok setup =>
    cases setup with
    | unavailable e =>
      obtain ⟨bytes, rights, rfl, hlength, rfl⟩ := decodeSetup_unavailable hdecode
      refine parent_plain (calls_waitForChild rfl) htrying₁ fun _ tr _ htr => ?_
      refine concluded_unavailable (htrying₁.append htr.trying) (htr.still.few hfew)
        (Blames.append ?_ tr)
      exact ⟨fun _ => ⟨bytes, rights, List.mem_append_right _ List.mem_cons_self, hlength, rfl⟩,
        fun hreason => absurd hreason (by decide)⟩
    | ready =>
      obtain rfl := decodeSetup_ready hdecode
      refine ⟨htrying₁.accepts_plain rfl quiet, fun spawned => ?_⟩
      have hwritten₂ : written (h ++ [⟨.recvmsg 5, .ok readyMessage⟩] ++
          [⟨.spawnSupervisor, spawned⟩]) = 0 := by
        rw [written_append, hwritten]
        rfl
      have hfew₂ : written (h ++ [⟨.recvmsg 5, .ok readyMessage⟩] ++
          [⟨.spawnSupervisor, spawned⟩]) < 2 := by
        rw [hwritten₂]
        decide
      have htrying₂ : Trying (h ++ [⟨.recvmsg 5, .ok readyMessage⟩] ++
          [⟨.spawnSupervisor, spawned⟩]) := htrying₁.append (trying_singleton rfl rfl)
      cases spawned with
      | error e =>
        exact obeys_killAndWait htrying₂ hfew₂ fun tr htr => concluded_unavailable
          (htrying₂.append htr.trying) (htr.still.few hfew₂)
          (blames_other (by decide) (by decide))
      | ok _ =>
        -- the supervisor runs
        have hspawned : Going (h ++ [⟨.recvmsg 5, .ok readyMessage⟩] ++
            [⟨.spawnSupervisor, .ok ()⟩]) :=
          (hgoing.append (going_singleton rfl)).append (going_singleton rfl)
        show (installForwarding >>= _).Obeys _ _ _
        refine parent_plain (calls_installLoop fun _ _ => rfl) htrying₂
          fun r tr hinstall htr => ?_
        have htrying₃ := htrying₂.append htr.trying
        have hwritten₃ : written (h ++ [⟨.recvmsg 5, .ok readyMessage⟩] ++
            [⟨.spawnSupervisor, .ok ()⟩] ++ tr) = 0 := by
          rw [written_append, hwritten₂, htr.still.written]
        cases r with
        | error e =>
          refine parent_offstage (calls_stopAttempt rfl rfl rfl rfl) htrying₃
            (.inl (htr.still.few hfew₂)) fun _ stopped _ hstopped => ?_
          exact concluded_unavailable (htrying₃.append hstopped.trying)
            (hstopped.still.few (htr.still.few hfew₂)) (blames_other (by decide) (by decide))
        | ok installed =>
          have hunder : Underway (h ++ [⟨.recvmsg 5, .ok readyMessage⟩] ++
              [⟨.spawnSupervisor, .ok ()⟩] ++ tr) :=
            ⟨⟨List.mem_append_left _ (List.mem_append_right _ List.mem_cons_self),
              fun signal hsignal => (exec_installLoop hinstall signal hsignal).imp fun _ hmade =>
                List.mem_append_right _ hmade⟩, hspawned.append htr.going, htrying₃⟩
          refine obeys_writeByte hunder (.inl hwritten₃) ?_ ?_
          · intro ext hext htried hnothing hone
            have hunder₁ := hunder.append hext htried
            have hwritten₄ : written (h ++ [⟨.recvmsg 5, .ok readyMessage⟩] ++
                [⟨.spawnSupervisor, .ok ()⟩] ++ tr ++ ext) = 1 := by
              rw [written_append, hwritten₃, hone]
            have hfew₄ : written (h ++ [⟨.recvmsg 5, .ok readyMessage⟩] ++
                [⟨.spawnSupervisor, .ok ()⟩] ++ tr ++ ext) < 2 := by
              rw [hwritten₄]
              decide
            refine obeys_readI32Timeout turns _ hunder₁.trying ?_ ?_ ?_
            · simp [hstill.receipts, htr.still.receipts, hnothing, receiptOf, readyMessage]
            · intro e polled hpolled
              exact obeys_giveUp (hunder₁.trying.append hpolled.trying) (hpolled.still.few hfew₄)
                (blames_other (by decide) (by decide))
            · intro answer polled hpolled
              have hunder₂ := (hunder₁.plain hpolled).append
                (going_singleton (e := ⟨.recv 4, answer⟩) rfl) (trying_singleton rfl rfl)
              have hwritten₅ : written (h ++ [⟨.recvmsg 5, .ok readyMessage⟩] ++
                  [⟨.spawnSupervisor, .ok ()⟩] ++ tr ++ ext ++ polled ++
                  [⟨.recv 4, answer⟩]) = 1 := by
                rw [written_append, written_append, hwritten₄, hpolled.still.written]
                rfl
              have hfew₅ : written (h ++ [⟨.recvmsg 5, .ok readyMessage⟩] ++
                  [⟨.spawnSupervisor, .ok ()⟩] ++ tr ++ ext ++ polled ++
                  [⟨.recv 4, answer⟩]) < 2 := by
                rw [hwritten₅]
                decide
              cases hreport : decodeReport answer with
              | error e =>
                exact obeys_giveUp hunder₂.trying hfew₅ (blames_other (by decide) (by decide))
              | ok value =>
                obtain ⟨bytes, rfl, hlength, hvalue⟩ := decodeReport_ok hreport
                have htold (before : History) : Reported (before ++ [⟨.recv 4, .ok bytes⟩]) value :=
                  ⟨bytes, List.mem_append_right _ List.mem_cons_self, hlength, hvalue⟩
                dsimp only
                split
                · rename_i hnonzero
                  exact obeys_giveUp hunder₂.trying hfew₅
                    ⟨fun hreason => absurd hreason (by decide),
                      fun _ => ⟨value, htold _, hnonzero, rfl⟩⟩
                · rename_i hzero
                  obtain rfl : value = 0 := not_not.mp hzero
                  exact obeys_startCommand hunder₂ hwritten₅ (htold _)
          · intro e ext htried hext
            have hfew₄ : written (h ++ [⟨.recvmsg 5, .ok readyMessage⟩] ++
                [⟨.spawnSupervisor, .ok ()⟩] ++ tr ++ ext) < 2 := by
              rw [written_append, hwritten₃, hext]
              decide
            exact obeys_giveUp (hunder.trying.append htried) hfew₄
              (blames_other (by decide) (by decide))

theorem obeys_linuxRun (quiet : Bool) :
    (linuxRun turns command quiet).Obeys (parentRules quiet) Concluded [] := by
  have htrying : Trying [] := by simp [Trying]
  have hfailed {ext : History} (hext : AllPlain ext) {reason : String} {e : IoError}
      (hblames : Blames ext reason e) :
      Concluded ext (.ok (.unavailable command reason e)) :=
    concluded_unavailable hext.trying (by simp [hext.still.written]) hblames
  refine ⟨htrying.accepts_plain rfl quiet, fun r => ?_⟩
  have hreopen : AllPlain [(⟨.reopen, r⟩ : Event SetupOp.Answer)] := by
    simp [AllPlain, SetupOp.plain, SetupOp.onSocket]
  cases r with
  | error e => exact hfailed hreopen (blames_other (by decide) (by decide))
  | ok view =>
    refine ⟨hreopen.trying.accepts_plain rfl quiet, fun r => ?_⟩
    have hpair : AllPlain [(⟨.reopen, .ok view⟩ : Event SetupOp.Answer), ⟨.socketPair, r⟩] := by
      simp [AllPlain, SetupOp.plain, SetupOp.onSocket]
    cases r with
    | error e => exact hfailed hpair (blames_other (by decide) (by decide))
    | ok _ =>
      refine ⟨hpair.trying.accepts_plain rfl quiet, fun r => ?_⟩
      have hfork : AllPlain [(⟨.reopen, .ok view⟩ : Event SetupOp.Answer), ⟨.socketPair, .ok ()⟩,
          ⟨.fork, r⟩] := by simp [AllPlain, SetupOp.plain, SetupOp.onSocket]
      cases r with
      | error e => exact hfailed hfork (blames_other (by decide) (by decide))
      | ok pid => exact obeys_superviseChild hfork.going hfork.trying hfork.still

-- ---------------------------------------------------------------------------
-- Passing the command through
-- ---------------------------------------------------------------------------

/-- The parent ends with the command passed through, if it gave up. -/
def parentEnd (h : History) (_ : Unit) : Prop := GaveUp h → execs h ≠ 0

/-- The command was passed through. -/
structure Passed (h : History) : Prop where
  execs : execs h ≠ 0
  printed : Printed h

theorem Passed.append (hpassed : Passed h) (e : Event SetupOp.Answer) : Passed (h ++ [e]) where
  execs := by simp [hpassed.execs]
  printed := hpassed.printed.concat fun _ hzero => absurd hzero hpassed.execs

theorem Passed.accepts (hpassed : Passed h) {op : SetupOp} (hop : op.plain = true) :
    (parentRules quiet).accepts h op := by
  refine ⟨hpassed.printed, SetupOp.plain_parent hop h, ?_⟩
  cases op with
  | eprintln message error => exact fun _ hzero => absurd hzero hpassed.execs
  | exec | returned | write => cases hop
  | _ => exact fun _ => hpassed.execs

/-- The parent has given up and not passed the command through yet. -/
structure Passing (h : History) : Prop where
  gaveUp : GaveUp h
  execs : execs h = 0
  printed : Printed h

theorem obeys_execPassthrough (hpassing : Passing h) :
    (execPassthrough command).Obeys (parentRules quiet) parentEnd h := by
  refine ⟨⟨hpassing.printed, trivial, hpassing.gaveUp, hpassing.execs⟩, fun r => ?_⟩
  have hpassed : Passed (h ++ [⟨.exec command, r⟩]) :=
    ⟨by simp [isExec], hpassing.printed.concat fun _ _ => rfl⟩
  cases r with
  | ok _ => exact fun _ => hpassed.execs
  | error e =>
    refine ⟨hpassed.accepts rfl, fun r => ?_⟩
    cases r with
    | error e => exact fun _ hzero => absurd hzero (hpassed.append _).execs
    | ok _ => exact ⟨(hpassed.append _).accepts rfl, fun _ _ => ((hpassed.append _).append _).execs⟩

theorem obeys_passthrough (hpassing : Passing h) (message : String) (error : Option IoError) :
    (diagnostic quiet message error >>= fun _ => execPassthrough command).Obeys
      (parentRules quiet) parentEnd h := by
  cases quiet with
  | true => exact obeys_execPassthrough hpassing
  | false =>
    refine ⟨⟨hpassing.printed, trivial, fun _ _ => rfl⟩, fun r => ?_⟩
    cases r with
    | error e =>
      -- the line cannot be written, and the command is not passed through
      intro _ _ hprinted
      have hwritten := (each_concat.mp hprinted).2 hpassing.gaveUp hpassing.execs
      cases hwritten
    | ok _ =>
      refine obeys_execPassthrough ⟨(gaveUp_append _ _).mpr (.inl hpassing.gaveUp), ?_, ?_⟩
      · simp [hpassing.execs, isExec]
      · exact hpassing.printed.concat fun _ _ => rfl

theorem obeys_mainRun (quiet : Bool) :
    (mainRun turns command quiet).Obeys (parentRules quiet) parentEnd [] := by
  refine (obeys_linuxRun quiet).bind fun h outcome hconcluded => ?_
  have htrying := hconcluded.trying
  cases outcome with
  | error e =>
    refine ⟨htrying.accepts (.returned (.error e)) trivial (by simp) (by simp) quiet, fun _ => ?_⟩
    have htrying₁ := htrying.append
      (trying_singleton (e := ⟨.returned (.error e), ()⟩) rfl rfl)
    show (eprintln _ _ >>= fun _ => request (.exit 1)).Obeys _ _ _
    refine parent_plain (calls_eprintln rfl) htrying₁ fun _ tr _ htr => ?_
    have htrying₂ := htrying₁.append htr.trying
    refine ⟨htrying₂.accepts_plain rfl quiet, fun _ hgave => ?_⟩
    exact absurd hgave (htrying₂.append (trying_singleton rfl rfl)).not_gaveUp
  | ok outcome =>
    cases outcome with
    | exited status =>
      refine ⟨htrying.accepts (.returned (.ok (.exited status))) trivial (by simp) (by simp) quiet,
        fun _ => ?_⟩
      have htrying₁ := htrying.append
        (trying_singleton (e := ⟨.returned (.ok (.exited status)), ()⟩) rfl rfl)
      have hreaped := (hconcluded.exited status rfl).append
        [⟨.returned (.ok (.exited status)), ()⟩]
      refine Prog.Obeys.throughout (calls_exitWithStatus status) ?_ ?_ ?_
      · intro ext hext op hop
        exact accepts_offstage (htrying₁.append (Offstage.trying hext))
          (.inr (hreaped.append ext)) hop
      · intro ext hext
        exact (htrying₁.append (Offstage.trying hext)).panics quiet
      · intro _ tr _ htr hgave
        exact absurd hgave (htrying₁.append (Offstage.trying htr)).not_gaveUp
    | unavailable command reason e =>
      obtain ⟨hblames, hwritten⟩ := hconcluded.unavailable command reason e rfl
      have hreturned := htrying.accepts (.returned (.ok (.unavailable command reason e))) hblames
        (by simp) (fun _ _ _ _ => hwritten) quiet
      refine ⟨hreturned, fun _ => ?_⟩
      refine obeys_passthrough ⟨?_, ?_, ?_⟩ _ _
      · exact (gaveUp_append _ _).mpr (.inr ⟨_, List.mem_cons_self, rfl⟩)
      · simp [htrying.execs, isExec]
      · exact htrying.printed.concat fun _ _ => rfl

end

-- ---------------------------------------------------------------------------
-- Both together
-- ---------------------------------------------------------------------------

/-- Where the child probes. -/
def BindView.probePath? (view : BindView) : Option OsStr :=
  view.projections.head?.map fun p => p.destination.toPath

section
variable {turns : Nat} {view : BindView} {command : Command} {quiet : Bool} {probePath : OsStr}

variable (hprobe : ∀ path ∈ view.probePath?, path = probePath)
include hprobe

theorem obeys_childProcess :
    (childProcess view command).Obeys (childRules probePath) childEnd [] := by
  unfold childProcess
  split
  · trivial
  · rename_i projection hhead
    obtain rfl := hprobe projection.destination.toPath (by simp [BindView.probePath?, hhead])
    exact obeys_childMain command

/-- What holds of each side when its program returns. -/
def sideEnd : Who → History → Unit → Prop
  | .parent => parentEnd
  | .child => childEnd

theorem startup_ruled : (startup view command).Ruled (rulesOf quiet probePath) sideEnd
    (initial turns command quiet) where
  log := rfl
  threads who p hp := by
    cases who with
    | parent =>
      obtain rfl : mainRun turns command quiet = p := Option.some.inj hp
      exact obeys_mainRun quiet
    | child => cases hp
  starts e who p hp := by
    simp only [startup] at hp
    split at hp
    · cases hp
      exact obeys_childProcess hprobe
    · cases hp

end

end PathShim
