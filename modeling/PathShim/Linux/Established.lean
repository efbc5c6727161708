import PathShim.Linux.StartOnce

/-!
# What the handshake establishes

The messages on the socket pair arrive in the order they were sent, so each
side may rely on what the other has done before it sent one. The child probes
the projection only under a running supervisor, the command is started only
after a probe that succeeded, and the error the parent reports is the one the
child has met.
-/

namespace PathShim

open UnixPath Effects

-- ---------------------------------------------------------------------------
-- What was sent
-- ---------------------------------------------------------------------------

/-- The messages of a child with this history. -/
inductive Posts (probePath : OsStr) (h : History) : List Message → Prop
  | nothing : Posts probePath h []
  | refused {e} : FilterRefused h e →
      Posts probePath h [⟨SETUP_UNAVAILABLE :: toNeBytes (Int32.ofInt e), false⟩]
  | ready : Made h .setFilter (.ok ()) → Posts probePath h [readyMessage]
  | reported {value} : Made h .setFilter (.ok ()) → ProbeReports probePath h value →
      Posts probePath h [readyMessage, ⟨toNeBytes value, false⟩]

section
variable {probePath : OsStr} {h : History}

theorem FilterRefused.append {e : Errno} (hrefused : FilterRefused h e) (ext : History) :
    FilterRefused (h ++ ext) e := hrefused.imp (·.append ext) (·.append ext)

theorem ProbeReports.append {value : Int32} (hreports : ProbeReports probePath h value)
    (ext : History) : ProbeReports probePath (h ++ ext) value := by
  rcases hreports with ⟨rfl, hstat, fd, hopened⟩ | ⟨e, hfails, rfl⟩
  · exact .inl ⟨rfl, hstat.append ext, fd, hopened.append ext⟩
  · exact .inr ⟨e, hfails.imp (·.append ext) (·.append ext), rfl⟩

theorem Posts.append {messages : List Message} (hposts : Posts probePath h messages)
    (ext : History) : Posts probePath (h ++ ext) messages := by
  cases hposts with
  | nothing => exact .nothing
  | refused hrefused => exact .refused (hrefused.append ext)
  | ready hfilter => exact .ready (hfilter.append ext)
  | reported hfilter hreports => exact .reported (hfilter.append ext) (hreports.append ext)

theorem posts_posted (hrecorded : Recorded (childMay probePath) h) :
    Posts probePath h (posted h) := by
  induction h using List.reverseRecOn with
  | nil => exact .nothing
  | append_singleton h e ih =>
    obtain ⟨hbefore, hmay⟩ := each_concat.mp hrecorded
    have hposts := ih hbefore
    rw [posted_append, posted_cons, posted_nil, List.append_nil]
    cases hpost : postOf e with
    | none => simpa using hposts.append [e]
    | some message =>
      obtain ⟨op, r⟩ := e
      cases op with
      | send payload =>
        obtain rfl : message = ⟨payload, false⟩ := by
          simp only [postOf] at hpost
          split at hpost
          · exact (Option.some.inj hpost).symm
          · cases hpost
        rcases hmay with ⟨hnone, e, hrefused, rfl⟩ | ⟨hready, value, hreports, rfl⟩
        · rw [hnone]
          exact .refused (hrefused.append _)
        · rw [hready] at hposts ⊢
          cases hposts with
          | ready hfilter => exact .reported (hfilter.append _) (hreports.append _)
      | sendmsg payload =>
        obtain ⟨rfl, hnone, hfilter⟩ := hmay
        cases r with
        | error e => cases hpost
        | ok _ =>
          obtain rfl := Option.some.inj hpost
          rw [hnone]
          exact .ready (hfilter.append _)
      | _ => cases hpost

theorem Posts.payload_ne_nil {messages : List Message} (hposts : Posts probePath h messages) :
    ∀ m ∈ messages, m.payload ≠ [] := by
  have hreport (value : Int32) : toNeBytes value ≠ [] := by
    intro hnil
    have hlength := length_toNeBytes value
    rw [hnil] at hlength
    cases hlength
  cases hposts <;> simp [readyMessage, hreport]

end

-- ---------------------------------------------------------------------------
-- What arrives
-- ---------------------------------------------------------------------------

/-- What the parent has received are the first messages the child has sent, as far as there was
room for them; the others are under way. -/
def Arrived (log : List (Who × Event SetupOp.Answer)) (queue : List Message) : Prop :=
  ∃ received, posted (eventsOf .child log) = received ++ queue ∧
    List.Forall₂ (fun (m : Message) (r : Nat × Bytes) => r.2 = m.payload.take r.1) received
      (receipts (eventsOf .parent log))

section
variable {turns : Nat} {view : BindView} {command : Command} {quiet : Bool} {probePath : OsStr}
  {b c : Pool Who SetupOp.Answer Sockets}

theorem parent_may (h : (startup view command).Reaches (initial turns command quiet) c) :
    Recorded parentMay (eventsOf .parent c.log) :=
  (parent_recorded h).mono fun _ _ haccepts => haccepts.2.1

theorem child_may (hprobe : view.probePath? = some probePath)
    (h : (startup view command).Reaches (initial turns command quiet) c) :
    Recorded (childMay probePath) (eventsOf .child c.log) :=
  System.recorded (startup_ruled (by simp [hprobe])) h .child

/-- A message that is taken from the queue. -/
theorem Arrived.take {log : List (Who × Event SetupOp.Answer)} {message : Message}
    {queue : List Message} (harrived : Arrived log (message :: queue)) {e : Event SetupOp.Answer}
    {length : Nat} (hreceipt : receiptOf e = some (length, message.payload.take length)) :
    Arrived (log ++ [(.parent, e)]) queue := by
  obtain ⟨received, hposted, hall⟩ := harrived
  refine ⟨received ++ [message], ?_, ?_⟩
  · rw [eventsOf_other (by decide), hposted]
    simp
  · rw [eventsOf_self, receipts_append]
    refine List.rel_append hall ?_
    simp [hreceipt]

/-- A call that sends and receives nothing. -/
theorem Arrived.idle {log : List (Who × Event SetupOp.Answer)} {queue : List Message}
    (harrived : Arrived log queue) {who : Who} {e : Event SetupOp.Answer} (hpost : postOf e = none)
    (hreceipt : receiptOf e = none) : Arrived (log ++ [(who, e)]) queue := by
  obtain ⟨received, hposted, hall⟩ := harrived
  refine ⟨received, ?_, ?_⟩
  · cases who with
    | parent => rw [eventsOf_other (by decide), hposted]
    | child =>
      rw [eventsOf_self]
      simp [hpost, hposted]
  · cases who with
    | parent =>
      rw [eventsOf_self]
      simpa [hreceipt] using hall
    | child => rwa [eventsOf_other (by decide)]

theorem Arrived.queue_ne_nil {log : List (Who × Event SetupOp.Answer)} {message : Message}
    {queue : List Message} (harrived : Arrived log (message :: queue))
    (hposts : Posts probePath (eventsOf .child log) (posted (eventsOf .child log))) :
    message.payload ≠ [] := by
  obtain ⟨received, hposted, -⟩ := harrived
  exact hposts.payload_ne_nil message (by simp [hposted])

theorem arrived (hprobe : view.probePath? = some probePath)
    (h : (startup view command).Reaches (initial turns command quiet) c) :
    Arrived c.log c.shared.toParent := by
  induction h with
  | refl => exact ⟨[], rfl, .nil⟩
  | @tail b _ hreach hstep ih =>
    have hrecorded := parent_may (hreach.tail hstep)
    have hposts := posts_posted (child_may hprobe hreach)
    cases hstep with
    | stop => exact ih
    | @call who op next r shared hcall heffect hnew =>
      dsimp only at hrecorded ⊢
      generalize b.shared = before at heffect ih
      cases heffect with
      | @send payload transfer s hresult =>
        obtain ⟨received, hposted, hall⟩ := ih
        refine ⟨received, ?_, by rwa [eventsOf_other (by decide)]⟩
        rw [eventsOf_self]
        simp [postOf, hresult, hposted]
      | sendmsg =>
        obtain ⟨received, hposted, hall⟩ := ih
        refine ⟨received, ?_, by rwa [eventsOf_other (by decide)]⟩
        rw [eventsOf_self]
        simp [postOf, hposted]
      | @recvmsg length s message rest hqueue =>
        rw [hqueue] at ih
        have hnonempty := ih.queue_ne_nil hposts
        rw [eventsOf_self] at hrecorded
        obtain ⟨rfl, -⟩ : parentMay _ (.recvmsg length) := (each_concat.mp hrecorded).2
        have hreceipt : receiptOf ⟨.recvmsg 5, .ok ⟨message.payload.take 5, message.rights⟩⟩ =
            some (5, message.payload.take 5) := by simp [receiptOf, hnonempty]
        exact ih.take hreceipt
      | @recv length s message rest hqueue =>
        rw [hqueue] at ih
        have hnonempty := ih.queue_ne_nil hposts
        rw [eventsOf_self] at hrecorded
        obtain ⟨rfl, -⟩ : parentMay _ (.recv length) := (each_concat.mp hrecorded).2
        have hreceipt : receiptOf ⟨.recv 4, .ok (message.payload.take 4)⟩ =
            some (4, message.payload.take 4) := by simp [receiptOf, hnonempty]
        exact ih.take hreceipt
      | @sendFailed payload transfer s hresult =>
        have hnot : transfer.result ≠ payload.length := by omega
        exact ih.idle (by simp [postOf, hnot]) rfl
      | elsewhere hop =>
        have hstill := still_event (e := ⟨op, r⟩) hop
        exact ih.idle hstill.1 hstill.2.1
      | _ => exact ih.idle rfl rfl

/-- What the parent was told of the probe is what the child has reported. -/
theorem told_reports (hprobe : view.probePath? = some probePath)
    (h : (startup view command).Reaches (initial turns command quiet) c) {value : Int32}
    (htold : Reported (eventsOf .parent c.log) value) :
    Made (eventsOf .child c.log) .setFilter (.ok ()) ∧
      ProbeReports probePath (eventsOf .child c.log) value := by
  obtain ⟨bytes, hmade, hlength, rfl⟩ := htold
  obtain ⟨first, rest, hsplit, -, hready⟩ :=
    (parent_may h).mem hmade
  obtain ⟨received, hposted, hall⟩ := arrived hprobe h
  have hbytes : bytes ≠ [] := by
    rintro rfl
    cases hlength
  have hreceipts : receipts (eventsOf .parent c.log) =
      (5, [SETUP_READY]) :: (4, bytes) :: receipts rest := by
    rw [hsplit, receipts_append, hready]
    simp [receiptOf, hbytes]
  rw [hreceipts] at hall
  have hposts := posts_posted (child_may hprobe h)
  rw [hposted] at hposts
  cases hall with
  | cons hfirst hall =>
    cases hall with
    | @cons message _ others _ hsecond _ =>
      simp only [List.cons_append] at hposts
      generalize others ++ c.shared.toParent = queue at hposts
      cases hposts with
      | @reported value hfilter hreports =>
        obtain rfl : bytes = (toNeBytes value).take 4 := hsecond
        rw [List.take_of_length_le (length_toNeBytes value).le, fromNeBytes_toNeBytes]
        exact ⟨hfilter, hreports⟩

/-- A refusal the parent has read is one the child has met. -/
theorem refused_reports (hprobe : view.probePath? = some probePath)
    (h : (startup view command).Reaches (initial turns command quiet) c) {bytes : Bytes}
    {rights : Bool} (hmade : Made (eventsOf .parent c.log) (.recvmsg 5)
      (.ok ⟨SETUP_UNAVAILABLE :: bytes, rights⟩)) :
    ∃ e, FilterRefused (eventsOf .child c.log) e ∧ fromNeBytes bytes = Int32.ofInt e := by
  obtain ⟨first, rest, hsplit, -, hnothing⟩ :=
    (parent_may h).mem hmade
  obtain ⟨received, hposted, hall⟩ := arrived hprobe h
  have hreceipts : receipts (eventsOf .parent c.log) =
      (5, SETUP_UNAVAILABLE :: bytes) :: receipts rest := by
    rw [hsplit, receipts_append, hnothing]
    simp [receiptOf]
  rw [hreceipts] at hall
  have hposts := posts_posted (child_may hprobe h)
  rw [hposted] at hposts
  cases hall with
  | @cons message _ others _ hfirst _ =>
    simp only [List.cons_append] at hposts
    generalize others ++ c.shared.toParent = queue at hposts
    cases hposts with
    | @refused e hrefused =>
      rw [List.take_of_length_le (by simp)] at hfirst
      obtain rfl : bytes = toNeBytes (Int32.ofInt e) := (List.cons.inj hfirst).2
      exact ⟨e, hrefused, fromNeBytes_toNeBytes _⟩
    | ready => cases (List.cons.inj hfirst).1
    | reported => cases (List.cons.inj hfirst).1

-- ---------------------------------------------------------------------------
-- Bytes written
-- ---------------------------------------------------------------------------

/-- The last successful write, and what was written before it. -/
theorem exists_write {h : History} (hrecorded : Recorded parentMay h) {n : Nat}
    (hn : written h = n + 1) : ∃ first rest, h = first ++ rest ∧ Attended first ∧
      written first = n ∧ (n = 0 ∨ Reported first 0) := by
  induction h using List.reverseRecOn with
  | nil => cases hn
  | append_singleton h e ih =>
    obtain ⟨hbefore, hmay⟩ := each_concat.mp hrecorded
    by_cases hwrite : isWritten e = true
    · have hwritten : written h = n := by simpa [hwrite] using hn
      obtain ⟨op, r⟩ := e
      cases op with
      | write payload =>
        obtain ⟨hattended, -, hturn⟩ := hmay
        refine ⟨h, _, rfl, hattended, hwritten, ?_⟩
        rcases hturn with hzero | ⟨-, htold⟩
        · exact .inl (hwritten.symm.trans hzero)
        · exact .inr htold
      | _ => cases hwrite
    · have hwritten : written h = n + 1 := by simpa [hwrite] using hn
      obtain ⟨first, rest, rfl, hfirst⟩ := ih hbefore hwritten
      exact ⟨first, rest ++ [e], by simp, hfirst⟩

/-- After a call that ends the attempt nothing is written. -/
theorem written_after_end {first rest : History} {e : Event SetupOp.Answer}
    (hrecorded : Recorded parentMay (first ++ e :: rest)) (hends : e.op.ends = true) :
    written (first ++ e :: rest) = written first := by
  have hnot : isWritten e = false := by
    obtain ⟨op, r⟩ := e
    cases op <;> first | rfl | cases hends
  have hrest : written rest = 0 := by
    refine List.countP_eq_zero.mpr fun w hw => ?_
    obtain ⟨mid, last, rfl⟩ := List.append_of_mem hw
    have hmay := hrecorded (first ++ e :: mid) w last (by simp)
    obtain ⟨op, r⟩ := w
    cases op with
    | write payload =>
      have hgoing := hmay.2.1 e (by simp)
      rw [hends] at hgoing
      cases hgoing
    | _ => exact Bool.false_ne_true
  simp [hnot, hrest]

-- ---------------------------------------------------------------------------
-- The handshake
-- ---------------------------------------------------------------------------

/-- What each side may conclude from what the other has done. -/
structure Established (probePath : OsStr) (parent child : History) : Prop where
  /-- The probe goes to the first destination, under the filter and a running supervisor. -/
  probed : ∀ path r, Made child (.fstatat path) r →
    path = probePath ∧ Made child .setFilter (.ok ()) ∧ Attended parent
  /-- Two bytes are written only after the child has reported a probe that succeeded. -/
  released : 2 ≤ written parent → Attended parent ∧ Made child .setFilter (.ok ()) ∧
    ((∀ e, ProbeFails probePath child e → Int32.ofInt e ≠ 0) → ProbeSucceeds probePath child)
  /-- The command is started after both bytes. -/
  started : ∀ command r, Made child (.exec command) r → 2 ≤ written parent
  /-- From then on the parent ends neither the child nor its supervision before the child is
  gone. -/
  held : 2 ≤ written parent → ∀ e ∈ parent, e.op.ends = true → Reaped parent

theorem handshake_established (hprobe : view.probePath? = some probePath)
    (h : (startup view command).Reaches (initial turns command quiet) c) :
    Established probePath (eventsOf .parent c.log) (eventsOf .child c.log) := by
  have hparent := parent_may h
  have hchild := child_may hprobe h
  have hle := taken_le_written h
  have hattended (hwritten : 1 ≤ written (eventsOf .parent c.log)) :
      Attended (eventsOf .parent c.log) := by
    obtain ⟨n, hn⟩ : ∃ n, written (eventsOf .parent c.log) = n + 1 :=
      ⟨_, (Nat.sub_add_cancel hwritten).symm⟩
    obtain ⟨first, rest, hsplit, hfirst, -⟩ := exists_write hparent hn
    rw [hsplit]
    exact hfirst.append rest
  refine ⟨?_, ?_, ?_, ?_⟩
  · rintro path r hmade
    obtain ⟨first, rest, hsplit, rfl, htaken, hready⟩ := hchild.mem hmade
    have hone : 1 ≤ taken (eventsOf .child c.log) := by
      rw [hsplit, taken_append, htaken]
      exact Nat.le_add_right 1 _
    refine ⟨rfl, ?_, hattended (hone.trans hle)⟩
    rw [hsplit] at hchild ⊢
    have hposts := posts_posted hchild.left
    rw [hready] at hposts
    cases hposts with
    | ready hfilter => exact hfilter.append _
  · intro hwritten
    obtain ⟨n, hn⟩ : ∃ n, written (eventsOf .parent c.log) = n + 1 + 1 :=
      ⟨_, (Nat.sub_add_cancel hwritten).symm⟩
    obtain ⟨first, rest, hsplit, -, -, htold⟩ := exists_write hparent hn
    have htold : Reported (eventsOf .parent c.log) 0 := by
      rw [hsplit]
      exact (htold.resolve_left (Nat.succ_ne_zero n)).append rest
    obtain ⟨hfilter, hreports⟩ := told_reports hprobe h htold
    refine ⟨hattended (Nat.le_of_succ_le hwritten), hfilter, fun hnonzero => ?_⟩
    rcases hreports with ⟨-, hsucceeds⟩ | ⟨e, hfails, hzero⟩
    · exact hsucceeds
    · exact absurd hzero.symm (hnonzero e hfails)
  · intro command' r hmade
    obtain ⟨first, rest, hsplit, htaken, -⟩ := hchild.mem hmade
    refine Nat.le_trans ?_ hle
    rw [hsplit, taken_append, htaken]
    exact Nat.le_add_right 2 _
  · intro hwritten e he hends
    obtain ⟨first, rest, hsplit, hmay⟩ := hparent.mem he
    rw [hsplit] at hparent hwritten ⊢
    have hsame := written_after_end hparent hends
    obtain ⟨op, r⟩ := e
    have hends' : written first < 2 ∨ Reaped first := by
      cases op <;> first | exact hmay | cases hends
    rcases hends' with hfew | hreaped
    · omega
    · exact hreaped.append _

/-- An error of the child that `linux::run` returns is the one the child has met. -/
theorem handshake_blames (hprobe : view.probePath? = some probePath)
    (h : (startup view command).Reaches (initial turns command quiet) c) {command' : Command}
    {reason : String} {error : IoError} (hreturned : Made (eventsOf .parent c.log)
      (.returned (.ok (.unavailable command' reason error))) ()) :
    (reason = "bind-view-unavailable" → ∃ e, FilterRefused (eventsOf .child c.log) e ∧
      error = .os (Int32.ofInt e).toInt) ∧
    (reason = "bind-view-probe-failed" → ∃ e, ProbeFails probePath (eventsOf .child c.log) e ∧
      error = .os (Int32.ofInt e).toInt) := by
  obtain ⟨first, rest, hsplit, hblames⟩ := (parent_may h).mem hreturned
  have hblames : Blames (eventsOf .parent c.log) reason error := by
    rw [hsplit]
    exact Blames.append hblames _
  constructor
  · intro hreason
    obtain ⟨bytes, rights, hmade, -, rfl⟩ := hblames.unavailable hreason
    obtain ⟨e, hrefused, hbytes⟩ := refused_reports hprobe h hmade
    exact ⟨e, hrefused, by rw [hbytes]⟩
  · intro hreason
    obtain ⟨value, htold, hvalue, rfl⟩ := hblames.probeFailed hreason
    rcases (told_reports hprobe h htold).2 with ⟨hzero, -⟩ | ⟨e, hfails, rfl⟩
    · exact absurd hzero hvalue
    · exact ⟨e, hfails, rfl⟩

end

-- ---------------------------------------------------------------------------
-- A command that is started, and a filter that is refused
-- ---------------------------------------------------------------------------

def probePathA : OsStr := (osStr ['/', 'a']).normalize.toPath

theorem run_started : ∃ c : Pool Who SetupOp.Answer Sockets,
    (startup linkBind sampleCommand).Reaches (initial 1 sampleCommand true) c ∧
    Made (eventsOf .child c.log) (.exec sampleCommand) (.ok ()) := by
  have h₀ : (startup linkBind sampleCommand).Reaches (initial 1 sampleCommand true) _ := .refl
  have h := h₀.plain .parent .reopen (.ok linkBind) rfl (.elsewhere rfl) rfl
  have h := h.plain .parent .socketPair (.ok ()) rfl (.elsewhere rfl) rfl
  have h := h.starting .parent .fork (.ok 5) rfl (.elsewhere rfl) rfl rfl (by simp [initial])
  have h := h.plain .child .setNoNewPrivs (.ok ()) rfl (.elsewhere rfl) rfl
  have h := h.plain .child .setFilter (.ok ()) rfl (.elsewhere rfl) rfl
  have h := h.plain .child (.sendmsg [SETUP_READY]) (.ok ()) rfl .sendmsg rfl
  have h := h.plain .parent (.recvmsg 5) (.ok readyMessage) rfl
    (@Delivers.recvmsg 5 _ readyMessage [] rfl) rfl
  have h := h.plain .parent .spawnSupervisor (.ok ()) rfl (.elsewhere rfl) rfl
  have h := h.plain .parent (.sigaction SIGTERM .forwardSignal) (.ok .default) rfl
    (.elsewhere rfl) rfl
  have h := h.plain .parent (.sigaction SIGINT .forwardSignal) (.ok .default) rfl
    (.elsewhere rfl) rfl
  have h := h.plain .parent (.sigaction SIGHUP .forwardSignal) (.ok .default) rfl
    (.elsewhere rfl) rfl
  have h := h.plain .parent (.sigaction SIGQUIT .forwardSignal) (.ok .default) rfl
    (.elsewhere rfl) rfl
  have h := h.plain .parent (.write [1]) (transferOf 1) rfl (.write rfl) rfl
  have h := h.plain .child (.read 1) (transferOf 1) rfl (@Delivers.read 1 _ _ [1] [] rfl rfl) rfl
  have h := h.plain .child (.fstatat probePathA) (.ok ()) rfl (.elsewhere rfl) rfl
  have h := h.plain .child (.openDirectory probePathA) (.ok 3) rfl (.elsewhere rfl) rfl
  have h := h.plain .child (.close 3) () rfl (.elsewhere rfl) rfl
  have h := h.plain .child (.send (toNeBytes 0)) (transferOf 4) rfl (.send rfl) rfl
  have h := h.plain .parent (.poll PROBE_TIMEOUT_MS) (.ok ⟨1, POLLIN⟩) rfl (.elsewhere rfl) rfl
  have h := h.plain .parent (.recv 4) (.ok (toNeBytes 0)) rfl
    (@Delivers.recv 4 _ ⟨toNeBytes 0, false⟩ [] rfl) rfl
  have h := h.plain .parent (.write [1]) (transferOf 1) rfl (.write rfl) rfl
  have h := h.plain .child (.read 1) (transferOf 1) rfl (@Delivers.read 1 _ _ [1] [] rfl rfl) rfl
  have h := h.plain .child (.exec sampleCommand) (.ok ()) rfl (.elsewhere rfl) rfl
  refine ⟨_, h, ?_⟩
  rw [eventsOf_self]
  exact List.mem_append_right _ List.mem_cons_self

theorem handshake_established_started : ∃ c : Pool Who SetupOp.Answer Sockets,
    Made (eventsOf .child c.log) (.exec sampleCommand) (.ok ()) ∧
    Established probePathA (eventsOf .parent c.log) (eventsOf .child c.log) := by
  obtain ⟨c, hreaches, hexec⟩ := run_started
  exact ⟨c, hexec, handshake_established rfl hreaches⟩

/-- What the parent returns when the filter cannot be installed for lack of `CAP_SYS_ADMIN`. -/
def refusedOutcome : RunOutcome :=
  .unavailable sampleCommand "bind-view-unavailable" (.os (Int32.ofInt EACCES).toInt)

theorem run_refused : ∃ c : Pool Who SetupOp.Answer Sockets,
    (startup linkBind sampleCommand).Reaches (initial 1 sampleCommand true) c ∧
    Made (eventsOf .parent c.log) (.returned (.ok refusedOutcome)) () := by
  have h₀ : (startup linkBind sampleCommand).Reaches (initial 1 sampleCommand true) _ := .refl
  have h := h₀.plain .parent .reopen (.ok linkBind) rfl (.elsewhere rfl) rfl
  have h := h.plain .parent .socketPair (.ok ()) rfl (.elsewhere rfl) rfl
  have h := h.starting .parent .fork (.ok 5) rfl (.elsewhere rfl) rfl rfl (by simp [initial])
  have h := h.plain .child .setNoNewPrivs (.error EACCES) rfl (.elsewhere rfl) rfl
  have h := h.plain .child (.send (SETUP_UNAVAILABLE :: toNeBytes (Int32.ofInt EACCES)))
    (transferOf 5) rfl (.send rfl) rfl
  have h := h.plain .parent (.recvmsg 5)
    (.ok ⟨SETUP_UNAVAILABLE :: toNeBytes (Int32.ofInt EACCES), false⟩) rfl
    (@Delivers.recvmsg 5 _ ⟨SETUP_UNAVAILABLE :: toNeBytes (Int32.ofInt EACCES), false⟩ [] rfl) rfl
  have h := h.plain .parent (.waitpid 5) (.ok (.exited 0)) rfl (.elsewhere rfl) rfl
  have h := h.plain .parent (.returned (.ok refusedOutcome)) () rfl (.elsewhere rfl) rfl
  refine ⟨_, h, ?_⟩
  rw [eventsOf_self]
  exact List.mem_append_right _ List.mem_cons_self

theorem handshake_blames_refused : ∃ c : Pool Who SetupOp.Answer Sockets,
    ∃ e, FilterRefused (eventsOf .child c.log) e ∧
      IoError.os (Int32.ofInt EACCES).toInt = .os (Int32.ofInt e).toInt := by
  obtain ⟨c, hreaches, hreturned⟩ := run_refused
  exact ⟨c, (handshake_blames rfl hreaches hreturned).1 rfl⟩

end PathShim
