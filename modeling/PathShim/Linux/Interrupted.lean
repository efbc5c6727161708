import PathShim.Linux.Forwarding
import PathShim.Linux.Sockets

/-!
# Signals at any moment

`linux::run`, the signals that arrive from outside and the handlers they start
take turns in any order. Whatever the order, a handler sends its own signal to
the process that was forked and to no other, and none that reads `CHILD_PROCESS`
while the command may be running drops its signal.
-/

namespace PathShim

open UnixPath Effects

-- ---------------------------------------------------------------------------
-- The system
-- ---------------------------------------------------------------------------

inductive SignalThread where
  | run
  | outside
  | handler (n : Nat) (signal : Int32)
  deriving DecidableEq

structure Shared where
  process : Process
  /-- `CHILD_PROCESS`. -/
  childProcess : Int32

abbrev ForwardEvent := Event ForwardOp.Answer
abbrev SignalLog := List (SignalThread × ForwardEvent)

/-- The value of `CHILD_PROCESS` after a store. -/
def storedBy (child : Int32) : ForwardEvent → Int32
  | ⟨.store child', _⟩ => child'
  | _ => child

namespace Shared

def after (s : Shared) : ForwardEvent → Shared
  | ⟨.setup op, r⟩ => { s with process := s.process.after ⟨op, r⟩ }
  | ⟨.store child, _⟩ => { s with childProcess := child }
  | ⟨.load, _⟩ | ⟨.deliver _ _, _⟩ => s

/-- A handler is run when it is installed at the time. -/
def Allows (settable : Int32 → Prop) (s : Shared) : ForwardEvent → Prop
  | ⟨.setup .fork, .ok pid⟩ => 0 < pid
  | ⟨.setup op, r⟩ => s.process.Allows settable ⟨op, r⟩
  | ⟨.store _, _⟩ => True
  | ⟨.load, r⟩ => r = s.childProcess
  | ⟨.deliver _ signal, r⟩ => r = decide (s.process.dispositions signal = .forwardSignal)

end Shared

theorem childProcess_after (s : Shared) (e : ForwardEvent) :
    (s.after e).childProcess = storedBy s.childProcess e := by
  obtain ⟨op, answer⟩ := e
  cases op <;> rfl

def handlerOf : ForwardEvent → Option (SignalThread × Forward Unit)
  | ⟨.deliver n signal, true⟩ => some (.handler n signal, forwardSignal signal)
  | _ => none

def signalSystem (settable : Int32 → Prop) : System SignalThread ForwardOp.Answer Shared where
  effect _ e s s' := s.Allows settable e ∧ s' = s.after e
  starts := handlerOf

def deliveries : Nat → List Int32 → Forward Unit
  | _, [] => return ()
  | n, signal :: signals => do
    let _ ← perform (ForwardOp.deliver n signal)
    deliveries (n + 1) signals

/-- `linux::run` up to its return. -/
def forwardingRun (turns : Nat) (command : Command) (quiet : Bool) : Forward Unit := do
  let outcome ← SignalForwarding.linuxRun turns command quiet
  apart (request (.returned outcome))

def signalPool (process : Process) (run : Forward Unit) (arriving : List Int32) :
    Pool SignalThread ForwardOp.Answer Shared where
  thread
    | .run => some run
    | .outside => some (deliveries 0 arriving)
    | .handler _ _ => none
  shared := ⟨process, 0⟩
  log := []

-- ---------------------------------------------------------------------------
-- What `linux::run` has done
-- ---------------------------------------------------------------------------

def stored (h : List ForwardEvent) : Int32 := h.foldl storedBy 0

/-- A synchronisation byte that was written in full. -/
def synchronizes : ForwardEvent → Bool
  | ⟨.setup (.write _), transfer⟩ => transfer.result = 1
  | _ => false

/-- The second byte was written, by which the child is told to execute the command. -/
def Released (h : List ForwardEvent) : Prop := 2 ≤ h.countP synchronizes

/-- A call that ends `wait_for_child`. -/
def endsWait : ForwardEvent → Bool
  | ⟨.setup (.waitpid _), .ok .other⟩ => false
  | ⟨.setup (.waitpid _), .error e⟩ => e ≠ EINTR
  | ⟨.setup (.waitpid _), .ok _⟩ => true
  | _ => false

/-- The child has been waited for. -/
def Waited (h : List ForwardEvent) : Prop := ∃ e ∈ h, endsWait e = true

def Forked (h : List ForwardEvent) (pid : Int32) : Prop :=
  (⟨.setup .fork, .ok pid⟩ : ForwardEvent) ∈ h

/-- The calls of `linux::run` that matter here, each with when it is made. -/
def runMay (h : List ForwardEvent) : ForwardOp → Prop
  | .store child => Forked h child ∨ child = 0 ∧ (Released h → Waited h)
  | .load | .deliver _ _ => False
  | .setup (.write _) => Forked h (stored h)
  | .setup (.returned _) => stored h = 0
  | .setup _ => True

def handlerMay (signal : Int32) : List ForwardEvent → ForwardOp → Prop
  | [], op => op = .load
  | [⟨.load, child⟩], op => 0 < child ∧ op = .setup (.kill child signal)
  | _, _ => False

def threadMay : SignalThread → List ForwardEvent → ForwardOp → Prop
  | .run => runMay
  | .outside => fun _ op => ∃ n signal, op = .deliver n signal
  | .handler _ signal => handlerMay signal

/-- What a handler has done when it returns. -/
def sent (signal child : Int32) : List ForwardEvent :=
  ⟨.load, child⟩ :: if child > 0 then [⟨.setup (.kill child signal), ()⟩] else []

theorem sent_of_pos {signal child : Int32} (h : child > 0) :
    sent signal child = [⟨.load, child⟩, ⟨.setup (.kill child signal), ()⟩] := by
  rw [sent, if_pos h]

theorem sent_of_not_pos {signal child : Int32} (h : ¬ child > 0) :
    sent signal child = [⟨.load, child⟩] := by
  rw [sent, if_neg h]

def threadEnd : SignalThread → List ForwardEvent → Unit → Prop
  | .run, h, _ => stored h = 0
  | .outside, _, _ => True
  | .handler _ signal, h, _ => ∃ child, h = sent signal child

theorem handlerMay_cases {signal : Int32} {h : List ForwardEvent} {op : ForwardOp}
    (hmay : handlerMay signal h op) : h = [] ∧ op = .load ∨
      ∃ child, h = [⟨.load, child⟩] ∧ 0 < child ∧ op = .setup (.kill child signal) := by
  match h, hmay with
  | [], hmay => exact .inl ⟨rfl, hmay⟩
  | [⟨.load, child⟩], hmay => exact .inr ⟨child, rfl, hmay⟩

theorem obeys_forwardSignal (signal : Int32) (n : Nat) :
    (forwardSignal signal).Obeys (allowing (threadMay (.handler n signal)))
      (threadEnd (.handler n signal)) [] := by
  refine ⟨rfl, fun child => ?_⟩
  simp only [Prog.bind_ret]
  split
  · rename_i hpos
    exact ⟨⟨hpos, rfl⟩, fun _ => ⟨child, (sent_of_pos hpos).symm⟩⟩
  · rename_i hpos
    exact ⟨child, (sent_of_not_pos hpos).symm⟩

theorem obeys_deliveries (n : Nat) (signals : List Int32) (h : List ForwardEvent) :
    (deliveries n signals).Obeys (allowing (threadMay .outside)) (threadEnd .outside) h := by
  induction signals generalizing n h with
  | nil => trivial
  | cons signal signals ih => exact ⟨⟨n, signal, rfl⟩, fun _ => ih _ _⟩

-- ---------------------------------------------------------------------------
-- `linux::run` by itself
-- ---------------------------------------------------------------------------

/-- Calls that change nothing of what matters here. -/
def SetupOp.quiet : SetupOp → Bool
  | .write _ | .returned _ => false
  | _ => true

def ForwardOp.quiet : ForwardOp → Bool
  | .setup op => op.quiet
  | _ => false

/-- Where `linux::run` is: whom it has forked, what is stored, how many bytes were written. -/
structure At (pid child : Int32) (written : Nat) (h : List ForwardEvent) : Prop where
  forked : Forked h pid
  stored : stored h = child
  written : h.countP synchronizes = written

def lifted (e : Event SetupOp.Answer) : ForwardEvent := ⟨.setup e.op, e.answer⟩

section
variable {pid child : Int32} {written : Nat} {h tr : List ForwardEvent}

theorem stored_append (h tr : List ForwardEvent) :
    stored (h ++ tr) = tr.foldl storedBy (stored h) := List.foldl_append

theorem Forked.append (hforked : Forked h pid) (tr : List ForwardEvent) : Forked (h ++ tr) pid :=
  List.mem_append_left _ hforked

theorem Waited.append (hwaited : Waited h) (tr : List ForwardEvent) : Waited (h ++ tr) := by
  obtain ⟨e, he, hends⟩ := hwaited
  exact ⟨e, List.mem_append_left _ he, hends⟩

theorem quiet_stored (htr : ∀ e ∈ tr, e.op.quiet = true) : stored (h ++ tr) = stored h := by
  rw [stored_append]
  refine foldl_unchanged fun e he => ?_
  obtain ⟨op, answer⟩ := e
  cases op with
  | setup op => rfl
  | _ => cases htr _ he

theorem quiet_written (htr : ∀ e ∈ tr, e.op.quiet = true) : tr.countP synchronizes = 0 := by
  refine List.countP_eq_zero.mpr fun e he => ?_
  have hquiet := htr e he
  obtain ⟨op, answer⟩ := e
  cases op with
  | setup op => cases op <;> first | exact Bool.false_ne_true | cases hquiet
  | _ => cases hquiet

theorem At.quiet (hat : At pid child written h) (htr : ∀ e ∈ tr, e.op.quiet = true) :
    At pid child written (h ++ tr) where
  forked := hat.forked.append tr
  stored := (quiet_stored htr).trans hat.stored
  written := by rw [List.countP_append, hat.written, quiet_written htr, Nat.add_zero]

theorem At.store (hat : At pid child written h) (child' : Int32) :
    At pid child' written (h ++ [⟨.store child', ()⟩]) where
  forked := hat.forked.append _
  stored := by rw [stored_append]; rfl
  written := by rw [List.countP_append, hat.written]; rfl

theorem At.write (hat : At pid child written h) (payload : Bytes) (transfer : Transfer) :
    At pid child (if transfer.result = 1 then written + 1 else written)
      (h ++ [⟨.setup (.write payload), transfer⟩]) where
  forked := hat.forked.append _
  stored := by rw [stored_append]; exact hat.stored
  written := by
    rw [List.countP_append, hat.written]
    by_cases hone : transfer.result = 1 <;> simp [synchronizes, hone]

theorem runMay_quiet {op : ForwardOp} (hop : op.quiet = true) : runMay h op := by
  cases op with
  | setup op => cases op <;> trivial
  | _ => cases hop

theorem calls_apart {p : Startup α} (hp : p.Calls fun op => op.quiet = true) :
    (apart p).Calls fun op => op.quiet = true := by
  induction p with
  | ret a => trivial
  | panic => trivial
  | call op next ih => exact ⟨hp.1, fun r => ih r (hp.2 r)⟩

theorem exec_apart {p : Startup α} {out : Option α} (hx : Exec Env.any (PathShim.apart p) tr out) :
    ∃ inner, Exec Env.any p inner out ∧ tr = inner.map lifted := by
  induction p generalizing tr with
  | ret a =>
    obtain ⟨rfl, rfl⟩ := exec_ret.mp hx
    exact ⟨[], .ret, rfl⟩
  | panic =>
    obtain ⟨rfl, rfl⟩ := exec_panic.mp hx
    exact ⟨[], .panic, rfl⟩
  | call op next ih =>
    obtain ⟨r, rest, -, hrest, rfl⟩ := exec_call.mp hx
    obtain ⟨inner, hinner, rfl⟩ := ih r hrest
    exact ⟨⟨op, r⟩ :: inner, .call trivial hinner, rfl⟩

section
variable {f : α → Forward β} {post : List ForwardEvent → β → Prop}

/-- A part that changes nothing of what matters, with the calls it makes. -/
theorem obeys_during {p : Startup α} (hp : p.Calls fun op => op.quiet = true)
    (hat : At pid child written h)
    (hf : ∀ a inner, Exec Env.any p inner (some a) →
      At pid child written (h ++ inner.map lifted) →
      (f a).Obeys (allowing runMay) post (h ++ inner.map lifted)) :
    (PathShim.apart p >>= f).Obeys (allowing runMay) post h := by
  refine Prog.Obeys.through (calls_apart hp) (fun ext _ op hop => runMay_quiet hop)
    (fun _ _ => trivial) ?_
  intro a tr hx htr
  obtain ⟨inner, hinner, rfl⟩ := exec_apart hx
  exact hf a inner hinner (hat.quiet htr)

theorem obeys_quiet {p : Startup α} (hp : p.Calls fun op => op.quiet = true)
    (hat : At pid child written h)
    (hf : ∀ a h', At pid child written h' → (f a).Obeys (allowing runMay) post h') :
    (PathShim.apart p >>= f).Obeys (allowing runMay) post h :=
  obeys_during hp hat fun a _ _ hat => hf a _ hat

end

theorem obeys_store {child' : Int32} {f : Unit → Forward β} {post : List ForwardEvent → β → Prop}
    (hat : At pid child written h) (hmay : runMay h (.store child'))
    (hf : ∀ h', At pid child' written h' → (f ()).Obeys (allowing runMay) post h') :
    (storeChild child' >>= f).Obeys (allowing runMay) post h :=
  ⟨hmay, fun _ => hf _ (hat.store child')⟩

theorem obeys_writeByte_at {byte : UInt8} {f : IoResult Unit → Forward β}
    {post : List ForwardEvent → β → Prop} (hat : At pid pid written h)
    (hok : ∀ h', At pid pid (written + 1) h' → (f (.ok ())).Obeys (allowing runMay) post h')
    (herror : ∀ e h', At pid pid written h' →
      (f (.error e)).Obeys (allowing runMay) post h') :
    (PathShim.apart (writeByte byte) >>= f).Obeys (allowing runMay) post h := by
  have hmay : Forked h (stored h) := by
    rw [hat.stored]
    exact hat.forked
  refine ⟨hmay, fun (transfer : Transfer) => ?_⟩
  show (f (transferred 1 transfer)).Obeys _ post (h ++ [⟨.setup (.write [byte]), transfer⟩])
  have hwrite := hat.write [byte] transfer
  by_cases hone : transfer.result = 1
  · simp only [hone, if_true] at hwrite
    simpa [transferred, hone] using hok _ hwrite
  · simp only [hone, if_false] at hwrite
    simpa [transferred, hone] using herror (.os transfer.errno) _ hwrite

end

/-- How the programs of `linux::run` end. -/
def Cleared (h : List ForwardEvent) (_ : α) : Prop := stored h = 0

namespace SignalForwarding

section
variable {pid child : Int32} {written : Nat} {h : List ForwardEvent}
  {installed : List (Int32 × SignalAction)}

/-- `CHILD_PROCESS` is cleared only when the command has not been started or is no more. -/
theorem obeys_drop {f : Unit → Forward β} {post : List ForwardEvent → β → Prop}
    (hat : At pid child written h) (hdone : written < 2 ∨ Waited h)
    (hf : ∀ h', At pid 0 written h' → (f ()).Obeys (allowing runMay) post h') :
    (drop installed >>= f).Obeys (allowing runMay) post h := by
  have hmay : runMay h (.store 0) := by
    refine .inr ⟨rfl, fun hreleased => ?_⟩
    rw [Released, hat.written] at hreleased
    exact hdone.resolve_left (Nat.not_lt.mpr hreleased)
  refine obeys_store hat hmay fun h' hat' => ?_
  exact obeys_quiet (calls_restore fun _ _ => rfl) hat' fun _ h'' hat'' => hf h'' hat''

theorem obeys_giveUp (hat : At pid child written h) (hwritten : written < 2) (turns : Nat)
    (outcome : RunOutcome) : (giveUp turns pid installed outcome).Obeys (allowing runMay)
      Cleared h := by
  refine obeys_drop hat (.inl hwritten) fun h' hat' => ?_
  exact obeys_quiet (calls_stopAttempt rfl rfl rfl rfl) hat' fun _ h'' hat'' => hat''.stored

theorem waited_of_exec {turns : Nat} {pid : Int32} {tr : List (Event SetupOp.Answer)}
    {r : IoResult ChildStatus} (hx : Exec Env.any (waitForChild turns pid) tr (some r)) :
    Waited (tr.map lifted) := by
  induction turns generalizing tr with
  | zero =>
    obtain ⟨-, hnone⟩ := exec_panic.mp hx
    cases hnone
  | succ turns ih =>
    obtain ⟨answer, rest, -, hrest, rfl⟩ := exec_perform_bind.mp hx
    have hlater (hrest : Exec Env.any (waitForChild turns pid) rest (some r)) :
        Waited (((⟨.waitpid pid, answer⟩ :: rest : List (Event SetupOp.Answer))).map lifted) := by
      obtain ⟨e, he, hends⟩ := ih hrest
      exact ⟨e, List.mem_cons_of_mem _ he, hends⟩
    cases answer with
    | error e =>
      dsimp only at hrest
      split at hrest
      · exact hlater hrest
      · rename_i hother
        exact ⟨_, List.mem_cons_self, decide_eq_true hother⟩
    | ok status =>
      cases status with
      | exited code => exact ⟨_, List.mem_cons_self, rfl⟩
      | signaled signal => exact ⟨_, List.mem_cons_self, rfl⟩
      | other => exact hlater hrest

theorem obeys_startCommand (hat : At pid pid 1 h) (turns : Nat) (command : Command)
    (quiet : Bool) : (startCommand turns pid installed command quiet).Obeys (allowing runMay)
      Cleared h := by
  refine obeys_quiet (calls_diagnostic rfl) hat fun _ h₁ hat₁ => ?_
  refine obeys_writeByte_at hat₁ (fun h₂ hat₂ => ?_)
    fun e h₂ hat₂ => obeys_giveUp hat₂ (by decide) _ _
  refine obeys_during (calls_waitForChild rfl) hat₂ fun r inner hinner hat₃ => ?_
  have hwaited : Waited (h₂ ++ inner.map lifted) := by
    obtain ⟨e, he, hends⟩ := waited_of_exec hinner
    exact ⟨e, List.mem_append_right _ he, hends⟩
  cases r with
  | error e => exact obeys_drop hat₃ (.inr hwaited) fun h₄ hat₄ => hat₄.stored
  | ok status =>
    refine obeys_drop hat₃ (.inr hwaited) fun h₄ hat₄ => ?_
    refine obeys_quiet (.perform rfl) hat₄ fun _ h₅ hat₅ => ?_
    exact obeys_quiet (.perform rfl) hat₅ fun _ h₆ hat₆ => hat₆.stored

/-- `CHILD_PROCESS` is set when all handlers are installed, and cleared when not. -/
def Installed (pid : Int32) (h : List ForwardEvent) (r : IoResult α) : Prop :=
  (∃ a, r = .ok a ∧ At pid pid 0 h) ∨ ∃ e, r = .error e ∧ At pid 0 0 h

theorem obeys_installLoop (hat : At pid pid 0 h) (previous : List (Int32 × SignalAction))
    (signals : List Int32) : (installLoop previous signals).Obeys (allowing runMay)
      (Installed pid) h := by
  induction signals generalizing previous h with
  | nil => exact .inl ⟨previous, rfl, hat⟩
  | cons signal signals ih =>
    refine obeys_quiet (.perform rfl) hat fun r h₁ hat₁ => ?_
    cases r with
    | error e =>
      refine obeys_quiet (calls_restore fun _ _ => rfl) hat₁ fun _ h₂ hat₂ => ?_
      have hmay : runMay h₂ (.store 0) := by
        refine .inr ⟨rfl, fun hreleased => ?_⟩
        rw [Released, hat₂.written] at hreleased
        cases hreleased
      exact obeys_store hat₂ hmay fun h₃ hat₃ => .inr ⟨_, rfl, hat₃⟩
    | ok old => exact ih hat₁ _

theorem obeys_install (hat : At pid 0 0 h) :
    (install pid).Obeys (allowing runMay) (Installed pid) h :=
  obeys_store hat (.inl hat.forked) fun _ hat' => obeys_installLoop hat' [] FORWARDED_SIGNALS

theorem obeys_superviseChild (hforked : At pid 0 0 h) (turns : Nat) (command : Command)
    (quiet : Bool) : (superviseChild turns pid command quiet).Obeys (allowing runMay)
      Cleared h := by
  refine obeys_quiet (calls_receiveSetup rfl) hforked fun r h₁ hat₁ => ?_
  cases r with
  | error e =>
    exact obeys_quiet (calls_killAndWait rfl rfl) hat₁ fun _ h₂ hat₂ => hat₂.stored
  | ok setup =>
    cases setup with
    | unavailable e =>
      exact obeys_quiet (calls_waitForChild rfl) hat₁ fun _ h₂ hat₂ => hat₂.stored
    | ready =>
      refine obeys_quiet (.perform rfl) hat₁ fun r h₂ hat₂ => ?_
      cases r with
      | error e =>
        exact obeys_quiet (calls_killAndWait rfl rfl) hat₂ fun _ h₃ hat₃ => hat₃.stored
      | ok _ =>
        refine (obeys_install hat₂).bind ?_
        rintro h₃ _ (⟨installed, rfl, hat₃⟩ | ⟨e, rfl, hat₃⟩)
        · refine obeys_writeByte_at hat₃ (fun h₄ hat₄ => ?_)
            fun e h₄ hat₄ => obeys_giveUp hat₄ (by decide) _ _
          refine obeys_quiet (calls_readI32Timeout rfl rfl) hat₄ fun r h₅ hat₅ => ?_
          cases r with
          | error e => exact obeys_giveUp hat₅ (by decide) _ _
          | ok probeError =>
            dsimp only
            split
            · exact obeys_giveUp hat₅ (by decide) _ _
            · exact obeys_startCommand hat₅ _ _ _
        · exact obeys_quiet (calls_stopAttempt rfl rfl rfl rfl) hat₃ fun _ h₄ hat₄ => hat₄.stored

end

theorem obeys_linuxRun (turns : Nat) (command : Command) (quiet : Bool) :
    (linuxRun turns command quiet).Obeys (allowing runMay) Cleared [] := by
  refine ⟨trivial, fun r => ?_⟩
  cases r with
  | error e => rfl
  | ok view =>
    refine ⟨trivial, fun r => ?_⟩
    cases r with
    | error e => rfl
    | ok _ =>
      refine ⟨trivial, fun r => ?_⟩
      cases r with
      | error e => rfl
      | ok pid =>
        refine obeys_superviseChild ⟨?_, rfl, rfl⟩ turns command quiet
        exact List.mem_append_right _ List.mem_cons_self

end SignalForwarding

theorem obeys_forwardingRun (turns : Nat) (command : Command) (quiet : Bool) :
    (forwardingRun turns command quiet).Obeys (allowing (threadMay .run)) (threadEnd .run) [] := by
  refine (SignalForwarding.obeys_linuxRun turns command quiet).bind ?_
  intro h outcome hcleared
  refine ⟨hcleared, fun _ => ?_⟩
  show stored (h ++ [⟨.setup (.returned outcome), ()⟩]) = 0
  rw [stored_append]
  exact hcleared

-- ---------------------------------------------------------------------------
-- Together
-- ---------------------------------------------------------------------------

def Raised (log : SignalLog) (n : Nat) (signal : Int32) : Prop :=
  ∃ x ∈ log, x.2 = ⟨.deliver n signal, true⟩

/-- While the command may be running, `child` is the process that was forked. -/
def Current (h : List ForwardEvent) (child : Int32) : Prop :=
  Released h → Waited h ∨ 0 < child ∧ Forked h child

/-- What a handler does, and after what. -/
inductive Proper (before : SignalLog) : SignalThread × ForwardEvent → Prop
  | other {x} : (∀ n signal, x.1 ≠ .handler n signal) → Proper before x
  | looks {n signal child} : Raised before n signal → Current (eventsOf .run before) child →
      Proper before (.handler n signal, ⟨.load, child⟩)
  | sends {n signal child} : (.handler n signal, ⟨.load, child⟩) ∈ before → 0 < child →
      Forked (eventsOf .run before) child →
      Proper before (.handler n signal, ⟨.setup (.kill child signal), ()⟩)

/-- What `linux::run` stores is what it has forked. -/
structure Stores (h : List ForwardEvent) : Prop where
  forked : stored h = 0 ∨ Forked h (stored h)
  current : Released h → Waited h ∨ Forked h (stored h)

theorem stores_of_recorded {h : List ForwardEvent} (hrecorded : Recorded runMay h) : Stores h := by
  induction h using List.reverseRecOn with
  | nil => exact ⟨.inl rfl, fun hreleased => by cases hreleased⟩
  | append_singleton h e ih =>
    obtain ⟨hbefore, hmay⟩ := each_concat.mp hrecorded
    obtain ⟨hforked, hcurrent⟩ := ih hbefore
    have hkept (hstored : stored (h ++ [e]) = stored h)
        (hreleased : Released (h ++ [e]) → Released h ∨ Forked h (stored h)) :
        Stores (h ++ [e]) := by
      refine ⟨?_, fun hafter => ?_⟩
      · rw [hstored]
        exact hforked.imp_right fun hforked => hforked.append _
      · rw [hstored]
        rcases hreleased hafter with hreleased | hforked
        · exact (hcurrent hreleased).imp (fun h => h.append _) fun h => h.append _
        · exact .inr (hforked.append _)
    have hsame (hsilent : synchronizes e = false) (hafter : Released (h ++ [e])) :
        Released h ∨ Forked h (stored h) := by
      rw [Released, List.countP_append, List.countP_singleton, hsilent] at hafter
      exact .inl hafter
    obtain ⟨op, answer⟩ := e
    cases op with
    | store child =>
      have hstored : stored (h ++ [⟨.store child, answer⟩]) = child := by
        rw [stored_append]
        rfl
      rcases hmay with hchild | ⟨rfl, hwaited⟩
      · refine ⟨.inr ?_, fun _ => .inr ?_⟩ <;> rw [hstored] <;> exact hchild.append _
      · refine ⟨.inl hstored, fun hafter => .inl ?_⟩
        rw [Released, List.countP_append] at hafter
        exact (hwaited hafter).append _
    | setup op =>
      have hstored : stored (h ++ [⟨.setup op, answer⟩]) = stored h := by
        rw [stored_append]
        rfl
      refine hkept hstored ?_
      cases op with
      | write payload => exact fun _ => .inr hmay
      | _ => exact hsame rfl
    | load => cases hmay
    | deliver => cases hmay

section
variable {settable : Int32 → Prop} {process : Process} {turns : Nat} {command : Command}
  {quiet : Bool} {arriving : List Int32} {c : Pool SignalThread ForwardOp.Answer Shared}

theorem signals_ruled : (signalSystem settable).Ruled
    (fun i => allowing (threadMay i)) threadEnd
    (signalPool process (forwardingRun turns command quiet) arriving) where
  log := rfl
  threads := by
    intro i p hp
    cases i with
    | run =>
      cases hp
      exact obeys_forwardingRun turns command quiet
    | outside =>
      cases hp
      exact obeys_deliveries 0 arriving []
    | handler n signal => cases hp
  starts := by
    intro e j p hstarts
    obtain ⟨op, answer⟩ := e
    cases op with
    | deliver n signal =>
      cases answer with
      | false => cases hstarts
      | true =>
        cases hstarts
        exact obeys_forwardSignal signal n
    | _ => cases hstarts

variable (h : (signalSystem settable).Reaches
  (signalPool process (forwardingRun turns command quiet) arriving) c)
include h

theorem obeys_thread {i : SignalThread} {p : Forward Unit} (hp : c.thread i = some p) :
    p.Obeys (allowing (threadMay i)) (threadEnd i) (eventsOf i c.log) :=
  System.obeys signals_ruled h i hp

theorem stores_reached : Stores (eventsOf .run c.log) :=
  stores_of_recorded (System.recorded signals_ruled h .run)

theorem childProcess_reached : c.shared.childProcess = stored (eventsOf .run c.log) := by
  induction h with
  | refl => rfl
  | @tail b _ hreach hstep ih =>
    cases hstep with
    | stop => exact ih
    | @call i op next r shared hcall heffect _ =>
      obtain ⟨-, rfl⟩ := heffect
      have hmay := (obeys_thread hreach hcall).1
      dsimp only
      rw [childProcess_after, ih]
      cases i with
      | run =>
        rw [eventsOf_self, stored_append]
        rfl
      | outside =>
        obtain ⟨n, signal, rfl⟩ := hmay
        rw [eventsOf_other (by simp)]
        rfl
      | handler n signal =>
        rw [eventsOf_other (by simp)]
        rcases handlerMay_cases hmay with ⟨-, rfl⟩ | ⟨child, -, -, rfl⟩
        · rfl
        · rfl

theorem raised_reached {n : Nat} {signal : Int32} {p : Forward Unit}
    (hp : c.thread (.handler n signal) = some p) : Raised c.log n signal := by
  obtain ⟨x, hx, p₀, hstarts⟩ := System.started h rfl hp
  refine ⟨x, hx, ?_⟩
  obtain ⟨i, op, answer⟩ := x
  cases op with
  | deliver n' signal' =>
    cases answer with
    | false => cases hstarts
    | true =>
      cases hstarts
      rfl
  | _ => cases hstarts

/-- A process that was forked has a positive number. -/
theorem forked_pos : ∀ pid, Forked (eventsOf .run c.log) pid → 0 < pid := by
  have hlogged := System.logged (P := fun _ x => ∀ pid, x.2 = ⟨.setup .fork, .ok pid⟩ → 0 < pid)
    rfl (fun c i op next r shared _ _ heffect pid hx => ?_) h
  · intro pid hforked
    obtain ⟨x, hx, hxe⟩ := List.mem_map.mp hforked
    obtain ⟨first, rest, -, hpos⟩ := hlogged.mem (List.mem_filter.mp hx).1
    exact hpos pid hxe
  · obtain ⟨hallows, -⟩ := heffect
    rw [show (⟨op, r⟩ : ForwardEvent) = ⟨.setup .fork, .ok pid⟩ from hx] at hallows
    exact hallows

/-- A handler that looks `CHILD_PROCESS` up was started for its signal. It finds the process that
was forked, or none, and while the command may be running there is one. -/
structure Looked (before : SignalLog) (n : Nat) (signal child : Int32) : Prop where
  raised : Raised before n signal
  current : Current (eventsOf .run before) child
  forked : child = 0 ∨ Forked (eventsOf .run before) child

theorem looked_call {n : Nat} {signal child : Int32} {next : Int32 → Forward Unit}
    (hcall : c.thread (.handler n signal) = some (.call .load next))
    (hloaded : child = c.shared.childProcess) : Looked c.log n signal child := by
  obtain ⟨hforked, hcurrent⟩ := stores_reached h
  rw [← childProcess_reached h, ← hloaded] at hforked hcurrent
  refine ⟨raised_reached h hcall, fun hreleased => ?_, hforked⟩
  exact (hcurrent hreleased).imp_right fun hfork => ⟨forked_pos h child hfork, hfork⟩

theorem looked_reached {n : Nat} {signal child : Int32}
    (hloaded : (.handler n signal, ⟨.load, child⟩) ∈ c.log) :
    child = 0 ∨ Forked (eventsOf .run c.log) child := by
  have hlogged := System.logged (P := fun before x => ∀ n signal child,
    x = (.handler n signal, ⟨.load, child⟩) → Looked before n signal child) rfl
    (fun c i op next r shared hreach hcall heffect n signal child hx => ?_) h
  · obtain ⟨first, rest, hlog, hlooked⟩ := hlogged.mem hloaded
    rw [hlog, eventsOf_append]
    exact (hlooked n signal child rfl).forked.imp_right fun hforked => hforked.append _
  · cases hx
    exact looked_call hreach hcall heffect.1

theorem proper_reached : Each Proper c.log := by
  refine System.logged rfl (fun c i op next r shared hreach hcall heffect => ?_) h
  cases i with
  | run => exact .other fun _ _ => by simp
  | outside => exact .other fun _ _ => by simp
  | handler n signal =>
    rcases handlerMay_cases (obeys_thread hreach hcall).1 with
      ⟨-, rfl⟩ | ⟨child, hevents, hpos, rfl⟩
    · have hlooked := looked_call hreach hcall heffect.1
      exact .looks hlooked.raised hlooked.current
    · have hloaded : (.handler n signal, ⟨.load, child⟩) ∈ c.log :=
        mem_eventsOf.mp (hevents ▸ List.mem_cons_self)
      refine .sends hloaded hpos ((looked_reached hreach hloaded).resolve_left ?_)
      rintro rfl
      cases hpos

/-- Whatever the order of signals, handlers and `linux::run`: a handler sends the signal it was
started for, to the process that was forked, and at most once. If it looks for that process while
the command may be running, it finds it, and when it returns it has sent the signal. -/
theorem signals_forwarded : Each Proper c.log ∧
    ∀ n signal, c.thread (.handler n signal) = some (.ret ()) →
      ∃ child, eventsOf (.handler n signal) c.log = sent signal child :=
  ⟨proper_reached h, fun _ _ hp => obeys_thread h hp⟩

end

-- ---------------------------------------------------------------------------
-- After the return
-- ---------------------------------------------------------------------------

section
variable {settable : Int32 → Prop} {process : Process} {command : Command}

theorem Erases.runs {p : Forward α} {q : Startup α} {s s' : Shared} {out : Option α}
    (h : Erases p q) (hrun : Runs (fun s e s' => (signalSystem settable).effect .run e s s') p s
      out s') : Runs (Process.serves settable) q s.process out s'.process := by
  induction h generalizing s with
  | ret a =>
    cases hrun
    exact .ret
  | panic =>
    cases hrun
    exact .panic
  | @setup op next next' _ ih =>
    cases hrun with
    | @call _ _ r _ _ _ _ heffect hrest =>
      obtain ⟨hallows, rfl⟩ := heffect
      have hserves : Process.serves settable s.process ⟨op, r⟩ (s.process.after ⟨op, r⟩) := by
        refine ⟨?_, rfl⟩
        cases op with
        | fork =>
          cases r with
          | error e => trivial
          | ok pid =>
            rintro rfl
            cases hallows
        | _ => exact hallows
      exact .call hserves (ih r hrest)
  | store _ ih =>
    cases hrun with
    | call heffect hrest =>
      obtain ⟨-, rfl⟩ := heffect
      have hkept := ih hrest
      exact hkept

theorem Returned.dispositions {outcome : IoResult RunOutcome} {s : Process}
    (h : Returned process command outcome s) : s.dispositions = process.dispositions := by
  cases h with
  | exited => rfl
  | failed => rfl
  | unavailable hattempted =>
    cases hattempted with
    | unforked => rfl
    | forked bytes hgone => cases hgone <;> rfl

theorem triple_returned (hidle : process.Idle) (turns : Nat) (quiet : Bool) :
    Triple (Process.serves settable)
      (do
        let outcome ← linuxRun turns command quiet
        request (.returned outcome))
      process (fun _ s' => s'.dispositions = process.dispositions) fun _ => True := by
  refine ((triple_linuxRun hidle turns quiet).mono (fun _ _ => id) fun _ _ => trivial).bind ?_
  intro outcome s' hreturned
  exact triple_request fun _ _ => .ret hreturned.dispositions

variable {turns : Nat} {quiet : Bool} {arriving : List Int32}
  {c : Pool SignalThread ForwardOp.Answer Shared}
  (h : (signalSystem settable).Reaches
    (signalPool process (forwardingRun turns command quiet) arriving) c)
include h

/-- Only `linux::run` changes anything. -/
theorem shared_kept {i : SignalThread} {op : ForwardOp} {next : op.Answer → Forward Unit}
    {r : op.Answer} {shared : Shared} (hi : i ≠ .run) (hcall : c.thread i = some (.call op next))
    (heffect : (signalSystem settable).effect i ⟨op, r⟩ c.shared shared) : shared = c.shared := by
  obtain ⟨-, rfl⟩ := heffect
  have hmay := (obeys_thread h hcall).1
  cases i with
  | run => exact absurd rfl hi
  | outside =>
    obtain ⟨n, signal, rfl⟩ := hmay
    rfl
  | handler n signal =>
    rcases handlerMay_cases hmay with ⟨-, rfl⟩ | ⟨child, -, hpos, rfl⟩
    · rfl
    · have hne : child ≠ 0 := by
        rintro rfl
        cases hpos
      simp [Shared.after, Process.after, Process.signal, hne]

theorem returned_reached (hidle : process.Idle) (hreturned : c.thread .run = some (.ret ())) :
    c.shared.childProcess = 0 ∧ c.shared.process.dispositions = process.dispositions := by
  constructor
  · exact (childProcess_reached h).trans (obeys_thread h hreturned)
  · have hsteps := System.alone (i := .run)
      (fun c hreach j op next r shared hj hcall heffect => shared_kept hreach hj hcall heffect)
      (fun e p hstarts => ?_) rfl h hreturned
    · have herases : Erases (forwardingRun turns command quiet)
          (do
            let outcome ← linuxRun turns command quiet
            request (.returned outcome)) :=
        (SignalForwarding.erases_linuxRun turns command quiet).bind fun _ => erases_apart _
      have hrun := herases.runs (hsteps.runs .ret)
      exact (triple_returned hidle turns quiet).returns _ _ hrun
    · obtain ⟨op, answer⟩ := e
      cases op with
      | deliver n signal => cases answer <;> cases hstarts
      | _ => cases hstarts

/-- A log that goes on without handlers that start or find a process. -/
def Silenced (log later : SignalLog) : Prop := ∃ rest, later = log ++ rest ∧ ∀ x ∈ rest,
  (∀ n signal, x.2 ≠ ⟨.deliver n signal, true⟩) ∧ ∀ child, x.2 = ⟨.load, child⟩ → child = 0

theorem silenced_reached (hidle : process.Idle)
    (hforeign : ∀ signal, process.dispositions signal ≠ .forwardSignal)
    (hreturned : c.thread .run = some (.ret ())) {c' : Pool SignalThread ForwardOp.Answer Shared}
    (hlater : (signalSystem settable).Reaches c c') :
    (∀ op next, c'.thread .run ≠ some (.call op next)) ∧ c'.shared = c.shared ∧
      Silenced c.log c'.log := by
  obtain ⟨hchild, hdispositions⟩ := returned_reached h hidle hreturned
  induction hlater with
  | refl =>
    refine ⟨?_, rfl, [], by simp, by simp⟩
    intro op next hcall
    rw [hreturned] at hcall
    cases hcall
  | @tail b _ hreach hstep ih =>
    obtain ⟨hended, hshared, rest, hlog, hrest⟩ := ih
    cases hstep with
    | @stop i =>
      refine ⟨?_, hshared, rest, hlog, hrest⟩
      intro op next hcall
      dsimp only at hcall
      by_cases hi : SignalThread.run = i
      · rw [hi, Function.update_self] at hcall
        cases hcall
      · rw [Function.update_of_ne hi] at hcall
        exact hended op next hcall
    | @call i op next r shared hcall heffect _ =>
      have hi : i ≠ .run := by
        rintro rfl
        exact hended op next hcall
      have hkept := shared_kept (h.trans hreach) hi hcall heffect
      obtain ⟨hallows, -⟩ := heffect
      refine ⟨?_, hkept.trans hshared, rest ++ [(i, ⟨op, r⟩)], ?_, ?_⟩
      · intro op' next' hcall'
        rcases System.threads_some hcall' with hstarts | hcall'
        · cases op with
          | deliver n signal => cases r <;> cases hstarts
          | _ => cases hstarts
        · rw [Function.update_of_ne hi.symm] at hcall'
          exact hended op' next' hcall'
      · rw [hlog, List.append_assoc]
      · intro x hx
        rcases List.mem_append.mp hx with hx | hx
        · exact hrest x hx
        · obtain rfl := List.mem_singleton.mp hx
          rw [hshared] at hallows
          constructor
          · rintro n signal ⟨⟩
            have hinstalled := of_decide_eq_true (Eq.symm hallows)
            rw [hdispositions] at hinstalled
            exact hforeign signal hinstalled
          · rintro child ⟨⟩
            exact Eq.trans hallows hchild

/-- The handler has not looked `CHILD_PROCESS` up. -/
def Unlooked (log : SignalLog) (n : Nat) (signal : Int32) : Prop :=
  ∀ child, (.handler n signal, ⟨.load, child⟩) ∉ log

theorem unlooked_of_call {n : Nat} {signal : Int32} {next : Int32 → Forward Unit}
    (hcall : c.thread (.handler n signal) = some (.call .load next)) :
    Unlooked c.log n signal := by
  intro child hloaded
  rcases handlerMay_cases (obeys_thread h hcall).1 with ⟨hevents, -⟩ | ⟨_, -, -, hkill⟩
  · rw [← mem_eventsOf, hevents] at hloaded
    cases hloaded
  · cases hkill

/-- What a handler has sent, it has looked up before. -/
theorem Silenced.unsent {log : SignalLog} (hsilenced : Silenced log c.log) {n : Nat}
    {signal : Int32} (hunlooked : Unlooked log n signal) (child signal' : Int32) :
    (.handler n signal, ⟨.setup (.kill child signal'), ()⟩) ∉ c.log := by
  intro hkill
  obtain ⟨first, rest, hsplit, hproper⟩ := (proper_reached h).mem hkill
  cases hproper with
  | other hother => exact hother n signal rfl
  | sends hloaded hpos _ =>
    obtain ⟨later, hlater, hlast⟩ := hsilenced
    have hmem : (.handler n signal, ⟨.load, child⟩) ∈ log ++ later := by
      rw [← hlater, hsplit]
      exact List.mem_append_left _ hloaded
    rcases List.mem_append.mp hmem with hbefore | hafter
    · exact hunlooked child hbefore
    · obtain rfl := (hlast _ hafter).2 child rfl
      cases hpos

/-- Once `linux::run` has returned, the dispositions are those it found and `CHILD_PROCESS` is
cleared, and so it stays: no signal starts a handler any more, and one that was started before
and has yet to look finds no process and sends nothing. -/
theorem forwarding_ends (hidle : process.Idle)
    (hforeign : ∀ signal, process.dispositions signal ≠ .forwardSignal)
    (hreturned : c.thread .run = some (.ret ())) {c' : Pool SignalThread ForwardOp.Answer Shared}
    (hlater : (signalSystem settable).Reaches c c') :
    c'.shared.childProcess = 0 ∧ c'.shared.process.dispositions = process.dispositions ∧
      Silenced c.log c'.log ∧ ∀ n signal, Unlooked c.log n signal → ∀ child signal',
        (.handler n signal, ⟨.setup (.kill child signal'), ()⟩) ∉ c'.log := by
  obtain ⟨-, hshared, hsilenced⟩ := silenced_reached h hidle hforeign hreturned hlater
  obtain ⟨hchild, hdispositions⟩ := returned_reached h hidle hreturned
  rw [hshared]
  refine ⟨hchild, hdispositions, hsilenced, fun n signal hunlooked => ?_⟩
  exact hsilenced.unsent (h.trans hlater) hunlooked

end

-- ---------------------------------------------------------------------------
-- A signal before the start, and a process that is not forked
-- ---------------------------------------------------------------------------

def anySignal : System SignalThread ForwardOp.Answer Shared := signalSystem fun _ => True

/-- `SIGTERM` arrives. -/
def terminated : Pool SignalThread ForwardOp.Answer Shared :=
  signalPool (.start fun _ => .default) (forwardingRun 1 sampleCommand true) [SIGTERM]

theorem terminated_reaches : ∃ c, anySignal.Reaches terminated c ∧
    c.thread (.handler 0 SIGTERM) = some (.ret ()) ∧
    (.handler 0 SIGTERM, ⟨.setup (.kill 7 SIGTERM), ()⟩) ∈ c.log := by
  have h : anySignal.Reaches terminated terminated := .refl
  have h := h.plain .run (.setup .reopen) (.ok sampleView) rfl ⟨trivial, rfl⟩ rfl
  have h := h.plain .run (.setup .socketPair) (.ok ()) rfl ⟨trivial, rfl⟩ rfl
  have h := h.plain .run (.setup .fork) (.ok 7) rfl ⟨show (0 : Int32) < 7 by decide, rfl⟩ rfl
  have h := h.plain .run (.setup (.recvmsg 5)) (.ok ⟨[SETUP_READY], true⟩) rfl ⟨trivial, rfl⟩ rfl
  have h := h.plain .run (.setup .spawnSupervisor) (.ok ()) rfl ⟨trivial, rfl⟩ rfl
  have h := h.plain .run (.store 7) () rfl ⟨trivial, rfl⟩ rfl
  have h := h.plain .run (.setup (.sigaction SIGTERM .forwardSignal)) (.ok .default) rfl
    ⟨⟨trivial, rfl⟩, rfl⟩ rfl
  have h := h.starting .outside (.deliver 0 SIGTERM) true rfl ⟨rfl, rfl⟩ rfl rfl
    (by simp [terminated, signalPool])
  have h := h.plain (.handler 0 SIGTERM) .load 7 rfl ⟨rfl, rfl⟩ rfl
  have h := h.plain (.handler 0 SIGTERM) (.setup (.kill 7 SIGTERM)) () rfl ⟨trivial, rfl⟩ rfl
  exact ⟨_, h, rfl, List.mem_append_right _ List.mem_cons_self⟩

theorem signals_forwarded_terminated : ∃ c : Pool SignalThread ForwardOp.Answer Shared,
    (.handler 0 SIGTERM, ⟨.setup (.kill 7 SIGTERM), ()⟩) ∈ c.log ∧
    (Each Proper c.log ∧ ∀ n signal, c.thread (.handler n signal) = some (.ret ()) →
      ∃ child, eventsOf (.handler n signal) c.log = sent signal child) := by
  obtain ⟨c, h, -, hkill⟩ := terminated_reaches
  exact ⟨c, hkill, signals_forwarded h⟩

def EPIPE : Errno := 32

/-- `SIGTERM` arrives twice. -/
def terminatedTwice : Pool SignalThread ForwardOp.Answer Shared :=
  signalPool (.start fun _ => .default) (forwardingRun 1 sampleCommand true) [SIGTERM, SIGTERM]

/-- Its handler looks late, and the second signal finds none. -/
theorem late_reaches {c : Pool SignalThread ForwardOp.Answer Shared} {looks : Int32 → Forward Unit}
    {delivers : Bool → Forward Unit} (hchild : c.shared.childProcess = 0)
    (hdefault : c.shared.process.dispositions SIGTERM = .default)
    (hhandler : c.thread (.handler 0 SIGTERM) = some (.call .load looks))
    (houtside : c.thread .outside = some (.call (.deliver 1 SIGTERM) delivers)) :
    ∃ c', anySignal.Reaches c c' ∧ (.handler 0 SIGTERM, ⟨.load, 0⟩) ∈ c'.log ∧
      (.outside, ⟨.deliver 1 SIGTERM, false⟩) ∈ c'.log := by
  have h : anySignal.Reaches c c := .refl
  have h := h.plain (.handler 0 SIGTERM) .load 0 hhandler ⟨hchild.symm, rfl⟩ rfl
  have hnotified : c.shared.process.dispositions SIGTERM ≠ .forwardSignal := by
    rw [hdefault]
    rintro ⟨⟩
  have houtside' : Function.update c.thread (.handler 0 SIGTERM) (some (looks 0)) .outside =
      some (.call (.deliver 1 SIGTERM) delivers) := by
    rw [Function.update_of_ne (by simp)]
    exact houtside
  have h := h.plain .outside (.deliver 1 SIGTERM) false houtside'
    ⟨(decide_eq_false hnotified).symm, rfl⟩ rfl
  exact ⟨_, h, by simp, by simp⟩

/-- The child is gone when it is told to go on, and the handler of the first signal has not looked
by then. -/
theorem terminated_late : ∃ c, anySignal.Reaches terminatedTwice c ∧
    c.thread .run = some (.ret ()) ∧
    c.thread (.handler 0 SIGTERM) = some (forwardSignal SIGTERM) ∧
    c.thread .outside = some (deliveries 1 [SIGTERM]) := by
  have h : anySignal.Reaches terminatedTwice terminatedTwice := .refl
  have h := h.plain .run (.setup .reopen) (.ok sampleView) rfl ⟨trivial, rfl⟩ rfl
  have h := h.plain .run (.setup .socketPair) (.ok ()) rfl ⟨trivial, rfl⟩ rfl
  have h := h.plain .run (.setup .fork) (.ok 7) rfl ⟨show (0 : Int32) < 7 by decide, rfl⟩ rfl
  have h := h.plain .run (.setup (.recvmsg 5)) (.ok ⟨[SETUP_READY], true⟩) rfl ⟨trivial, rfl⟩ rfl
  have h := h.plain .run (.setup .spawnSupervisor) (.ok ()) rfl ⟨trivial, rfl⟩ rfl
  have h := h.plain .run (.store 7) () rfl ⟨trivial, rfl⟩ rfl
  have h := h.plain .run (.setup (.sigaction SIGTERM .forwardSignal)) (.ok .default) rfl
    ⟨⟨trivial, rfl⟩, rfl⟩ rfl
  have h := h.starting .outside (.deliver 0 SIGTERM) true rfl ⟨rfl, rfl⟩ rfl rfl
    (by simp [terminatedTwice, signalPool])
  have h := h.plain .run (.setup (.sigaction SIGINT .forwardSignal)) (.ok .default) rfl
    ⟨⟨trivial, rfl⟩, rfl⟩ rfl
  have h := h.plain .run (.setup (.sigaction SIGHUP .forwardSignal)) (.ok .default) rfl
    ⟨⟨trivial, rfl⟩, rfl⟩ rfl
  have h := h.plain .run (.setup (.sigaction SIGQUIT .forwardSignal)) (.ok .default) rfl
    ⟨⟨trivial, rfl⟩, rfl⟩ rfl
  have h := h.plain .run (.setup (.write [1])) ⟨-1, EPIPE⟩ rfl ⟨trivial, rfl⟩ rfl
  have h := h.plain .run (.store 0) () rfl ⟨trivial, rfl⟩ rfl
  have h := h.plain .run (.setup (.sigaction SIGQUIT .default)) (.ok .forwardSignal) rfl
    ⟨⟨trivial, rfl⟩, rfl⟩ rfl
  have h := h.plain .run (.setup (.sigaction SIGHUP .default)) (.ok .forwardSignal) rfl
    ⟨⟨trivial, rfl⟩, rfl⟩ rfl
  have h := h.plain .run (.setup (.sigaction SIGINT .default)) (.ok .forwardSignal) rfl
    ⟨⟨trivial, rfl⟩, rfl⟩ rfl
  have h := h.plain .run (.setup (.sigaction SIGTERM .default)) (.ok .forwardSignal) rfl
    ⟨⟨trivial, rfl⟩, rfl⟩ rfl
  have h := h.plain .run (.setup (.kill 7 SIGKILL)) () rfl ⟨trivial, rfl⟩ rfl
  have h := h.plain .run (.setup (.waitpid 7)) (.ok (.signaled SIGKILL)) rfl ⟨rfl, rfl⟩ rfl
  have h := h.plain .run (.setup .stopSupervisor) () rfl ⟨trivial, rfl⟩ rfl
  have h := h.plain .run (.setup .joinSupervisor) () rfl ⟨trivial, rfl⟩ rfl
  have h := h.plain .run (.setup (.returned (.ok (.unavailable sampleCommand
    "bind-view-probe-start-failed" (.os EPIPE))))) () rfl ⟨trivial, rfl⟩ rfl
  exact ⟨_, h, rfl, rfl, rfl⟩

theorem forwarding_ends_late : ∃ c c' : Pool SignalThread ForwardOp.Answer Shared,
    (.handler 0 SIGTERM, ⟨.load, 0⟩) ∈ c'.log ∧
    (.outside, ⟨.deliver 1 SIGTERM, false⟩) ∈ c'.log ∧
    (c'.shared.childProcess = 0 ∧
      c'.shared.process.dispositions = (Process.start fun _ => .default).dispositions ∧
      Silenced c.log c'.log) ∧
    ∀ child signal, (.handler 0 SIGTERM, ⟨.setup (.kill child signal), ()⟩) ∉ c'.log := by
  obtain ⟨c, h, hreturned, hhandler, houtside⟩ := terminated_late
  obtain ⟨hchild, hdispositions⟩ := returned_reached h ⟨rfl, rfl⟩ hreturned
  obtain ⟨c', hlater, hlooked, hraised⟩ :=
    late_reaches hchild (congrFun hdispositions SIGTERM) hhandler houtside
  have hforeign (signal : Int32) : (Process.start fun _ => .default).dispositions signal ≠
      .forwardSignal := by
    rintro ⟨⟩
  obtain ⟨hchild', hdispositions', hsilenced, hunsent⟩ :=
    forwarding_ends h ⟨rfl, rfl⟩ hforeign hreturned hlater
  exact ⟨c, c', hlooked, hraised, ⟨hchild', hdispositions', hsilenced⟩,
    hunsent 0 SIGTERM (unlooked_of_call h hhandler)⟩

end PathShim
