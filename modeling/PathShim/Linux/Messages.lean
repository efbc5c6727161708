import PathShim.Linux.Dirent
import PathShim.Linux.Sockets

/-!
# Messages of the handshake

What parent and child have sent, received and done so far, and what each of
them may do next. Everything is stated of a history of calls, and most calls
leave it as it is.
-/

namespace PathShim

open UnixPath Effects

-- ---------------------------------------------------------------------------
-- Numbers in messages
-- ---------------------------------------------------------------------------

theorem toNat_foldr_bytes (bytes : Bytes) :
    (bytes.foldr (fun (b : UInt8) (acc : UInt32) => acc <<< 8 ||| b.toUInt32) 0).toNat =
      leNat bytes % 2 ^ 32 := by
  induction bytes with
  | nil => rfl
  | cons b rest ih =>
    have hshift : (leNat rest % 2 ^ 32) <<< 8 % 2 ^ 32 = 2 ^ 8 * (leNat rest % 2 ^ 24) := by
      rw [Nat.shiftLeft_eq]
      omega
    have hb := b.toNat_lt
    rw [List.foldr_cons, UInt32.toNat_or, UInt32.toNat_shiftLeft, ih, UInt8.toNat_toUInt32, leNat,
      show (8 : UInt32).toNat % 32 = 8 from rfl, hshift, ← Nat.two_pow_add_eq_or_of_lt hb]
    omega

@[simp] theorem fromNeBytes_toNeBytes (value : Int32) : fromNeBytes (toNeBytes value) = value := by
  have hlt := value.toUInt32.toNat_lt
  have hbytes : (toNeBytes value).foldr
      (fun (b : UInt8) (acc : UInt32) => acc <<< 8 ||| b.toUInt32) 0 = value.toUInt32 := by
    apply UInt32.toNat.inj
    rw [toNat_foldr_bytes, toNeBytes, leNat_leBytes hlt, Nat.mod_eq_of_lt hlt]
  rw [fromNeBytes, hbytes]
  rfl

@[simp] theorem length_toNeBytes (value : Int32) : (toNeBytes value).length = 4 :=
  length_leBytes 4 _

-- ---------------------------------------------------------------------------
-- Histories
-- ---------------------------------------------------------------------------

abbrev History := List (Event SetupOp.Answer)

/-- The call was made, and answered in this way. -/
def Made (h : History) (op : SetupOp) (r : op.Answer) : Prop := ⟨op, r⟩ ∈ h

theorem Made.append {h : History} {op : SetupOp} {r : op.Answer} (hmade : Made h op r)
    (ext : History) : Made (h ++ ext) op r := List.mem_append_left _ hmade

/-- The message a call has sent to the parent. -/
def postOf : Event SetupOp.Answer → Option Message
  | ⟨.send payload, transfer⟩ =>
    if transfer.result = payload.length then some ⟨payload, false⟩ else none
  | ⟨.sendmsg payload, .ok ()⟩ => some ⟨payload, true⟩
  | _ => none

def posted (h : History) : List Message := h.filterMap postOf

/-- What the parent has received, and how much room it had for it. -/
def receiptOf : Event SetupOp.Answer → Option (Nat × Bytes)
  | ⟨.recvmsg length, .ok message⟩ =>
    if message.payload = [] then none else some (length, message.payload)
  | ⟨.recv length, .ok bytes⟩ => if bytes = [] then none else some (length, bytes)
  | _ => none

def receipts (h : History) : List (Nat × Bytes) := h.filterMap receiptOf

def isWritten : Event SetupOp.Answer → Bool
  | ⟨.write payload, transfer⟩ => transfer.result = payload.length
  | _ => false

def isTaken : Event SetupOp.Answer → Bool
  | ⟨.read _, transfer⟩ => transfer.result = 1
  | _ => false

/-- The synchronisation bytes the parent has written. -/
def written (h : History) : Nat := h.countP isWritten

/-- The synchronisation bytes the child has read. -/
def taken (h : History) : Nat := h.countP isTaken

def isExec : Event SetupOp.Answer → Bool
  | ⟨.exec _, _⟩ => true
  | _ => false

/-- How often exec was called. -/
def execs (h : History) : Nat := h.countP isExec

/-- The return of `linux::run` with `Unavailable`. -/
def givesUp : Event SetupOp.Answer → Bool
  | ⟨.returned (.ok (.unavailable ..)), _⟩ => true
  | _ => false

def GaveUp (h : History) : Prop := ∃ e ∈ h, givesUp e = true

/-- A line that could not be written to standard error. -/
def unwritten : Event SetupOp.Answer → Bool
  | ⟨.eprintln .., .error _⟩ => true
  | _ => false

/-- What was printed between giving up and exec was written. -/
def Printed (h : History) : Prop :=
  Each (fun first e => GaveUp first → execs first = 0 → unwritten e = false) h

-- ---------------------------------------------------------------------------
-- What the child may do
-- ---------------------------------------------------------------------------

/-- The filter could not be installed. -/
def FilterRefused (h : History) (e : Errno) : Prop :=
  Made h .setNoNewPrivs (.error e) ∨ Made h .setFilter (.error e)

def ProbeFails (probePath : OsStr) (h : History) (e : Errno) : Prop :=
  Made h (.fstatat probePath) (.error e) ∨ Made h (.openDirectory probePath) (.error e)

def ProbeSucceeds (probePath : OsStr) (h : History) : Prop :=
  Made h (.fstatat probePath) (.ok ()) ∧ ∃ fd, Made h (.openDirectory probePath) (.ok fd)

/-- The number the child sends after the probe. -/
def ProbeReports (probePath : OsStr) (h : History) (value : Int32) : Prop :=
  value = 0 ∧ ProbeSucceeds probePath h ∨ ∃ e, ProbeFails probePath h e ∧ value = Int32.ofInt e

def readyMessage : Message := ⟨[SETUP_READY], true⟩

/-- The listener is sent under the filter, the probe is made after the first byte, and what is
reported is what happened. -/
def childMay (probePath : OsStr) (h : History) : SetupOp → Prop
  | .sendmsg payload => payload = [SETUP_READY] ∧ posted h = [] ∧ Made h .setFilter (.ok ())
  | .send payload =>
    (posted h = [] ∧ ∃ e, FilterRefused h e ∧
      payload = SETUP_UNAVAILABLE :: toNeBytes (Int32.ofInt e)) ∨
    (posted h = [readyMessage] ∧ ∃ value, ProbeReports probePath h value ∧
      payload = toNeBytes value)
  | .fstatat path | .openDirectory path =>
    path = probePath ∧ taken h = 1 ∧ posted h = [readyMessage]
  | .exec _ => taken h = 2 ∧ execs h = 0
  | _ => True

def childRules (probePath : OsStr) : Rules SetupOp.Answer := allowing (childMay probePath)

-- ---------------------------------------------------------------------------
-- What the parent may do
-- ---------------------------------------------------------------------------

/-- The supervisor runs, and signals are forwarded. -/
structure Attended (h : History) : Prop where
  supervisor : Made h .spawnSupervisor (.ok ())
  signals : ∀ signal ∈ FORWARDED_SIGNALS, ∃ old,
    Made h (.sigaction signal .forwardSignal) (.ok old)

/-- The child has been waited for. -/
def Reaped (h : History) : Prop :=
  ∃ pid status, status ≠ .other ∧ Made h (.waitpid pid) (.ok status)

/-- Calls that end the child or its supervision. -/
def SetupOp.ends : SetupOp → Bool
  | .kill _ _ | .stopSupervisor => true
  | _ => false

def Going (h : History) : Prop := ∀ e ∈ h, e.op.ends = false

/-- The parent has read that the probe came to `value`. -/
def Reported (h : History) (value : Int32) : Prop :=
  ∃ bytes, Made h (.recv 4) (.ok bytes) ∧ bytes.length = 4 ∧ fromNeBytes bytes = value

/-- An error the parent passes on is one it was sent. -/
structure Blames (h : History) (reason : String) (error : IoError) : Prop where
  unavailable : reason = "bind-view-unavailable" → ∃ bytes rights,
    Made h (.recvmsg 5) (.ok ⟨SETUP_UNAVAILABLE :: bytes, rights⟩) ∧ bytes.length = 4 ∧
    error = .os (fromNeBytes bytes).toInt
  probeFailed : reason = "bind-view-probe-failed" → ∃ value, Reported h value ∧ value ≠ 0 ∧
    error = .os value.toInt

/-- The first byte is written when the supervisor runs, the second one after a probe that
succeeded, and none once the attempt was ended; with two bytes written it is ended only after the
child. -/
def parentMay (h : History) : SetupOp → Prop
  | .recvmsg length => length = 5 ∧ receipts h = []
  | .recv length => length = 4 ∧ receipts h = [(5, [SETUP_READY])]
  | .write _ => Attended h ∧ Going h ∧ (written h = 0 ∨ written h = 1 ∧ Reported h 0)
  | .kill _ _ | .stopSupervisor => written h < 2 ∨ Reaped h
  | .returned (.ok (.unavailable _ reason error)) => Blames h reason error
  | _ => True

/-- After giving up, which happens once and with the second byte unwritten, nothing is done but to
print before the one exec, and a quiet parent does not print either. -/
def passes (quiet : Bool) (h : History) : SetupOp → Prop
  | .exec _ => GaveUp h ∧ execs h = 0
  | .eprintln .. => GaveUp h → execs h = 0 → quiet = false
  | .write _ => ¬ GaveUp h
  | .returned (.ok (.unavailable ..)) => ¬ GaveUp h ∧ written h < 2
  | _ => GaveUp h → execs h ≠ 0

/-- A parent that cannot print panics. -/
def parentRules (quiet : Bool) : Rules SetupOp.Answer where
  accepts h op := Printed h ∧ parentMay h op ∧ passes quiet h op
  panics h := GaveUp h → execs h = 0 → ¬ Printed h

def rulesOf (quiet : Bool) (probePath : OsStr) : Who → Rules SetupOp.Answer
  | .parent => parentRules quiet
  | .child => childRules probePath

-- ---------------------------------------------------------------------------
-- Calls outside the socket pair
-- ---------------------------------------------------------------------------

section
variable (h ext : History)

@[simp] theorem posted_append : posted (h ++ ext) = posted h ++ posted ext :=
  List.filterMap_append

@[simp] theorem receipts_append : receipts (h ++ ext) = receipts h ++ receipts ext :=
  List.filterMap_append

@[simp] theorem written_append : written (h ++ ext) = written h + written ext :=
  List.countP_append

@[simp] theorem taken_append : taken (h ++ ext) = taken h + taken ext := List.countP_append

@[simp] theorem execs_append : execs (h ++ ext) = execs h + execs ext := List.countP_append

theorem gaveUp_append : GaveUp (h ++ ext) ↔ GaveUp h ∨ GaveUp ext := by
  simp [GaveUp, or_and_right, exists_or]

end

@[simp] theorem posted_nil : posted [] = [] := rfl
@[simp] theorem receipts_nil : receipts [] = [] := rfl
@[simp] theorem written_nil : written [] = 0 := rfl
@[simp] theorem taken_nil : taken [] = 0 := rfl
@[simp] theorem execs_nil : execs [] = 0 := rfl

section
variable (e : Event SetupOp.Answer) (h : History)

@[simp] theorem posted_cons : posted (e :: h) = (postOf e).toList ++ posted h := by
  cases he : postOf e <;> simp [posted, he]

@[simp] theorem receipts_cons : receipts (e :: h) = (receiptOf e).toList ++ receipts h := by
  cases he : receiptOf e <;> simp [receipts, he]

@[simp] theorem written_cons : written (e :: h) = written h + if isWritten e then 1 else 0 := by
  simp [written, List.countP_cons]

@[simp] theorem taken_cons : taken (e :: h) = taken h + if isTaken e then 1 else 0 := by
  simp [taken, List.countP_cons]

@[simp] theorem execs_cons : execs (e :: h) = execs h + if isExec e then 1 else 0 := by
  simp [execs, List.countP_cons]

end

/-- Nothing was transferred. -/
structure Still (ext : History) : Prop where
  posted : posted ext = []
  receipts : receipts ext = []
  written : written ext = 0
  taken : taken ext = 0

theorem Still.append {first second : History} (h : Still first) (h' : Still second) :
    Still (first ++ second) where
  posted := by simp [h.posted, h'.posted]
  receipts := by simp [h.receipts, h'.receipts]
  written := by simp [h.written, h'.written]
  taken := by simp [h.taken, h'.taken]

theorem still_event {e : Event SetupOp.Answer} (h : e.op.onSocket = false) :
    postOf e = none ∧ receiptOf e = none ∧ isWritten e = false ∧ isTaken e = false := by
  obtain ⟨op, r⟩ := e
  cases op <;> first | exact ⟨rfl, rfl, rfl, rfl⟩ | cases h

theorem still_of_onSocket {ext : History} (hext : ∀ e ∈ ext, e.op.onSocket = false) :
    Still ext where
  posted := List.filterMap_eq_nil_iff.mpr fun e he => (still_event (hext e he)).1
  receipts := List.filterMap_eq_nil_iff.mpr fun e he => (still_event (hext e he)).2.1
  written := List.countP_eq_zero.mpr fun e he => by simp [(still_event (hext e he)).2.2.1]
  taken := List.countP_eq_zero.mpr fun e he => by simp [(still_event (hext e he)).2.2.2]

theorem Still.few {h ext : History} (hstill : Still ext) (hfew : PathShim.written h < 2) :
    PathShim.written (h ++ ext) < 2 := by
  simpa [hstill.written] using hfew

/-- Calls that either side may make at any time. -/
def SetupOp.plain : SetupOp → Bool
  | .fstatat _ | .openDirectory _ | .exec _ | .returned _ | .kill _ _ | .stopSupervisor => false
  | op => !op.onSocket

theorem SetupOp.plain_ends {op : SetupOp} (h : op.plain = true) : op.ends = false := by
  cases op <;> first | rfl | cases h

theorem SetupOp.plain_child {op : SetupOp} (h : op.plain = true) (probePath : OsStr)
    (history : History) : childMay probePath history op := by
  cases op <;> trivial

theorem SetupOp.plain_parent {op : SetupOp} (h : op.plain = true) (history : History) :
    parentMay history op := by
  cases op <;> trivial

/-- What the parent may do while the attempt can still be ended. -/
def SetupOp.offstage (op : SetupOp) : Bool := op.plain || op.ends

theorem SetupOp.offstage_onSocket {op : SetupOp} (h : op.offstage = true) :
    op.onSocket = false := by
  cases op <;> first | rfl | cases h

/-- Only such calls. -/
def AllPlain (ext : History) : Prop := ∀ e ∈ ext, e.op.plain = true

def Offstage (ext : History) : Prop := ∀ e ∈ ext, e.op.offstage = true

theorem AllPlain.append {first second : History} (h : AllPlain first) (h' : AllPlain second) :
    AllPlain (first ++ second) := fun e he => (List.mem_append.mp he).elim (h e) (h' e)

theorem AllPlain.offstage {ext : History} (h : AllPlain ext) : Offstage ext := fun e he => by
  simp [SetupOp.offstage, h e he]

theorem Offstage.still {ext : History} (h : Offstage ext) : Still ext :=
  still_of_onSocket fun e he => SetupOp.offstage_onSocket (h e he)

theorem AllPlain.still {ext : History} (h : AllPlain ext) : Still ext := h.offstage.still

theorem AllPlain.going {ext : History} (h : AllPlain ext) : Going ext := fun e he =>
  SetupOp.plain_ends (h e he)

-- ---------------------------------------------------------------------------
-- Before the command is passed through
-- ---------------------------------------------------------------------------

/-- Nothing was given up, and no command executed. -/
def Trying (h : History) : Prop := ∀ e ∈ h, givesUp e = false ∧ isExec e = false

theorem Trying.append {h ext : History} (htrying : Trying h) (hext : Trying ext) :
    Trying (h ++ ext) := fun e he => (List.mem_append.mp he).elim (htrying e) (hext e)

theorem Offstage.trying {ext : History} (h : Offstage ext) : Trying ext := by
  rintro ⟨op, r⟩ he
  have hop := h _ he
  cases op <;> first | exact ⟨rfl, rfl⟩ | cases hop

theorem AllPlain.trying {ext : History} (h : AllPlain ext) : Trying ext := h.offstage.trying

section
variable {h : History} (htrying : Trying h)
include htrying

theorem Trying.not_gaveUp : ¬ GaveUp h := by
  rintro ⟨e, he, hgives⟩
  rw [(htrying e he).1] at hgives
  cases hgives

theorem Trying.execs : execs h = 0 :=
  List.countP_eq_zero.mpr fun e he => by simp [(htrying e he).2]

theorem Trying.printed : Printed h := by
  rintro first e rest rfl hgave
  obtain ⟨e', he', hgives⟩ := hgave
  rw [(htrying e' (List.mem_append_left _ he')).1] at hgives
  cases hgives

/-- What is not passing the command through may be done meanwhile. -/
theorem Trying.accepts (op : SetupOp) (hmay : parentMay h op)
    (hop : ∀ command, op ≠ .exec command)
    (hwritten : ∀ command reason e, op = .returned (.ok (.unavailable command reason e)) →
      written h < 2) (quiet : Bool) : (parentRules quiet).accepts h op := by
  refine ⟨htrying.printed, hmay, ?_⟩
  cases op with
  | exec command => exact absurd rfl (hop command)
  | write payload => exact htrying.not_gaveUp
  | returned outcome =>
    cases outcome with
    | error e => exact fun hgave => absurd hgave htrying.not_gaveUp
    | ok outcome =>
      cases outcome with
      | exited status => exact fun hgave => absurd hgave htrying.not_gaveUp
      | unavailable command reason e => exact ⟨htrying.not_gaveUp, hwritten _ _ _ rfl⟩
  | _ => exact fun hgave => absurd hgave htrying.not_gaveUp

theorem Trying.accepts_plain {op : SetupOp} (hop : op.plain = true) (quiet : Bool) :
    (parentRules quiet).accepts h op := by
  refine htrying.accepts op (SetupOp.plain_parent hop h) ?_ ?_ quiet
  · rintro command rfl
    cases hop
  · rintro command reason e rfl
    cases hop

theorem Trying.panics (quiet : Bool) : (parentRules quiet).panics h := fun hgave =>
  absurd hgave htrying.not_gaveUp

end

end PathShim
