import PathShim.Linux.Opening
import PathShim.Linux.Reading

/-!
# Structures read from the tracee

`read_memory` shortens its buffer after a short read, and `read_value` takes a
structure from that buffer without looking at its length. What is missing
reads as zeros. So a structure is what the tracee provided only where its
range does not run into an unmapped page, and `openat2` and `utimensat` act on
one that was provided in part.
-/

namespace PathShim

open UnixPath Effects

variable {m : Memory} {pid : Pid} {E : Env Op.Answer} {address : UInt64} {size : Nat}
  {tr : Trace} {state : State} {notif : SeccompNotif}

/-- No read of the range stops inside it: its first byte is not mapped, or all of it is. -/
def Memory.AllOrNothing (m : Memory) (address : UInt64) (size : Nat) : Prop :=
  m.byte address.toNat = none ∨ ∃ bs : Bytes, bs.length = size ∧ m.has address.toNat bs

/-- A value that was returned is what stands in memory. -/
def Exact (m : Memory) (address : UInt64) (size : Nat) (out : Option (IoResult Bytes)) : Prop :=
  ∀ value, out = some (.ok value) → value.length = size ∧ m.has address.toNat value

theorem Memory.AllOrNothing.mapped (h : m.AllOrNothing address size)
    (hne : m.mapped address.toNat size ≠ []) : (m.mapped address.toNat size).length = size := by
  have hsize : 0 < size := by
    cases size with
    | zero => exact absurd rfl hne
    | succ n => exact n.succ_pos
  rcases h with hnone | ⟨bs, rfl, hbs⟩
  · exact absurd ((mapped_eq_nil hsize).mpr hnone) hne
  · rw [mapped_of_has hbs]

/-- The bytes that are not mapped read as zeros. -/
theorem exec_readValue (hE : m.Serves pid E) {out : Option (IoResult Bytes)}
    (h : Exec E (readValue pid address size) tr out) :
    (m.AllOrNothing address size ∧ ∃ e, out = some (.error e)) ∨
      m.mapped address.toNat size ≠ [] ∧ out = some (.ok (m.mapped address.toNat size ++
        List.replicate (size - (m.mapped address.toNat size).length) 0)) := by
  obtain ⟨answer, rest, hanswer, hrest, rfl⟩ := exec_perform_bind.mp h
  cases answer with
  | error e =>
    refine .inl ⟨?_, _, (exec_ret.mp hrest).2⟩
    rcases Nat.eq_zero_or_pos size with rfl | hsize
    · exact .inr ⟨[], rfl, trivial⟩
    · exact .inl (hE _ _ _ hsize hanswer)
  | ok chunk =>
    have hsize : 0 < size :=
      Nat.lt_of_lt_of_le (List.length_pos_iff.mpr chunk.nonempty) chunk.length_le
    have hchunk : chunk.bytes = m.mapped address.toNat size := hE _ _ _ hsize hanswer
    refine .inr ⟨hchunk ▸ chunk.nonempty, ?_⟩
    rw [(exec_ret.mp hrest).2, hchunk]

theorem exact_readValue_iff (hE : m.Serves pid E) {out : Option (IoResult Bytes)}
    (h : Exec E (readValue pid address size) tr out) :
    Exact m address size out ↔ m.AllOrNothing address size := by
  rcases exec_readValue hE h with ⟨hall, e, rfl⟩ | ⟨hne, rfl⟩
  · exact ⟨fun _ => hall, fun _ value hvalue => by cases hvalue⟩
  · constructor
    · intro hexact
      obtain ⟨hlength, hhas⟩ := hexact _ rfl
      exact .inr ⟨_, hlength, hhas⟩
    · intro hall value hvalue
      have hlength := hall.mapped hne
      rw [hlength, Nat.sub_self, List.replicate_zero, List.append_nil] at hvalue
      obtain rfl := Except.ok.inj (Option.some.inj hvalue)
      exact ⟨hlength, Memory.has_mapped _ _⟩

-- ---------------------------------------------------------------------------
-- What the handlers do with a structure
-- ---------------------------------------------------------------------------

/-- What a call passes on of an `open_how`. -/
def Op.UsesHow (how : Bytes) : Op → Prop
  | .openFile _ flags mode => flags = asI32 (leU64 how 0) &&& ~~~O_CLOEXEC ∧
      mode = asU32 (leU64 how 8)
  | _ => True

section
variable {S : Op → Prop} (hrespond : ∀ response, S (.respond response))
include hrespond

theorem uses_respond (response : SeccompNotifResp) : (respond response).Calls S :=
  Prog.Calls.bind (.perform (hrespond _)) fun _ => trivial

theorem uses_orRespondIn {x : Sup (IoResult α)} {next : α → Sup (State × IoResult Unit)}
    (hx : x.Calls S) (hnext : ∀ a, (next a).Calls S) :
    (orRespondIn state notif.id x next).Calls S := by
  refine Prog.Calls.bind hx fun r => ?_
  cases r with
  | error e => exact Prog.Calls.bind (uses_respond hrespond _) fun _ => trivial
  | ok a => exact hnext a

end

/-- Looking at the tracee, and answering it. -/
def Op.Idle : Op → Prop
  | .respond _ => True
  | op => op.Observes

theorem reads_idle : Reads Op.Idle :=
  ⟨fun _ _ _ => trivial, fun _ _ => trivial, fun _ _ => trivial, fun _ => trivial⟩

theorem reads_usesHow (how : Bytes) : Reads (Op.UsesHow how) :=
  ⟨fun _ _ _ => trivial, fun _ _ => trivial, fun _ _ => trivial, fun _ => trivial⟩

theorem calls_usesHow {how : Bytes} {arguments : OpenArguments}
    (hflags : arguments.flags = asI32 (leU64 how 0))
    (hmode : arguments.mode = asU32 (leU64 how 8)) :
    (orRespondIn state notif.id
      (readAndResolve state notif arguments.dirfd arguments.pathAddress) fun virtualPath =>
      if state.view.projects virtualPath.toPath then openProjected state notif arguments virtualPath
      else answered state (respondContinue notif.id)).Calls (Op.UsesHow how) := by
  have hrespond (response : SeccompNotifResp) : Op.UsesHow how (.respond response) := trivial
  refine uses_orRespondIn hrespond
    (calls_readAndResolve (reads_usesHow how) fun _ => trivial) fun v => ?_
  split
  · simp only [openProjected, cString_eq]
    refine uses_orRespondIn hrespond (Prog.Calls.bind (.perform ⟨?_, hmode⟩) fun _ => trivial)
      fun sourceFd => ?_
    · rw [hflags]
    · refine uses_orRespondIn hrespond (Prog.Calls.bind (.perform trivial) fun _ => trivial)
        fun childFd => ?_
      exact calls_tracking trivial (fun _ => trivial) (fun _ _ => trivial) trivial _ _
  · exact Prog.Calls.bind (uses_respond hrespond _) fun _ => trivial

theorem exec_openArguments (hnr : notif.data.nr = .sysOpenat2) {arguments : OpenArguments}
    (hx : Exec E (openArguments notif) tr (some (.ok arguments))) :
    ∃ how, Exec E (readValue notif.pid (notif.data.args 2) sizeOfOpenHow) tr (some (.ok how)) ∧
      arguments.flags = asI32 (leU64 how 0) ∧ arguments.mode = asU32 (leU64 how 8) := by
  have hopen : notif.data.nr ≠ .sysOpen := by simp [hnr]
  have hopenat : notif.data.nr ≠ .sysOpenat := by simp [hnr]
  rw [openArguments, if_neg hopen, if_neg hopenat] at hx
  rcases exec_bind.mp hx with ⟨value, first, rest, hvalue, hrest, rfl⟩ | ⟨-, hnone⟩
  · cases value with
    | error e => cases (exec_ret.mp hrest).2
    | ok how =>
      obtain ⟨rfl, ha⟩ := exec_ret.mp hrest
      obtain rfl := Except.ok.inj (Option.some.inj ha)
      rw [List.append_nil]
      exact ⟨how, hvalue, rfl, rfl⟩
  · cases hnone

theorem not_mem_of_idle {p : Sup α} {out : Option α} {e : Event Op.Answer} (hp : p.Calls Op.Idle)
    (hx : Exec E p tr out) (he : ¬ e.op.Idle) : e ∉ tr :=
  fun hmem => he (hx.calls hp e hmem)

theorem idle_error (e : Errno) : (respondError notif.id e).Calls Op.Idle :=
  uses_respond (fun _ => trivial) _

/-- An open of `openat2` goes by the record that was read. -/
theorem exec_openat2 (hnr : notif.data.nr = .sysOpenat2) {path : OsStr} {flags : Int32}
    {mode : UInt32} {r : Except Errno Fd} {out : Option (State × IoResult Unit)}
    (hx : Exec E (handleOpen state notif) tr out)
    (hmem : (⟨.openFile path flags mode, r⟩ : Event Op.Answer) ∈ tr) :
    ∃ how first, Exec E (readValue notif.pid (notif.data.args 2) sizeOfOpenHow) first
        (some (.ok how)) ∧
      flags = asI32 (leU64 how 0) &&& ~~~O_CLOEXEC ∧ mode = asU32 (leU64 how 8) := by
  have hread : (openArguments notif).Calls Op.Idle := calls_openArguments (reads_idle.memory _)
  rcases exec_bind.mp hx with ⟨a, first, rest, hfirst, hrest, rfl⟩ | ⟨hpanic, -⟩
  · have hmem := (List.mem_append.mp hmem).resolve_left (not_mem_of_idle hread hfirst id)
    cases a with
    | error e =>
      have hreply : (answered state (respondError notif.id (errno e))).Calls Op.Idle :=
        Prog.Calls.bind (idle_error _) fun _ => trivial
      exact absurd hmem (not_mem_of_idle hreply hrest id)
    | ok arguments =>
      obtain ⟨how, hvalue, hflags, hmode⟩ := exec_openArguments hnr hfirst
      exact ⟨how, first, hvalue, hrest.calls (calls_usesHow hflags hmode) _ hmem⟩
  · exact absurd hmem (not_mem_of_idle hread hpanic id)

/-- The times that `handle_utimensat` passes on. -/
def readTimes (notif : SeccompNotif) : Sup (IoResult (Option Bytes)) :=
  if notif.data.args 2 = 0 then return .ok none
  else do
    match ← readValue notif.pid (notif.data.args 2) sizeOfTimes with
    | .error e => return .error e
    | .ok times => return .ok (some times)

theorem idle_readTimes : (readTimes notif).Calls Op.Idle := by
  unfold readTimes
  split
  · trivial
  · exact Prog.Calls.bind (calls_readValue (reads_idle.memory _) _ _) fun r => by
      cases r <;> trivial

theorem exec_readTimes {times : Bytes}
    (hx : Exec E (readTimes notif) tr (some (.ok (some times)))) :
    Exec E (readValue notif.pid (notif.data.args 2) sizeOfTimes) tr (some (.ok times)) := by
  unfold readTimes at hx
  split at hx
  · cases (exec_ret.mp hx).2
  · rcases exec_bind.mp hx with ⟨value, first, rest, hvalue, hrest, rfl⟩ | ⟨-, hnone⟩
    · cases value with
      | error e => cases (exec_ret.mp hrest).2
      | ok given =>
        obtain ⟨rfl, ha⟩ := exec_ret.mp hrest
        obtain rfl := Option.some.inj (Except.ok.inj (Option.some.inj ha))
        rwa [List.append_nil]
    · cases hnone

/-- The call of `utimensat` takes the times that were read. -/
theorem exec_utimensat {path : OsStr} {times : Bytes} {flags : Int32} {r : Except Errno Nat}
    {out : Option (IoResult Unit)} (hx : Exec E (handleUtimensat state notif) tr out)
    (hmem : (⟨.utimensat path (some times) flags, r⟩ : Event Op.Answer) ∈ tr) :
    ∃ first, Exec E (readValue notif.pid (notif.data.args 2) sizeOfTimes) first
      (some (.ok times)) := by
  have hresolve : (readAndResolve state notif (asI32 (notif.data.args 0))
      (notif.data.args 1)).Calls Op.Idle :=
    calls_readAndResolve reads_idle fun _ => trivial
  have hreply (response : SeccompNotifResp) : (respond response).Calls Op.Idle :=
    uses_respond (fun _ => trivial) _
  rcases exec_orRespond hx with ⟨v, first, rest, hfirst, hrest, rfl⟩ |
    ⟨e, first, rest, hfirst, herror, rfl⟩ | ⟨hpanic, -⟩
  · have hmem := (List.mem_append.mp hmem).resolve_left (not_mem_of_idle hresolve hfirst id)
    split at hrest
    · simp only [withCString, cString_eq] at hrest
      change Exec E (orRespond notif.id (readTimes notif) _) rest out at hrest
      rcases exec_orRespond hrest with ⟨given, second, last, hsecond, hlast, rfl⟩ |
        ⟨e, second, last, hsecond, herror, rfl⟩ | ⟨hpanic, -⟩
      · have hmem := (List.mem_append.mp hmem).resolve_left
          (not_mem_of_idle idle_readTimes hsecond id)
        obtain ⟨answer, last, -, hanswered, rfl⟩ := exec_perform_bind.mp hlast
        rcases List.mem_cons.mp hmem with heq | hmem
        · cases heq
          exact ⟨second, exec_readTimes hsecond⟩
        · have hresult : (respondResult notif.id answer).Calls Op.Idle := by
            cases answer <;> exact hreply _
          exact absurd hmem (not_mem_of_idle hresult hanswered id)
      · exact absurd hmem (List.not_mem_append (not_mem_of_idle idle_readTimes hsecond id)
          (not_mem_of_idle (hreply _) herror id))
      · exact absurd hmem (not_mem_of_idle idle_readTimes hpanic id)
    · exact absurd hmem (not_mem_of_idle (hreply _) hrest id)
  · exact absurd hmem (List.not_mem_append (not_mem_of_idle hresolve hfirst id)
      (not_mem_of_idle (hreply _) herror id))
  · exact absurd hmem (not_mem_of_idle hresolve hpanic id)

-- ---------------------------------------------------------------------------
-- All or nothing
-- ---------------------------------------------------------------------------

/-- An open acts on a record that stands in memory. -/
def OpensBy (m : Memory) (address : UInt64) (flags : Int32) (mode : UInt32) : Prop :=
  ∃ how : Bytes, how.length = sizeOfOpenHow ∧ m.has address.toNat how ∧
    flags = asI32 (leU64 how 0) &&& ~~~O_CLOEXEC ∧ mode = asU32 (leU64 how 8)

/-- A value is what stands in memory exactly when the read does not stop inside it, and so are
the record and the times that the handlers act on. -/
theorem structured_reads (hE : m.Serves notif.pid E) :
    (∀ address size, Ensures E (readValue notif.pid address size) fun _ out =>
      (Exact m address size out ↔ m.AllOrNothing address size)) ∧
    (notif.data.nr = .sysOpenat2 → Ensures E (handleOpen state notif) fun tr _ =>
      ∀ path flags mode r, (⟨.openFile path flags mode, r⟩ : Event Op.Answer) ∈ tr →
        (OpensBy m (notif.data.args 2) flags mode ↔
          m.AllOrNothing (notif.data.args 2) sizeOfOpenHow)) ∧
    Ensures E (handleUtimensat state notif) fun tr _ =>
      ∀ path times flags r, (⟨.utimensat path (some times) flags, r⟩ : Event Op.Answer) ∈ tr →
        (times.length = sizeOfTimes ∧ m.has (notif.data.args 2).toNat times ↔
          m.AllOrNothing (notif.data.args 2) sizeOfTimes) := by
  refine ⟨fun address size tr out hx => exact_readValue_iff hE hx, ?_, ?_⟩
  · intro hnr tr out hx path flags mode r hmem
    constructor
    · rintro ⟨how, hlength, hhas, -⟩
      exact .inr ⟨how, hlength, hhas⟩
    · intro hall
      obtain ⟨how, first, hvalue, hflags, hmode⟩ := exec_openat2 hnr hx hmem
      obtain ⟨hlength, hhas⟩ := (exact_readValue_iff hE hvalue).mpr hall how rfl
      exact ⟨how, hlength, hhas, hflags, hmode⟩
  · intro tr out hx path times flags r hmem
    constructor
    · rintro ⟨hlength, hhas⟩
      exact .inr ⟨times, hlength, hhas⟩
    · intro hall
      obtain ⟨first, hvalue⟩ := exec_utimensat hx hmem
      exact (exact_readValue_iff hE hvalue).mpr hall times rfl

/-- `/a/x` and the first 8 bytes of an `open_how`, in which the flags are `O_RDWR | O_CREAT`;
then the mapping ends. -/
def cutHow : Memory :=
  .ofBytes 64 (ascii ['/', 'a', '/', 'x'] ++ [0, 0x42, 0, 0, 0, 0, 0, 0, 0])

def cutHowCall : SeccompNotif :=
  ⟨7, 100, .sysOpenat2, fun i => if i = 1 then 64 else if i = 2 then 69 else 0⟩

theorem cutHow_serves : cutHow.Serves 100 fun op r => r = cutHow.answers op :=
  Memory.Answers.serves fun _ _ _ h => h

theorem structured_reads_cut :
    (∀ address size, Ensures (fun op r => r = cutHow.answers op)
      (readValue cutHowCall.pid address size) fun _ out =>
      (Exact cutHow address size out ↔ cutHow.AllOrNothing address size)) ∧
    (cutHowCall.data.nr = .sysOpenat2 → Ensures (fun op r => r = cutHow.answers op)
      (handleOpen (State.new oneBind) cutHowCall) fun tr _ =>
      ∀ path flags mode r, (⟨.openFile path flags mode, r⟩ : Event Op.Answer) ∈ tr →
        (OpensBy cutHow (cutHowCall.data.args 2) flags mode ↔
          cutHow.AllOrNothing (cutHowCall.data.args 2) sizeOfOpenHow)) ∧
    Ensures (fun op r => r = cutHow.answers op) (handleUtimensat (State.new oneBind) cutHowCall)
      fun tr _ => ∀ path times flags r,
        (⟨.utimensat path (some times) flags, r⟩ : Event Op.Answer) ∈ tr →
        (times.length = sizeOfTimes ∧ cutHow.has (cutHowCall.data.args 2).toNat times ↔
          cutHow.AllOrNothing (cutHowCall.data.args 2) sizeOfTimes) :=
  structured_reads cutHow_serves

/-- A record cut short is returned with zeros in place of the mode, and a file is opened by it. -/
theorem cut_structure_used : cutHow.Serves 100 (fun op r => r = cutHow.answers op) ∧
    (∃ tr value, Exec (fun op r => r = cutHow.answers op) (readValue 100 69 sizeOfOpenHow) tr
      (some (.ok value)) ∧ ¬ cutHow.has 69 value) ∧
    ∃ tr out path mode r, Exec (fun op r => r = cutHow.answers op)
      (handleOpen (State.new oneBind) cutHowCall) tr (some out) ∧
      (⟨.openFile path 0x42 mode, r⟩ : Event Op.Answer) ∈ tr ∧
      ¬ ∃ how : Bytes, how.length = sizeOfOpenHow ∧ cutHow.has 69 how := by
  have hend : cutHow.byte 77 = none := rfl
  have hrun {α : Type} (p : Sup α) := exec_eval (E := fun op r => r = cutHow.answers op)
    cutHow.answers (fun _ => rfl) p
  have hshort : ¬ ∃ how : Bytes, how.length = sizeOfOpenHow ∧ cutHow.has 69 how := by
    rintro ⟨how, hlength, hhas⟩
    have hbyte := Memory.has_iff.mp hhas 8 (by rw [hlength]; decide)
    cases hend.symm.trans hbyte
  refine ⟨cutHow_serves, ⟨_, _, hrun _, fun hhas => hshort ⟨_, rfl, hhas⟩⟩, ?_⟩
  exact ⟨_, _, osStr ['/', 's', '/', 'x'], 0, .error EACCES, hrun _,
    List.mem_of_getElem? (i := 2) rfl, hshort⟩

end PathShim
