import PathShim.Linux.Delivered
import PathShim.Linux.FallThrough
import PathShim.Linux.Reading
import PathShim.Linux.Reply

/-!
# Calls on a descriptor alone

An empty pathname with `AT_EMPTY_PATH`, an empty pathname of `readlinkat` and
the null pathname of `futimens` say that the object is the descriptor itself.
Three handlers look for that form before they resolve the pathname.
-/

namespace PathShim

open UnixPath Effects

/-- The flags of the calls that take `AT_EMPTY_PATH`. -/
def emptyPathFlags (notif : SeccompNotif) : Option Int32 :=
  match notif.data.nr with
  | .sysStatx => some (asI32 (notif.data.args 2))
  | .sysNewfstatat | .sysFaccessat2 => some (asI32 (notif.data.args 3))
  | .sysFchownat | .sysExecveat => some (asI32 (notif.data.args 4))
  | _ => none

/-- The pointer is not null and points to a NUL. -/
def EmptyPath (m : Memory) (address : UInt64) : Prop := address ≠ 0 ∧ m.Holds address OsStr.empty

/-- The forms that name no path. -/
inductive FdOnly (m : Memory) (notif : SeccompNotif) : Prop
  | emptyPath {flags : Int32} : emptyPathFlags notif = some flags → flags &&& AT_EMPTY_PATH ≠ 0 →
      EmptyPath m (notif.data.args 1) → FdOnly m notif
  | readlinkat : notif.data.nr = .sysReadlinkat → EmptyPath m (notif.data.args 1) → FdOnly m notif
  | utimensat : notif.data.nr = .sysUtimensat → notif.data.args 1 = 0 → FdOnly m notif

/-- The one response is `response`. -/
def RespondsWith (response : SeccompNotifResp) (p : Sup α) (E : Env Op.Answer) : Prop :=
  Ensures E p fun tr out => out.isSome → tr.filterMap responseOf = [response]

section
variable {E : Env Op.Answer} {m : Memory} {state : State} {notif : SeccompNotif} {dirfd : Fd}
  {address : UInt64}

theorem respondsWith_respond (response : SeccompNotifResp) :
    RespondsWith response (respond response) E := by
  intro tr out hx _
  obtain ⟨answer, rest, -, hrest, rfl⟩ := exec_perform_bind.mp hx
  obtain ⟨rfl, -⟩ := exec_ret.mp hrest
  rfl

theorem RespondsWith.answered {response : SeccompNotifResp} (s : State)
    {reply : Sup (IoResult Unit)} (h : RespondsWith response reply E) :
    RespondsWith response (answered s reply) E := by
  intro tr out hx hsome
  obtain ⟨out', hreply, rfl⟩ := exec_answered.mp hx
  exact h tr out' hreply (by simpa using hsome)

/-- After a first part that looks and can end in one way only. -/
theorem RespondsWith.after {response : SeccompNotifResp} {p : Sup α} {f : α → Sup β} {a : α}
    (hp : p.Calls fun op => op.looks = true)
    (ha : ∀ tr b, Exec E p tr (some b) → b = a) (hf : RespondsWith response (f a) E) :
    RespondsWith response (p >>= f) E := by
  intro tr out hx hsome
  rcases exec_bind.mp hx with ⟨b, first, rest, hfirst, hrest, rfl⟩ | ⟨-, rfl⟩
  · obtain rfl := ha first b hfirst
    rw [List.filterMap_append, responses_looks (hfirst.calls hp), List.nil_append]
    exact hf rest out hrest hsome
  · cases hsome

-- ---------------------------------------------------------------------------
-- The pathname is read first
-- ---------------------------------------------------------------------------

section
variable (hm : m.Answers notif.pid E) (hempty : EmptyPath m address)
include hm hempty

theorem reads_empty (tr : Trace) (r : IoResult OsStr)
    (hx : Exec E (readPath notif.pid address) tr (some r)) : r = .ok OsStr.empty :=
  Memory.found_readPath hm hempty.1 hempty.2 (by decide) hx

theorem refused_operand (next : AbsPath → Sup (IoResult Unit)) :
    RespondsWith ⟨notif.id, 0, -ENOENT, 0⟩
      (orRespond notif.id (readAndResolve state notif dirfd address) next) E := by
  refine .after (a := .error (.os ENOENT)) (calls_readAndResolve reads_looks fun _ => rfl)
    (fun tr r hx => ?_) (respondsWith_respond _)
  rcases exec_bind.mp hx with ⟨read, first, rest, hfirst, hrest, -⟩ | ⟨-, hnone⟩
  · obtain rfl := reads_empty hm hempty first read hfirst
    exact Option.some.inj (exec_ret.mp hrest).2
  · cases hnone

theorem skipped_operand {skip : OsStr → Bool} (hskip : skip OsStr.empty = true)
    (next : OsStr → AbsPath → Sup (IoResult Unit)) :
    RespondsWith ⟨notif.id, 0, 0, USER_NOTIF_FLAG_CONTINUE⟩
      (onProjectedPath state notif dirfd address skip next) E := by
  refine .after (calls_readPath (reads_looks.memory _) _) (reads_empty hm hempty) ?_
  simp only [hskip]
  exact respondsWith_respond _

end

theorem refused_null (hnull : address = 0) (next : AbsPath → Sup (IoResult Unit)) :
    RespondsWith ⟨notif.id, 0, -EFAULT, 0⟩
      (orRespond notif.id (readAndResolve state notif dirfd address) next) E := by
  have hread : readAndResolve state notif dirfd address = .ret (.error (.os EFAULT)) := by
    rw [readAndResolve, readPath, if_pos hnull]
    rfl
  rw [hread]
  exact respondsWith_respond _

-- ---------------------------------------------------------------------------
-- The handlers
-- ---------------------------------------------------------------------------

/-- What a call on a descriptor alone is answered with. -/
def fdOnlyResponse (notif : SeccompNotif) : SeccompNotifResp :=
  match notif.data.nr with
  | .sysNewfstatat | .sysStatx | .sysExecveat => ⟨notif.id, 0, 0, USER_NOTIF_FLAG_CONTINUE⟩
  | .sysUtimensat => ⟨notif.id, 0, -EFAULT, 0⟩
  | _ => ⟨notif.id, 0, -ENOENT, 0⟩

theorem fdOnly_response (hm : m.Answers notif.pid E) (h : FdOnly m notif) :
    RespondsWith (fdOnlyResponse notif) (handle state notif) E := by
  cases h with
  | emptyPath hsome hflag hempty =>
    have hskip {flags : Int32} (h : flags &&& AT_EMPTY_PATH ≠ 0) :
        skipEmptyPath flags OsStr.empty = true := by
      simpa [skipEmptyPath, OsStr.empty] using h
    cases hnr : notif.data.nr <;> simp only [emptyPathFlags, hnr, Option.some.injEq, reduceCtorEq]
      at hsome <;> subst hsome <;> simp only [handle, fdOnlyResponse, hnr]
    case sysNewfstatat | sysStatx => exact (skipped_operand hm hempty (hskip hflag) _).answered _
    case sysExecveat =>
      simp only [handleExec, hnr, reduceCtorEq, if_false]
      exact (skipped_operand hm hempty rfl _).answered _
    case sysFaccessat2 =>
      simp only [handleAccess, hnr, reduceCtorEq, if_false]
      exact (refused_operand hm hempty _).answered _
    case sysFchownat =>
      simp only [handleChown, hnr, if_true]
      exact (refused_operand hm hempty _).answered _
  | readlinkat hnr hempty =>
    simp only [handle, handleReadlink, fdOnlyResponse, hnr, reduceCtorEq, if_false]
    exact (refused_operand hm hempty _).answered _
  | utimensat hnr hnull =>
    simp only [handle, handleUtimensat, fdOnlyResponse, hnr]
    exact (refused_null hnull _).answered _

/-- The kernel gets the calls whose handlers look for the form, and no others. -/
theorem fd_only_continues (hm : m.Answers notif.pid E) (h : FdOnly m notif) {tr : Trace}
    {out : Option (State × IoResult Unit)} (hx : Exec E (handle state notif) tr out) :
    tr.filterMap responseOf = [⟨notif.id, 0, 0, USER_NOTIF_FLAG_CONTINUE⟩] ↔
      notif.data.nr ∈ [.sysNewfstatat, .sysStatx, .sysExecveat] := by
  have hsome := handle_returns (hx.mono fun _ _ _ => trivial)
  rw [fdOnly_response hm h tr out hx hsome]
  cases hnr : notif.data.nr <;>
    simp [fdOnlyResponse, hnr, USER_NOTIF_FLAG_CONTINUE]

end

-- ---------------------------------------------------------------------------
-- Two calls with an empty pathname
-- ---------------------------------------------------------------------------

def emptyPathNotif (nr : Syscall) : SeccompNotif :=
  ⟨7, 100, ⟨nr, fun i => if i = 1 then 64 else if i = 3 then 0x1000 else 3⟩⟩

def emptyPathMemory : Memory := .ofBytes 64 [0]

theorem emptyPath_memory : EmptyPath emptyPathMemory 64 :=
  ⟨by decide, Memory.has_ofBytes (by decide)⟩

theorem answers_emptyPath : emptyPathMemory.Answers 100 (Observed emptyPathMemory.answers) :=
  fun _ _ _ h => h trivial

theorem fd_only_newfstatat : Ensures (Observed emptyPathMemory.answers)
    (handle (State.new oneBind) (emptyPathNotif .sysNewfstatat)) fun tr _ =>
      tr.filterMap responseOf = [⟨7, 0, 0, USER_NOTIF_FLAG_CONTINUE⟩] :=
  fun _ _ hx => (fd_only_continues answers_emptyPath
    (.emptyPath rfl (by decide) emptyPath_memory) hx).mpr (by decide)

/-- `faccessat2(3, "", ..., AT_EMPTY_PATH)`. -/
theorem faccessat2_refused :
    FdOnly emptyPathMemory (emptyPathNotif .sysFaccessat2) ∧
      Ensures (Observed emptyPathMemory.answers)
        (handle (State.new oneBind) (emptyPathNotif .sysFaccessat2)) fun tr _ =>
          tr.filterMap responseOf = [⟨7, 0, -ENOENT, 0⟩] := by
  have honly : FdOnly emptyPathMemory (emptyPathNotif .sysFaccessat2) :=
    .emptyPath rfl (by decide) emptyPath_memory
  refine ⟨honly, fun tr out hx => ?_⟩
  have hsome := handle_returns (hx.mono fun _ _ _ => trivial)
  exact fdOnly_response answers_emptyPath honly tr out hx hsome

end PathShim
