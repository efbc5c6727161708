import PathShim.Linux.Pagination
import PathShim.Linux.Parameters
import PathShim.Linux.Reply

/-!
# Registers outside the parameters

One handler reads a register too many and two take a length for wider than it
is. Everything else of a notification that its system call does not declare has
no influence.
-/

namespace PathShim

open UnixPath Effects Paging

-- ---------------------------------------------------------------------------
-- What is read beyond the parameters
-- ---------------------------------------------------------------------------

/-- The size of the buffer for a link, from a whole register. -/
def linkRoom (notif : SeccompNotif) : Nat :=
  if notif.data.nr = .sysReadlink then (notif.data.args 2).toNat else (notif.data.args 3).toNat

/-- The supervisor reads the link at `v` for the tracee: the caller's own `cwd`, or one in a
bind. -/
inductive LinkRead (state : State) (pid : Pid) (ans : (op : Op) → op.Answer) (v : AbsPath) :
    OsStr → Prop
  | cwd {path} : (isOwnProcCwd v pid).eval ans = some true →
      (virtualCwd state pid).eval ans = some (some path) → LinkRead state pid ans v path.toPath
  | link {target} : (isOwnProcCwd v pid).eval ans = some false →
      state.view.projects v.toPath = true →
      ans (.readLink (state.view.resolveRead v.toPath)) = .ok target →
      LinkRead state pid ans v target

/-- The directory whose snapshot a descriptor is read from. -/
def Serving (state : State) (pid : Pid) (ans : (op : Op) → op.Answer) (fd : Fd)
    (directory : OpenDirectory) : Prop :=
  state.directories (keyOf ans pid, fd) = some directory ∧
    (directoryFdMatches state pid fd directory).eval ans = some true

/-- What is read beyond the parameters decides nothing: `faccessat` has no flags, and lengths are
`int`. -/
structure SameBeyond (state : State) (notif notif' : SeccompNotif)
    (ans : (op : Op) → op.Answer) : Prop where
  flags : notif.data.nr = .sysFaccessat → ∀ operand ∈ pathOperands notif,
    ∀ v, Resolves state notif ans operand v → state.view.projects v.toPath = true →
      asI32 (notif'.data.args 3) = asI32 (notif.data.args 3)
  room : notif.data.nr ∈ [.sysReadlink, .sysReadlinkat] → ∀ operand ∈ pathOperands notif,
    ∀ v, Resolves state notif ans operand v → ∀ target, LinkRead state notif.pid ans v target →
      min (linkRoom notif') target.bytes.length = min (linkRoom notif) target.bytes.length
  count : notif.data.nr = .sysGetdents64 → ∀ directory,
    Serving state notif.pid ans (asI32 (notif.data.args 0)) directory →
      directory.pageFrom (notif'.data.args 2).toNat directory.cursor =
        directory.pageFrom (notif.data.args 2).toNat directory.cursor

section
variable {state : State} {notif notif' : SeccompNotif} {ans : (op : Op) → op.Answer}
  (h : SameParameters notif notif')
include h

theorem pathOperands_congr
    (hnr : notif.data.nr ∈ [.sysFaccessat, .sysReadlink, .sysReadlinkat]) :
    pathOperands notif' = pathOperands notif := by
  simp only [List.mem_cons, List.not_mem_nil, or_false] at hnr
  rcases hnr with hnr | hnr | hnr
  · have h0 := h.int (i := 0) (by simp [parameters, hnr])
    have h1 := h.long (i := 1) (by simp [parameters, hnr])
    simp only [pathOperands, h.nr, hnr, h0, h1]
  · have h0 := h.long (i := 0) (by simp [parameters, hnr])
    simp only [pathOperands, h.nr, hnr, h0]
  · have h0 := h.int (i := 0) (by simp [parameters, hnr])
    have h1 := h.long (i := 1) (by simp [parameters, hnr])
    simp only [pathOperands, h.nr, hnr, h0, h1]

theorem resolves_congr {operand : Fd × UInt64} {v : AbsPath} :
    Resolves state notif' ans operand v ↔ Resolves state notif ans operand v := by
  simp only [Resolves, readAndResolve_congr h]

theorem SameBeyond.symm (hbeyond : SameBeyond state notif notif' ans) :
    SameBeyond state notif' notif ans where
  flags hnr operand hmem v hv hprojects := by
    rw [h.nr] at hnr
    rw [pathOperands_congr h (by simp [hnr])] at hmem
    exact (hbeyond.flags hnr operand hmem v ((resolves_congr h).mp hv) hprojects).symm
  room hnr operand hmem v hv target htarget := by
    rw [h.nr] at hnr
    rw [pathOperands_congr h (List.mem_cons_of_mem _ hnr)] at hmem
    rw [h.pid] at htarget
    exact (hbeyond.room hnr operand hmem v ((resolves_congr h).mp hv) target htarget).symm
  count hnr directory hserving := by
    rw [h.nr] at hnr
    rw [h.pid, h.int (i := 0) (by simp [parameters, hnr])] at hserving
    exact (hbeyond.count hnr directory hserving).symm

-- ---------------------------------------------------------------------------
-- Links
-- ---------------------------------------------------------------------------

/-- The part of `handleReadlink` behind the operand. -/
def linkAt (state : State) (notif : SeccompNotif) (buffer : UInt64) (v : AbsPath) :
    Sup (IoResult Unit) := do
  if ← isOwnProcCwd v notif.pid then
    match ← virtualCwd state notif.pid with
    | none => respondContinue notif.id
    | some target => returnLink notif buffer (linkRoom notif) target.toPath
  else if state.view.projects v.toPath then
    orRespond notif.id (ask (.readLink (state.view.resolveRead v.toPath)))
      (returnLink notif buffer (linkRoom notif))
  else respondContinue notif.id

/-- The descriptor, pathname and buffer of a `readlink`. -/
def linkOperand (notif : SeccompNotif) : Fd × UInt64 :=
  if notif.data.nr = .sysReadlink then (AT_FDCWD, notif.data.args 0)
  else (asI32 (notif.data.args 0), notif.data.args 1)

def linkBuffer (notif : SeccompNotif) : UInt64 :=
  if notif.data.nr = .sysReadlink then notif.data.args 1 else notif.data.args 2

omit h in
theorem handleReadlink_eq : handleReadlink state notif =
    orRespond notif.id (readAndResolve state notif (linkOperand notif).1 (linkOperand notif).2)
      (linkAt state notif (linkBuffer notif)) := by
  by_cases hnr : notif.data.nr = .sysReadlink
  · have hat : linkAt state notif (linkBuffer notif) = linkAt state notif (notif.data.args 1) :=
      congrArg (linkAt state notif) (if_pos hnr)
    have hroom : linkRoom notif = (notif.data.args 2).toNat := if_pos hnr
    simp only [handleReadlink, linkOperand, hat, if_pos hnr, ← hroom]
    rfl
  · have hat : linkAt state notif (linkBuffer notif) = linkAt state notif (notif.data.args 2) :=
      congrArg (linkAt state notif) (if_neg hnr)
    have hroom : linkRoom notif = (notif.data.args 3).toNat := if_neg hnr
    simp only [handleReadlink, linkOperand, hat, if_neg hnr, ← hroom]
    rfl

omit h in
theorem linkOperand_mem (hreadlink : notif.data.nr ∈ [.sysReadlink, .sysReadlinkat]) :
    linkOperand notif ∈ pathOperands notif := by
  rcases List.mem_pair.mp hreadlink with hnr | hnr <;> simp [linkOperand, pathOperands, hnr]

theorem linkOperand_congr (hreadlink : notif.data.nr ∈ [.sysReadlink, .sysReadlinkat]) :
    linkOperand notif' = linkOperand notif ∧ linkBuffer notif' = linkBuffer notif := by
  unfold linkOperand linkBuffer
  rw [h.nr]
  rcases List.mem_pair.mp hreadlink with hnr | hnr
  · have h0 := h.long (i := 0) (by simp [parameters, hnr])
    have h1 := h.long (i := 1) (by simp [parameters, hnr])
    simp only [hnr, if_true, h0, h1, and_self]
  · have h0 := h.int (i := 0) (by simp [parameters, hnr])
    have h1 := h.long (i := 1) (by simp [parameters, hnr])
    have h2 := h.long (i := 2) (by simp [parameters, hnr])
    simp only [hnr, reduceCtorEq, if_false, h0, h1, h2, and_self]

omit h in
theorem reveals_readLink (path : OsStr) : (ask (.readLink path)).Calls Op.Reveals :=
  .perform (S := Op.Reveals) trivial

theorem follows_linkAt {buffer : UInt64} {v : AbsPath}
    (hroom : ∀ target, LinkRead state notif.pid ans v target →
      min (linkRoom notif') target.bytes.length = min (linkRoom notif) target.bytes.length) :
    Follows ans (linkAt state notif buffer v) (linkAt state notif' buffer v) := by
  simp only [linkAt, h.pid]
  refine .after fun own hown => ?_
  have hown := eval_of_revealed (calls_isOwnProcCwd reads_reveals _ _) hown
  cases own with
  | true =>
    refine .after fun cwd hcwd => ?_
    have hcwd := eval_of_revealed (calls_virtualCwd reads_reveals _ _) hcwd
    cases cwd with
    | none => exact follows_respond _ _ _ _ _
    | some path => exact follows_returnLink h _ (hroom _ (.cwd hown hcwd))
  | false =>
    simp only [Bool.false_eq_true, if_false]
    split
    · rename_i hprojects
      refine follows_orRespond _ _ (.refl _) fun target htarget => ?_
      have htarget := eval_of_revealed (reveals_readLink _) htarget
      exact follows_returnLink h _ (hroom _ (.link hown hprojects (Option.some.inj htarget)))
    · exact follows_respond _ _ _ _ _

theorem follows_handleReadlink (hreadlink : notif.data.nr ∈ [.sysReadlink, .sysReadlinkat])
    (hbeyond : SameBeyond state notif notif' ans) :
    Follows ans (handleReadlink state notif) (handleReadlink state notif') := by
  obtain ⟨hoperand, hbuffer⟩ := linkOperand_congr h hreadlink
  rw [handleReadlink_eq, handleReadlink_eq, hoperand, hbuffer, readAndResolve_congr h]
  refine follows_orRespond _ _ (.refl _) fun v hv => follows_linkAt h fun target => ?_
  exact hbeyond.room hreadlink _ (linkOperand_mem hreadlink) v (resolves_of_revealed hv) target

omit h in
/-- What is written tells how much was cut off. -/
theorem returnLink_room {buffer : UInt64} {size size' : Nat} {target : OsStr}
    (hfollows : Follows ans (returnLink notif buffer size target)
      (returnLink notif' buffer size' target)) :
    min size' target.bytes.length = min size target.bytes.length := by
  have hcall : Follows ans
      (.call (.processVmWritev notif.pid buffer
        (target.bytes.take (min size target.bytes.length))) _)
      (.call (.processVmWritev notif'.pid buffer
        (target.bytes.take (min size' target.bytes.length))) _) := hfollows
  obtain ⟨r, r', hseen⟩ := hcall.head
  injection congrArg Event.op hseen with _ _ hbytes
  have hlength := congrArg List.length hbytes
  rw [List.length_take, List.length_take] at hlength
  omega

theorem linkAt_room {buffer : UInt64} {v : AbsPath}
    (hfollows : Follows ans (linkAt state notif buffer v) (linkAt state notif' buffer v))
    (target : OsStr) (htarget : LinkRead state notif.pid ans v target) :
    min (linkRoom notif') target.bytes.length = min (linkRoom notif) target.bytes.length := by
  simp only [linkAt, h.pid] at hfollows
  have hown {own : Bool} := hfollows.rest (a := own) (calls_isOwnProcCwd reads_reveals _ _)
  cases htarget with
  | cwd howned hcwd =>
    exact returnLink_room ((hown howned).rest (calls_virtualCwd reads_reveals _ _) hcwd)
  | link howned hprojects hlink =>
    have hrest := hown howned
    simp only [Bool.false_eq_true, if_false, hprojects, if_true] at hrest
    exact returnLink_room (hrest.rest (reveals_readLink _) (congrArg some hlink))

theorem handleReadlink_room (hreadlink : notif.data.nr ∈ [.sysReadlink, .sysReadlinkat])
    (hfollows : Follows ans (handleReadlink state notif) (handleReadlink state notif')) :
    ∀ operand ∈ pathOperands notif, ∀ v, Resolves state notif ans operand v →
      ∀ target, LinkRead state notif.pid ans v target →
        min (linkRoom notif') target.bytes.length = min (linkRoom notif) target.bytes.length := by
  intro operand hmem v hv
  obtain ⟨hoperand, hbuffer⟩ := linkOperand_congr h hreadlink
  obtain rfl : operand = linkOperand notif := by
    rcases List.mem_pair.mp hreadlink with hnr | hnr <;>
      simpa [linkOperand, pathOperands, hnr] using hmem
  rw [handleReadlink_eq, handleReadlink_eq, hoperand, hbuffer, readAndResolve_congr h] at hfollows
  exact linkAt_room h
    (hfollows.rest (calls_readAndResolve reads_reveals fun _ => trivial) hv)

-- ---------------------------------------------------------------------------
-- Directory entries
-- ---------------------------------------------------------------------------

theorem follows_handleGetdents (hnr : notif.data.nr = .sysGetdents64)
    (hcount : ∀ directory,
      Serving state notif.pid ans (asI32 (notif.data.args 0)) directory →
        directory.pageFrom (notif'.data.args 2).toNat directory.cursor =
          directory.pageFrom (notif.data.args 2).toNat directory.cursor) :
    Follows ans (handleGetdents state notif) (handleGetdents state notif') := by
  have h0 := h.int (i := 0) (by simp [parameters, hnr])
  have h1 := h.long (i := 1) (by simp [parameters, hnr])
  simp only [handleGetdents, h.pid, h0, h1, packEntries_pageFrom]
  refine .after fun key hkey => ?_
  have hkey := eval_of_revealed (calls_processKey reads_reveals _) hkey
  obtain rfl : keyOf ans notif.pid = key := Option.some.inj hkey
  split
  · exact follows_answered state (follows_respond _ _ _ _ _)
  · rename_i directory hdirectory
    refine .after fun matching hmatching => ?_
    have hmatching := eval_of_revealed (calls_directoryFdMatches reads_reveals trivial) hmatching
    cases matching with
    | false => exact follows_answered _ (follows_respond _ _ _ _ _)
    | true =>
      simp only [if_true, hcount directory ⟨hdirectory, hmatching⟩]
      refine follows_answered _ ?_
      split
      · exact follows_respond _ _ _ _ _
      · exact follows_orRespond _ _ (.refl _) fun _ _ => follows_respond _ _ _ _ _

omit h in
/-- Programs that follow each other end in the same state. -/
theorem Follows.sameState {s s' : State} {reply reply' : Sup (IoResult Unit)} {id : UInt64}
    (hfollows : Follows ans (answered s reply) (answered s' reply'))
    (hreply : Responds id reply) : s' = s := by
  have hx := exec_eval ans (E := Revealed ans) (fun _ _ => rfl) (answered s reply)
  have honce := (Settles.answered s hreply).once (isReply_marks id)
  obtain ⟨hsome, -⟩ := honce _ _ (hx.mono fun _ _ _ => trivial)
  obtain ⟨⟨t, r⟩, hout⟩ := Option.isSome_iff_exists.mp hsome
  rw [hout] at hx
  obtain ⟨tr', hx', -⟩ := hfollows _ _ hx
  exact (exec_answered_ok hx').1.symm.trans (exec_answered_ok hx).1

/-- The cursor tells how many entries were handed out. -/
theorem handleGetdents_count (hnr : notif.data.nr = .sysGetdents64)
    (hfollows : Follows ans (handleGetdents state notif) (handleGetdents state notif'))
    (directory : OpenDirectory)
    (hserving : Serving state notif.pid ans (asI32 (notif.data.args 0)) directory) :
    directory.pageFrom (notif'.data.args 2).toNat directory.cursor =
      directory.pageFrom (notif.data.args 2).toNat directory.cursor := by
  have h0 := h.int (i := 0) (by simp [parameters, hnr])
  have h1 := h.long (i := 1) (by simp [parameters, hnr])
  obtain ⟨hdirectory, hmatching⟩ := hserving
  simp only [handleGetdents, h.pid, h0, h1, packEntries_pageFrom] at hfollows
  have hrest := hfollows.rest (a := keyOf ans notif.pid)
    (calls_processKey reads_reveals _) rfl
  simp only [hdirectory] at hrest
  have hrest := hrest.rest (calls_directoryFdMatches reads_reveals trivial) hmatching
  simp only [if_true] at hrest
  have hstate := hrest.sameState (by
    split
    · exact responds_error _
    · exact responds_orRespond (silently_writeMemory _ _) fun _ => responds_value _)
  have hcursor := congrFun (congrArg State.directories hstate)
    (keyOf ans notif.pid, asI32 (notif.data.args 0))
  simp only [State.insertDirectory, Function.update_self, Option.some.injEq,
    OpenDirectory.mk.injEq, true_and] at hcursor
  exact (List.prefix_of_prefix_length_le (pageFrom_initial _ _) (pageFrom_initial _ _)
    (by omega)).eq_of_length (by omega)

-- ---------------------------------------------------------------------------
-- Access
-- ---------------------------------------------------------------------------

/-- The flags are handed to the host. -/
theorem handleAccess_flags (hnr : notif.data.nr = .sysFaccessat)
    (hfollows : Follows ans (handleAccess state notif) (handleAccess state notif')) :
    ∀ operand ∈ pathOperands notif, ∀ v, Resolves state notif ans operand v →
      state.view.projects v.toPath = true →
        asI32 (notif'.data.args 3) = asI32 (notif.data.args 3) := by
  intro operand hmem v hv hprojects
  obtain rfl : operand = (asI32 (notif.data.args 0), notif.data.args 1) := by
    simpa [pathOperands, hnr] using hmem
  have h0 := h.int (i := 0) (by simp [parameters, hnr])
  have h1 := h.long (i := 1) (by simp [parameters, hnr])
  have h2 := h.int (i := 2) (by simp [parameters, hnr])
  unfold handleAccess at hfollows
  rw [if_neg (by simp [hnr]), if_neg (by simp [h.nr, hnr]), h0, h1, h2] at hfollows
  simp only [onProjected, readAndResolve_congr h] at hfollows
  have hrest := hfollows.rest (calls_readAndResolve reads_reveals fun _ => trivial) hv
  simp only [hprojects, if_true, cString_eq] at hrest
  obtain ⟨r, r', hseen⟩ := hrest.head
  injection congrArg Event.op hseen

-- ---------------------------------------------------------------------------
-- Handling
-- ---------------------------------------------------------------------------

theorem follows_handle (hbeyond : SameBeyond state notif notif' ans) :
    Follows ans (handle state notif) (handle state notif') := by
  cases hnr : notif.data.nr <;> simp only [handle, h.nr, hnr]
  case sysExecve | sysExecveat =>
    exact follows_answered state (follows_handleExec h (by simp [hnr]))
  case sysOpen | sysOpenat | sysOpenat2 => exact follows_handleOpen h (by simp [hnr])
  case sysNewfstatat => exact follows_answered state (follows_handleStat h hnr)
  case sysStatx => exact follows_answered state (follows_handleStatx h hnr)
  case sysAccess | sysFaccessat | sysFaccessat2 =>
    refine follows_answered state (follows_handleAccess h (by simp [hnr]) fun hnr v => ?_)
    exact hbeyond.flags hnr _ (by simp [pathOperands, hnr]) v
  case sysMkdir | sysMkdirat =>
    exact follows_answered state (follows_handleMkdir h (by simp [hnr]))
  case sysUnlink | sysUnlinkat | sysRmdir =>
    exact follows_answered state (follows_handleUnlink h (by simp [hnr]))
  case sysRename | sysRenameat | sysRenameat2 =>
    exact follows_answered state (follows_handleRename h (by simp [hnr]))
  case sysReadlink | sysReadlinkat =>
    exact follows_answered state (follows_handleReadlink h (by simp [hnr]) hbeyond)
  case sysSymlink | sysSymlinkat =>
    exact follows_answered state (follows_handleSymlink h (by simp [hnr]))
  case sysGetdents64 => exact follows_handleGetdents h hnr (hbeyond.count hnr)
  case sysChdir | sysFchdir => exact follows_handleChdir h (by simp [hnr])
  case sysGetcwd => exact follows_answered state (follows_handleGetcwd h hnr)
  case sysTruncate => exact follows_answered state (follows_handleTruncate h hnr)
  case sysChmod | sysFchmodat =>
    exact follows_answered state (follows_handleChmod h (by simp [hnr]))
  case sysChown | sysLchown | sysFchownat =>
    exact follows_answered state (follows_handleChown h (by simp [hnr]))
  case sysUtimensat => exact follows_answered state (follows_handleUtimensat h hnr)
  case other => exact follows_answered state (follows_respond _ _ _ _ _)

omit h in
theorem Follows.reply {s : State} {reply reply' : Sup (IoResult Unit)}
    (hfollows : Follows ans (answered s reply) (answered s reply')) : Follows ans reply reply' := by
  intro tr out hx
  obtain ⟨tr', hx', hseen⟩ := hfollows tr _ (exec_answered.mpr ⟨out, hx, rfl⟩)
  obtain ⟨out', hreply, hout⟩ := exec_answered.mp hx'
  obtain rfl : out = out' := Option.map_injective (Prod.mk_right_injective s) hout
  exact ⟨tr', hreply, hseen⟩

theorem beyond_of_follows (hfollows : Follows ans (handle state notif) (handle state notif')) :
    SameBeyond state notif notif' ans where
  flags hnr := by
    simp only [handle, h.nr, hnr] at hfollows
    exact handleAccess_flags h hnr hfollows.reply
  room hreadlink := by
    have hreply : Follows ans (handleReadlink state notif) (handleReadlink state notif') := by
      rcases List.mem_pair.mp hreadlink with hnr | hnr <;>
        simp only [handle, h.nr, hnr] at hfollows <;>
        exact hfollows.reply
    exact handleReadlink_room h hreadlink hreply
  count hnr := by
    simp only [handle, h.nr, hnr] at hfollows
    exact handleGetdents_count h hnr hfollows

/-- Two notifications of the same call are handled alike, unless it is `faccessat` of a projected
path and the register after its parameters differs, or a length that does not fit an `int` decides
how much is handed out. -/
theorem registers_outside_parameters : HandledAlike ans (handle state notif) (handle state notif') ↔
    SameBeyond state notif notif' ans := by
  constructor
  · rintro ⟨hfollows, -⟩
    exact beyond_of_follows h hfollows
  · intro hbeyond
    exact ⟨follows_handle h hbeyond, follows_handle h.symm (hbeyond.symm h)⟩

end

-- ---------------------------------------------------------------------------
-- A register too many
-- ---------------------------------------------------------------------------

/-- `mkdir` with something in the registers behind the mode, and in its upper part. -/
def mkdirNoise (noise : UInt64) : SeccompNotif :=
  ⟨7, 100, .sysMkdir, fun i =>
    if i = 0 then 64 else if i = 1 then (0o755 : UInt64) ||| noise <<< 16 else noise⟩

theorem registers_outside_mkdir : HandledAlike projectedMemory.answers
    (handle (.new oneBind) (mkdirNoise 0)) (handle (.new oneBind) (mkdirNoise 5)) := by
  have hsame : SameParameters (mkdirNoise 0) (mkdirNoise 5) := by
    refine ⟨rfl, rfl, fun i width hwidth => ?_⟩
    match i with
    | 0 | 1 =>
      obtain rfl := Option.some.inj hwidth
      rfl
    | 2 | 3 | 4 | 5 => cases hwidth
  exact (registers_outside_parameters hsame).mpr
    ⟨by simp [mkdirNoise], by simp [mkdirNoise], by simp [mkdirNoise]⟩

def faccessatNotif (fourth : UInt64) : SeccompNotif :=
  ⟨7, 100, .sysFaccessat, fun i => if i = 1 then 64 else if i = 3 then fourth else 0⟩

/-- `faccessat` has three parameters, but the fourth register reaches the host as flags. -/
theorem faccessat_fourth_register :
    SameParameters (faccessatNotif 0) (faccessatNotif 7) ∧
      ¬ HandledAlike projectedMemory.answers (handle (.new oneBind) (faccessatNotif 0))
        (handle (.new oneBind) (faccessatNotif 7)) := by
  have hsame : SameParameters (faccessatNotif 0) (faccessatNotif 7) := by
    refine ⟨rfl, rfl, fun i width hwidth => ?_⟩
    match i with
    | 0 | 1 | 2 =>
      obtain rfl := Option.some.inj hwidth
      rfl
    | 3 | 4 | 5 => cases hwidth
  refine ⟨hsame, fun ⟨hfollows, _⟩ => ?_⟩
  have hresolves : Resolves (.new oneBind) (faccessatNotif 0) projectedMemory.answers (0, 64)
      [⟨ascii ['a'], by decide⟩, ⟨ascii ['x'], by decide⟩] := rfl
  have hflags := (beyond_of_follows hsame hfollows).flags rfl (0, 64) (by decide) _ hresolves
  exact absurd (hflags (by decide)) (by decide)

end PathShim
