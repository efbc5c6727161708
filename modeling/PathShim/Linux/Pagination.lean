import PathShim.Linux.Dirent
import PathShim.Linux.Continue
import PathShim.Linux.Delivered

/-!
# Reading a directory to its end

A tracked directory is read by any number of `getdents64` calls with buffers of
any size, and the cursor survives from one call to the next. What the calls
wrote, read record by record, is the snapshot from its start, each entry once.
-/

namespace PathShim

open UnixPath Effects Paging

-- ---------------------------------------------------------------------------
-- Sessions
-- ---------------------------------------------------------------------------

structure Call where
  before : State
  notif : SeccompNotif
  tr : Trace
  after : State

def Call.capacity (c : Call) : Nat := (c.notif.data.args 2).toNat

/-- A `getdents64` on `fd` by a thread of group `key`, while the descriptor is the directory it was
tracked for and everything can be written. -/
structure Serves (E : Env Op.Answer) (key : Pid) (fd : Fd) (c : Call) : Prop where
  number : c.notif.data.nr = .sysGetdents64
  descriptor : asI32 (c.notif.data.args 0) = fd
  group : ∀ group, Returns E (processKey c.notif.pid) group → group = key
  directory : ∀ directory, c.before.directories (key, fd) = some directory →
    ∀ matching, Returns E (directoryFdMatches c.before c.notif.pid fd directory) matching →
      matching = true
  writes : ∀ address bytes r, E (.processVmWritev c.notif.pid address bytes) r →
    ∃ n, r = .ok n ∧ n.val = bytes.length
  handled : ∃ r, Exec E (handle c.before c.notif) c.tr (some (c.after, r))

/-- Such calls one after the other. Whatever happens in between leaves the tracked directory
alone. -/
inductive Session (key : Pid) (fd : Fd) : State → List Call → State → Prop
  | nil {s} : Session key fd s [] s
  | other {s s' s'' calls} : s'.directories (key, fd) = s.directories (key, fd) →
      Session key fd s' calls s'' → Session key fd s calls s''
  | call {E c calls s} : Serves E key fd c → Session key fd c.after calls s →
      Session key fd c.before (c :: calls) s

/-- What the directory ought to be read as. -/
def OpenDirectory.dirents (d : OpenDirectory) : List Dirent :=
  (d.entries.zipIdx 1).map Placed.dirent

/-- A call that starts at entry `k`: its result, and the entries its buffer reads as. -/
structure PageOf (d : OpenDirectory) (key : Pid) (fd : Fd) (c : Call) (k : Nat)
    (result : Except Errno Bytes) (entries : List Dirent) : Prop where
  before : c.before.directories (key, fd) = some { d with cursor := k }
  after : c.after.directories (key, fd) = some { d with cursor := k + entries.length }
  delivered : Delivered c.notif (c.notif.data.args 1) c.tr result
  decodes : ∀ bytes, result = .ok bytes →
    bytes.length ≤ c.capacity ∧ readDirents bytes = some entries
  aligned : ∀ dirent ∈ entries, 8 ∣ dirent.recordLength
  next : entries <+: d.dirents.drop k
  refused : ∀ e, result = .error e ↔
    e = EINVAL ∧ ∃ entry ∈ d.entries[k]?, c.capacity < recordLength entry
  stays : ∀ e, result = .error e → entries = []
  zero : result = .ok [] ↔ k = d.entries.length

/-- The next entry after offset `k` has no room. -/
def OpenDirectory.Stuck (d : OpenDirectory) (capacity k : Nat) : Prop :=
  ∃ entry ∈ d.entries[k]?, capacity < recordLength entry

/-- A result that starts right after the entry whose `d_off` is `k`. -/
structure OpenDirectory.PageAt (d : OpenDirectory) (capacity k : Nat)
    (result : Except Errno Bytes) : Prop where
  next : ∀ bytes, result = .ok bytes →
    ∃ entries, readDirents bytes = some entries ∧ entries <+: d.dirents.drop k
  atEnd : result = .ok [] ↔ k = d.entries.length
  refused : ∀ e, result = .error e ↔ e = EINVAL ∧ d.Stuck capacity k

/-- Each call goes on where the one before it stopped, and `delivered` is what they read as
together. -/
inductive Paged (d : OpenDirectory) (key : Pid) (fd : Fd) : Nat → List Call → List Dirent → Prop
  | nil {k} : Paged d key fd k [] []
  | cons {c calls k result entries delivered} : PageOf d key fd c k result entries →
      Paged d key fd (k + entries.length) calls delivered →
      Paged d key fd k (c :: calls) (entries ++ delivered)

/-- Names and positions a record has room for. -/
structure Snapshot (entries : List DirEntry) : Prop where
  names : ∀ entry ∈ entries, entry.name.bytes.length ≤ 255
  count : entries.length < 2 ^ 63

-- ---------------------------------------------------------------------------
-- One call
-- ---------------------------------------------------------------------------

theorem drop_zipIdx (entries : List DirEntry) (k n : Nat) :
    (entries.zipIdx n).drop k = (entries.drop k).zipIdx (n + k) := by
  induction entries generalizing k n with
  | nil => simp
  | cons entry rest ih =>
    cases k with
    | zero => rfl
    | succ k =>
      rw [List.zipIdx_cons, List.drop_succ_cons, List.drop_succ_cons, ih, Nat.add_assoc,
        Nat.add_comm 1]

section
variable {d : OpenDirectory} {key : Pid} {fd : Fd} {c : Call} {k : Nat} {s s' : State}
  {calls : List Call}

/-- The entries that one call from entry `k` on delivers. -/
def OpenDirectory.pageFrom (d : OpenDirectory) (capacity k : Nat) : List Placed :=
  page Placed.size capacity ((d.entries.drop k).zipIdx (k + 1))

/-- What such a call returns. -/
def OpenDirectory.reply (d : OpenDirectory) (capacity k : Nat) : Except Errno Bytes :=
  if (d.pageFrom capacity k).flatMap Placed.record = [] ∧
      k + (d.pageFrom capacity k).length < d.entries.length then .error EINVAL
  else .ok ((d.pageFrom capacity k).flatMap Placed.record)

theorem pageFrom_initial (capacity k : Nat) :
    d.pageFrom capacity k <+: (d.entries.zipIdx 1).drop k := by
  rw [drop_zipIdx, Nat.add_comm 1]
  exact page_initial _ _

theorem pageFrom_end_le (hk : k ≤ d.entries.length) (capacity : Nat) :
    k + (d.pageFrom capacity k).length ≤ d.entries.length := by
  have hlength := (pageFrom_initial (d := d) (k := k) capacity).length_le
  rw [List.length_drop, List.length_zipIdx] at hlength
  omega

theorem pageFrom_fits (hsnapshot : Snapshot d.entries) (capacity : Nat) :
    ∀ block ∈ d.pageFrom capacity k, block.Fits := by
  intro block hblock
  have hmem := List.mem_of_mem_drop ((pageFrom_initial capacity k).subset hblock)
  obtain ⟨entry, position⟩ := block
  obtain ⟨-, hposition, hentry⟩ := List.mem_zipIdx hmem
  refine ⟨hsnapshot.names entry ?_, ?_⟩
  · rw [hentry]
    exact List.getElem_mem _
  · have := hsnapshot.count
    show position < 2 ^ 63
    omega

theorem pageFrom_eq_nil {capacity : Nat} :
    d.pageFrom capacity k = [] ↔ ∀ entry ∈ d.entries[k]?, capacity < recordLength entry := by
  rw [OpenDirectory.pageFrom, page_eq_nil, ← List.head?_drop]
  cases d.entries.drop k with
  | nil => simp
  | cons entry rest => simp [Placed.size]

/-- The loop of `handle_getdents`, from the cursor on. -/
theorem packEntries_pageFrom (capacity k : Nat) :
    packEntries capacity (d.entries.drop k) k [] =
      ((d.pageFrom capacity k).flatMap Placed.record, k + (d.pageFrom capacity k).length) := by
  rw [packEntries_eq _ _ (Nat.zero_le capacity)]
  rfl

/-- The error is for an empty buffer with entries left. -/
theorem exec_getdents_reply {E : Env Op.Answer} {notif : SeccompNotif} {bytes : Bytes} {tr : Trace}
    {left : Prop} [Decidable left] {r : IoResult Unit}
    (hwrites : ∀ address bytes r, E (.processVmWritev notif.pid address bytes) r →
      ∃ n, r = .ok n ∧ n.val = bytes.length)
    (hx : Exec E (if bytes = [] ∧ left then respondError notif.id EINVAL
      else orRespond notif.id (writeMemory notif.pid (notif.data.args 1) bytes) fun () =>
        respondValue notif.id bytes.length) tr (some r)) :
    Delivered notif (notif.data.args 1) tr
      (if bytes = [] ∧ left then .error EINVAL else .ok bytes) := by
  split at hx
  · rename_i hleft
    rw [if_pos hleft]
    exact delivered_error hx
  · rename_i hleft
    rw [if_neg hleft]
    exact delivered_bytes (hwrites _ _) hx

/-- A `getdents64` on a tracked descriptor that matches looks, moves the cursor behind the page, and
only then replies. -/
theorem exec_getdents {E : Env Op.Answer} {notif : SeccompNotif} {tr : Trace} {r : IoResult Unit}
    (hgroup : ∀ group, Returns E (processKey notif.pid) group → group = key)
    (hd : s.directories (key, asI32 (notif.data.args 0)) = some { d with cursor := k })
    (hmatch : ∀ matching, Returns E (directoryFdMatches s notif.pid (asI32 (notif.data.args 0))
      { d with cursor := k }) matching → matching = true)
    (hx : Exec E (handleGetdents s notif) tr (some (s', r))) :
    ∃ looks rest, tr = looks ++ rest ∧ (∀ e ∈ looks, e.op.looks = true) ∧
      s' = s.insertDirectory (key, asI32 (notif.data.args 0))
        { d with cursor := k + (d.pageFrom (notif.data.args 2).toNat k).length } ∧
      Exec E (if (d.pageFrom (notif.data.args 2).toNat k).flatMap Placed.record = [] ∧
            k + (d.pageFrom (notif.data.args 2).toNat k).length < d.entries.length then
          respondError notif.id EINVAL
        else orRespond notif.id (writeMemory notif.pid (notif.data.args 1)
            ((d.pageFrom (notif.data.args 2).toNat k).flatMap Placed.record)) fun () =>
          respondValue notif.id
            ((d.pageFrom (notif.data.args 2).toNat k).flatMap Placed.record).length)
        rest (some r) := by
  unfold handleGetdents at hx
  rcases exec_bind.mp hx with ⟨group, first, rest, hfirst, hrest, rfl⟩ | ⟨-, hnone⟩
  · have hlooks := hfirst.calls (calls_processKey reads_looks _)
    obtain rfl := hgroup group ⟨first, hfirst⟩
    simp only [hd] at hrest
    rcases exec_bind.mp hrest with ⟨matching, second, last, hsecond, hlast, rfl⟩ | ⟨-, hnone⟩
    · have hlooks' := hsecond.calls (calls_directoryFdMatches reads_looks rfl)
      obtain rfl := hmatch matching ⟨second, hsecond⟩
      simp only [if_true, packEntries_pageFrom] at hlast
      obtain ⟨hafter, hreply⟩ := exec_answered_ok hlast
      refine ⟨first ++ second, last, (List.append_assoc ..).symm, fun e he => ?_, hafter, hreply⟩
      exact (List.mem_append.mp he).elim (hlooks e) (hlooks' e)
    · cases hnone
  · cases hnone

/-- What such a call does to the directory, and what it returns. -/
theorem exec_serves {E : Env Op.Answer} (hserves : Serves E key fd c)
    (hd : c.before.directories (key, fd) = some { d with cursor := k }) :
    c.after.directories (key, fd) =
      some { d with cursor := k + (d.pageFrom c.capacity k).length } ∧
    Delivered c.notif (c.notif.data.args 1) c.tr
      (if (d.pageFrom c.capacity k).flatMap Placed.record = [] ∧
        k + (d.pageFrom c.capacity k).length < d.entries.length then .error EINVAL
      else .ok ((d.pageFrom c.capacity k).flatMap Placed.record)) := by
  obtain ⟨r, hx⟩ := hserves.handled
  rw [show handle c.before c.notif = handleGetdents c.before c.notif by
    rw [handle, hserves.number]] at hx
  obtain rfl := hserves.descriptor
  obtain ⟨looks, rest, htr, hlooks, hafter, hreply⟩ :=
    exec_getdents hserves.group hd (hserves.directory _ hd) hx
  rw [htr, hafter]
  exact ⟨Function.update_self _ _ _, (exec_getdents_reply hserves.writes hreply).after hlooks⟩

theorem records_eq_nil {blocks : List Placed} :
    blocks.flatMap Placed.record = [] ↔ blocks = [] := by
  constructor
  · intro h
    cases blocks with
    | nil => rfl
    | cons block blocks =>
      have hlength := length_records (block :: blocks)
      have hbounds := recordLength_bounds block.1
      rw [h, total_cons, Placed.size, List.length_nil] at hlength
      omega
  · rintro rfl
    rfl

/-- The buffer is empty with entries left if the next record does not fit. -/
theorem pageFrom_stuck {capacity : Nat} :
    ((d.pageFrom capacity k).flatMap Placed.record = [] ∧
      k + (d.pageFrom capacity k).length < d.entries.length) ↔ d.Stuck capacity k := by
  rw [records_eq_nil]
  constructor
  · rintro ⟨hpage, hlt⟩
    rw [hpage, List.length_nil, Nat.add_zero] at hlt
    have hentry : d.entries[k]? = some d.entries[k] := List.getElem?_eq_getElem hlt
    exact ⟨_, hentry, pageFrom_eq_nil.mp hpage _ hentry⟩
  · rintro ⟨entry, hentry, hlt⟩
    have hpage : d.pageFrom capacity k = [] := by
      refine pageFrom_eq_nil.mpr fun entry' hentry' => ?_
      obtain rfl := Option.some.inj (hentry.symm.trans hentry')
      exact hlt
    obtain ⟨hlength, -⟩ := List.getElem?_eq_some_iff.mp hentry
    refine ⟨hpage, ?_⟩
    rwa [hpage]

theorem reply_eq_ok {capacity : Nat} {bytes : Bytes} (h : d.reply capacity k = .ok bytes) :
    bytes = (d.pageFrom capacity k).flatMap Placed.record ∧ ¬ d.Stuck capacity k := by
  unfold OpenDirectory.reply at h
  split at h
  · cases h
  · rename_i hstuck
    exact ⟨(Except.ok.inj h).symm, mt pageFrom_stuck.mpr hstuck⟩

theorem reply_eq_error {capacity : Nat} {e : Errno} :
    d.reply capacity k = .error e ↔ e = EINVAL ∧ d.Stuck capacity k := by
  unfold OpenDirectory.reply
  split
  · rename_i hstuck
    rw [Except.error.injEq]
    exact ⟨fun h => ⟨h.symm, pageFrom_stuck.mp hstuck⟩, fun h => h.1.symm⟩
  · rename_i hstuck
    exact ⟨fun h => (by cases h), fun h => absurd (pageFrom_stuck.mpr h.2) hstuck⟩

theorem pageAt_reply (hsnapshot : Snapshot d.entries) (hk : k ≤ d.entries.length)
    (capacity : Nat) : d.PageAt capacity k (d.reply capacity k) where
  next bytes h := by
    obtain ⟨rfl, -⟩ := reply_eq_ok h
    refine ⟨_, readDirents_records (pageFrom_fits hsnapshot capacity), ?_⟩
    rw [OpenDirectory.dirents, ← List.map_drop]
    exact (pageFrom_initial _ _).map _
  atEnd := by
    constructor
    · intro h
      obtain ⟨hrecords, hstuck⟩ := reply_eq_ok h
      have hpage := records_eq_nil.mp hrecords.symm
      refine hk.eq_of_not_lt fun hlt => hstuck ?_
      have hentry : d.entries[k]? = some d.entries[k] := List.getElem?_eq_getElem hlt
      exact ⟨_, hentry, pageFrom_eq_nil.mp hpage _ hentry⟩
    · rintro rfl
      have hpage : d.pageFrom capacity d.entries.length = [] :=
        pageFrom_eq_nil.mpr fun entry hentry => by simp at hentry
      simp [OpenDirectory.reply, hpage]
  refused _ := reply_eq_error

theorem page_of_serves {E : Env Op.Answer} (hsnapshot : Snapshot d.entries)
    (hk : k ≤ d.entries.length) (hserves : Serves E key fd c)
    (hd : c.before.directories (key, fd) = some { d with cursor := k }) :
    ∃ result, PageOf d key fd c k result ((d.pageFrom c.capacity k).map Placed.dirent) := by
  obtain ⟨hafter, hdelivered⟩ := exec_serves hserves hd
  rw [← List.length_map (f := Placed.dirent)] at hafter
  have hpage := pageAt_reply hsnapshot hk c.capacity
  refine ⟨d.reply c.capacity k, hd, hafter, hdelivered, fun bytes h => ?_, fun dirent hdirent => ?_,
    ?_, hpage.refused, fun e h => ?_, hpage.atEnd⟩
  · obtain ⟨rfl, -⟩ := reply_eq_ok h
    refine ⟨?_, readDirents_records (pageFrom_fits hsnapshot _)⟩
    rw [length_records]
    exact total_page_le _ _
  · obtain ⟨block, -, rfl⟩ := List.mem_map.mp hdirent
    exact (recordLength_bounds block.1).2.2
  · rw [OpenDirectory.dirents, ← List.map_drop]
    exact (pageFrom_initial _ _).map _
  · obtain ⟨-, hstuck⟩ := reply_eq_error.mp h
    rw [records_eq_nil.mp (pageFrom_stuck.mpr hstuck).1, List.map_nil]

-- ---------------------------------------------------------------------------
-- Many calls
-- ---------------------------------------------------------------------------

/-- A session delivers the pages of what is left, one for each call. -/
theorem Session.paged (h : Session key fd s calls s') (hsnapshot : Snapshot d.entries)
    (hk : k ≤ d.entries.length) (hd : s.directories (key, fd) = some { d with cursor := k }) :
    ∃ delivered, Paged d key fd k calls delivered ∧
      delivered = (pages Placed.size (calls.map Call.capacity)
        ((d.entries.zipIdx 1).drop k)).flatten.map Placed.dirent ∧
      s'.directories (key, fd) = some { d with cursor := k + delivered.length } := by
  induction h generalizing k with
  | nil => exact ⟨[], .nil, rfl, hd⟩
  | other hsame _ ih => exact ih hk (hsame.trans hd)
  | @call E c calls s hserves _ ih =>
    obtain ⟨result, hpage⟩ := page_of_serves hsnapshot hk hserves hd
    have hblocks : page Placed.size c.capacity ((d.entries.zipIdx 1).drop k) =
        d.pageFrom c.capacity k := by
      rw [drop_zipIdx, Nat.add_comm 1]
      rfl
    have hlength : ((d.pageFrom c.capacity k).map Placed.dirent).length =
        (d.pageFrom c.capacity k).length := List.length_map _
    have hk' := pageFrom_end_le hk c.capacity
    obtain ⟨delivered, hpaged, hdelivered, hafter⟩ := ih (hlength ▸ hk') hpage.after
    refine ⟨_, .cons hpage hpaged, ?_, ?_⟩
    · rw [List.map_cons, pages, List.flatten_cons, List.map_append, hblocks, List.drop_drop,
        hdelivered, hlength]
    · rw [hafter, List.length_append, Nat.add_assoc]

theorem pages_initial (rooms : List Nat) (blocks : List Placed) :
    (pages Placed.size rooms blocks).flatten <+: blocks := ⟨_, flatten_pages_append rooms blocks⟩

end

/-- The calls on a fresh snapshot deliver it from its start, and all of it once there were as many
of them as entries, with room for each. -/
theorem getdents_delivers {d : OpenDirectory} {key : Pid} {fd : Fd} {s s' : State}
    {calls : List Call} (hsnapshot : Snapshot d.entries)
    (hd : s.directories (key, fd) = some { d with cursor := 0 })
    (hsession : Session key fd s calls s') :
    ∃ delivered, Paged d key fd 0 calls delivered ∧ delivered <+: d.dirents ∧
      s'.directories (key, fd) = some { d with cursor := delivered.length } ∧
      (d.entries.length ≤ calls.length →
        (∀ c ∈ calls, ∀ entry ∈ d.entries, recordLength entry ≤ c.capacity) →
        delivered = d.dirents) := by
  obtain ⟨delivered, hpaged, hdelivered, hafter⟩ :=
    hsession.paged hsnapshot (Nat.zero_le _) hd
  rw [List.drop_zero] at hdelivered
  rw [Nat.zero_add] at hafter
  refine ⟨delivered, hpaged, ?_, hafter, fun hcount hrooms => ?_⟩
  · rw [hdelivered]
    exact (pages_initial _ _).map _
  · rw [hdelivered, flatten_pages_of_fits, OpenDirectory.dirents]
    · intro room hroom block hblock
      obtain ⟨c, hc, rfl⟩ := List.mem_map.mp hroom
      obtain ⟨entry, position⟩ := block
      obtain ⟨-, -, hentry⟩ := List.mem_zipIdx hblock
      refine hrooms c hc entry ?_
      rw [hentry]
      exact List.getElem_mem _
    · rwa [List.length_zipIdx, List.length_map]

/-- The bind with one file in it. -/
def boundX : OpenDirectory :=
  ⟨(osStr ['/', 'a', '/', 'b']).normalize, [⟨⟨ascii ['x'], by decide⟩, 5, 8⟩], 0⟩

def trackingX : State := (State.new deepBind).insertDirectory (100, 3) boundX

def worldWithS : World :=
  loneWorld.withDescriptors 100 fun fd =>
    if fd = 3 then some (osStr ['/', 's']).normalize else none

def getdentsNotif : SeccompNotif :=
  ⟨9, 100, .sysGetdents64, fun i => if i = 0 then 3 else if i = 1 then 64 else 24⟩

def writableS : (op : Op) → op.Answer := writable (worldWithS.answers (pathMemory []))

def readX : Call where
  before := trackingX
  notif := getdentsNotif
  tr := (handle trackingX getdentsNotif).trace writableS
  after := trackingX.insertDirectory (100, 3) { boundX with cursor := 1 }

theorem serves_writableS {s s' : State} {d : OpenDirectory} {notif : SeccompNotif}
    (hpid : notif.pid = 100) (hnr : notif.data.nr = .sysGetdents64)
    (hfd : asI32 (notif.data.args 0) = 3) (hd : s.directories (100, 3) = some d)
    (hsame : (directoryFdMatches s 100 3 d).eval writableS = some true)
    (heval : (handle s notif).eval writableS = some (s', .ok ())) :
    Serves (fun op r => r = writableS op) 100 3
      ⟨s, notif, (handle s notif).trace writableS, s'⟩ := by
  refine ⟨hnr, hfd, ?_, ?_, ?_, .ok (), exec_fixed.mpr ⟨rfl, heval.symm⟩⟩
  · rintro group ⟨tr, hx⟩
    rw [hpid] at hx
    exact Option.some.inj (exec_fixed.mp hx).2
  · rintro directory hdirectory matching ⟨tr, hx⟩
    obtain rfl := Option.some.inj (hd.symm.trans hdirectory)
    rw [hpid] at hx
    exact Option.some.inj ((exec_fixed.mp hx).2.trans hsame)
  · rintro address bytes _ rfl
    exact ⟨_, rfl, rfl⟩

theorem readX_serves : Serves (fun op r => r = writableS op) 100 3 readX :=
  serves_writableS rfl rfl rfl rfl rfl rfl

/-- The bind with two files in it. -/
def boundXY : OpenDirectory :=
  { boundX with entries := [⟨nameX, 5, 8⟩, ⟨nameY, 6, 8⟩] }

def trackingXY : State := (State.new deepBind).insertDirectory (100, 3) boundXY

/-- A read with room for `capacity` bytes that moves the cursor to `next`. -/
def readXY (before : State) (capacity : UInt64) (next : Nat) : Call :=
  let notif : SeccompNotif :=
    { getdentsNotif with
      data.args := fun i => if i = 2 then capacity else getdentsNotif.data.args i }
  ⟨before, notif, (handle before notif).trace writableS,
    before.insertDirectory (100, 3) { boundXY with cursor := next }⟩

/-- One record, then too little room for the next, then that one, then the end. -/
def firstXY : Call := readXY trackingXY 24 1
def smallXY : Call := readXY firstXY.after 8 1
def secondXY : Call := readXY smallXY.after 24 2
def lastXY : Call := readXY secondXY.after 24 2

theorem readXY_serves {before : State} {capacity : UInt64} {j next : Nat}
    (hbefore : before.directories (100, 3) = some { boundXY with cursor := j })
    (hsame : (directoryFdMatches before 100 3 { boundXY with cursor := j }).eval writableS =
      some true)
    (heval : (handle before (readXY before capacity next).notif).eval writableS =
      some ((readXY before capacity next).after, .ok ())) :
    Serves (fun op r => r = writableS op) 100 3 (readXY before capacity next) :=
  serves_writableS rfl rfl rfl hbefore hsame heval

/-- All calls together deliver both entries, with the one that is refused among them or without
it. -/
theorem getdents_delivers_xy :
    [firstXY, smallXY, secondXY, lastXY].map (fun c => c.tr.filterMap responseOf) =
      [[⟨9, 24, 0, 0⟩], [⟨9, 0, -22, 0⟩], [⟨9, 24, 0, 0⟩], [⟨9, 0, 0, 0⟩]] ∧
    (∃ delivered, Paged boundXY 100 3 0 [firstXY, smallXY, secondXY, lastXY] delivered ∧
      delivered <+: boundXY.dirents ∧ delivered.length = 2) ∧
    ∃ delivered, Paged boundXY 100 3 0 [firstXY, secondXY, lastXY] delivered ∧
      delivered = boundXY.dirents := by
  have hsnapshot : Snapshot boundXY.entries := ⟨by decide, by decide⟩
  have hstart : trackingXY.directories (100, 3) = some { boundXY with cursor := 0 } := rfl
  have hfirst : Serves (fun op r => r = writableS op) 100 3 firstXY :=
    readXY_serves (j := 0) rfl rfl rfl
  have hsmall : Serves (fun op r => r = writableS op) 100 3 smallXY :=
    readXY_serves (j := 1) rfl rfl rfl
  have hsecond : Serves (fun op r => r = writableS op) 100 3 secondXY :=
    readXY_serves (j := 1) rfl rfl rfl
  have hlast : Serves (fun op r => r = writableS op) 100 3 lastXY :=
    readXY_serves (j := 2) rfl rfl rfl
  have hrest : Session 100 3 smallXY.after [secondXY, lastXY] lastXY.after :=
    .call hsecond (.call hlast .nil)
  have hkept : smallXY.after.directories (100, 3) = firstXY.after.directories (100, 3) := rfl
  refine ⟨rfl, ?_, ?_⟩
  · obtain ⟨delivered, hpaged, hinitial, hafter, -⟩ := getdents_delivers hsnapshot hstart
      (.call hfirst (.call hsmall hrest))
    have hcursor : some { boundXY with cursor := 2 } =
        some { boundXY with cursor := delivered.length } := hafter
    exact ⟨delivered, hpaged, hinitial,
      (congrArg OpenDirectory.cursor (Option.some.inj hcursor)).symm⟩
  · obtain ⟨delivered, hpaged, -, -, hall⟩ := getdents_delivers hsnapshot hstart
      (.call hfirst (.other hkept hrest))
    exact ⟨delivered, hpaged, hall (by decide) (by decide)⟩

end PathShim
