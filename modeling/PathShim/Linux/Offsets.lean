import PathShim.Histories
import PathShim.Linux.Pagination

/-!
# Directory offsets

`dirent_record` hands out the position behind each entry as its `d_off`, and a
caller may `lseek` there. The supervisor is not told: it reads on from its own
cursor. So a read starts where the caller has put it when the cursor stands
there as well, and only then.
-/

namespace PathShim

open UnixPath Effects Paging Histories

-- ---------------------------------------------------------------------------
-- Reading and seeking
-- ---------------------------------------------------------------------------

/-- A `getdents64` as in `Serves`, whatever becomes of what it writes. -/
structure Asks (E : Env Op.Answer) (key : Pid) (fd : Fd) (c : Call) : Prop where
  number : c.notif.data.nr = .sysGetdents64
  descriptor : asI32 (c.notif.data.args 0) = fd
  group : ∀ group, Returns E (processKey c.notif.pid) group → group = key
  directory : ∀ directory, c.before.directories (key, fd) = some directory →
    ∀ matching, Returns E (directoryFdMatches c.before c.notif.pid fd directory) matching →
      matching = true
  handled : ∃ r, Exec E (handle c.before c.notif) c.tr (some (c.after, r))

/-- The records a result is read as. -/
def direntsOf : Except Errno Bytes → List Dirent
  | .ok bytes => (readDirents bytes).getD []
  | .error _ => []

/-- What the caller knows about the descriptor: the offsets it was given, and the one it has last
come to, by reading or by `lseek`. -/
structure Reader where
  state : State
  offered : List Nat
  position : Nat

inductive DirCall where
  | elsewhere
  | lseek (offset : Nat)
  | getdents (c : Call) (result : Except Errno Bytes)
  | fault (c : Call)

/-- `lseek` is not intercepted. A read that fails to copy its records gives the caller nothing. -/
inductive ReadStep (key : Pid) (fd : Fd) : Reader → DirCall → Reader → Prop
  | elsewhere {r s} : s.directories (key, fd) = r.state.directories (key, fd) →
      ReadStep key fd r .elsewhere { r with state := s }
  | lseek {r offset} : offset = 0 ∨ offset ∈ r.offered →
      ReadStep key fd r (.lseek offset) { r with position := offset }
  | getdents {E r c result} : Serves E key fd c → c.before = r.state →
      Delivered c.notif (c.notif.data.args 1) c.tr result →
      ReadStep key fd r (.getdents c result)
        ⟨c.after, r.offered ++ (direntsOf result).map Dirent.offset,
          ((direntsOf result).getLast?.map Dirent.offset).getD r.position⟩
  | fault {E r c} : Asks E key fd c → c.before = r.state → Refused c.tr →
      ReadStep key fd r (.fault c) { r with state := c.after }

-- ---------------------------------------------------------------------------
-- Pages at an offset
-- ---------------------------------------------------------------------------

namespace OpenDirectory

variable {d : OpenDirectory} {capacity j k : Nat} {result : Except Errno Bytes}

theorem offset_of_dirents {dirent : Dirent} (h : d.dirents[k]? = some dirent) :
    dirent.offset = k + 1 := by
  simp only [dirents, List.getElem?_map, List.getElem?_zipIdx, Option.map_map,
    Option.map_eq_some_iff] at h
  obtain ⟨entry, -, rfl⟩ := h
  exact Nat.add_comm 1 k

theorem dirents_of_start {dirent : Dirent} {rest : List Dirent}
    (h : dirent :: rest <+: d.dirents.drop k) : d.dirents[k]? = some dirent := by
  obtain ⟨more, hmore⟩ := h
  rw [← List.head?_drop, ← hmore]
  rfl

/-- A page from `k` on ends at the offset behind it. -/
theorem position_after {entries : List Dirent} (h : entries <+: d.dirents.drop k) :
    (entries.getLast?.map Dirent.offset).getD k = k + entries.length := by
  rcases List.eq_nil_or_concat entries with rfl | ⟨init, last, rfl⟩
  · rfl
  · obtain ⟨rest, hrest⟩ := h
    have hlast : d.dirents[k + init.length]? = some last := by
      rw [← List.getElem?_drop, ← hrest]
      simp
    simp [offset_of_dirents hlast, Nat.add_assoc]

/-- The offsets of the first record tell pages apart. -/
theorem PageAt.iff_at (hj : d.PageAt capacity j result) :
    d.PageAt capacity k result ↔ j = k ∨ d.Stuck capacity j ∧ d.Stuck capacity k := by
  constructor
  · intro hk
    cases result with
    | error e => exact .inr ⟨((hj.refused e).mp rfl).2, ((hk.refused e).mp rfl).2⟩
    | ok bytes =>
      refine .inl ?_
      obtain ⟨entries, hentries, hjnext⟩ := hj.next bytes rfl
      obtain ⟨entries', hentries', hknext⟩ := hk.next bytes rfl
      obtain rfl := Option.some.inj (hentries.symm.trans hentries')
      cases entries with
      | nil =>
        have hbytes := readDirents_eq_nil.mp hentries
        rw [hj.atEnd.mp (congrArg Except.ok hbytes), hk.atEnd.mp (congrArg Except.ok hbytes)]
      | cons dirent rest =>
        have hoffset := offset_of_dirents (dirents_of_start hjnext)
        exact Nat.succ_inj.mp (hoffset.symm.trans (offset_of_dirents (dirents_of_start hknext)))
  · rintro (rfl | ⟨hjstuck, hkstuck⟩)
    · exact hj
    · obtain rfl : result = .error EINVAL := (hj.refused EINVAL).mpr ⟨rfl, hjstuck⟩
      obtain ⟨entry, hentry, -⟩ := id hkstuck
      obtain ⟨hlt, -⟩ := List.getElem?_eq_some_iff.mp hentry
      refine ⟨?_, ⟨?_, fun h => absurd h hlt.ne⟩, fun e => ⟨?_, ?_⟩⟩
      · rintro bytes ⟨⟩
      · rintro ⟨⟩
      · rintro ⟨⟩
        exact ⟨rfl, hkstuck⟩
      · rintro ⟨rfl, -⟩
        rfl

end OpenDirectory

-- ---------------------------------------------------------------------------
-- Where the cursor stands
-- ---------------------------------------------------------------------------

section
variable {E : Env Op.Answer} {key : Pid} {fd : Fd} {c : Call} {d : OpenDirectory} {j : Nat}
  {result : Except Errno Bytes} {r r' : Reader} {call : DirCall}

theorem Asks.moves (h : Asks E key fd c)
    (hd : c.before.directories (key, fd) = some { d with cursor := j }) :
    c.after.directories (key, fd) =
      some { d with cursor := j + (d.pageFrom c.capacity j).length } := by
  obtain ⟨r, hx⟩ := h.handled
  rw [show handle c.before c.notif = handleGetdents c.before c.notif by
    rw [handle, h.number]] at hx
  obtain rfl := h.descriptor
  obtain ⟨looks, rest, -, -, hafter, -⟩ := exec_getdents h.group hd (h.directory _ hd) hx
  rw [hafter]
  exact Function.update_self _ _ _

theorem PageOf.pageAt {entries : List Dirent} (h : PageOf d key fd c j result entries) :
    d.PageAt c.capacity j result ∧ direntsOf result = entries := by
  refine ⟨⟨fun bytes hbytes => ⟨entries, (h.decodes bytes hbytes).2, h.next⟩, h.zero,
    h.refused⟩, ?_⟩
  cases result with
  | error e => exact (h.stays e rfl).symm
  | ok bytes => rw [direntsOf, (h.decodes bytes rfl).2, Option.getD_some]

/-- The descriptor is tracked, and the supervisor's cursor stands at `j`. -/
def Reader.Stands (r : Reader) (key : Pid) (fd : Fd) (d : OpenDirectory) (j : Nat) : Prop :=
  r.state.directories (key, fd) = some { d with cursor := j } ∧ j ≤ d.entries.length

/-- An `lseek` goes to where the cursor stands, and a read fails only with nothing to copy. -/
def Aligned (key : Pid) (fd : Fd) (r : Reader) : DirCall → Prop
  | .lseek offset => ∀ d ∈ r.state.directories (key, fd), d.cursor = offset
  | .fault c => ∀ d ∈ r.state.directories (key, fd), d.pageFrom c.capacity d.cursor = []
  | _ => True

/-- The caller gets what is right after the offset it has come to. -/
def Honoured (d : OpenDirectory) (r : Reader) : DirCall → Prop
  | .getdents c result => d.PageAt c.capacity r.position result
  | _ => True

theorem ReadStep.stands (hstep : ReadStep key fd r call r') (hsnapshot : Snapshot d.entries)
    (hr : r.Stands key fd d j) :
    (∀ c result, call = .getdents c result → d.PageAt c.capacity j result) ∧
      ∃ j', r'.Stands key fd d j' ∧
        (Aligned key fd r call → r.position = j → r'.position = j') := by
  obtain ⟨hd, hj⟩ := hr
  have hbound := pageFrom_end_le hj
  cases hstep with
  | elsewhere hsame => exact ⟨by rintro _ _ ⟨⟩, j, ⟨hsame.trans hd, hj⟩, fun _ hpos => hpos⟩
  | lseek hoffered =>
    refine ⟨by rintro _ _ ⟨⟩, j, ⟨hd, hj⟩, fun haligned _ => ?_⟩
    exact (haligned _ hd).symm
  | @getdents E _ c result hserves hbefore hdelivered =>
    rw [← hbefore] at hd
    obtain ⟨result', hpage⟩ := page_of_serves hsnapshot hj hserves hd
    obtain rfl := hdelivered.unique hpage.delivered
    obtain ⟨hat, hentries⟩ := hpage.pageAt
    have hlength : ((d.pageFrom c.capacity j).map Placed.dirent).length =
        (d.pageFrom c.capacity j).length := List.length_map _
    refine ⟨?_, _, ⟨hpage.after, hlength ▸ hbound c.capacity⟩, fun _ hpos => ?_⟩
    · rintro _ _ ⟨⟩
      exact hat
    · rw [hentries, hpos]
      exact OpenDirectory.position_after hpage.next
  | @fault E _ c hasks hbefore hrefused =>
    rw [← hbefore] at hd
    refine ⟨by rintro _ _ ⟨⟩, _, ⟨hasks.moves hd, hbound c.capacity⟩, fun haligned hpos => ?_⟩
    have hpage : d.pageFrom c.capacity j = [] := haligned _ (hbefore ▸ hd)
    rw [hpage]
    exact hpos

-- ---------------------------------------------------------------------------
-- Runs
-- ---------------------------------------------------------------------------

variable {ts : List (Move Reader DirCall)}

/-- In any run the cursor stands somewhere before each step. -/
theorem stands_run (hrun : Moves (ReadStep key fd) r ts r') (hsnapshot : Snapshot d.entries)
    (hr : ∃ j, r.Stands key fd d j) :
    ∀ t ∈ ts, (∃ j, t.before.Stands key fd d j) ∧ ReadStep key fd t.before t.label t.after := by
  refine hrun.before (P := fun r => ∃ j, r.Stands key fd d j) hr fun t _ hstep ⟨j, hj⟩ => ?_
  obtain ⟨-, j', hj', -⟩ := hstep.stands hsnapshot hj
  exact ⟨j', hj'⟩

/-- In an aligned run it stands where the caller believes. -/
theorem aligned_run (hrun : Moves (ReadStep key fd) r ts r') (hsnapshot : Snapshot d.entries)
    (hr : r.Stands key fd d r.position) (haligned : ∀ t ∈ ts, Aligned key fd t.before t.label) :
    ∀ t ∈ ts, t.before.Stands key fd d t.before.position ∧
      ReadStep key fd t.before t.label t.after := by
  refine hrun.before (P := fun r => r.Stands key fd d r.position) hr fun t ht hstep hbefore => ?_
  obtain ⟨-, j', hj', hpos⟩ := hstep.stands hsnapshot hbefore
  rwa [hpos (haligned t ht) rfl]

/-- Reads from a fresh snapshot honour every `lseek` as long as each goes to where the cursor
stands. In any run at all, a read is honoured exactly when the cursor stands at the caller's
offset, or the next entry has no room at either. -/
theorem offsets_honoured {start : State} (hsnapshot : Snapshot d.entries)
    (hstart : start.directories (key, fd) = some { d with cursor := 0 })
    (hrun : Moves (ReadStep key fd) ⟨start, [], 0⟩ ts r) :
    ((∀ t ∈ ts, Aligned key fd t.before t.label) → ∀ t ∈ ts, Honoured d t.before t.label) ∧
      ∀ t ∈ ts, ∀ c result, t.label = .getdents c result → ∃ j, t.before.Stands key fd d j ∧
        (Honoured d t.before t.label ↔ j = t.before.position ∨
          d.Stuck c.capacity j ∧ d.Stuck c.capacity t.before.position) := by
  have hfresh : (⟨start, [], 0⟩ : Reader).Stands key fd d 0 := ⟨hstart, Nat.zero_le _⟩
  constructor
  · intro haligned t ht
    obtain ⟨hstands, hstep⟩ := aligned_run hrun hsnapshot hfresh haligned t ht
    cases hlabel : t.label with
    | getdents c result => exact (hstep.stands hsnapshot hstands).1 c result hlabel
    | elsewhere | lseek | fault => trivial
  · intro t ht c result hlabel
    obtain ⟨⟨j, hj⟩, hstep⟩ := stands_run hrun hsnapshot ⟨0, hfresh⟩ t ht
    refine ⟨j, hj, ?_⟩
    rw [hlabel]
    exact ((hstep.stands hsnapshot hj).1 c result hlabel).iff_at

end

-- ---------------------------------------------------------------------------
-- Rewinding
-- ---------------------------------------------------------------------------

/-- The records of the files. -/
def recordX : Bytes := direntRecord ⟨nameX, 5, 8⟩ 1
def recordY : Bytes := direntRecord ⟨nameY, 6, 8⟩ 2

/-- The read that goes on behind the first file. -/
def nextXY : Call := readXY firstXY.after 24 2

/-- The next read finds the cursor at the end. -/
def readEnd : Call where
  before := readX.after
  notif := getdentsNotif
  tr := (handle readX.after getdentsNotif).trace writableS
  after := readX.after.insertDirectory (100, 3) { boundX with cursor := 1 }

def betweenXY : Reader := ⟨firstXY.after, [1], 1⟩
def afterXY : Reader := ⟨nextXY.after, [1, 2], 2⟩

def afterX : Reader := ⟨readX.after, [1], 1⟩

theorem direntsOf_record {entry : DirEntry} {position : Nat}
    (hname : entry.name.bytes.length ≤ 255) (hposition : position < 2 ^ 63) :
    direntsOf (.ok (direntRecord entry position)) = [entry.dirent position] := by
  have hfits : ∀ block ∈ [(entry, position)], Placed.Fits block :=
    List.forall_mem_singleton.mpr ⟨hname, hposition⟩
  have hread := readDirents_records hfits
  rw [List.flatMap_singleton] at hread
  exact congrArg (·.getD []) hread

theorem direntsOf_recordX : direntsOf (.ok recordX) = [DirEntry.dirent ⟨nameX, 5, 8⟩ 1] :=
  direntsOf_record (by decide) (by decide)

theorem direntsOf_recordY : direntsOf (.ok recordY) = [DirEntry.dirent ⟨nameY, 6, 8⟩ 2] :=
  direntsOf_record (by decide) (by decide)

theorem readX_step {position : Nat} :
    ReadStep 100 3 ⟨trackingX, [], position⟩ (.getdents readX (.ok recordX)) afterX := by
  have hdelivered : Delivered readX.notif (readX.notif.data.args 1) readX.tr (.ok recordX) :=
    ⟨rfl, rfl⟩
  have hstep := ReadStep.getdents (r := ⟨trackingX, [], position⟩) readX_serves rfl hdelivered
  rw [direntsOf_recordX] at hstep
  exact hstep

/-- A step for each read, to the offset behind its record. -/
theorem firstXY_step :
    ReadStep 100 3 ⟨trackingXY, [], 0⟩ (.getdents firstXY (.ok recordX)) betweenXY := by
  have hserves : Serves (fun op r => r = writableS op) 100 3 firstXY :=
    readXY_serves (j := 0) rfl rfl rfl
  have hdelivered : Delivered firstXY.notif (firstXY.notif.data.args 1) firstXY.tr (.ok recordX) :=
    ⟨rfl, rfl⟩
  have hstep := ReadStep.getdents (r := ⟨trackingXY, [], 0⟩) hserves rfl hdelivered
  rw [direntsOf_recordX] at hstep
  exact hstep

theorem nextXY_step : ReadStep 100 3 betweenXY (.getdents nextXY (.ok recordY)) afterXY := by
  have hserves : Serves (fun op r => r = writableS op) 100 3 nextXY :=
    readXY_serves (j := 1) rfl rfl rfl
  have hdelivered : Delivered nextXY.notif (nextXY.notif.data.args 1) nextXY.tr (.ok recordY) :=
    ⟨rfl, rfl⟩
  have hstep := ReadStep.getdents (r := betweenXY) hserves rfl hdelivered
  rw [direntsOf_recordY] at hstep
  exact hstep

/-- An entry each time, and in between an `lseek` to where the first one ends. -/
theorem offsets_honoured_seek : ∃ ts r,
    Moves (ReadStep 100 3) ⟨trackingXY, [], 0⟩ ts r ∧ ts.map Move.label =
      [.getdents firstXY (.ok recordX), .lseek 1, .getdents nextXY (.ok recordY)] ∧
    ∀ t ∈ ts, Honoured boundXY t.before t.label := by
  have hseek : ReadStep 100 3 betweenXY (.lseek 1) betweenXY :=
    .lseek (.inr (List.mem_singleton.mpr rfl))
  have hrun : Moves (ReadStep 100 3) ⟨trackingXY, [], 0⟩
      [⟨_, .getdents firstXY (.ok recordX), _⟩, ⟨_, .lseek 1, _⟩,
        ⟨_, .getdents nextXY (.ok recordY), _⟩] afterXY :=
    .snoc (.snoc (.snoc .nil firstXY_step) hseek) nextXY_step
  refine ⟨_, _, hrun, rfl, (offsets_honoured ⟨by decide, by decide⟩ rfl hrun).1 ?_⟩
  have haligned : Aligned 100 3 betweenXY (.lseek 1) := by
    rintro d ⟨⟩
    rfl
  intro t ht
  simp only [List.mem_cons, List.not_mem_nil, or_false] at ht
  obtain rfl | rfl | rfl := ht
  · trivial
  · exact haligned
  · trivial

/-- `rewinddir` after the one entry, and the directory seems to be empty. -/
theorem rewind_ignored : ∃ ts r, Moves (ReadStep 100 3) ⟨trackingX, [], 0⟩ ts r ∧
    ts.map Move.label =
      [.getdents readX (.ok recordX), .lseek 0, .getdents readEnd (.ok [])] ∧
    ¬ ∀ t ∈ ts, Honoured boundX t.before t.label := by
  have hend : Serves (fun op r => r = writableS op) 100 3 readEnd :=
    serves_writableS rfl rfl rfl rfl rfl rfl
  have hdelivered : Delivered readEnd.notif (readEnd.notif.data.args 1) readEnd.tr (.ok []) :=
    ⟨rfl, rfl⟩
  refine ⟨_, _, .snoc (.snoc (.snoc .nil readX_step) (.lseek (.inl rfl)))
    (ReadStep.getdents (r := ⟨readX.after, [1], 0⟩) hend rfl hdelivered), rfl, fun h => ?_⟩
  have hpage := h _ (List.mem_of_getElem? (i := 2) rfl)
  exact absurd (hpage.atEnd.mp rfl) (by decide)

end PathShim
