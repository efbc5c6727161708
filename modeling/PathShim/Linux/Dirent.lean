import PathShim.Paging
import PathShim.Linux.Dispatch

/-!
# Directory records

`linux_dirent64` as `dirent_record` lays it out, and as a caller of
`getdents64` reads it: fields at fixed offsets, a name up to its NUL, and the
next record `d_reclen` bytes further on. Reading what was written gives back
the entries, and a call writes the longest run of them that fits.
-/

namespace PathShim

open UnixPath Paging

-- ---------------------------------------------------------------------------
-- Little-endian numbers
-- ---------------------------------------------------------------------------

def leNat : Bytes → Nat
  | [] => 0
  | b :: rest => b.toNat + 256 * leNat rest

@[simp] theorem length_leBytes (count n : Nat) : (leBytes count n).length = count := by
  simp [leBytes]

theorem leBytes_succ (count n : Nat) :
    leBytes (count + 1) n = n.toUInt8 :: leBytes count (n / 256) := by
  simp only [leBytes, List.range_succ_eq_map, List.map_cons, List.map_map, Nat.pow_zero,
    Nat.div_one]
  congr 1
  refine List.map_congr_left fun i _ => ?_
  simp only [Function.comp_apply, Nat.succ_eq_add_one, Nat.pow_succ', Nat.div_div_eq_div_mul]

theorem leNat_leBytes {count n : Nat} (h : n < 256 ^ count) : leNat (leBytes count n) = n := by
  induction count generalizing n with
  | zero =>
    obtain rfl : n = 0 := by simpa using h
    rfl
  | succ count ih =>
    have hhigh : n / 256 < 256 ^ count := by
      rw [Nat.pow_succ'] at h
      exact Nat.div_lt_of_lt_mul h
    have hlow : n.toUInt8.toNat = n % 256 := rfl
    rw [leBytes_succ, leNat, ih hhigh, hlow]
    omega

-- ---------------------------------------------------------------------------
-- Reading records
-- ---------------------------------------------------------------------------

/-- A record as its reader sees it. -/
structure Dirent where
  inode : Nat
  offset : Nat
  recordLength : Nat
  fileType : UInt8
  name : Bytes
  deriving DecidableEq

/-- The record at the start of a buffer. -/
def readDirent (bytes : Bytes) : Dirent where
  inode := leNat (bytes.take 8)
  offset := leNat ((bytes.drop 8).take 8)
  recordLength := leNat ((bytes.drop 16).take 2)
  fileType := bytes.getD 18 0
  name := (bytes.drop 19).takeWhile (· != 0)

/-- A record that lies in the buffer, with a name that ends in the record. -/
def Readable (bytes : Bytes) : Prop :=
  (readDirent bytes).recordLength ≤ bytes.length ∧
    19 + (readDirent bytes).name.length < (readDirent bytes).recordLength

instance (bytes : Bytes) : Decidable (Readable bytes) := inferInstanceAs (Decidable (_ ∧ _))

/-- Walk a buffer by `d_reclen`. -/
def readDirents (bytes : Bytes) : Option (List Dirent) :=
  if bytes = [] then some []
  else if _ : Readable bytes then
    (readDirents (bytes.drop (readDirent bytes).recordLength)).map (readDirent bytes :: ·)
  else none
termination_by bytes.length
decreasing_by
  rename_i hreadable
  have := hreadable.1
  have := hreadable.2
  rw [List.length_drop]
  omega

theorem readDirents_eq_nil {bytes : Bytes} : readDirents bytes = some [] ↔ bytes = [] := by
  rw [readDirents]
  split
  · simpa
  · rename_i hbytes
    split <;> simp [hbytes]

-- ---------------------------------------------------------------------------
-- Records that were written
-- ---------------------------------------------------------------------------

/-- The fixed part, the name and its NUL, rounded up to eight bytes. -/
def recordLength (entry : DirEntry) : Nat :=
  (8 + 8 + 2 + 1 + entry.name.bytes.length + 1 + 7) / 8 * 8

theorem recordLength_bounds (entry : DirEntry) :
    19 + entry.name.bytes.length < recordLength entry ∧
      recordLength entry ≤ entry.name.bytes.length + 27 ∧ 8 ∣ recordLength entry := by
  refine ⟨?_, ?_, Nat.dvd_mul_left _ _⟩ <;> (unfold recordLength; omega)

/-- The record an entry is read back as. -/
def DirEntry.dirent (entry : DirEntry) (offset : Nat) : Dirent :=
  ⟨entry.inode.toNat, offset, recordLength entry, entry.fileType, entry.name.bytes⟩

@[simp] theorem length_direntRecord (entry : DirEntry) (offset : Nat) :
    (direntRecord entry offset).length = recordLength entry := by
  have hbounds := recordLength_bounds entry
  simp only [direntRecord, List.length_append, length_leBytes, List.length_singleton,
    List.length_replicate]
  change 8 + 8 + 2 + 1 + _ + (recordLength entry - 19 - _) = _
  omega

/-- The layout of a record with more bytes behind it. -/
theorem direntRecord_append (entry : DirEntry) (offset : Nat) (rest : Bytes) :
    direntRecord entry offset ++ rest = leBytes 8 entry.inode.toNat ++ (leBytes 8 offset ++
      (leBytes 2 (recordLength entry) ++ (entry.fileType :: (entry.name.bytes ++
        (List.replicate (recordLength entry - 19 - entry.name.bytes.length) 0 ++ rest))))) := by
  simp [direntRecord, recordLength]

theorem takeWhile_name (name : Name) {count : Nat} (h : 0 < count) (rest : Bytes) :
    (name.bytes ++ (List.replicate count 0 ++ rest)).takeWhile (· != 0) = name.bytes := by
  obtain ⟨count, rfl⟩ := Nat.exists_eq_succ_of_ne_zero h.ne'
  have hname : ∀ b ∈ name.bytes, (b != 0) = true := by
    intro b hb
    have hne : b ≠ 0 := fun h0 => name.isName.2.2.2.2 (h0 ▸ hb)
    simpa using hne
  rw [List.takeWhile_append_of_pos hname]
  simp [List.replicate_succ]

theorem readDirent_record {entry : DirEntry} {offset : Nat} (hname : entry.name.bytes.length ≤ 255)
    (hoffset : offset < 2 ^ 63) (rest : Bytes) :
    readDirent (direntRecord entry offset ++ rest) = entry.dirent offset := by
  obtain ⟨hroom, hlength, -⟩ := recordLength_bounds entry
  have htake8 (n : Nat) (more : Bytes) : (leBytes 8 n ++ more).take 8 = leBytes 8 n :=
    List.take_left' (length_leBytes 8 n)
  have hdrop8 (n : Nat) (more : Bytes) : (leBytes 8 n ++ more).drop 8 = more :=
    List.drop_left' (length_leBytes 8 n)
  have htake2 (n : Nat) (more : Bytes) : (leBytes 2 n ++ more).take 2 = leBytes 2 n :=
    List.take_left' (length_leBytes 2 n)
  have hdrop2 (n : Nat) (more : Bytes) : (leBytes 2 n ++ more).drop 2 = more :=
    List.drop_left' (length_leBytes 2 n)
  have hdrop16 : (direntRecord entry offset ++ rest).drop 16 = leBytes 2 (recordLength entry) ++
      (entry.fileType :: (entry.name.bytes ++
        (List.replicate (recordLength entry - 19 - entry.name.bytes.length) 0 ++ rest))) := by
    rw [direntRecord_append, show (16 : Nat) = 8 + 8 from rfl, ← List.drop_drop, hdrop8, hdrop8]
  have hdrop18 : (direntRecord entry offset ++ rest).drop 18 = entry.fileType ::
      (entry.name.bytes ++
        (List.replicate (recordLength entry - 19 - entry.name.bytes.length) 0 ++ rest)) := by
    rw [show (18 : Nat) = 16 + 2 from rfl, ← List.drop_drop, hdrop16, hdrop2]
  have hinode : entry.inode.toNat < 256 ^ 8 := entry.inode.toNat_lt
  simp only [readDirent, DirEntry.dirent, Dirent.mk.injEq]
  refine ⟨?_, ?_, ?_, ?_, ?_⟩
  · rw [direntRecord_append, htake8, leNat_leBytes hinode]
  · rw [direntRecord_append, hdrop8, htake8, leNat_leBytes (by omega)]
  · rw [hdrop16, htake2, leNat_leBytes (by omega)]
  · rw [List.getD_eq_getElem?_getD, ← List.head?_drop, hdrop18]
    rfl
  · rw [show (19 : Nat) = 18 + 1 from rfl, ← List.drop_drop, hdrop18, List.drop_one, List.tail_cons,
      takeWhile_name entry.name (by omega)]

theorem readDirents_record {entry : DirEntry} {offset : Nat}
    (hname : entry.name.bytes.length ≤ 255) (hoffset : offset < 2 ^ 63) (rest : Bytes) :
    readDirents (direntRecord entry offset ++ rest) =
      (readDirents rest).map (entry.dirent offset :: ·) := by
  have hread := readDirent_record hname hoffset rest
  have hlength : (direntRecord entry offset).length = recordLength entry :=
    length_direntRecord entry offset
  have hroom := (recordLength_bounds entry).1
  have hne : direntRecord entry offset ++ rest ≠ [] := by
    intro h
    rw [(List.append_eq_nil_iff.mp h).1, List.length_nil] at hlength
    omega
  have hreadable : Readable (direntRecord entry offset ++ rest) := by
    rw [Readable, hread, List.length_append, hlength]
    exact ⟨Nat.le_add_right _ _, hroom⟩
  rw [readDirents, if_neg hne, dif_pos hreadable, hread]
  rw [show (entry.dirent offset).recordLength = recordLength entry from rfl,
    List.drop_left' hlength]

-- ---------------------------------------------------------------------------
-- Filling a buffer
-- ---------------------------------------------------------------------------

/-- An entry with its position. -/
abbrev Placed := DirEntry × Nat

def Placed.size (block : Placed) : Nat := recordLength block.1
def Placed.record (block : Placed) : Bytes := direntRecord block.1 block.2
def Placed.dirent (block : Placed) : Dirent := block.1.dirent block.2

/-- An entry whose record can say everything there is about it. -/
def Placed.Fits (block : Placed) : Prop := block.1.name.bytes.length ≤ 255 ∧ block.2 < 2 ^ 63

theorem readDirents_records {blocks : List Placed} (h : ∀ block ∈ blocks, block.Fits) :
    readDirents (blocks.flatMap Placed.record) = some (blocks.map Placed.dirent) := by
  induction blocks with
  | nil => simp [readDirents]
  | cons block blocks ih =>
    have hblock := h block List.mem_cons_self
    rw [List.flatMap_cons, Placed.record, readDirents_record hblock.1 hblock.2,
      ih fun b hb => h b (List.mem_cons_of_mem _ hb)]
    rfl

theorem length_records (blocks : List Placed) :
    (blocks.flatMap Placed.record).length = total Placed.size blocks := by
  induction blocks with
  | nil => rfl
  | cons block blocks ih =>
    rw [List.flatMap_cons, List.length_append, ih, total_cons, Placed.record, length_direntRecord]
    rfl

/-- The loop fills the room that is left with a page of the entries that are left. -/
theorem packEntries_eq {capacity : Nat} (entries : List DirEntry) (cursor : Nat) {output : Bytes}
    (h : output.length ≤ capacity) :
    packEntries capacity entries cursor output =
      (output ++ (page Placed.size (capacity - output.length)
          (entries.zipIdx (cursor + 1))).flatMap Placed.record,
        cursor + (page Placed.size (capacity - output.length)
          (entries.zipIdx (cursor + 1))).length) := by
  induction entries generalizing cursor output with
  | nil => simp [packEntries]
  | cons entry rest ih =>
    have hsize : Placed.size (entry, cursor + 1) = recordLength entry := rfl
    rw [packEntries, List.zipIdx_cons, length_direntRecord]
    by_cases hfits : output.length + recordLength entry > capacity
    · rw [if_pos hfits, page_cons_of_lt (by omega)]
      simp
    · have hlength : (output ++ direntRecord entry (cursor + 1)).length =
          output.length + recordLength entry := by
        rw [List.length_append, length_direntRecord]
      have hroom : capacity - (output ++ direntRecord entry (cursor + 1)).length =
          capacity - output.length - Placed.size (entry, cursor + 1) := by
        rw [hlength, hsize, Nat.sub_add_eq]
      rw [if_neg hfits, ih (cursor + 1) (by omega), hroom, page_cons_of_le (by omega),
        List.flatMap_cons, List.length_cons, List.append_assoc, Placed.record]
      congr 1
      omega

end PathShim
