import PathShim.Linux.Remote

/-!
# Tracee memory

What `process_vm_readv` and the two write calls do to a memory, and what
`read_path` finds there: a pathname it returns stands at the address, ended by
its NUL.
-/

namespace PathShim

open UnixPath Effects

/-- The mapped bytes of an address space. User memory ends below its middle. -/
@[ext] structure Memory where
  byte : Nat → Option UInt8
  user : ∀ a, 2 ^ 63 - 1 ≤ a → byte a = none

namespace Memory

variable {m : Memory}

/-- The bytes from `a` on, up to the first that is not mapped. -/
def mapped (m : Memory) (a : Nat) : Nat → Bytes
  | 0 => []
  | n + 1 =>
    match m.byte a with
    | none => []
    | some b => b :: m.mapped (a + 1) n

def has (m : Memory) : Nat → Bytes → Prop
  | _, [] => True
  | a, b :: bs => m.byte a = some b ∧ m.has (a + 1) bs

theorem has_append {a : Nat} {xs ys : Bytes} :
    m.has a (xs ++ ys) ↔ m.has a xs ∧ m.has (a + xs.length) ys := by
  induction xs generalizing a with
  | nil => simp [has]
  | cons x xs ih =>
    simp only [List.cons_append, has, ih, List.length_cons, and_assoc]
    rw [Nat.add_assoc, Nat.add_comm 1]

theorem has_iff {a : Nat} {bs : Bytes} :
    m.has a bs ↔ ∀ i (h : i < bs.length), m.byte (a + i) = some bs[i] := by
  induction bs generalizing a with
  | nil => simp [has]
  | cons b bs ih =>
    simp only [has, ih, List.length_cons]
    constructor
    · rintro ⟨hb, hbs⟩ i hi
      cases i with
      | zero => exact hb
      | succ i =>
        rw [← Nat.add_assoc, Nat.add_right_comm]
        exact hbs i (Nat.lt_of_succ_lt_succ hi)
    · intro h
      refine ⟨h 0 (Nat.succ_pos _), fun i hi => ?_⟩
      rw [Nat.add_right_comm, Nat.add_assoc]
      exact h (i + 1) (Nat.succ_lt_succ hi)

theorem length_mapped (a n : Nat) : (m.mapped a n).length ≤ n := by
  induction n generalizing a with
  | zero => simp [mapped]
  | succ n ih =>
    unfold mapped
    split
    · simp
    · simpa using ih (a + 1)

theorem has_mapped (a n : Nat) : m.has a (m.mapped a n) := by
  induction n generalizing a with
  | zero => trivial
  | succ n ih =>
    unfold mapped
    split
    · trivial
    · rename_i b hb
      exact ⟨hb, ih (a + 1)⟩

theorem mapped_of_has {a : Nat} {bs : Bytes} (h : m.has a bs) : m.mapped a bs.length = bs := by
  induction bs generalizing a with
  | nil => rfl
  | cons b bs ih => rw [List.length_cons, mapped, h.1, ih h.2]

theorem mapped_congr {m' : Memory} {a n : Nat}
    (h : ∀ x, a ≤ x → x < a + n → m.byte x = m'.byte x) : m.mapped a n = m'.mapped a n := by
  induction n generalizing a with
  | zero => rfl
  | succ n ih =>
    have hrest : m.mapped (a + 1) n = m'.mapped (a + 1) n :=
      ih fun x hlow hhigh => h x (by omega) (by omega)
    rw [mapped, mapped, h a (by omega) (by omega), hrest]

theorem has_bound {a : Nat} {bs : Bytes} (h : m.has a bs) (hne : bs ≠ []) :
    a + bs.length < 2 ^ 63 := by
  induction bs generalizing a with
  | nil => exact absurd rfl hne
  | cons b bs ih =>
    obtain ⟨hb, hbs⟩ := h
    have ha : a < 2 ^ 63 - 1 := by
      by_contra hge
      rw [m.user a (Nat.le_of_not_lt hge)] at hb
      cases hb
    cases bs with
    | nil =>
      simp only [List.length_cons, List.length_nil]
      omega
    | cons c cs =>
      have hlt := ih hbs (by simp)
      simp only [List.length_cons] at hlt ⊢
      omega

/-- `process_vm_readv`: the range up to an unmapped byte, or an error if its first
byte is unmapped. -/
def read (m : Memory) (address : UInt64) (length : Nat) : Except Errno (Chunk address length) :=
  if h : m.mapped address.toNat length = [] then .error EFAULT
  else .ok ⟨m.mapped address.toNat length, h, length_mapped _ _, has_bound (has_mapped _ _) h⟩

theorem read_ok {address : UInt64} {length : Nat} {chunk : Chunk address length}
    (h : m.read address length = .ok chunk) : m.has address.toNat chunk.bytes := by
  unfold read at h
  split at h
  · cases h
  · cases h
    exact has_mapped _ _

/-- The pathname `s`, with the NUL that ends it, stands at `address`. -/
def Holds (m : Memory) (address : UInt64) (s : OsStr) : Prop := m.has address.toNat (s.bytes ++ [0])

/-- Bytes without a NUL are the beginning of the pathname that stands there. -/
theorem has_starts {a : Nat} {xs ys : Bytes} (hx : m.has a xs) (hy : m.has a (ys ++ [0]))
    (hx0 : (0 : UInt8) ∉ xs) : ∃ zs, ys = xs ++ zs := by
  induction xs generalizing a ys with
  | nil => exact ⟨ys, rfl⟩
  | cons x xs ih =>
    cases ys with
    | nil =>
      have h : x = 0 := Option.some.inj (hx.1.symm.trans hy.1)
      exact absurd (h ▸ List.mem_cons_self) hx0
    | cons y ys =>
      obtain rfl : x = y := Option.some.inj (hx.1.symm.trans hy.1)
      obtain ⟨zs, rfl⟩ := ih hx.2 hy.2 fun h => hx0 (List.mem_cons_of_mem _ h)
      exact ⟨zs, rfl⟩

theorem has_terminated_inj {a : Nat} {xs ys : Bytes} (hx : m.has a (xs ++ [0]))
    (hy : m.has a (ys ++ [0])) (hx0 : (0 : UInt8) ∉ xs) (hy0 : (0 : UInt8) ∉ ys) : xs = ys := by
  obtain ⟨zs, hys⟩ := has_starts (has_append.mp hx).1 hy hx0
  obtain ⟨zs', hxs⟩ := has_starts (has_append.mp hy).1 hx hy0
  have hprefix : xs <+: ys := ⟨zs, hys.symm⟩
  have hlength : ys.length ≤ xs.length := List.IsPrefix.length_le ⟨zs', hxs.symm⟩
  exact hprefix.eq_of_length_le hlength

theorem Holds.unique {address : UInt64} {s t : OsStr} (hs : m.Holds address s)
    (ht : m.Holds address t) : s = t := by
  obtain ⟨xs, hx⟩ := s
  obtain ⟨ys, hy⟩ := t
  obtain rfl : xs = ys := has_terminated_inj hs ht hx hy
  rfl

-- ---------------------------------------------------------------------------
-- Reading a pathname
-- ---------------------------------------------------------------------------

/-- Reads of process `pid` are answered from `m`. -/
def Answers (m : Memory) (pid : Pid) (E : Env Op.Answer) : Prop :=
  ∀ address length r, E (.processVmReadv pid address length) r → r = m.read address length

theorem exec_readMemory {E : Env Op.Answer} {pid : Pid} {address : UInt64} {length : Nat}
    {tr : Trace} {chunk : Chunk address length} (hE : m.Answers pid E)
    (h : Exec E (readMemory pid address length) tr (some (.ok chunk))) :
    m.has address.toNat chunk.bytes := by
  obtain ⟨r, rest, hr, hrest, -⟩ := exec_call.mp h
  obtain rfl := hE _ _ _ hr
  cases hread : m.read address length with
  | error e => simp [hread] at hrest
  | ok chunk' =>
    obtain ⟨-, rfl⟩ : rest = [] ∧ chunk = chunk' := by simpa [hread] using hrest
    exact read_ok hread

theorem takeWhile_terminated {bs : Bytes} (h : (0 : UInt8) ∈ bs) :
    ∃ rest, bs = bs.takeWhile (· != 0) ++ 0 :: rest := by
  induction bs with
  | nil => cases h
  | cons b bs ih =>
    by_cases hb : b = 0
    · exact ⟨bs, by simp [hb]⟩
    · obtain ⟨rest, hrest⟩ := ih ((List.mem_cons.mp h).resolve_left (Ne.symm hb))
      refine ⟨rest, ?_⟩
      simp only [List.takeWhile_cons, bne_iff_ne, ne_eq, hb, not_false_eq_true, if_true,
        List.cons_append]
      rw [← hrest]

theorem exec_readPathLoop {E : Env Op.Answer} {pid : Pid} {address : UInt64}
    (hE : m.Answers pid E) {turns : Nat} {bytes s : OsStr} {tr : Trace}
    (hbytes : m.has address.toNat bytes.bytes)
    (h : Exec E (readPathLoop pid address turns bytes) tr (some (.ok s))) :
    m.Holds address s := by
  induction turns generalizing bytes tr with
  | zero => simp [readPathLoop] at h
  | succ turns ih =>
    unfold readPathLoop at h
    split at h
    · split at h
      · simp at h
      · rename_i start hstart
        have hnat := checkedAdd_some hstart
        rcases exec_bind.mp h with ⟨r, first, rest, hread, hrest, -⟩ | ⟨-, hnone⟩
        · cases r with
          | error e => simp at hrest
          | ok chunk =>
            have hchunk := exec_readMemory hE hread
            rw [hnat] at hchunk
            dsimp only at hrest
            split at hrest
            · rename_i hzero
              obtain ⟨more, hmore⟩ := takeWhile_terminated hzero
              obtain ⟨-, hs⟩ := exec_ret.mp hrest
              obtain rfl := Except.ok.inj (Option.some.inj hs)
              rw [hmore, ← List.singleton_append, ← List.append_assoc] at hchunk
              rw [Holds, OsStr.append, List.append_assoc]
              exact has_append.mpr ⟨hbytes, (has_append.mp hchunk).1⟩
            · exact ih (has_append.mpr ⟨hbytes, hchunk⟩) hrest
        · cases hnone
    · simp at h

/-- A pathname that was read is the one the kernel finds at the address. -/
theorem exec_readPath {E : Env Op.Answer} {pid : Pid} {address : UInt64} {s : OsStr} {tr : Trace}
    (hE : m.Answers pid E) (h : Exec E (readPath pid address) tr (some (.ok s))) :
    m.Holds address s := by
  unfold readPath at h
  split at h
  · simp at h
  · exact exec_readPathLoop hE (show m.has address.toNat OsStr.empty.bytes from trivial) h

-- ---------------------------------------------------------------------------
-- Writing
-- ---------------------------------------------------------------------------

/-- The memory after `bytes` were written at `a`. What is not mapped stays so. -/
def write (m : Memory) (a : Nat) (bytes : Bytes) : Memory where
  byte x := (m.byte x).map fun old => if a ≤ x then bytes.getD (x - a) old else old
  user x hx := by rw [m.user x hx]; rfl

theorem write_outside {a x : Nat} {bytes : Bytes} (h : x < a ∨ a + bytes.length ≤ x) :
    (m.write a bytes).byte x = m.byte x := by
  have hkeep (old : UInt8) : (if a ≤ x then bytes.getD (x - a) old else old) = old := by
    split
    · rw [List.getD_eq_getElem?_getD, List.getElem?_eq_none (by omega), Option.getD_none]
    · rfl
  show (m.byte x).map _ = m.byte x
  simp only [hkeep, Option.map_id']

/-- Written over mapped bytes, the bytes stand there. -/
theorem has_write {a : Nat} {old bytes : Bytes} (h : m.has a old)
    (hlength : bytes.length ≤ old.length) : (m.write a bytes).has a bytes := by
  refine has_iff.mpr fun i hi => ?_
  have hold := has_iff.mp h i (Nat.lt_of_lt_of_le hi hlength)
  simp [write, hold, List.getElem?_eq_getElem hi]

/-- Writing does not change which bytes are mapped. -/
theorem exists_has_write {a b : Nat} {old bytes : Bytes} (h : m.has a old) :
    ∃ new, new.length = old.length ∧ (m.write b bytes).has a new := by
  induction old generalizing a with
  | nil => exact ⟨[], rfl, trivial⟩
  | cons x old ih =>
    obtain ⟨new, hlength, hnew⟩ := ih h.2
    refine ⟨(if b ≤ a then bytes.getD (a - b) x else x) :: new, by simp [hlength], ?_, hnew⟩
    simp [write, h.1]

-- ---------------------------------------------------------------------------
-- Memories with given contents
-- ---------------------------------------------------------------------------

/-- `bytes` at address `a` and nothing else. -/
def ofBytes (a : Nat) (bytes : Bytes) : Memory where
  byte x := if a ≤ x ∧ x < 2 ^ 63 - 1 then bytes[x - a]? else none
  user x hx := by
    rw [if_neg]
    omega

theorem has_ofBytes {a : Nat} {bytes : Bytes} (h : a + bytes.length < 2 ^ 63) :
    (ofBytes a bytes).has a bytes := by
  refine has_iff.mpr fun i hi => ?_
  have hrange : a ≤ a + i ∧ a + i < 2 ^ 63 - 1 := by omega
  refine (if_pos hrange).trans ?_
  rw [Nat.add_sub_cancel_left, List.getElem?_eq_getElem hi]

/-- A process of which only the memory can be seen, on a host that refuses everything. -/
def answers (m : Memory) : (op : Op) → op.Answer
  | .processVmReadv _ address length => m.read address length
  | .processStatusField _ _ => none
  | .processVmWritev .. | .openFile .. | .fstatat .. | .statx .. | .faccessat .. | .truncate ..
  | .chmod .. | .fchownat .. | .utimensat .. | .addFd _ | .respond _ => .error EACCES
  | .openProcMem _ | .writeProcMem .. | .readFdLink .. | .readCwdLink _ | .canonicalize _
  | .metadata _ | .symlinkMetadata _ | .readDir _ | .createDir .. | .removeDir _ | .removeFile _
  | .rename .. | .symlink .. | .readLink _ => .error (.os EACCES)

end Memory

end PathShim
