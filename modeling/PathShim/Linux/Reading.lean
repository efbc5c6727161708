import PathShim.Linux.Memory

/-!
# Reading a partly mapped range

A remote read stops short of the first byte that is not mapped. For a pathname
that is what is wanted: the chunks are joined until the NUL, and what comes out
is decided by the mapped bytes among the first `MAX_PATH`, wherever the chunks
end.
-/

namespace PathShim

open UnixPath Effects

namespace Memory

variable {m : Memory} {pid : Pid} {E : Env Op.Answer} {address : UInt64} {tr : Trace}

/-- A remote read of at least one byte returns all of the range that is mapped from its
start on, or an error if nothing is. -/
def Serves (m : Memory) (pid : Pid) (E : Env Op.Answer) : Prop :=
  ∀ address length r, 0 < length → E (.processVmReadv pid address length) r →
    match r with
    | .ok chunk => chunk.bytes = m.mapped address.toNat length
    | .error _ => m.byte address.toNat = none

theorem mapped_eq_nil {a n : Nat} (hn : 0 < n) : m.mapped a n = [] ↔ m.byte a = none := by
  cases n with
  | zero => cases hn
  | succ n =>
    rw [mapped]
    cases m.byte a <;> simp

theorem Answers.serves (h : m.Answers pid E) : m.Serves pid E := by
  intro address length r hlength hr
  rw [h _ _ _ hr, read]
  split
  · rename_i chunk hread
    split at hread
    · cases hread
    · obtain rfl := Except.ok.inj hread
      rfl
  · rename_i e hread
    split at hread
    · rename_i hnil
      exact (mapped_eq_nil hlength).mp hnil
    · cases hread

/-- A read in two parts, the second from where the first has ended. -/
theorem mapped_split {a k n : Nat} (h : k ≤ n) : m.mapped a n =
    m.mapped a k ++ m.mapped (a + (m.mapped a k).length) (n - (m.mapped a k).length) := by
  induction k generalizing a n with
  | zero => simp [mapped]
  | succ k ih =>
    obtain ⟨n, rfl⟩ := Nat.exists_eq_add_of_le' (Nat.lt_of_lt_of_le k.succ_pos h)
    cases hb : m.byte a with
    | none => simp [mapped, hb]
    | some b =>
      have hrest := ih (a := a + 1) (Nat.le_of_succ_le_succ h)
      simp only [mapped, hb, List.length_cons, List.cons_append, Nat.succ_eq_add_one]
      rw [Nat.add_sub_add_right, hrest, Nat.add_right_comm, Nat.add_assoc]

theorem takeWhile_of_noNul {xs : Bytes} (h : (0 : UInt8) ∉ xs) (ys : Bytes) :
    (xs ++ ys).takeWhile (· != 0) = xs ++ ys.takeWhile (· != 0) := by
  refine List.takeWhile_append_of_pos fun b hb => ?_
  have hne : b ≠ 0 := fun hzero => h (hzero ▸ hb)
  simpa using hne

-- ---------------------------------------------------------------------------
-- Pathnames
-- ---------------------------------------------------------------------------

/-- Every read of the trace asks for a part of the `MAX_PATH` bytes at `a`. -/
def InBounds (pid : Pid) (a : Nat) (tr : Trace) : Prop :=
  ∀ e ∈ tr, ∃ start length, e.op = .processVmReadv pid start length ∧
    a ≤ start.toNat ∧ start.toNat + length ≤ a + MAX_PATH

/-- The trace has a read that failed with `e` at an address that is not mapped. -/
def Failed (m : Memory) (pid : Pid) (tr : Trace) (e : Errno) : Prop :=
  ∃ start length, m.byte start.toNat = none ∧
    (⟨.processVmReadv pid start length, .error e⟩ : Event Op.Answer) ∈ tr

/-- What reading a pathname comes to, by the mapped bytes among the first `MAX_PATH`. -/
inductive PathRead (m : Memory) (pid : Pid) (tr : Trace) (bytes : Bytes) : IoResult OsStr → Prop
  | found (h : (0 : UInt8) ∈ bytes) : PathRead m pid tr bytes (.ok (OsStr.ofBytes bytes))
  | long (h : (0 : UInt8) ∉ bytes) (hlength : bytes.length = MAX_PATH) :
      PathRead m pid tr bytes (.error (.os ENAMETOOLONG))
  | unmapped {e} (h : (0 : UInt8) ∉ bytes) (hlength : bytes.length < MAX_PATH)
      (hfailed : m.Failed pid tr e) : PathRead m pid tr bytes (.error (.os e))

variable {bytes : Bytes} {r : IoResult OsStr}

theorem Failed.mono {e : Errno} {tr' : Trace} (h : m.Failed pid tr' e)
    (hsub : ∀ e ∈ tr', e ∈ tr) : m.Failed pid tr e := by
  obtain ⟨start, length, hbyte, hmem⟩ := h
  exact ⟨start, length, hbyte, hsub _ hmem⟩

theorem PathRead.mono {tr' : Trace} (h : PathRead m pid tr' bytes r) (hsub : ∀ e ∈ tr', e ∈ tr) :
    PathRead m pid tr bytes r := by
  cases h with
  | found h => exact .found h
  | long h hlength => exact .long h hlength
  | unmapped h hlength hfailed => exact .unmapped h hlength (hfailed.mono hsub)

/-- The pathname ends at the first NUL of the last chunk. -/
theorem ofBytes_last {sofar : OsStr} {chunk : Bytes} (h : (0 : UInt8) ∈ chunk) (rest : Bytes) :
    OsStr.ofBytes (sofar.bytes ++ chunk ++ rest) =
      OsStr.append sofar (chunk.takeWhile (· != 0)) (noNul_takeWhile _) := by
  obtain ⟨more, hmore⟩ := takeWhile_terminated h
  have hnul : (0 : UInt8) ∉ sofar.bytes ++ chunk.takeWhile (· != 0) := by
    simpa using ⟨sofar.noNul, by simpa using noNul_takeWhile chunk⟩
  have hsplit : sofar.bytes ++ chunk ++ rest =
      (sofar.bytes ++ chunk.takeWhile (· != 0)) ++ 0 :: (more ++ rest) := by
    conv_lhs => rw [hmore]
    simp
  simp only [OsStr.ofBytes, OsStr.append, OsStr.mk.injEq]
  rw [hsplit, takeWhile_of_noNul hnul]
  simp

/-- What one turn of the loop does. -/
theorem exec_readPathLoop_turn (hE : m.Serves pid E) (hroom : address.toNat + MAX_PATH ≤ 2 ^ 64)
    {turns : Nat} {sofar : OsStr} {out : Option (IoResult OsStr)}
    (hshort : sofar.bytes.length < MAX_PATH)
    (h : Exec E (readPathLoop pid address (turns + 1) sofar) tr out) :
    ∃ start length answer rest, start.toNat = address.toNat + sofar.bytes.length ∧
      0 < length ∧ length ≤ MAX_PATH - sofar.bytes.length ∧
      tr = ⟨.processVmReadv pid start length, answer⟩ :: rest ∧
      match answer with
      | .error e => m.byte start.toNat = none ∧ rest = [] ∧ out = some (.error (.os e))
      | .ok chunk => chunk.bytes = m.mapped start.toNat length ∧
        if hzero : (0 : UInt8) ∈ chunk.bytes then
          rest = [] ∧ out = some (.ok (OsStr.append sofar (chunk.bytes.takeWhile (· != 0))
            (noNul_takeWhile _)))
        else Exec E (readPathLoop pid address turns (OsStr.append sofar chunk.bytes hzero))
          rest out := by
  obtain ⟨start, hstart, hnat⟩ := checkedAdd_eq
    (show address.toNat + sofar.bytes.length < 2 ^ 64 by omega)
  have hlength : 0 < min (MAX_PATH - sofar.bytes.length) 256 := by omega
  rw [readPathLoop, if_pos hshort] at h
  simp only [hstart] at h
  obtain ⟨answer, rest, hanswer, hrest, rfl⟩ := exec_perform_bind.mp h
  have hserved := hE _ _ _ hlength hanswer
  refine ⟨start, _, answer, rest, hnat, hlength, Nat.min_le_left _ _, rfl, ?_⟩
  cases answer with
  | error e =>
    obtain ⟨rfl, rfl⟩ := exec_ret.mp hrest
    exact ⟨hserved, rfl, rfl⟩
  | ok chunk =>
    refine ⟨hserved, ?_⟩
    dsimp only at hrest
    simp only [pure_eq, Prog.bind_ret] at hrest ⊢
    split <;> rename_i hzero
    · rw [dif_pos hzero] at hrest
      exact exec_ret.mp hrest
    · rwa [dif_neg hzero] at hrest

/-- After any number of turns the bytes read so far are the mapped bytes up to there. -/
theorem exec_readPathLoop_exact (hE : m.Serves pid E) (hroom : address.toNat + MAX_PATH ≤ 2 ^ 64)
    {turns : Nat} {sofar : OsStr} {out : Option (IoResult OsStr)}
    (hturns : MAX_PATH < turns + sofar.bytes.length)
    (hmapped : m.mapped address.toNat MAX_PATH = sofar.bytes ++
      m.mapped (address.toNat + sofar.bytes.length) (MAX_PATH - sofar.bytes.length))
    (h : Exec E (readPathLoop pid address turns sofar) tr out) :
    tr.length + sofar.bytes.length ≤ MAX_PATH ∧ InBounds pid address.toNat tr ∧
      ∃ r, out = some r ∧ PathRead m pid tr (m.mapped address.toNat MAX_PATH) r := by
  have hlimit : sofar.bytes.length ≤ MAX_PATH := by
    have hle := length_mapped (m := m) address.toNat MAX_PATH
    rw [hmapped, List.length_append] at hle
    omega
  induction turns generalizing sofar tr with
  | zero => omega
  | succ turns ih =>
    rcases Nat.lt_or_eq_of_le hlimit with hshort | hfull
    · obtain ⟨start, length, answer, rest, hnat, hpos, hroom', rfl, hturn⟩ :=
        exec_readPathLoop_turn hE hroom hshort h
      have hinside : InBounds pid address.toNat [⟨.processVmReadv pid start length, answer⟩] := by
        intro e he
        rw [List.mem_singleton.mp he]
        exact ⟨_, _, rfl, by omega, by omega⟩
      cases answer with
      | error e =>
        obtain ⟨hbyte, rfl, rfl⟩ := hturn
        rw [hnat] at hbyte
        rw [(mapped_eq_nil (by omega)).mpr hbyte, List.append_nil] at hmapped
        refine ⟨by simp; omega, hinside, _, rfl, ?_⟩
        rw [hmapped]
        exact .unmapped sofar.noNul hshort ⟨start, length, by rwa [hnat], List.mem_cons_self⟩
      | ok chunk =>
        obtain ⟨hbytes, hnext⟩ := hturn
        have hsplit := mapped_split (m := m) (a := start.toNat) hroom'
        rw [← hbytes, hnat] at hsplit
        rw [hsplit, ← List.append_assoc] at hmapped
        split at hnext <;> rename_i hzero
        · obtain ⟨rfl, rfl⟩ := hnext
          refine ⟨by simp; omega, hinside, _, rfl, ?_⟩
          rw [hmapped, ← ofBytes_last hzero]
          exact .found (by simp [hzero])
        · have hlength : (OsStr.append sofar chunk.bytes hzero).bytes.length =
              sofar.bytes.length + chunk.bytes.length := List.length_append
          have hgrows : 0 < chunk.bytes.length := List.length_pos_iff.mpr chunk.nonempty
          have hle : chunk.bytes.length ≤ length := chunk.length_le
          rw [Nat.add_assoc, Nat.sub_sub, ← hlength] at hmapped
          obtain ⟨hcount, hrest, r, rfl, hr⟩ := ih (by omega) hmapped hnext (by omega)
          refine ⟨by simp; omega, ?_, r, rfl, hr.mono fun e he => by simp [he]⟩
          intro e he
          rcases List.mem_cons.mp he with rfl | he
          · exact hinside _ List.mem_cons_self
          · exact hrest e he
    · rw [readPathLoop, if_neg (by omega)] at h
      obtain ⟨rfl, rfl⟩ := exec_ret.mp h
      rw [hfull, Nat.sub_self, mapped, List.append_nil] at hmapped
      refine ⟨by simpa using hlimit, by simp [InBounds], _, rfl, ?_⟩
      rw [hmapped]
      exact .long sofar.noNul hfull

theorem exec_readPath_exact {out : Option (IoResult OsStr)} (hE : m.Serves pid E)
    (hne : address ≠ 0) (hroom : address.toNat + MAX_PATH ≤ 2 ^ 64)
    (h : Exec E (readPath pid address) tr out) :
    tr.length ≤ MAX_PATH ∧ InBounds pid address.toNat tr ∧
      ∃ r, out = some r ∧ PathRead m pid tr (m.mapped address.toNat MAX_PATH) r := by
  rw [readPath, if_neg hne] at h
  exact exec_readPathLoop_exact hE hroom (by simp [OsStr.empty]) (by simp [OsStr.empty]) h

/-- A pathname with its NUL is the beginning of what is mapped. -/
theorem mapped_of_holds {s : OsStr} (hlength : s.bytes.length < MAX_PATH)
    (h : m.Holds address s) : ∃ rest, m.mapped address.toNat MAX_PATH = s.bytes ++ 0 :: rest := by
  have hfits : (s.bytes ++ [0]).length ≤ MAX_PATH := by simpa using Nat.succ_le_of_lt hlength
  have hsplit := mapped_split (m := m) (a := address.toNat) hfits
  rw [mapped_of_has h, List.append_assoc] at hsplit
  exact ⟨_, hsplit⟩

theorem holds_of_mapped (h : (0 : UInt8) ∈ m.mapped address.toNat MAX_PATH) :
    (OsStr.ofBytes (m.mapped address.toNat MAX_PATH)).bytes.length < MAX_PATH ∧
      m.Holds address (OsStr.ofBytes (m.mapped address.toNat MAX_PATH)) := by
  obtain ⟨rest, hrest⟩ := takeWhile_terminated h
  have hhas := has_mapped (m := m) address.toNat MAX_PATH
  have hlength := length_mapped (m := m) address.toNat MAX_PATH
  rw [hrest, List.append_cons] at hhas
  rw [hrest, List.length_append, List.length_cons] at hlength
  exact ⟨by simp only [OsStr.ofBytes]; omega, (has_append.mp hhas).1⟩

theorem PathRead.of_holds {s : OsStr} (h : PathRead m pid tr (m.mapped address.toNat MAX_PATH) r)
    (hlength : s.bytes.length < MAX_PATH) (hs : m.Holds address s) : r = .ok s := by
  obtain ⟨rest, hrest⟩ := mapped_of_holds hlength hs
  have hzero : (0 : UInt8) ∈ m.mapped address.toNat MAX_PATH := by simp [hrest]
  cases h with
  | found _ => rw [(holds_of_mapped hzero).2.unique hs]
  | long h _ => exact absurd hzero h
  | unmapped h _ _ => exact absurd hzero h

theorem PathRead.of_long {bs : Bytes}
    (h : PathRead m pid tr (m.mapped address.toNat MAX_PATH) r) (hlength : bs.length = MAX_PATH)
    (hnul : (0 : UInt8) ∉ bs) (hbs : m.has address.toNat bs) :
    r = .error (.os ENAMETOOLONG) := by
  have hmapped : m.mapped address.toNat MAX_PATH = bs := hlength ▸ mapped_of_has hbs
  cases h with
  | found h => exact absurd (hmapped ▸ h) hnul
  | long _ _ => rfl
  | unmapped _ hshort _ =>
    rw [hmapped, hlength] at hshort
    exact absurd hshort (Nat.lt_irrefl _)

/-- A pathname in user memory leaves room for all that a reader may ask for. -/
theorem Holds.room {s : OsStr} (h : m.Holds address s) : address.toNat + MAX_PATH ≤ 2 ^ 64 := by
  have hbound := has_bound h (by simp)
  rw [MAX_PATH]
  omega

/-- What is read is the pathname that stands there, if it is short enough. -/
theorem found_readPath {s : OsStr} (hE : m.Answers pid E) (hne : address ≠ 0)
    (hholds : m.Holds address s) (hlength : s.bytes.length < MAX_PATH)
    (h : Exec E (readPath pid address) tr (some r)) : r = .ok s := by
  obtain ⟨-, -, r', hr, hread⟩ := exec_readPath_exact hE.serves hne hholds.room h
  obtain rfl := Option.some.inj hr
  exact hread.of_holds hlength hholds

/-- `read_path` asks for none but the first `MAX_PATH` bytes and always ends: with the bytes
before the first NUL among them, or, when all are mapped and none is NUL, with `ENAMETOOLONG`,
or else with the error of the read that met an unmapped byte. -/
theorem readPath_exact (hE : m.Serves pid E) (hne : address ≠ 0)
    (hroom : address.toNat + MAX_PATH ≤ 2 ^ 64) :
    Ensures E (readPath pid address) fun tr out =>
      ∃ r, out = some r ∧ tr.length ≤ MAX_PATH ∧ InBounds pid address.toNat tr ∧
        (∀ s : OsStr, s.bytes.length < MAX_PATH → m.Holds address s → r = .ok s) ∧
        (∀ bs : Bytes, bs.length = MAX_PATH → (0 : UInt8) ∉ bs → m.has address.toNat bs →
          r = .error (.os ENAMETOOLONG)) ∧
        ((¬ ∃ s : OsStr, s.bytes.length < MAX_PATH ∧ m.Holds address s) →
          (¬ ∃ bs : Bytes, bs.length = MAX_PATH ∧ (0 : UInt8) ∉ bs ∧ m.has address.toNat bs) →
          ∃ e, m.Failed pid tr e ∧ r = .error (.os e)) := by
  intro tr out h
  obtain ⟨hcount, hbounds, r, rfl, hread⟩ := exec_readPath_exact hE hne hroom h
  refine ⟨r, rfl, hcount, hbounds, fun s => hread.of_holds, fun bs => hread.of_long, ?_⟩
  intro hnone hshort
  cases hread with
  | found hzero => exact absurd ⟨_, holds_of_mapped hzero⟩ hnone
  | long hnul hlength => exact absurd ⟨_, hlength, hnul, has_mapped _ _⟩ hshort
  | unmapped _ _ hfailed => exact ⟨_, hfailed, rfl⟩

/-- A page that ends in the middle of a pathname. -/
def cutMemory : Memory := ofBytes 4092 (ascii ['/', 'a', '/', 'x'])

theorem readPath_exact_cut : Ensures (fun op r => r = cutMemory.answers op) (readPath 100 4092)
    fun tr out => ∃ r, out = some r ∧ tr.length ≤ MAX_PATH ∧
      InBounds 100 (4092 : UInt64).toNat tr ∧
      (∀ s : OsStr, s.bytes.length < MAX_PATH → cutMemory.Holds 4092 s → r = .ok s) ∧
      (∀ bs : Bytes, bs.length = MAX_PATH → (0 : UInt8) ∉ bs →
        cutMemory.has (4092 : UInt64).toNat bs → r = .error (.os ENAMETOOLONG)) ∧
      ((¬ ∃ s : OsStr, s.bytes.length < MAX_PATH ∧ cutMemory.Holds 4092 s) →
        (¬ ∃ bs : Bytes, bs.length = MAX_PATH ∧ (0 : UInt8) ∉ bs ∧
          cutMemory.has (4092 : UInt64).toNat bs) →
        ∃ e, cutMemory.Failed 100 tr e ∧ r = .error (.os e)) :=
  readPath_exact (Answers.serves fun _ _ _ h => h) (by decide) (by decide)

end Memory

end PathShim
