import PathShim.Linux.FallThrough

/-!
# What a mapped exec leaves in the tracee

The pathname is replaced in place and a descriptor is added before the kernel
decides about the exec, and neither is taken back. So a process that goes on in
the same address space is as before only if nothing was injected; otherwise it
has one more close-on-exec descriptor, and its pathname, where the call went
on, names that descriptor.
-/

namespace PathShim

open UnixPath Effects

-- ---------------------------------------------------------------------------
-- Effects on the tracee
-- ---------------------------------------------------------------------------

/-- What code that keeps running can see of the caller: its address space, which a `vfork`
parent shares, and its open descriptors. -/
@[ext] structure Tracee where
  memory : Memory
  fds : Set Fd

/-- The effect of one answered call of the supervisor on process `pid`. -/
def Tracee.apply (t : Tracee) (pid : Pid) : Event Op.Answer → Tracee
  | ⟨.processVmWritev target address bytes, .ok n⟩
  | ⟨.writeProcMem target bytes address, .ok n⟩ =>
    if target = pid then { t with memory := t.memory.write address.toNat (bytes.take n) } else t
  | ⟨.addFd _, .ok fd⟩ => { t with fds := insert fd t.fds }
  | _ => t

def Tracee.after (t : Tracee) (pid : Pid) (tr : Trace) : Tracee := tr.foldl (·.apply pid) t

variable {t t' : Tracee} {pid : Pid} {tr : Trace} {E : Env Op.Answer} {state : State}
  {notif : SeccompNotif}

@[simp] theorem Tracee.after_nil : t.after pid [] = t := rfl
@[simp] theorem Tracee.after_cons (e : Event Op.Answer) :
    t.after pid (e :: tr) = (t.apply pid e).after pid tr := rfl
@[simp] theorem Tracee.after_append (tr' : Trace) :
    t.after pid (tr ++ tr') = (t.after pid tr).after pid tr' := List.foldl_append

/-- The kernel's answers about a process in state `t`: reads come from its memory, and a
descriptor is added under a number that was free. -/
structure Tracee.Answers (t : Tracee) (pid : Pid) (E : Env Op.Answer) : Prop where
  memory : t.memory.Answers pid E
  fresh : ∀ request fd, E (.addFd request) (.ok fd) → fd ∉ t.fds

-- ---------------------------------------------------------------------------
-- Rewriting the pathname
-- ---------------------------------------------------------------------------

/-- What is mapped stays mapped. -/
theorem Tracee.mapped_after (tr : Trace) {a : Nat} {old : Bytes} (h : t.memory.has a old) :
    ∃ new, new.length = old.length ∧ (t.after pid tr).memory.has a new := by
  induction tr generalizing t old with
  | nil => exact ⟨old, rfl, h⟩
  | cons e tr ih =>
    have hstep : ∃ new, new.length = old.length ∧ (t.apply pid e).memory.has a new := by
      unfold apply
      split
      · split
        · exact Memory.exists_has_write h
        · exact ⟨old, rfl, h⟩
      · split
        · exact Memory.exists_has_write h
        · exact ⟨old, rfl, h⟩
      · exact ⟨old, rfl, h⟩
      · exact ⟨old, rfl, h⟩
    obtain ⟨new, hnew, hhas⟩ := hstep
    obtain ⟨new', hnew', hhas'⟩ := ih hhas
    exact ⟨new', hnew'.trans hnew, hhas'⟩

/-- `t'` differs from `t` at most in the bytes from `a` to `b`. -/
structure Tracee.Within (t t' : Tracee) (a b : Nat) : Prop where
  fds : t'.fds = t.fds
  outside : ∀ x, x < a ∨ b ≤ x → t'.memory.byte x = t.memory.byte x

theorem Tracee.Within.refl (a b : Nat) : t.Within t a b := ⟨rfl, fun _ _ => rfl⟩

theorem Tracee.Within.trans {t'' : Tracee} {a b : Nat} (h : t.Within t' a b)
    (h' : t'.Within t'' a b) : t.Within t'' a b :=
  ⟨h'.fds.trans h.fds, fun x hx => (h'.outside x hx).trans (h.outside x hx)⟩

theorem Tracee.within_write {a b n : Nat} {bytes : Bytes} (h : a + bytes.length ≤ b) :
    t.Within { t with memory := t.memory.write a (bytes.take n) } a b := by
  refine ⟨rfl, fun x hx => Memory.write_outside ?_⟩
  have hn := List.length_take_le' n bytes
  rcases hx with hx | hx
  · exact .inl hx
  · exact .inr (by omega)

/-- A write of `bytes` at `a` that ended with `out`: nothing changes outside the range up to `b`,
and success means that all of them are there. -/
structure Tracee.Wrote (t t' : Tracee) (a b : Nat) (bytes : Bytes)
    (out : Option (IoResult Unit)) : Prop where
  within : t.Within t' a b
  complete : out = some (.ok ()) → t'.memory = t.memory.write a bytes

theorem Tracee.wrote_nothing {a b : Nat} {bytes : Bytes} {e : IoError} :
    t.Wrote t a b bytes (some (.error e)) := ⟨.refl a b, by simp⟩

theorem Tracee.wrote_part {a b : Nat} {bytes : Bytes} {out : Option (IoResult Unit)}
    (hb : a + bytes.length ≤ b) (written : Written bytes)
    (hall : out = some (.ok ()) → written.val = bytes.length) :
    t.Wrote { t with memory := t.memory.write a (bytes.take written.val) } a b bytes out := by
  refine ⟨within_write hb, fun hok => ?_⟩
  rw [hall hok, List.take_length]

theorem exec_writeMemory_within {address : UInt64} {bytes : Bytes} {b : Nat}
    {out : Option (IoResult Unit)} (hb : address.toNat + bytes.length ≤ b)
    (hx : Exec E (writeMemory pid address bytes) tr out) :
    t.Wrote (t.after pid tr) address.toNat b bytes out := by
  obtain ⟨r, rest, -, hrest, rfl⟩ := exec_perform_bind.mp hx
  cases r with
  | error e =>
    obtain ⟨rfl, rfl⟩ := exec_ret.mp hrest
    exact Tracee.wrote_nothing
  | ok written =>
    dsimp only at hrest
    split at hrest <;> obtain ⟨rfl, rfl⟩ := exec_ret.mp hrest <;>
      simp only [Tracee.after_cons, Tracee.after_nil, Tracee.apply, if_true]
    · exact Tracee.wrote_part hb written (by simp)
    · rename_i hall
      exact Tracee.wrote_part hb written fun _ => not_not.mp hall

theorem exec_writeProcessMemory_within {address : UInt64} {bytes : Bytes} {b : Nat}
    {out : Option (IoResult Unit)} (hb : address.toNat + bytes.length ≤ b)
    (hx : Exec E (writeProcessMemory pid address bytes) tr out) :
    t.Wrote (t.after pid tr) address.toNat b bytes out := by
  obtain ⟨r, rest, -, hrest, rfl⟩ := exec_perform_bind.mp hx
  cases r with
  | error e =>
    obtain ⟨rfl, rfl⟩ := exec_ret.mp hrest
    exact Tracee.wrote_nothing
  | ok _ =>
    obtain ⟨r', rest', -, hwrite, rfl⟩ := exec_perform_bind.mp hrest
    cases r' with
    | error e =>
      obtain ⟨rfl, rfl⟩ := exec_ret.mp hwrite
      exact Tracee.wrote_nothing
    | ok written =>
      dsimp only at hwrite
      split at hwrite <;> obtain ⟨rfl, rfl⟩ := exec_ret.mp hwrite <;>
        simp only [Tracee.after_cons, Tracee.after_nil, Tracee.apply, if_true]
      · rename_i hall
        exact Tracee.wrote_part hb written fun _ => hall
      · exact Tracee.wrote_part hb written (by simp)

theorem exec_rewritePath_long {address : UInt64} {original replacement : OsStr}
    {out : Option (IoResult Unit)} (hlong : original.bytes.length < replacement.bytes.length)
    (hx : Exec E (rewritePath pid address original replacement) tr out) :
    tr = [] ∧ out = some (.error (.os ENAMETOOLONG)) := by
  unfold rewritePath at hx
  dsimp only at hx
  rw [if_pos (by simpa using hlong)] at hx
  exact exec_ret.mp hx

/-- Rewriting changes nothing beyond the pathname and its NUL, and on success the
replacement stands there. -/
theorem exec_rewritePath_within {address : UInt64} {original replacement : OsStr}
    {out : Option (IoResult Unit)} (hholds : t.memory.Holds address original)
    (hx : Exec E (rewritePath pid address original replacement) tr out) :
    t.Within (t.after pid tr) address.toNat (address.toNat + original.bytes.length + 1) ∧
      (out = some (.ok ()) → (t.after pid tr).memory.Holds address replacement) := by
  unfold rewritePath at hx
  dsimp only at hx
  split at hx
  · obtain ⟨rfl, rfl⟩ := exec_ret.mp hx
    exact ⟨.refl _ _, by simp⟩
  · rename_i hlength
    have hfit : (replacement.bytes ++ [0]).length ≤ (original.bytes ++ [0]).length := by
      simpa using hlength
    have hend : address.toNat + (replacement.bytes ++ [0]).length ≤
        address.toNat + original.bytes.length + 1 := by
      simp only [List.length_append, List.length_singleton] at hfit ⊢
      omega
    rcases exec_bind.mp hx with ⟨r, first, rest, hfirst, hrest, rfl⟩ | ⟨hnone, rfl⟩
    · obtain ⟨hwithin, hwritten⟩ := exec_writeMemory_within hend hfirst (t := t)
      cases r with
      | ok _ =>
        obtain ⟨rfl, rfl⟩ := exec_ret.mp hrest
        rw [List.append_nil]
        refine ⟨hwithin, fun _ => ?_⟩
        rw [hwritten rfl]
        exact Memory.has_write hholds hfit
      | error e =>
        -- a part may have been written by the first way
        obtain ⟨hwithin', hwritten'⟩ := exec_writeProcessMemory_within hend hrest
          (t := t.after pid first)
        rw [Tracee.after_append]
        refine ⟨hwithin.trans hwithin', fun hok => ?_⟩
        obtain ⟨new, hnew, hhas⟩ := Tracee.mapped_after first hholds
        rw [hwritten' hok]
        exact Memory.has_write hhas (hnew ▸ hfit)
    · exact ⟨(exec_writeMemory_within hend hnone).within, by simp⟩

-- ---------------------------------------------------------------------------
-- The exec handler
-- ---------------------------------------------------------------------------

/-- A process whose files can be opened and injected. -/
def execAnswers (m : Memory) : (op : Op) → op.Answer
  | .openFile .. => .ok 9
  | .addFd _ => .ok 3
  | .processVmWritev _ _ bytes => .ok (Fin.last bytes.length)
  | .respond _ => .ok ()
  | op => m.answers op

def execTracee (m : Memory) : Tracee := ⟨m, {0, 1, 2}⟩

def longMemory : Memory :=
  .ofBytes 64 (ascii ['/', 'a', '/', 'p', 'r', 'o', 'g', 'r', 'a', 'm'] ++ [0])

end PathShim
