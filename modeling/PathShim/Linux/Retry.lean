import PathShim.Linux.FallThrough
import PathShim.Linux.Pagination

/-!
# Reading again after an error

`handle_getdents` moves the cursor while it packs the records, and copies them
to the caller only afterwards. So an error consumes nothing exactly when there
was no record to pack.
-/

namespace PathShim

open UnixPath Effects Paging

section
variable {state : State} {notif : SeccompNotif} {ans : (op : Op) → op.Answer} {d : OpenDirectory}

/-- A `getdents64` on a descriptor that is tracked as `d` and still is that directory. -/
structure Reading (state : State) (notif : SeccompNotif) (ans : (op : Op) → op.Answer)
    (d : OpenDirectory) : Prop where
  number : notif.data.nr = .sysGetdents64
  tracked : state.directories (keyOf ans notif.pid, asI32 (notif.data.args 0)) = some d
  same : (directoryFdMatches state notif.pid (asI32 (notif.data.args 0)) d).eval ans = some true

/-- Whatever fails, after an error reply the tracked directory is what it was, its cursor
included. -/
def ConsumesNothing (state : State) (notif : SeccompNotif) (ans : (op : Op) → op.Answer) : Prop :=
  ∀ tr after r, Exec (Observed ans) (handle state notif) tr (some (after, r)) → Refused tr →
    after.directories (keyOf ans notif.pid, asI32 (notif.data.args 0)) =
      state.directories (keyOf ans notif.pid, asI32 (notif.data.args 0))

/-- A copy to a bad address, and the error that says so. -/
theorem exec_copy_fails (notif : SeccompNotif) (ans : (op : Op) → op.Answer) (bytes : Bytes) :
    ∃ tr, Exec (Observed ans) (orRespond notif.id
      (writeMemory notif.pid (notif.data.args 1) bytes) fun () =>
        respondValue notif.id bytes.length) tr (some (.ok ())) ∧ Refused tr := by
  have hwrite : Exec (Observed ans) (writeMemory notif.pid (notif.data.args 1) bytes)
      [⟨.processVmWritev notif.pid (notif.data.args 1) bytes, .error EFAULT⟩]
      (some (.error (.os EFAULT))) := .call (fun hop => hop.elim) .ret
  have hreply : Exec (Observed ans) (respondError notif.id EFAULT)
      [⟨.respond ⟨notif.id, 0, -EFAULT, 0⟩, .ok ()⟩] (some (.ok ())) :=
    .call (fun hop => hop.elim) .ret
  exact ⟨_, exec_bind.mpr (.inl ⟨_, _, _, hwrite, hreply, rfl⟩), ⟨notif.id, 0, -EFAULT, 0⟩, .ok (),
    by simp, by simp [EFAULT]⟩

namespace Reading

variable (h : Reading state notif ans d)
include h

theorem handle_eq : handle state notif = handleGetdents state notif := by
  rw [handle, h.number]

/-- Any run of the call moves the cursor behind the page it packs. -/
theorem moves {tr : Trace} {after : State} {r : IoResult Unit}
    (hx : Exec (Observed ans) (handle state notif) tr (some (after, r))) :
    after.directories (keyOf ans notif.pid, asI32 (notif.data.args 0)) = some { d with
      cursor := d.cursor + (d.pageFrom (notif.data.args 2).toNat d.cursor).length } := by
  have hmatch : ∀ matching, Returns (Observed ans) (directoryFdMatches state notif.pid
      (asI32 (notif.data.args 0)) d) matching → matching = true := fun matching hmatching =>
    Option.some.inj ((eval_of_returns (calls_directoryFdMatches reads_observes trivial)
      hmatching).symm.trans h.same)
  rw [h.handle_eq] at hx
  obtain ⟨looks, rest, -, -, rfl, -⟩ :=
    exec_getdents (fun _ => returns_processKey) h.tracked hmatch hx
  exact Function.update_self _ _ _

/-- With a page to copy, the copy may fail. -/
theorem fails (hpage : d.pageFrom (notif.data.args 2).toNat d.cursor ≠ []) :
    ∃ tr after r, Exec (Observed ans) (handle state notif) tr (some (after, r)) ∧ Refused tr := by
  have hkey : (processKey notif.pid).eval ans = some (keyOf ans notif.pid) := rfl
  obtain ⟨first, hfirst⟩ :=
    exec_of_eval observed_ans (calls_processKey reads_observes notif.pid) hkey
  obtain ⟨second, hsecond⟩ :=
    exec_of_eval observed_ans (calls_directoryFdMatches reads_observes trivial) h.same
  obtain ⟨copy, hcopy, hrefused⟩ := exec_copy_fails notif ans
    ((d.pageFrom (notif.data.args 2).toNat d.cursor).flatMap Placed.record)
  have hrecords : (d.pageFrom (notif.data.args 2).toNat d.cursor).flatMap Placed.record ≠ [] :=
    mt records_eq_nil.mp hpage
  rw [h.handle_eq]
  refine ⟨first ++ (second ++ copy), state.insertDirectory
    (keyOf ans notif.pid, asI32 (notif.data.args 0)) { d with
      cursor := d.cursor + (d.pageFrom (notif.data.args 2).toNat d.cursor).length }, .ok (),
    exec_bind.mpr (.inl ⟨_, _, _, hfirst, ?_, rfl⟩), ?_⟩
  · simp only [h.tracked]
    refine exec_bind.mpr (.inl ⟨true, _, copy, hsecond, ?_, rfl⟩)
    simp only [if_true, packEntries_pageFrom]
    refine exec_answered.mpr ⟨some (.ok ()), ?_, rfl⟩
    rwa [if_neg fun hnil => hrecords hnil.1]
  · obtain ⟨response, r, hmem, herror⟩ := hrefused
    exact ⟨response, r, by simp [hmem], herror⟩

end Reading

/-- An error consumes nothing exactly when the next record, if there is one, does not fit. -/
theorem failed_getdents (h : Reading state notif ans d) : ConsumesNothing state notif ans ↔
    ∀ entry ∈ d.entries[d.cursor]?, (notif.data.args 2).toNat < recordLength entry := by
  rw [← pageFrom_eq_nil]
  constructor
  · intro hconsumes
    by_contra hpage
    obtain ⟨tr, after, r, hx, hrefused⟩ := h.fails hpage
    have hkept := hconsumes tr after r hx hrefused
    rw [h.moves hx, h.tracked, Option.some.injEq] at hkept
    have hcursor := congrArg OpenDirectory.cursor hkept
    exact hpage (List.eq_nil_of_length_eq_zero (Nat.add_eq_left.mp hcursor))
  · intro hpage tr after r hx _
    rw [h.moves hx, h.tracked, hpage, List.length_nil, Nat.add_zero]

end

-- ---------------------------------------------------------------------------
-- One lost entry
-- ---------------------------------------------------------------------------

/-- The same answers, with every write to the tracee failing. -/
def unwritable (ans : (op : Op) → op.Answer) : (op : Op) → op.Answer
  | .processVmWritev .. => .error EFAULT
  | op => ans op

def unwritableS : (op : Op) → op.Answer := unwritable (worldWithS.answers (pathMemory []))

/-- The call fails, and the next one, with a good buffer, finds the directory at its end. -/
theorem failed_getdents_loses_x : ¬ ConsumesNothing trackingX getdentsNotif unwritableS ∧
    ∃ after, ((handle trackingX getdentsNotif).eval unwritableS).map Prod.fst = some after ∧
      ((handle trackingX getdentsNotif).trace unwritableS).filterMap responseOf =
        [⟨9, 0, -EFAULT, 0⟩] ∧
      ((handle after getdentsNotif).trace writableS).filterMap responseOf = [⟨9, 0, 0, 0⟩] ∧
      ((handle trackingX getdentsNotif).trace writableS).filterMap responseOf =
        [⟨9, 24, 0, 0⟩] := by
  refine ⟨fun h => ?_, _, rfl, rfl, rfl, rfl⟩
  have hx : Exec (Observed unwritableS) (handle trackingX getdentsNotif)
      ((handle trackingX getdentsNotif).trace unwritableS) (some (_, .ok ())) :=
    exec_eval unwritableS (fun _ _ => rfl) _
  have hrefused : Refused ((handle trackingX getdentsNotif).trace unwritableS) :=
    ⟨⟨9, 0, -EFAULT, 0⟩, .ok (), List.mem_of_getElem? (i := 4) rfl, by decide⟩
  have hkept := h _ _ _ hx hrefused
  have hcursor := congrArg (Option.map OpenDirectory.cursor) hkept
  exact absurd hcursor (by decide)

/-- A buffer with no room for the next record. -/
theorem failed_getdents_short :
    ConsumesNothing trackingX { getdentsNotif with data.args := fun i => if i = 0 then 3 else 8 }
      unwritableS :=
  (failed_getdents (d := boundX) ⟨rfl, rfl, rfl⟩).mpr (by decide)

end PathShim
