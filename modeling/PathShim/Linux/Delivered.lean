import PathShim.Linux.StateFrame

/-!
# What the caller gets

A response is what the caller's system call returns, and the writes into the
tracee are what it finds in its buffers. Handlers that copy something answer
with the number of bytes they have written.
-/

namespace PathShim

open UnixPath Effects

-- ---------------------------------------------------------------------------
-- What a call returned
-- ---------------------------------------------------------------------------

def responseOf (e : Event Op.Answer) : Option SeccompNotifResp :=
  match e with
  | ⟨.respond response, _⟩ => some response
  | _ => none

def writeOf (e : Event Op.Answer) : Option (UInt64 × Bytes) :=
  match e with
  | ⟨.processVmWritev _ address bytes, .ok n⟩ => some (address, bytes.take n.val)
  | ⟨.writeProcMem _ bytes address, .ok n⟩ => some (address, bytes.take n.val)
  | _ => none

/-- The caller got a value and that many bytes in its buffer, or an error and nothing. -/
def Delivered (notif : SeccompNotif) (buffer : UInt64) (tr : Trace) : Except Errno Bytes → Prop
  | .ok bytes => tr.filterMap responseOf = [⟨notif.id, bytes.length, 0, 0⟩] ∧
      tr.filterMap writeOf = [(buffer, bytes)]
  | .error e => tr.filterMap responseOf = [⟨notif.id, 0, -e, 0⟩] ∧ tr.filterMap writeOf = []

/-- A call that neither answers nor writes. -/
def Op.looks : Op → Bool
  | .respond _ | .processVmWritev .. | .writeProcMem .. => false
  | _ => true

theorem reads_looks : Reads fun op => op.looks = true :=
  ⟨fun _ _ _ => rfl, fun _ _ => rfl, fun _ _ => rfl, fun _ => rfl⟩

theorem noRespond_looks {op : Op} (h : op.looks = true) : op.isRespond = false := by
  cases op <;> first | rfl | cases h

theorem silent_looks {op : Op} (h : op.looks = true) : op.continues = false := by
  cases op <;> first | rfl | cases h

section
variable {E : Env Op.Answer} {notif : SeccompNotif} {buffer : UInt64} {tr first : Trace}
  {r : IoResult Unit}

theorem responses_looks (h : ∀ e ∈ tr, e.op.looks = true) : tr.filterMap responseOf = [] := by
  refine List.filterMap_eq_nil_iff.mpr fun e he => ?_
  obtain ⟨op, answer⟩ := e
  have hlooks := h _ he
  cases op <;> first | rfl | cases hlooks

theorem writes_looks (h : ∀ e ∈ tr, e.op.looks = true) : tr.filterMap writeOf = [] := by
  refine List.filterMap_eq_nil_iff.mpr fun e he => ?_
  obtain ⟨op, answer⟩ := e
  have hlooks := h _ he
  cases op <;> first | rfl | cases hlooks

theorem Delivered.after {result : Except Errno Bytes} (h : Delivered notif buffer tr result)
    (hfirst : ∀ e ∈ first, e.op.looks = true) : Delivered notif buffer (first ++ tr) result := by
  have hresponses := responses_looks hfirst
  have hwrites := writes_looks hfirst
  cases result <;> simpa [Delivered, List.filterMap_append, hresponses, hwrites] using h

theorem Delivered.rest {result : Except Errno Bytes}
    (h : Delivered notif buffer (first ++ tr) result) (hfirst : ∀ e ∈ first, e.op.looks = true) :
    Delivered notif buffer tr result := by
  have hresponses := responses_looks hfirst
  have hwrites := writes_looks hfirst
  cases result <;> simpa [Delivered, List.filterMap_append, hresponses, hwrites] using h

theorem Delivered.unique {result result' : Except Errno Bytes}
    (h : Delivered notif buffer tr result) (h' : Delivered notif buffer tr result') :
    result = result' := by
  cases result with
  | ok bytes =>
    cases result' with
    | ok bytes' => simpa using h.2.symm.trans h'.2
    | error e => simpa using h.2.symm.trans h'.2
  | error e =>
    cases result' with
    | ok bytes => simpa using h.2.symm.trans h'.2
    | error e' => simpa using h.1.symm.trans h'.1

theorem delivered_error {e : Errno} (hx : Exec E (respondError notif.id e) tr (some r)) :
    Delivered notif buffer tr (.error e) := by
  obtain ⟨answer, rest, -, hrest, rfl⟩ := exec_perform_bind.mp hx
  obtain ⟨rfl, -⟩ := exec_ret.mp hrest
  exact ⟨rfl, rfl⟩

/-- Writing a buffer and returning its length. -/
theorem delivered_bytes {bytes : Bytes}
    (hwrites : ∀ r, E (.processVmWritev notif.pid buffer bytes) r →
      ∃ n, r = .ok n ∧ n.val = bytes.length)
    (hx : Exec E (orRespond notif.id (writeMemory notif.pid buffer bytes) fun () =>
      respondValue notif.id bytes.length) tr (some r)) : Delivered notif buffer tr (.ok bytes) := by
  have hwrite {first : Trace} {result : IoResult Unit}
      (h : Exec E (writeMemory notif.pid buffer bytes) first (some result)) :
      result = .ok () ∧ first.filterMap responseOf = [] ∧
        first.filterMap writeOf = [(buffer, bytes)] := by
    obtain ⟨answer, rest, hanswer, hrest, rfl⟩ := exec_perform_bind.mp h
    obtain ⟨n, rfl, hn⟩ := hwrites answer hanswer
    dsimp only at hrest
    rw [if_neg (not_not_intro hn)] at hrest
    obtain ⟨rfl, hresult⟩ := exec_ret.mp hrest
    refine ⟨Option.some.inj hresult, rfl, ?_⟩
    simp [writeOf, hn]
  rcases exec_orRespond hx with ⟨⟨⟩, first, rest, hfirst, hreply, rfl⟩ |
    ⟨e, first, rest, hfirst, -, -⟩ | ⟨-, hnone⟩
  · obtain ⟨-, hresponses, hwritten⟩ := hwrite hfirst
    obtain ⟨answer, last, -, hlast, rfl⟩ := exec_perform_bind.mp hreply
    obtain ⟨rfl, -⟩ := exec_ret.mp hlast
    rw [Delivered, List.filterMap_append, List.filterMap_append, hresponses, hwritten]
    exact ⟨rfl, rfl⟩
  · cases (hwrite hfirst).1
  · cases hnone

/-- A value is returned only for a buffer that was written in full. -/
theorem Delivered.copied {bytes bytes' : Bytes} (h : Delivered notif buffer tr (.ok bytes'))
    (hx : Exec E (orRespond notif.id (writeMemory notif.pid buffer bytes) fun () =>
      respondValue notif.id bytes.length) tr (some r)) : bytes' = bytes := by
  obtain ⟨hresponses, hwrites⟩ := h
  rcases exec_bind.mp hx with ⟨copied, first, rest, hfirst, hrest, rfl⟩ | ⟨-, hnone⟩
  · obtain ⟨answer, last, -, hlast, rfl⟩ := exec_perform_bind.mp hfirst
    cases answer with
    | error e =>
      obtain ⟨rfl, h⟩ := exec_ret.mp hlast
      obtain rfl := Option.some.inj h
      obtain ⟨a, rfl, -⟩ := exec_respond_eq hrest
      cases hwrites
    | ok n =>
      dsimp only at hlast
      split at hlast
      · -- a short copy is answered with an error
        obtain ⟨rfl, h⟩ := exec_ret.mp hlast
        obtain rfl := Option.some.inj h
        obtain ⟨a, rfl, -⟩ := exec_respond_eq hrest
        have herror : [- EIO] = [0] :=
          congrArg (List.map SeccompNotifResp.error) hresponses
        exact absurd herror (by decide)
      · rename_i hn
        obtain ⟨rfl, h⟩ := exec_ret.mp hlast
        obtain rfl := Option.some.inj h
        obtain ⟨a, rfl, -⟩ := exec_respond_eq hrest
        simpa [writeOf, not_not.mp hn] using hwrites.symm
  · cases hnone

end

end PathShim
