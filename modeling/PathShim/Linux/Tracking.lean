import PathShim.Linux.Dispatch

/-!
# Tracking an opened directory

Once its descriptor has been sent, an open ends in one of three ways: what it
opened is no directory, or there is no snapshot to be had, or the snapshot is
recorded under the number the caller got.
-/

namespace PathShim

open UnixPath Effects

section
variable {E : Env Op.Answer} {s s' : State} {notif : SeccompNotif} {flags : Int32} {v : AbsPath}
  {realPath : OsStr} {childFd : Fd} {tr : Trace} {r : IoResult Unit}

/-- Whether `handle_open` takes what it has opened for a directory. -/
def opensDirectory (flags : Int32) (realPath : OsStr) : Sup Bool :=
  if flags &&& O_DIRECTORY ≠ 0 then pure true
  else do
    match ← ask (.metadata realPath) with
    | .ok metadata => pure metadata.isDir
    | .error _ => pure false

/-- The three ways through `trackOpened`, each with the snapshot that is recorded. -/
inductive TrackRun (E : Env Op.Answer) (s : State) (notif : SeccompNotif) (flags : Int32)
    (v : AbsPath) (realPath : OsStr) (childFd : Fd) :
    Option (List DirEntry) → State → Trace → Prop
  | file {look} : Exec E (opensDirectory flags realPath) look (some false) →
      TrackRun E s notif flags v realPath childFd none s look
  | failed {look snapshot e} : Exec E (opensDirectory flags realPath) look (some true) →
      Exec E (s.view.listDir v.toPath) snapshot (some (.error e)) →
      TrackRun E s notif flags v realPath childFd none s (look ++ snapshot)
  | taken {look snapshot status entries key} :
      Exec E (opensDirectory flags realPath) look (some true) →
      Exec E (s.view.listDir v.toPath) snapshot (some (.ok entries)) →
      Exec E (processKey notif.pid) status (some key) →
      TrackRun E s notif flags v realPath childFd (some entries)
        (s.insertDirectory (key, childFd) ⟨v, entries, 0⟩) (look ++ (snapshot ++ status))

theorem trackOpened_eq : trackOpened s notif flags v realPath childFd =
    (opensDirectory flags realPath >>= fun isDirectory =>
      if isDirectory then trackDirectory s notif v childFd else return (s, .ok ())) := by
  unfold trackOpened opensDirectory
  split
  · rfl
  · refine congrArg (Prog.call (Op.metadata realPath)) (funext fun answer => ?_)
    cases answer <;> rfl

theorem exec_trackOpened : Exec E (trackOpened s notif flags v realPath childFd) tr (some (s', r)) ↔
    r = .ok () ∧ ∃ listing, TrackRun E s notif flags v realPath childFd listing s' tr := by
  rw [trackOpened_eq]
  constructor
  · intro hx
    rcases exec_bind.mp hx with ⟨isDirectory, look, rest, hlook, hrest, rfl⟩ | ⟨-, hnone⟩
    · cases isDirectory with
      | false =>
        obtain ⟨rfl, h⟩ := exec_ret.mp hrest
        cases h
        rw [List.append_nil]
        exact ⟨rfl, none, .file hlook⟩
      | true =>
        rcases exec_bind.mp hrest with ⟨listed, snapshot, last, hlisted, hlast, rfl⟩ | ⟨-, hnone⟩
        · cases listed with
          | error e =>
            obtain ⟨rfl, h⟩ := exec_ret.mp hlast
            cases h
            rw [List.append_nil]
            exact ⟨rfl, none, .failed hlook hlisted⟩
          | ok entries =>
            rcases exec_bind.mp hlast with ⟨key, status, rest, hkey, hend, rfl⟩ | ⟨-, hnone⟩
            · obtain ⟨rfl, h⟩ := exec_ret.mp hend
              cases h
              rw [List.append_nil]
              exact ⟨rfl, some entries, .taken hlook hlisted hkey⟩
            · cases hnone
        · cases hnone
    · cases hnone
  · rintro ⟨rfl, listing, hrun⟩
    cases hrun with
    | file hlook =>
      exact exec_bind.mpr (.inl ⟨false, tr, [], hlook, .ret, (List.append_nil tr).symm⟩)
    | failed hlook hlisted =>
      refine exec_bind.mpr (.inl ⟨true, _, _, hlook, ?_, rfl⟩)
      exact exec_bind.mpr (.inl ⟨_, _, [], hlisted, .ret, (List.append_nil _).symm⟩)
    | taken hlook hlisted hkey =>
      refine exec_bind.mpr (.inl ⟨true, _, _, hlook, ?_, rfl⟩)
      refine exec_bind.mpr (.inl ⟨_, _, _, hlisted, ?_, rfl⟩)
      exact exec_bind.mpr (.inl ⟨_, _, [], hkey, .ret, (List.append_nil _).symm⟩)

/-- A snapshot was recorded for an open directory, or nothing has changed. -/
theorem TrackRun.state {listing : Option (List DirEntry)}
    (h : TrackRun E s notif flags v realPath childFd listing s' tr) :
    s' = s ∨ ∃ key entries, s' = s.insertDirectory (key, childFd) ⟨v, entries, 0⟩ ∧
      Returns E (processKey notif.pid) key ∧ Returns E (opensDirectory flags realPath) true := by
  cases h with
  | file | failed => exact .inl rfl
  | taken hlook _ hkey => exact .inr ⟨_, _, rfl, ⟨_, hkey⟩, ⟨_, hlook⟩⟩

end

end PathShim
