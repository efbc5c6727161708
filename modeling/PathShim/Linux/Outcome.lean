import PathShim.Linux.Reply
import PathShim.Linux.Routing

/-!
# What a handler returns

A handler returns what became of its response. When the reply was a descriptor
that was sent, there is no response and the handler succeeds.
-/

namespace PathShim

open UnixPath Effects

/-- What a response came to. -/
def resultOf (e : Event Op.Answer) : Option (IoResult Unit) :=
  match e with
  | ⟨.respond _, answer⟩ => some (osResult answer)
  | _ => none

/-- `r` is what became of the response in `tr`. -/
def Told (tr : Trace) (r : IoResult Unit) : Prop :=
  tr.filterMap resultOf = [r] ∨ (tr.filterMap resultOf = [] ∧ r = .ok ())

/-- Whatever value the program returns, `result` of it is what became of its response. -/
def Reports (result : α → IoResult Unit) (p : Sup α) : Prop :=
  Ensures Env.any p fun tr out => ∀ a, out = some a → Told tr (result a)

abbrev Echoes (p : Sup (IoResult Unit)) : Prop := Reports (fun r => r) p

abbrev EchoesIn (p : Sup (State × IoResult Unit)) : Prop := Reports Prod.snd p

section
variable {result : α → IoResult Unit}

theorem results_of_silent {p : Sup β} (hp : Silent isReply p) {tr : Trace} {out : Option β}
    (hx : Exec Env.any p tr out) : tr.filterMap resultOf = [] := by
  have hcount := (hp tr out hx).2
  rw [List.countP_eq_zero] at hcount
  refine List.filterMap_eq_nil_iff.mpr fun e he => ?_
  obtain ⟨op, answer⟩ := e
  cases op with
  | respond response => exact absurd rfl (hcount _ he)
  | _ => rfl

theorem Reports.bind {p : Sup β} {f : β → Sup α}
    (hp : ∀ tr out, Exec Env.any p tr out → tr.filterMap resultOf = [])
    (hf : ∀ b, Reports result (f b)) : Reports result (p >>= f) := by
  intro tr out hx a ha
  rcases exec_bind.mp hx with ⟨b, first, rest, hfirst, hrest, rfl⟩ | ⟨-, rfl⟩
  · unfold Told
    rw [List.filterMap_append, hp first _ hfirst, List.nil_append]
    exact hf b rest out hrest a ha
  · cases ha

theorem Reports.after {p : Sup β} {f : β → Sup α} (hp : Silent isReply p)
    (hf : ∀ b, Reports result (f b)) : Reports result (p >>= f) :=
  .bind (fun _ _ hx => results_of_silent hp hx) hf

theorem echoes_respond (response : SeccompNotifResp) : Echoes (respond response) := by
  intro tr out hx r hr
  obtain ⟨answer, rest, -, hrest, rfl⟩ := exec_perform_bind.mp hx
  obtain ⟨rfl, rfl⟩ := exec_ret.mp hrest
  obtain rfl := Option.some.inj hr
  exact .inl rfl

/-- A program without responses that succeeds whatever happens. -/
theorem reports_ok {p : Sup α} (hp : Silent isReply p)
    (hok : ∀ a, Returns Env.any p a → result a = .ok ()) : Reports result p := by
  intro tr out hx a ha
  subst ha
  exact .inr ⟨results_of_silent hp hx, hok a ⟨tr, hx⟩⟩

end

theorem echoes_answered (s : State) {reply : Sup (IoResult Unit)} (h : Echoes reply) :
    EchoesIn (answered s reply) := by
  intro tr out hx a ha
  obtain ⟨out', hreply, rfl⟩ := exec_answered.mp hx
  obtain ⟨r, rfl, rfl⟩ := Option.map_eq_some_iff.mp ha
  exact h tr _ hreply r rfl

theorem Responds.echoes {id : UInt64} {p : Sup (IoResult Unit)} (h : Responds id p) :
    Echoes p := by
  induction h with
  | respond _ => exact echoes_respond _
  | after hp _ ih => exact .after (hp isReply (isReply_marks id)) ih

theorem Settles.echoes {id : UInt64} {p : Sup (State × IoResult Unit)} (h : Settles id p) :
    EchoesIn p := by
  induction h with
  | answered s hreply => exact echoes_answered s hreply.echoes
  | after hp _ ih => exact .after (hp isReply (isReply_marks id)) ih
  | @sent request f _ _ _ hsilent hok ih =>
    refine Reports.bind (p := ask (.addFd request)) (fun tr out hx => ?_) fun r => ?_
    · obtain ⟨r, rest, -, hrest, rfl⟩ := exec_call.mp hx
      obtain ⟨rfl, -⟩ := exec_ret.mp hrest
      rfl
    · cases r with
      | error e => exact ih e
      | ok fd => exact reports_ok (hsilent fd isReply (isReply_marks id)) (hok fd)

/-- A handler fails exactly as its response did. -/
theorem handle_result {state state' : State} {notif : SeccompNotif} {tr : Trace}
    {r : IoResult Unit} (hx : Exec Env.any (handle state notif) tr (some (state', r))) :
    Told tr r := settles_handle.echoes tr _ hx _ rfl

end PathShim
