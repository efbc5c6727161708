import Mathlib.Order.Basic

/-!
# Programs with effects

A program is a tree of calls to an environment. Its executions are the traces
of calls and answers an environment relation allows, ending in a value or in a
panic. Everything that can happen "for every outcome of every call" is a
statement about all executions; a fixed assignment of answers evaluates it.
-/

namespace Effects

/-- Calls from `Op`, each answered by a value of its own type `Ans op`. -/
inductive Prog {Op : Type} (Ans : Op → Type) (α : Type) where
  | ret (a : α)
  | panic
  | call (op : Op) (next : Ans op → Prog Ans α)

variable {Op : Type} {Ans : Op → Type} {α β : Type}

def Prog.bind : Prog Ans α → (α → Prog Ans β) → Prog Ans β
  | .ret a, f => f a
  | .panic, _ => .panic
  | .call op next, f => .call op fun r => (next r).bind f

instance : Monad (Prog Ans) where
  pure := .ret
  bind := .bind

/-- One call that returns its answer. -/
def perform (op : Op) : Prog Ans (Ans op) := .call op .ret

@[simp] theorem pure_eq (a : α) : (pure a : Prog Ans α) = .ret a := rfl
@[simp] theorem ret_bind (a : α) (f : α → Prog Ans β) : (Prog.ret a >>= f) = f a := rfl
@[simp] theorem panic_bind (f : α → Prog Ans β) : ((Prog.panic : Prog Ans α) >>= f) = .panic := rfl
@[simp] theorem call_bind (op : Op) (next : Ans op → Prog Ans α) (f : α → Prog Ans β) :
    (Prog.call op next >>= f) = .call op fun r => next r >>= f := rfl
@[simp] theorem Prog.bind_ret (a : α) (f : α → Prog Ans β) : (Prog.ret a).bind f = f a := rfl

-- ---------------------------------------------------------------------------
-- Executions
-- ---------------------------------------------------------------------------

structure Event (Ans : Op → Type) where
  op : Op
  answer : Ans op

/-- The answers an environment may give. -/
abbrev Env (Ans : Op → Type) := (op : Op) → Ans op → Prop

/-- An environment about which nothing is known. -/
def Env.any : Env Ans := fun _ _ => True

/-- `Exec E p tr out`: under `E` the program can run through the trace `tr` and end
with `out`, which is `none` for a panic. -/
inductive Exec (E : Env Ans) : Prog Ans α → List (Event Ans) → Option α → Prop
  | ret {a} : Exec E (.ret a) [] (some a)
  | panic : Exec E .panic [] none
  | call {op next r tr out} : E op r → Exec E (next r) tr out →
      Exec E (.call op next) (⟨op, r⟩ :: tr) out

variable {E : Env Ans} {p : Prog Ans α} {f : α → Prog Ans β} {tr : List (Event Ans)}

@[simp] theorem exec_ret {a : α} {out : Option α} :
    Exec E (.ret a) tr out ↔ tr = [] ∧ out = some a := by
  constructor
  · intro h; cases h; exact ⟨rfl, rfl⟩
  · rintro ⟨rfl, rfl⟩; exact .ret

@[simp] theorem exec_panic {out : Option α} :
    Exec E .panic tr out ↔ tr = [] ∧ out = none := by
  constructor
  · intro h; cases h; exact ⟨rfl, rfl⟩
  · rintro ⟨rfl, rfl⟩; exact .panic

theorem exec_call {op : Op} {next : Ans op → Prog Ans α} {out : Option α} :
    Exec E (.call op next) tr out ↔
      ∃ r rest, E op r ∧ Exec E (next r) rest out ∧ tr = ⟨op, r⟩ :: rest := by
  constructor
  · intro h
    cases h with
    | call hr hn => exact ⟨_, _, hr, hn, rfl⟩
  · rintro ⟨r, rest, hr, hn, rfl⟩
    exact .call hr hn

theorem exec_perform_bind {op : Op} {f : Ans op → Prog Ans β} {out : Option β} :
    Exec E (perform op >>= f) tr out ↔
      ∃ r rest, E op r ∧ Exec E (f r) rest out ∧ tr = ⟨op, r⟩ :: rest := exec_call

/-- Sequencing: the first part panics, or it ends with a value and the second
part runs after it. -/
theorem exec_bind {out : Option β} : Exec E (p >>= f) tr out ↔
    (∃ a first rest, Exec E p first (some a) ∧ Exec E (f a) rest out ∧ tr = first ++ rest) ∨
      (Exec E p tr none ∧ out = none) := by
  induction p generalizing tr with
  | ret a =>
    simp only [ret_bind, exec_ret, Option.some.injEq]
    constructor
    · intro h
      exact .inl ⟨a, [], tr, ⟨rfl, rfl⟩, h, rfl⟩
    · rintro (⟨_, _, _, ⟨rfl, rfl⟩, h, rfl⟩ | ⟨⟨-, h⟩, -⟩)
      · exact h
      · cases h
  | panic => simp
  | call op next ih =>
    simp only [call_bind, exec_call, ih]
    constructor
    · rintro ⟨r, rest, hr, ⟨a, first, last, hp, hf, rfl⟩ | ⟨hp, rfl⟩, rfl⟩
      · exact .inl ⟨a, _, last, ⟨r, first, hr, hp, rfl⟩, hf, rfl⟩
      · exact .inr ⟨⟨r, rest, hr, hp, rfl⟩, rfl⟩
    · rintro (⟨a, _, last, ⟨r, first, hr, hp, rfl⟩, hf, rfl⟩ | ⟨⟨r, rest, hr, hp, rfl⟩, rfl⟩)
      · exact ⟨r, first ++ last, hr, .inl ⟨a, first, last, hp, hf, rfl⟩, rfl⟩
      · exact ⟨r, rest, hr, .inr ⟨hp, rfl⟩, rfl⟩

theorem Exec.mono {E' : Env Ans} {out : Option α} (h : Exec E p tr out)
    (he : ∀ op r, E op r → E' op r) : Exec E' p tr out := by
  induction h with
  | ret => exact .ret
  | panic => exact .panic
  | call hr _ ih => exact .call (he _ _ hr) ih

theorem Exec.answers {out : Option α} (h : Exec E p tr out) :
    ∀ e ∈ tr, E e.op e.answer := by
  induction h with
  | ret => simp
  | panic => simp
  | call hr _ ih =>
    intro e he
    rcases List.mem_cons.mp he with rfl | he
    · exact hr
    · exact ih e he

/-- Only the answers in the trace matter. -/
theorem Exec.allowed {E' : Env Ans} {out : Option α} (h : Exec E p tr out)
    (he : ∀ e ∈ tr, E' e.op e.answer) : Exec E' p tr out := by
  induction h with
  | ret => exact .ret
  | panic => exact .panic
  | call _ _ ih =>
    exact .call (he _ List.mem_cons_self) (ih fun e hmem => he e (List.mem_cons_of_mem _ hmem))

/-- What a trace does to a state that none of its events changes. -/
theorem foldl_unchanged {σ : Type} {step : σ → Event Ans → σ} {s : σ}
    (h : ∀ e ∈ tr, step s e = s) : tr.foldl step s = s := by
  induction tr with
  | nil => rfl
  | cons e tr ih =>
    rw [List.foldl_cons, h e List.mem_cons_self]
    exact ih fun e' he' => h e' (List.mem_cons_of_mem _ he')

-- ---------------------------------------------------------------------------
-- Which calls a program makes
-- ---------------------------------------------------------------------------

/-- Every call on every branch is one of `S`. -/
def Prog.Calls (S : Op → Prop) : Prog Ans α → Prop
  | .ret _ => True
  | .panic => True
  | .call op next => S op ∧ ∀ r, (next r).Calls S

theorem Prog.Calls.bind {S : Op → Prop} (hp : p.Calls S) (hf : ∀ a, (f a).Calls S) :
    (p >>= f).Calls S := by
  induction p with
  | ret a => exact hf a
  | panic => trivial
  | call op next ih => exact ⟨hp.1, fun r => ih r (hp.2 r)⟩

theorem Prog.Calls.perform {S : Op → Prop} {op : Op} (h : S op) :
    (perform op : Prog Ans (Ans op)).Calls S := ⟨h, fun _ => trivial⟩

theorem Prog.Calls.mono {S T : Op → Prop} (hp : p.Calls S) (h : ∀ op, S op → T op) :
    p.Calls T := by
  induction p with
  | ret a => trivial
  | panic => trivial
  | call op next ih => exact ⟨h op hp.1, fun r => ih r (hp.2 r)⟩

theorem Exec.calls {S : Op → Prop} {out : Option α} (h : Exec E p tr out) (hp : p.Calls S) :
    ∀ e ∈ tr, S e.op := by
  induction h with
  | ret => simp
  | panic => simp
  | call _ _ ih =>
    intro e he
    rcases List.mem_cons.mp he with rfl | he
    · exact hp.1
    · exact ih (hp.2 _) e he

-- ---------------------------------------------------------------------------
-- Evaluation under fixed answers
-- ---------------------------------------------------------------------------

/-- The result when every call is answered by `ans`; `none` for a panic. -/
def Prog.eval (ans : (op : Op) → Ans op) : Prog Ans α → Option α
  | .ret a => some a
  | .panic => none
  | .call op next => (next (ans op)).eval ans

def Prog.trace (ans : (op : Op) → Ans op) : Prog Ans α → List (Event Ans)
  | .ret _ => []
  | .panic => []
  | .call op next => ⟨op, ans op⟩ :: (next (ans op)).trace ans

@[simp] theorem eval_perform (ans : (op : Op) → Ans op) (op : Op) :
    (perform op).eval ans = some (ans op) := rfl

theorem eval_bind (ans : (op : Op) → Ans op) (p : Prog Ans α) (f : α → Prog Ans β) :
    (p >>= f).eval ans = (p.eval ans).bind fun a => (f a).eval ans := by
  induction p with
  | ret a => rfl
  | panic => rfl
  | call op next ih => exact ih (ans op)

/-- Running with answers the environment allows is an execution. -/
theorem exec_eval (ans : (op : Op) → Ans op) (h : ∀ op, E op (ans op)) (p : Prog Ans α) :
    Exec E p (p.trace ans) (p.eval ans) := by
  induction p with
  | ret a => exact .ret
  | panic => exact .panic
  | call op next ih => exact .call (h op) (ih (ans op))

/-- The same for a program that calls only what the environment lets those answers be given to. -/
theorem Prog.Calls.exec_eval {S : Op → Prop} {ans : (op : Op) → Ans op} (hp : p.Calls S)
    (h : ∀ op, S op → E op (ans op)) : Exec E p (p.trace ans) (p.eval ans) := by
  induction p with
  | ret a => exact .ret
  | panic => exact .panic
  | call op next ih => exact .call (h op hp.1) (ih (ans op) (hp.2 (ans op)))

/-- A program whose calls all have one possible answer has one execution. -/
theorem Exec.eq_eval {S : Op → Prop} {ans : (op : Op) → Ans op} {out : Option α}
    (h : Exec E p tr out) (hp : p.Calls S) (hans : ∀ op r, S op → E op r → r = ans op) :
    tr = p.trace ans ∧ out = p.eval ans := by
  induction h with
  | ret => exact ⟨rfl, rfl⟩
  | panic => exact ⟨rfl, rfl⟩
  | call hr _ ih =>
    obtain rfl := hans _ _ hp.1 hr
    obtain ⟨rfl, rfl⟩ := ih (hp.2 _)
    exact ⟨rfl, rfl⟩

/-- With fixed answers there is one execution. -/
theorem exec_fixed {ans : (op : Op) → Ans op} {out : Option α} :
    Exec (fun op r => r = ans op) p tr out ↔ tr = p.trace ans ∧ out = p.eval ans := by
  constructor
  · intro h
    have hcalls : p.Calls fun _ => True := by
      clear h
      induction p with
      | ret a => trivial
      | panic => trivial
      | call op next ih => exact ⟨trivial, ih⟩
    exact h.eq_eval hcalls fun _ _ _ hr => hr
  · rintro ⟨rfl, rfl⟩
    exact exec_eval (E := fun op r => r = ans op) ans (fun _ => rfl) p

-- ---------------------------------------------------------------------------
-- Properties of all executions
-- ---------------------------------------------------------------------------

/-- Every execution satisfies `Q`. -/
def Ensures (E : Env Ans) (p : Prog Ans α) (Q : List (Event Ans) → Option α → Prop) : Prop :=
  ∀ tr out, Exec E p tr out → Q tr out

theorem Ensures.mono {Q R : List (Event Ans) → Option α → Prop} (h : Ensures E p Q)
    (hQR : ∀ tr out, Q tr out → R tr out) : Ensures E p R :=
  fun tr out hx => hQR _ _ (h tr out hx)

theorem Ensures.bind {P : List (Event Ans) → Option α → Prop}
    {Q : List (Event Ans) → Option β → Prop} (hp : Ensures E p P)
    (hpanic : ∀ tr, P tr none → Q tr none)
    (hf : ∀ a first, Exec E p first (some a) → P first (some a) →
      Ensures E (f a) fun rest out => Q (first ++ rest) out) :
    Ensures E (p >>= f) Q := by
  intro tr out h
  rcases exec_bind.mp h with ⟨a, first, rest, hfirst, hrest, rfl⟩ | ⟨hnone, rfl⟩
  · exact hf a first hfirst (hp _ _ hfirst) rest out hrest
  · exact hpanic _ (hp _ _ hnone)

/-- Some execution ends with `a`. -/
def Returns (E : Env Ans) (p : Prog Ans α) (a : α) : Prop := ∃ tr, Exec E p tr (some a)

theorem Returns.eval {S : Op → Prop} {ans : (op : Op) → Ans op} {a : α} (h : Returns E p a)
    (hp : p.Calls S) (hans : ∀ op r, S op → E op r → r = ans op) : p.eval ans = some a := by
  obtain ⟨tr, hx⟩ := h
  exact (hx.eq_eval hp hans).2.symm

theorem returns_bind {b : β} :
    Returns E (p >>= f) b ↔ ∃ a, Returns E p a ∧ Returns E (f a) b := by
  constructor
  · rintro ⟨tr, hx⟩
    rcases exec_bind.mp hx with ⟨a, first, rest, hfirst, hrest, -⟩ | ⟨-, hnone⟩
    · exact ⟨a, ⟨first, hfirst⟩, ⟨rest, hrest⟩⟩
    · cases hnone
  · rintro ⟨a, ⟨first, hfirst⟩, ⟨rest, hrest⟩⟩
    exact ⟨first ++ rest, exec_bind.mpr (.inl ⟨a, first, rest, hfirst, hrest, rfl⟩)⟩

/-- Every event of every execution satisfies `Q`. -/
def Keeps (E : Env Ans) (Q : Event Ans → Prop) (p : Prog Ans α) : Prop :=
  ∀ tr out, Exec E p tr out → ∀ e ∈ tr, Q e

theorem Keeps.bind {Q : Event Ans → Prop} (hp : Keeps E Q p)
    (hf : ∀ a, Returns E p a → Keeps E Q (f a)) : Keeps E Q (p >>= f) := by
  intro tr out h e he
  rcases exec_bind.mp h with ⟨a, first, rest, hfirst, hrest, rfl⟩ | ⟨hnone, -⟩
  · rcases List.mem_append.mp he with he | he
    · exact hp _ _ hfirst e he
    · exact hf a ⟨first, hfirst⟩ _ _ hrest e he
  · exact hp _ _ hnone e he

theorem Keeps.of_calls {S : Op → Prop} {Q : Event Ans → Prop} (hp : p.Calls S)
    (hS : ∀ e : Event Ans, S e.op → Q e) : Keeps E Q p :=
  fun _ _ h e he => hS e (h.calls hp e he)

/-- Every execution ends with a value after exactly `n` events that satisfy `R`. -/
def Emits (E : Env Ans) (R : Event Ans → Bool) (n : Nat) (p : Prog Ans α) : Prop :=
  Ensures E p fun tr out => out.isSome ∧ tr.countP R = n

theorem Emits.ret {R : Event Ans → Bool} {a : α} : Emits E R 0 (.ret a) := by
  rintro tr out h
  obtain ⟨rfl, rfl⟩ := exec_ret.mp h
  exact ⟨rfl, rfl⟩

theorem Emits.call {R : Event Ans → Bool} {op : Op} {next : Ans op → Prog Ans α} {n : Nat}
    (h : ∀ r, E op r → ∃ m, Emits E R m (next r) ∧ m + (if R ⟨op, r⟩ then 1 else 0) = n) :
    Emits E R n (.call op next) := by
  intro tr out hx
  obtain ⟨r, rest, hr, hn, rfl⟩ := exec_call.mp hx
  obtain ⟨m, hm, rfl⟩ := h r hr
  obtain ⟨hsome, hcount⟩ := hm _ _ hn
  exact ⟨hsome, by rw [List.countP_cons, hcount]⟩

/-- A call outside `R` adds nothing. -/
theorem Emits.call_silent {R : Event Ans → Bool} {op : Op} {next : Ans op → Prog Ans α} {n : Nat}
    (hR : ∀ r, R ⟨op, r⟩ = false) (h : ∀ r, Emits E R n (next r)) :
    Emits E R n (.call op next) :=
  Emits.call fun r _ => ⟨n, h r, by simp [hR r]⟩

theorem Emits.bind {R : Event Ans → Bool} {m n : Nat} (hp : Emits E R m p)
    (hf : ∀ a, Emits E R n (f a)) : Emits E R (m + n) (p >>= f) := by
  refine Ensures.bind hp (fun _ h => by simp at h) ?_
  rintro a first - ⟨-, hfirst⟩ rest out hrest
  obtain ⟨hsome, hcount⟩ := hf a rest out hrest
  exact ⟨hsome, by rw [List.countP_append, hfirst, hcount]⟩

/-- After a part that emits nothing, the rest decides. -/
theorem Emits.after {R : Event Ans → Bool} {n : Nat} (hp : Emits E R 0 p)
    (hf : ∀ a, Emits E R n (f a)) : Emits E R n (p >>= f) := by
  simpa using hp.bind hf

theorem Emits.before {R : Event Ans → Bool} {n : Nat} (hp : Emits E R n p)
    (hf : ∀ a, Emits E R 0 (f a)) : Emits E R n (p >>= f) := hp.bind hf

theorem Emits.perform {R : Event Ans → Bool} {op : Op} (hR : ∀ r, R ⟨op, r⟩ = false) :
    Emits E R 0 (perform op) := Emits.call_silent hR fun _ => Emits.ret

end Effects
