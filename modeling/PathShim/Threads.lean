import Mathlib.Logic.Relation
import Mathlib.Logic.Function.Basic
import PathShim.Triples

/-!
# Interleaved programs

Programs that share a state take turns, one call at a time, and any of them may
stop for good at any moment. Rules say what one program may do after the calls
it has made; what every program does by itself then holds of all of them under
any interleaving (`System.obeys`, `System.recorded`).
-/

namespace Effects

variable {Op : Type} {Ans : Op → Type} {α β : Type}

-- ---------------------------------------------------------------------------
-- Rules
-- ---------------------------------------------------------------------------

/-- Which calls a program may make after those it has made, and when it may panic. -/
structure Rules (Ans : Op → Type) where
  accepts : List (Event Ans) → Op → Prop
  panics : List (Event Ans) → Prop

/-- Rules for programs that may panic at any time. -/
def allowing (accepts : List (Event Ans) → Op → Prop) : Rules Ans := ⟨accepts, fun _ => True⟩

/-- The program keeps to the rules on every branch, and `post` holds when it returns. -/
def Prog.Obeys (rules : Rules Ans) (post : List (Event Ans) → α → Prop) :
    Prog Ans α → List (Event Ans) → Prop
  | .ret a, h => post h a
  | .panic, h => rules.panics h
  | .call op next, h => rules.accepts h op ∧ ∀ r, (next r).Obeys rules post (h ++ [⟨op, r⟩])

variable {rules : Rules Ans} {p : Prog Ans α} {f : α → Prog Ans β} {h : List (Event Ans)}

theorem Prog.Obeys.bind {mid : List (Event Ans) → α → Prop} {post : List (Event Ans) → β → Prop}
    (hp : p.Obeys rules mid h) (hf : ∀ h' a, mid h' a → (f a).Obeys rules post h') :
    (p >>= f).Obeys rules post h := by
  induction p generalizing h with
  | ret a => exact hf h a hp
  | panic => exact hp
  | call op next ih => exact ⟨hp.1, fun r => ih r (hp.2 r)⟩

-- ---------------------------------------------------------------------------
-- Lists whose elements depend on those before
-- ---------------------------------------------------------------------------

/-- Every element satisfies `P` after those before it. -/
def Each (P : List α → α → Prop) (l : List α) : Prop :=
  ∀ first a rest, l = first ++ a :: rest → P first a

section
variable {P : List α → α → Prop} {l : List α} {a : α}

theorem Each.nil : Each P [] := by
  rintro first a rest heq
  simp at heq

theorem Each.concat (heach : Each P l) (h : P l a) : Each P (l ++ [a]) := by
  rintro first b rest heq
  rcases List.append_eq_append_iff.mp heq with ⟨mid, hfirst, hlast⟩ | ⟨mid, hl, hlast⟩
  · cases mid with
    | nil =>
      simp only [List.append_nil] at hfirst
      simp only [List.nil_append, List.cons.injEq] at hlast
      obtain ⟨rfl, -⟩ := hlast
      exact hfirst ▸ h
    | cons c mid => simp at hlast
  · cases mid with
    | nil =>
      simp only [List.append_nil] at hl
      simp only [List.nil_append, List.cons.injEq] at hlast
      obtain ⟨rfl, -⟩ := hlast
      exact hl ▸ h
    | cons c mid =>
      simp only [List.cons_append, List.cons.injEq] at hlast
      obtain ⟨rfl, -⟩ := hlast
      exact heach first b mid hl

theorem Each.left {rest : List α} (heach : Each P (l ++ rest)) : Each P l := by
  rintro first b last rfl
  exact heach first b (last ++ rest) (by simp)

theorem each_concat : Each P (l ++ [a]) ↔ Each P l ∧ P l a := by
  constructor
  · intro heach
    exact ⟨heach.left, heach l a [] rfl⟩
  · rintro ⟨heach, h⟩
    exact heach.concat h

theorem Each.mono {Q : List α → α → Prop} (heach : Each P l) (h : ∀ l a, P l a → Q l a) :
    Each Q l := fun first a rest heq => h first a (heach first a rest heq)

theorem Each.mem (heach : Each P l) (ha : a ∈ l) :
    ∃ first rest, l = first ++ a :: rest ∧ P first a := by
  obtain ⟨first, rest, hsplit⟩ := List.append_of_mem ha
  exact ⟨first, rest, hsplit, heach first a rest hsplit⟩

end

/-- Every call was accepted after those before it. -/
abbrev Recorded (accepts : List (Event Ans) → Op → Prop) (h : List (Event Ans)) : Prop :=
  Each (fun first e => accepts first e.op) h

section
variable {S : Op → Prop}

/-- A program whose calls are accepted whatever they are answered. -/
theorem Prog.Obeys.throughout {post : List (Event Ans) → α → Prop} (hp : p.Calls S)
    (hS : ∀ ext, (∀ e ∈ ext, S e.op) → ∀ op, S op → rules.accepts (h ++ ext) op)
    (hpanics : ∀ ext, (∀ e ∈ ext, S e.op) → rules.panics (h ++ ext))
    (hpost : ∀ a tr, Exec Env.any p tr (some a) → (∀ e ∈ tr, S e.op) → post (h ++ tr) a) :
    p.Obeys rules post h := by
  induction p generalizing h with
  | ret a =>
    have hret : post h a := by simpa using hpost a [] .ret (by simp)
    exact hret
  | panic =>
    have hpanic : rules.panics h := by simpa using hpanics [] (by simp)
    exact hpanic
  | call op next ih =>
    have haccepts : rules.accepts h op := by simpa using hS [] (by simp) op hp.1
    refine ⟨haccepts, fun r => ih r (hp.2 r) ?_ ?_ ?_⟩
    · intro ext hext op' hop'
      simpa using hS (⟨op, r⟩ :: ext) (List.forall_mem_cons.mpr ⟨hp.1, hext⟩) op' hop'
    · intro ext hext
      simpa using hpanics (⟨op, r⟩ :: ext) (List.forall_mem_cons.mpr ⟨hp.1, hext⟩)
    · intro a tr hx htr
      simpa using hpost a (⟨op, r⟩ :: tr) (.call trivial hx)
        (List.forall_mem_cons.mpr ⟨hp.1, htr⟩)

/-- What comes after such a part knows how it ran. -/
theorem Prog.Obeys.through {post : List (Event Ans) → β → Prop} (hp : p.Calls S)
    (hS : ∀ ext, (∀ e ∈ ext, S e.op) → ∀ op, S op → rules.accepts (h ++ ext) op)
    (hpanics : ∀ ext, (∀ e ∈ ext, S e.op) → rules.panics (h ++ ext))
    (hf : ∀ a tr, Exec Env.any p tr (some a) → (∀ e ∈ tr, S e.op) →
      (f a).Obeys rules post (h ++ tr)) :
    (p >>= f).Obeys rules post h := by
  have hfirst : p.Obeys rules (fun h' a => ∃ tr, h' = h ++ tr ∧
      Exec Env.any p tr (some a) ∧ ∀ e ∈ tr, S e.op) h :=
    throughout hp hS hpanics fun a tr hx htr => ⟨tr, rfl, hx, htr⟩
  refine hfirst.bind ?_
  rintro _ a ⟨tr, rfl, hx, htr⟩
  exact hf a tr hx htr

end

-- ---------------------------------------------------------------------------
-- Pools of threads
-- ---------------------------------------------------------------------------

/-- `thread i` is what is left of program `i`: nothing before it is started and after it has
been stopped. -/
structure Pool (I : Type) (Ans : Op → Type) (σ : Type) where
  thread : I → Option (Prog Ans Unit)
  shared : σ
  log : List (I × Event Ans)

/-- How a call changes the shared state, and which program it starts. -/
structure System (I : Type) (Ans : Op → Type) (σ : Type) where
  effect : I → Event Ans → σ → σ → Prop
  starts : Event Ans → Option (I × Prog Ans Unit)

variable {I σ : Type} [DecidableEq I]

def System.threads (S : System I Ans σ) (e : Event Ans) (thread : I → Option (Prog Ans Unit)) :
    I → Option (Prog Ans Unit) :=
  match S.starts e with
  | none => thread
  | some (j, p) => Function.update thread j (some p)

theorem System.threads_some {S : System I Ans σ} {e : Event Ans}
    {thread : I → Option (Prog Ans Unit)} {i : I} {p : Prog Ans Unit}
    (h : S.threads e thread i = some p) : S.starts e = some (i, p) ∨ thread i = some p := by
  cases hstarts : S.starts e with
  | none =>
    simp only [threads, hstarts] at h
    exact .inr h
  | some started =>
    simp only [threads, hstarts] at h
    by_cases hi : i = started.1
    · subst hi
      rw [Function.update_self] at h
      cases h
      exact .inl rfl
    · rw [Function.update_of_ne hi] at h
      exact .inr h

inductive System.Step (S : System I Ans σ) : Pool I Ans σ → Pool I Ans σ → Prop
  | call {c i op next r shared} : c.thread i = some (.call op next) →
      S.effect i ⟨op, r⟩ c.shared shared →
      (∀ j p, S.starts ⟨op, r⟩ = some (j, p) → c.thread j = none ∧ ∀ x ∈ c.log, x.1 ≠ j) →
      Step S c {
        thread := S.threads ⟨op, r⟩ (Function.update c.thread i (some (next r)))
        shared := shared
        log := c.log ++ [(i, ⟨op, r⟩)] }
  | stop {c i} : Step S c { c with thread := Function.update c.thread i none }

/-- A call that starts nothing. -/
theorem System.Step.plain {S : System I Ans σ} {c : Pool I Ans σ} {i : I} {op : Op}
    {next : Ans op → Prog Ans Unit} {r : Ans op} {shared : σ}
    (hthread : c.thread i = some (.call op next)) (heffect : S.effect i ⟨op, r⟩ c.shared shared)
    (hstarts : S.starts ⟨op, r⟩ = none) :
    S.Step c ⟨Function.update c.thread i (some (next r)), shared, c.log ++ [(i, ⟨op, r⟩)]⟩ := by
  have hstep := Step.call hthread heffect fun j p h => by
    rw [hstarts] at h
    cases h
  rwa [threads, hstarts] at hstep

abbrev System.Reaches (S : System I Ans σ) : Pool I Ans σ → Pool I Ans σ → Prop :=
  Relation.ReflTransGen S.Step

/-- Calls stay in the log. -/
theorem System.Reaches.log {S : System I Ans σ} {c₀ c : Pool I Ans σ} (h : S.Reaches c₀ c) :
    ∃ rest, c.log = c₀.log ++ rest := by
  induction h with
  | refl => exact ⟨[], by simp⟩
  | tail _ hstep ih =>
    obtain ⟨rest, hrest⟩ := ih
    cases hstep with
    | call => exact ⟨rest ++ [_], by rw [hrest, List.append_assoc]⟩
    | stop => exact ⟨rest, hrest⟩

theorem System.Reaches.plain {S : System I Ans σ} {c₀ c : Pool I Ans σ} (h : S.Reaches c₀ c)
    (i : I) (op : Op) (r : Ans op) {next : Ans op → Prog Ans Unit} {shared : σ}
    (hthread : c.thread i = some (.call op next)) (heffect : S.effect i ⟨op, r⟩ c.shared shared)
    (hstarts : S.starts ⟨op, r⟩ = none) : S.Reaches c₀
      ⟨Function.update c.thread i (some (next r)), shared, c.log ++ [(i, ⟨op, r⟩)]⟩ :=
  h.tail (.plain hthread heffect hstarts)

/-- A call that starts program `j`. -/
theorem System.Reaches.starting {S : System I Ans σ} {c₀ c : Pool I Ans σ} (h : S.Reaches c₀ c)
    (i : I) (op : Op) (r : Ans op) {next : Ans op → Prog Ans Unit} {shared : σ} {j : I}
    {p : Prog Ans Unit} (hthread : c.thread i = some (.call op next))
    (heffect : S.effect i ⟨op, r⟩ c.shared shared) (hstarts : S.starts ⟨op, r⟩ = some (j, p))
    (hnone : c.thread j = none) (hlog : ∀ x ∈ c.log, x.1 ≠ j) : S.Reaches c₀
      ⟨Function.update (Function.update c.thread i (some (next r))) j (some p), shared,
        c.log ++ [(i, ⟨op, r⟩)]⟩ := by
  have hstep := System.Step.call hthread heffect fun j' p' h' => by
    rw [hstarts] at h'
    cases h'
    exact ⟨hnone, hlog⟩
  rw [threads, hstarts] at hstep
  exact h.tail hstep

-- ---------------------------------------------------------------------------
-- What each program of a pool does
-- ---------------------------------------------------------------------------

/-- The calls of thread `i`. -/
def eventsOf (i : I) (log : List (I × Event Ans)) : List (Event Ans) :=
  (log.filter fun x => x.1 = i).map Prod.snd

section
variable {i j : I} {log : List (I × Event Ans)} {e : Event Ans}

theorem eventsOf_append (log log' : List (I × Event Ans)) :
    eventsOf i (log ++ log') = eventsOf i log ++ eventsOf i log' := by
  simp [eventsOf]

theorem mem_eventsOf : e ∈ eventsOf i log ↔ (i, e) ∈ log := by
  simp [eventsOf]

theorem eventsOf_self : eventsOf i (log ++ [(i, e)]) = eventsOf i log ++ [e] := by
  simp [eventsOf]

theorem eventsOf_other (h : j ≠ i) : eventsOf i (log ++ [(j, e)]) = eventsOf i log := by
  simp [eventsOf, h]

/-- A thread that was not there has made no call. -/
theorem eventsOf_new (h : ∀ x ∈ log, x.1 ≠ i) : eventsOf i log = [] := by
  rw [eventsOf, List.filter_eq_nil_iff.mpr (by simpa using h)]
  rfl

end

/-- Every program of the pool, and every program that a call starts, keeps to its rules. -/
structure System.Ruled (S : System I Ans σ) (rules : I → Rules Ans)
    (post : I → List (Event Ans) → Unit → Prop) (c : Pool I Ans σ) : Prop where
  log : c.log = []
  threads : ∀ i p, c.thread i = some p → p.Obeys (rules i) (post i) []
  starts : ∀ e j p, S.starts e = some (j, p) → p.Obeys (rules j) (post j) []

section
variable {S : System I Ans σ} {rules : I → Rules Ans} {post : I → List (Event Ans) → Unit → Prop}
  {c₀ c : Pool I Ans σ} {i : I}

theorem System.obeys (h₀ : S.Ruled rules post c₀) (h : S.Reaches c₀ c) (i : I)
    {p : Prog Ans Unit} (hp : c.thread i = some p) :
    p.Obeys (rules i) (post i) (eventsOf i c.log) := by
  induction h generalizing i p with
  | refl =>
    rw [h₀.log]
    exact h₀.threads i p hp
  | @tail b _ _ hstep ih =>
    cases hstep with
    | @call i' op next r shared hcall heffect hnew =>
      dsimp only at hp ⊢
      rcases System.threads_some hp with hstarts | hp
      · -- a program that was just started has made no call yet
        obtain ⟨hnone, hlog⟩ := hnew i p hstarts
        have hi : i' ≠ i := by
          rintro rfl
          rw [hnone] at hcall
          cases hcall
        rw [eventsOf_other hi, eventsOf_new hlog]
        exact h₀.starts _ _ _ hstarts
      · by_cases hi : i = i'
        · subst hi
          rw [Function.update_self] at hp
          cases hp
          rw [eventsOf_self]
          exact (ih i hcall).2 r
        · rw [Function.update_of_ne hi] at hp
          rw [eventsOf_other (Ne.symm hi)]
          exact ih i hp
    | @stop i' =>
      dsimp only at hp
      by_cases hi : i = i'
      · subst hi
        simp at hp
      · rw [Function.update_of_ne hi] at hp
        exact ih i hp

/-- Whatever the interleaving, every call of every program was accepted when it was made. -/
theorem System.recorded (h₀ : S.Ruled rules post c₀) (h : S.Reaches c₀ c) (i : I) :
    Recorded (rules i).accepts (eventsOf i c.log) := by
  induction h with
  | refl =>
    rw [h₀.log]
    exact .nil
  | tail hreach hstep ih =>
    cases hstep with
    | @call i' op next r shared hcall heffect hnew =>
      by_cases hi : i' = i
      · subst hi
        rw [eventsOf_self]
        exact ih.concat (System.obeys h₀ hreach i' hcall).1
      · rw [eventsOf_other hi]
        exact ih
    | stop => exact ih

/-- What each call satisfies after those before it, it satisfies in the log. -/
theorem System.logged {P : List (I × Event Ans) → I × Event Ans → Prop} (h₀ : c₀.log = [])
    (hcall : ∀ c i op next r shared, S.Reaches c₀ c → c.thread i = some (.call op next) →
      S.effect i ⟨op, r⟩ c.shared shared → P c.log (i, ⟨op, r⟩)) (h : S.Reaches c₀ c) :
    Each P c.log := by
  induction h with
  | refl =>
    rw [h₀]
    exact .nil
  | tail hreach hstep ih =>
    cases hstep with
    | call hthread heffect _ => exact ih.concat (hcall _ _ _ _ _ _ hreach hthread heffect)
    | stop => exact ih

/-- A program that was not there at first was started by a call. -/
theorem System.started (h : S.Reaches c₀ c) (hi : c₀.thread i = none)
    {p : Prog Ans Unit} (hp : c.thread i = some p) :
    ∃ x ∈ c.log, ∃ p₀, S.starts x.2 = some (i, p₀) := by
  induction h generalizing p with
  | refl =>
    rw [hi] at hp
    cases hp
  | @tail b _ _ hstep ih =>
    cases hstep with
    | @call i' op next r shared hcall _ _ =>
      dsimp only at hp ⊢
      rcases System.threads_some hp with hstarts | hp
      · exact ⟨_, List.mem_append_right _ List.mem_cons_self, p, hstarts⟩
      · have hbefore : ∃ p', b.thread i = some p' := by
          by_cases hii : i = i'
          · subst hii
            exact ⟨_, hcall⟩
          · rw [Function.update_of_ne hii] at hp
            exact ⟨_, hp⟩
        obtain ⟨p', hp'⟩ := hbefore
        obtain ⟨x, hx, hstarts⟩ := ih hp'
        exact ⟨x, List.mem_append_left _ hx, hstarts⟩
    | @stop i' =>
      dsimp only at hp
      by_cases hii : i = i'
      · subst hii
        simp at hp
      · rw [Function.update_of_ne hii] at hp
        exact ih hp

/-- A program that the others leave alone runs as if there were no others. -/
theorem System.alone (hothers : ∀ c, S.Reaches c₀ c → ∀ j op next r shared, j ≠ i →
      c.thread j = some (.call op next) → S.effect j ⟨op, r⟩ c.shared shared → shared = c.shared)
    (hstarts : ∀ e p, S.starts e ≠ some (i, p)) {p₀ p : Prog Ans Unit}
    (hp₀ : c₀.thread i = some p₀) (h : S.Reaches c₀ c) (hp : c.thread i = some p) :
    Steps (fun s e s' => S.effect i e s s') p₀ c₀.shared p c.shared := by
  induction h generalizing p with
  | refl =>
    rw [hp₀] at hp
    cases hp
    exact .refl
  | tail hreach hstep ih =>
    cases hstep with
    | @call j op next r shared hcall heffect _ =>
      dsimp only at hp ⊢
      rcases System.threads_some hp with hnew | hp
      · exact absurd hnew (hstarts _ _)
      · by_cases hij : i = j
        · subst hij
          rw [Function.update_self] at hp
          cases hp
          exact (ih hcall).tail heffect
        · rw [Function.update_of_ne hij] at hp
          rw [hothers _ hreach _ _ _ _ _ (Ne.symm hij) hcall heffect]
          exact ih hp
    | @stop j =>
      dsimp only at hp ⊢
      by_cases hij : i = j
      · subst hij
        simp at hp
      · rw [Function.update_of_ne hij] at hp
        exact ih hp

end

end Effects
