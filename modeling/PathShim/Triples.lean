import PathShim.Effects

/-!
# Programs against a state

The environment answers a call from a state, which the call may change. What is
proved of a program in this way holds of every run from the state, whichever
calls fail on the way.
-/

namespace Effects

variable {Op : Type} {Ans : Op → Type} {α β σ : Type}

/-- `effect s e s'`: from `s` a call may be answered as in `e`, and that leads to `s'`. -/
abbrev Effect (Ans : Op → Type) (σ : Type) := σ → Event Ans → σ → Prop

/-- A run of a program from one state to another, ending with a value or in a panic. -/
inductive Runs (effect : Effect Ans σ) : Prog Ans α → σ → Option α → σ → Prop
  | ret {a s} : Runs effect (.ret a) s (some a) s
  | panic {s} : Runs effect .panic s none s
  | call {op next r s s₁ out s'} : effect s ⟨op, r⟩ s₁ → Runs effect (next r) s₁ out s' →
      Runs effect (.call op next) s out s'

variable {effect : Effect Ans σ} {p : Prog Ans α} {f : α → Prog Ans β} {s s' : σ}

theorem runs_bind {out : Option β} : Runs effect (p >>= f) s out s' ↔
    (∃ a s₁, Runs effect p s (some a) s₁ ∧ Runs effect (f a) s₁ out s') ∨
      (Runs effect p s none s' ∧ out = none) := by
  induction p generalizing s with
  | ret a =>
    constructor
    · intro h
      exact .inl ⟨a, s, .ret, h⟩
    · rintro (⟨_, _, hp, hf⟩ | ⟨hp, -⟩) <;> cases hp
      exact hf
  | panic =>
    constructor
    · intro h
      cases h
      exact .inr ⟨.panic, rfl⟩
    · rintro (⟨_, _, hp, -⟩ | ⟨hp, rfl⟩) <;> cases hp
      exact .panic
  | call op next ih =>
    constructor
    · intro h
      cases h with
      | call hr hn =>
        rcases (ih _).mp hn with ⟨a, s₁, hp, hf⟩ | ⟨hp, rfl⟩
        · exact .inl ⟨a, s₁, .call hr hp, hf⟩
        · exact .inr ⟨.call hr hp, rfl⟩
    · rintro (⟨a, s₁, hp, hf⟩ | ⟨hp, rfl⟩)
      · cases hp with
        | call hr hp => exact .call hr ((ih _).mpr (.inl ⟨a, s₁, hp, hf⟩))
      · cases hp with
        | call hr hp => exact .call hr ((ih _).mpr (.inr ⟨hp, rfl⟩))

/-- A part of a run, up to what is left of the program. -/
inductive Steps (effect : Effect Ans σ) (p : Prog Ans α) (s : σ) : Prog Ans α → σ → Prop
  | refl : Steps effect p s p s
  | tail {op next r s₁ s₂} : Steps effect p s (.call op next) s₁ → effect s₁ ⟨op, r⟩ s₂ →
      Steps effect p s (next r) s₂

theorem Steps.runs {p' : Prog Ans α} {s₁ : σ} {out : Option α} (h : Steps effect p s p' s₁)
    (hrun : Runs effect p' s₁ out s') : Runs effect p s out s' := by
  induction h with
  | refl => exact hrun
  | tail _ hr ih => exact ih (.call hr hrun)

-- ---------------------------------------------------------------------------
-- Postconditions
-- ---------------------------------------------------------------------------

/-- Every run from `s` that returns ends in `post`, and every other one in `panics`. -/
structure Triple (effect : Effect Ans σ) (p : Prog Ans α) (s : σ) (post : α → σ → Prop)
    (panics : σ → Prop) : Prop where
  returns : ∀ a s', Runs effect p s (some a) s' → post a s'
  stops : ∀ s', Runs effect p s none s' → panics s'

variable {post : α → σ → Prop} {panics : σ → Prop}

theorem Triple.ret {a : α} (h : post a s) : Triple effect (.ret a) s post panics where
  returns := by
    rintro _ _ hrun
    cases hrun
    exact h
  stops := by
    rintro _ hrun
    cases hrun

theorem Triple.panic (h : panics s) : Triple effect .panic s post panics where
  returns := by
    rintro _ _ hrun
    cases hrun
  stops := by
    rintro _ hrun
    cases hrun
    exact h

theorem Triple.call {op : Op} {next : Ans op → Prog Ans α}
    (h : ∀ r s₁, effect s ⟨op, r⟩ s₁ → Triple effect (next r) s₁ post panics) :
    Triple effect (.call op next) s post panics where
  returns := by
    rintro a s' hrun
    cases hrun with
    | call hr hn => exact (h _ _ hr).returns a s' hn
  stops := by
    rintro s' hrun
    cases hrun with
    | call hr hn => exact (h _ _ hr).stops s' hn

theorem Triple.perform {op : Op} {post : Ans op → σ → Prop}
    (h : ∀ r s₁, effect s ⟨op, r⟩ s₁ → post r s₁) :
    Triple effect (perform op) s post panics := .call fun r s₁ hr => .ret (h r s₁ hr)

theorem Triple.bind {mid : α → σ → Prop} {post : β → σ → Prop}
    (hp : Triple effect p s mid panics)
    (hf : ∀ a s₁, mid a s₁ → Triple effect (f a) s₁ post panics) :
    Triple effect (p >>= f) s post panics where
  returns := by
    rintro b s' hrun
    rcases runs_bind.mp hrun with ⟨a, s₁, hfirst, hrest⟩ | ⟨-, hnone⟩
    · exact (hf a s₁ (hp.returns a s₁ hfirst)).returns b s' hrest
    · cases hnone
  stops := by
    rintro s' hrun
    rcases runs_bind.mp hrun with ⟨a, s₁, hfirst, hrest⟩ | ⟨hfirst, -⟩
    · exact (hf a s₁ (hp.returns a s₁ hfirst)).stops s' hrest
    · exact hp.stops s' hfirst

theorem Triple.mono {post' : α → σ → Prop} {panics' : σ → Prop}
    (h : Triple effect p s post panics) (hpost : ∀ a s', post a s' → post' a s')
    (hpanics : ∀ s', panics s' → panics' s') : Triple effect p s post' panics' where
  returns a s' hrun := hpost a s' (h.returns a s' hrun)
  stops s' hrun := hpanics s' (h.stops s' hrun)

/-- The value and the state that are reached are those of a run. -/
theorem Triple.runs (h : Triple effect p s post panics) :
    Triple effect p s (fun a s' => post a s' ∧ Runs effect p s (some a) s') panics where
  returns a s' hrun := ⟨h.returns a s' hrun, hrun⟩
  stops := h.stops

/-- What no call changes, no program changes. -/
theorem Triple.unchanged (h : ∀ e s', effect s e s' → s' = s) (hpanics : panics s) :
    Triple effect p s (fun _ s' => s' = s) panics := by
  induction p with
  | ret a => exact .ret rfl
  | panic => exact .panic hpanics
  | call op next ih =>
    refine .call fun r s₁ hr => ?_
    obtain rfl := h _ _ hr
    exact ih r

-- ---------------------------------------------------------------------------
-- Programs within programs
-- ---------------------------------------------------------------------------

/-- The calls of one kind of program among those of another. -/
structure Embedding {Op Op' : Type} (Ans : Op → Type) (Ans' : Op' → Type) where
  op : Op → Op'
  answer : ∀ o, Ans' (op o) → Ans o

variable {Op' : Type} {Ans' : Op' → Type} {ι : Embedding Ans Ans'} {effect' : Effect Ans' σ}

def Prog.embed (ι : Embedding Ans Ans') : Prog Ans α → Prog Ans' α
  | .ret a => .ret a
  | .panic => .panic
  | .call op next => .call (ι.op op) fun r => (next (ι.answer op r)).embed ι

/-- A program keeps its triple where its calls have the effects they had. -/
theorem Triple.embed (h : Triple effect p s post panics)
    (heffect : ∀ s op r s', effect' s ⟨ι.op op, r⟩ s' → effect s ⟨op, ι.answer op r⟩ s') :
    Triple effect' (p.embed ι) s post panics := by
  have hruns {s s' : σ} {out : Option α} (hrun : Runs effect' (p.embed ι) s out s') :
      Runs effect p s out s' := by
    clear h
    induction p generalizing s with
    | ret a =>
      cases hrun
      exact .ret
    | panic =>
      cases hrun
      exact .panic
    | call op next ih =>
      cases hrun with
      | call hr hn => exact .call (heffect _ _ _ _ hr) (ih _ hn)
  exact ⟨fun a s' hrun => h.returns a s' (hruns hrun), fun s' hrun => h.stops s' (hruns hrun)⟩

end Effects
