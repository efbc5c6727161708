import Mathlib.Data.List.Infix
import Mathlib.Data.List.Nodup

/-!
# Mount tables

A table replaces subtrees of a namespace: below a mount's target, names are
looked up below its origin. Locations are lists over any alphabet. The longest
target that covers a location wins, and with the targets kept deepest first
the first match is that one.
-/

namespace Mounts

structure Mount (α : Type*) where
  target : List α
  origin : List α

abbrev Table (α : Type*) := List (Mount α)

variable {α : Type*}

/-- Deepest target first, and no target twice. -/
structure WellFormed (t : Table α) : Prop where
  deepestFirst : t.Pairwise fun m m' => m'.target.length ≤ m.target.length
  distinct : (t.map Mount.target).Nodup

def Covered (t : Table α) (path : List α) : Prop := ∃ m ∈ t, m.target <+: path

/-- `m` is the longest match for `path`. -/
structure Longest (t : Table α) (m : Mount α) (path : List α) : Prop where
  mem : m ∈ t
  covers : m.target <+: path
  longest : ∀ m' ∈ t, m'.target <+: path → m'.target.length ≤ m.target.length

/-- Below a covered location everything is covered. -/
theorem Covered.append {t : Table α} {path : List α} (h : Covered t path) (rest : List α) :
    Covered t (path ++ rest) := by
  obtain ⟨m, hm, hp⟩ := h
  exact ⟨m, hm, hp.trans (List.prefix_append _ _)⟩

/-- Two targets of the same length that cover one path are equal. -/
theorem Longest.unique {t : Table α} (ht : WellFormed t) {m m' : Mount α} {path : List α}
    (h : Longest t m path) (h' : Longest t m' path) : m = m' := by
  have hlen : m.target.length = m'.target.length :=
    Nat.le_antisymm (h'.longest m h.mem h.covers) (h.longest m' h'.mem h'.covers)
  have htarget : m.target = m'.target :=
    (List.prefix_of_prefix_length_le h.covers h'.covers hlen.le).eq_of_length hlen
  exact List.inj_on_of_nodup_map ht.distinct h.mem h'.mem htarget

/-- A longest match stays one further down as long as no target lies in between. -/
theorem Longest.append {t : Table α} {m : Mount α} {path rest : List α} (h : Longest t m path)
    (hno : ∀ m' ∈ t, m'.target <+: path ++ rest → m'.target <+: path) :
    Longest t m (path ++ rest) :=
  ⟨h.mem, h.covers.trans (List.prefix_append _ _),
    fun m' hm' hc => h.longest m' hm' (hno m' hm' hc)⟩

variable [DecidableEq α]

def Mount.covers (m : Mount α) (path : List α) : Bool := m.target.isPrefixOf path

theorem Mount.covers_iff {m : Mount α} {path : List α} :
    m.covers path = true ↔ m.target <+: path := List.isPrefixOf_iff_prefix

def select (t : Table α) (path : List α) : Option (Mount α) := t.find? (·.covers path)

/-- Where the namespace of the table keeps what it calls `path`. -/
def locate (t : Table α) (path : List α) : List α :=
  match select t path with
  | none => path
  | some m => m.origin ++ path.drop m.target.length

-- ---------------------------------------------------------------------------
-- Selection
-- ---------------------------------------------------------------------------

theorem select_eq_none {t : Table α} {path : List α} :
    select t path = none ↔ ¬ Covered t path := by
  simp [select, Covered, Mount.covers_iff]

theorem select_longest {t : Table α} (ht : WellFormed t) {m : Mount α} {path : List α}
    (h : select t path = some m) : Longest t m path := by
  obtain ⟨hm, before, after, rfl, hbefore⟩ := List.find?_eq_some_iff_append.mp h
  refine ⟨by simp, Mount.covers_iff.mp hm, ?_⟩
  intro m' hm' hcovers
  rcases List.mem_append.mp hm' with hm' | hm'
  · have hno := hbefore m' hm'
    simp [Mount.covers_iff.mpr hcovers] at hno
  · rcases List.mem_cons.mp hm' with rfl | hm'
    · exact Nat.le_refl _
    · have hsorted := (List.pairwise_append.mp ht.deepestFirst).2.1
      exact (List.pairwise_cons.mp hsorted).1 m' hm'

theorem exists_select {t : Table α} {path : List α} (h : Covered t path) :
    ∃ m, select t path = some m := by
  cases hs : select t path with
  | none => exact absurd h (select_eq_none.mp hs)
  | some m => exact ⟨m, rfl⟩

theorem select_eq_some {t : Table α} (ht : WellFormed t) {m : Mount α} {path : List α} :
    select t path = some m ↔ Longest t m path := by
  refine ⟨select_longest ht, fun h => ?_⟩
  obtain ⟨m', hm'⟩ := exists_select ⟨m, h.mem, h.covers⟩
  rw [hm', (select_longest ht hm').unique ht h]

-- ---------------------------------------------------------------------------
-- Location
-- ---------------------------------------------------------------------------

theorem locate_of_not_covered {t : Table α} {path : List α} (h : ¬ Covered t path) :
    locate t path = path := by
  rw [locate, select_eq_none.mpr h]

theorem locate_of_longest {t : Table α} (ht : WellFormed t) {m : Mount α} {rest : List α}
    (h : Longest t m (m.target ++ rest)) : locate t (m.target ++ rest) = m.origin ++ rest := by
  simp [locate, (select_eq_some ht).mpr h]

/-- What a covered location is called below its longest target. -/
theorem Covered.locate {t : Table α} (ht : WellFormed t) {path : List α} (h : Covered t path) :
    ∃ m rest, Longest t m path ∧ path = m.target ++ rest ∧
      Mounts.locate t path = m.origin ++ rest := by
  obtain ⟨m, hm⟩ := exists_select h
  have hl := select_longest ht hm
  obtain ⟨rest, rfl⟩ := hl.covers
  exact ⟨m, rest, hl, rfl, locate_of_longest ht hl⟩

/-- One step down changes the location by that step unless it enters a target. -/
theorem locate_concat {t : Table α} (ht : WellFormed t) {path : List α} {name : α}
    (hno : ∀ m ∈ t, m.target ≠ path ++ [name]) :
    locate t (path ++ [name]) = locate t path ++ [name] := by
  have hshorter : ∀ m ∈ t, m.target <+: path ++ [name] → m.target <+: path := by
    intro m hm hc
    rcases List.prefix_concat_iff.mp hc with h | h
    · exact absurd (by simpa using h) (hno m hm)
    · exact h
  by_cases hc : Covered t path
  · obtain ⟨m, rest, hl, hpath, hloc⟩ := hc.locate ht
    have hl' : Longest t m (path ++ [name]) := hl.append hshorter
    rw [hloc, hpath, List.append_assoc, List.append_assoc]
    rw [hpath, List.append_assoc] at hl'
    exact locate_of_longest ht hl'
  · have hc' : ¬ Covered t (path ++ [name]) := by
      rintro ⟨m, hm, hp⟩
      exact hc ⟨m, hm, hshorter m hm hp⟩
    rw [locate_of_not_covered hc, locate_of_not_covered hc']

-- ---------------------------------------------------------------------------
-- Order of the table
-- ---------------------------------------------------------------------------

omit [DecidableEq α] in
theorem Longest.congr {t t' : Table α} (h : ∀ m, m ∈ t ↔ m ∈ t') {m : Mount α} {path : List α} :
    Longest t m path ↔ Longest t' m path :=
  ⟨fun hl => ⟨(h m).mp hl.mem, hl.covers, fun m' hm' => hl.longest m' ((h m').mpr hm')⟩,
    fun hl => ⟨(h m).mpr hl.mem, hl.covers, fun m' hm' => hl.longest m' ((h m').mp hm')⟩⟩

omit [DecidableEq α] in
theorem Covered.congr {t t' : Table α} (h : ∀ m, m ∈ t ↔ m ∈ t') {path : List α} :
    Covered t path ↔ Covered t' path := by
  simp only [Covered, h]

end Mounts
