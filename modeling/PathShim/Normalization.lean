import PathShim.Linux.Remote
import PathShim.PathBuf

/-!
# The two normalisations

`remote::normalize` and `bind::normalize_virtual` walk the components of a path
and push and pop a buffer. Both leave the canonical spelling of the path there,
the one that `AbsPath` stands for everywhere else, and a path that is resolved
in steps ends where it does when it is resolved at once.
-/

namespace PathShim

open UnixPath (Bytes slash dot)
open PathBuf

namespace Buffer

/-- The loop of `remote::normalize`. -/
def normalizeStep (normalized : Bytes) : Component → Bytes
  | .rootDir | .curDir => normalized
  | .parentDir => pop normalized
  | .normal part => push normalized part
  | .prefixComponent => normalized

def normalize (path : Bytes) : Bytes := (components path).foldl normalizeStep [slash]

/-- The loop of `bind::normalize_virtual`. -/
def normalizeVirtualStep (out : Bytes) : Component → IoResult Bytes
  | .rootDir | .curDir => .ok out
  | .parentDir => .ok (pop out)
  | .normal part => .ok (push out part)
  | .prefixComponent => .error (.new .invalidInput "unsupported path prefix" none)

def normalizeVirtual (path : Bytes) : IoResult Bytes :=
  (components path).foldlM normalizeVirtualStep [slash]

-- ---------------------------------------------------------------------------
-- The buffer is a stack of names
-- ---------------------------------------------------------------------------

/-- What a component does to the names in the buffer. -/
def lexStep (names : List Bytes) : Component → List Bytes
  | .prefixComponent | .rootDir | .curDir => names
  | .parentDir => names.dropLast
  | .normal part => names ++ [part]

def lexical (names : List Bytes) (cs : List Component) : List Bytes := cs.foldl lexStep names

variable {names : List Bytes} {c : Component} {cs : List Component} {path : Bytes}

/-- The components that a path has on Unix. -/
def OnUnix (c : Component) : Prop :=
  c = .rootDir ∨ c = .curDir ∨ c = .parentDir ∨ ∃ part, IsPart part ∧ c = .normal part

theorem isPart_lexStep (hnames : ∀ name ∈ names, IsPart name) (hc : OnUnix c) :
    ∀ name ∈ lexStep names c, IsPart name := by
  rcases hc with rfl | rfl | rfl | ⟨part, hpart, rfl⟩
  · exact hnames
  · exact hnames
  · exact fun name hname => hnames name (List.mem_of_mem_dropLast hname)
  · intro name hname
    rcases List.mem_append.mp hname with hname | hname
    · exact hnames name hname
    · exact List.mem_singleton.mp hname ▸ hpart

theorem normalizeStep_render (hnames : ∀ name ∈ names, IsPart name) (hc : OnUnix c) :
    normalizeStep (render names) c = render (lexStep names c) ∧
      normalizeVirtualStep (render names) c = .ok (render (lexStep names c)) := by
  rcases hc with rfl | rfl | rfl | ⟨part, hpart, rfl⟩
  · exact ⟨rfl, rfl⟩
  · exact ⟨rfl, rfl⟩
  · simp only [normalizeStep, normalizeVirtualStep, lexStep, pop_render hnames, and_self]
  · simp only [normalizeStep, normalizeVirtualStep, lexStep, push_render hnames hpart, and_self]

/-- Both loops keep the spelling of the names. -/
theorem foldl_render (hnames : ∀ name ∈ names, IsPart name) (hcs : ∀ c ∈ cs, OnUnix c) :
    cs.foldl normalizeStep (render names) = render (lexical names cs) ∧
      cs.foldlM normalizeVirtualStep (render names) = .ok (render (lexical names cs)) ∧
      ∀ name ∈ lexical names cs, IsPart name := by
  induction cs generalizing names with
  | nil => exact ⟨rfl, rfl, hnames⟩
  | cons c cs ih =>
    have hc := hcs c List.mem_cons_self
    obtain ⟨hstep, hvirtual⟩ := normalizeStep_render hnames hc
    obtain ⟨hfold, hfoldM, hall⟩ := ih (isPart_lexStep hnames hc)
      fun c' hc' => hcs c' (List.mem_cons_of_mem _ hc')
    refine ⟨?_, ?_, hall⟩
    · rw [List.foldl_cons, hstep, hfold]
      rfl
    · rw [List.foldlM_cons, hvirtual]
      exact hfoldM

/-- The names of the canonical spelling. -/
def canonical (path : Bytes) : List Bytes := lexical [] (components path)

theorem isPart_canonical (path : Bytes) : ∀ name ∈ canonical path, IsPart name :=
  (@foldl_render [] (components path) (by simp) fun _ => mem_components).2.2

theorem normalize_eq_render (path : Bytes) : normalize path = render (canonical path) :=
  (@foldl_render [] (components path) (by simp) fun _ => mem_components).1

theorem normalizeVirtual_eq_render (path : Bytes) :
    normalizeVirtual path = .ok (render (canonical path)) :=
  (@foldl_render [] (components path) (by simp) fun _ => mem_components).2.1

-- ---------------------------------------------------------------------------
-- Canonical names
-- ---------------------------------------------------------------------------

theorem lexical_append (names : List Bytes) (cs ds : List Component) :
    lexical names (cs ++ ds) = lexical (lexical names cs) ds := List.foldl_append

@[simp] theorem lexical_normal (names parts : List Bytes) :
    lexical names (parts.map .normal) = names ++ parts := by
  induction parts generalizing names with
  | nil => simp [lexical]
  | cons part parts ih => simpa [lexical, lexStep] using ih (names ++ [part])

theorem canonical_eq (path : Bytes) : canonical path = lexical [] (steps path) := by
  unfold canonical components
  split
  · rfl
  · split <;> rfl

theorem canonical_render (hnames : ∀ name ∈ names, IsPart name) :
    canonical (render names) = names := by
  simp [canonical_eq, steps_render hnames]

/-- A relative path goes on from the names of its base. -/
theorem canonical_push {base : Bytes} (h : isAbsolute path = false) :
    canonical (push base path) = lexical (canonical base) (steps path) := by
  rw [canonical_eq, steps_push h, lexical_append, ← canonical_eq]

theorem canonical_push_canonical (base path : Bytes) :
    canonical (push (render (canonical base)) path) = canonical (push base path) := by
  by_cases h : isAbsolute path = true
  · rw [push, if_pos h, push, if_pos h]
  · have hrelative : isAbsolute path = false := by simpa using h
    rw [canonical_push hrelative, canonical_push hrelative,
      canonical_render (isPart_canonical base)]

/-- The two normalisations agree on every byte string. What they return is absolute, without
empty, `.` or `..` components, and a fixed point; and resolving in steps is resolving at once. -/
theorem normalize_canonical :
    (∀ p, normalizeVirtual p = .ok (normalize p)) ∧
    (∀ p, isAbsolute (normalize p) = true ∧
      ∃ names, normalize p = render names ∧ ∀ name ∈ names, IsPart name) ∧
    (∀ p, normalize (normalize p) = normalize p) ∧
    ∀ b q, normalize (push b q) = normalize (push (normalize b) q) := by
  refine ⟨fun p => ?_, fun p => ⟨?_, _, normalize_eq_render p, isPart_canonical p⟩, fun p => ?_,
    fun b q => ?_⟩
  · rw [normalizeVirtual_eq_render, normalize_eq_render]
  · simp [normalize_eq_render, render, isAbsolute]
  · simp only [normalize_eq_render, canonical_render (isPart_canonical p)]
  · simp only [normalize_eq_render, canonical_push_canonical]

end Buffer

-- ---------------------------------------------------------------------------
-- Normal paths
-- ---------------------------------------------------------------------------

/-- A component of a path without NULs, as it stands in a buffer. -/
def Buffer.raw : UnixPath.Component → Component
  | .rootDir => .rootDir
  | .curDir => .curDir
  | .parentDir => .parentDir
  | .normal name => .normal name.bytes

theorem Buffer.component?_raw {piece : Bytes} (hslash : slash ∉ piece)
    (hnul : (0 : UInt8) ∉ piece) :
    component? piece = (UnixPath.component? piece).map raw := by
  unfold component? UnixPath.component?
  by_cases hdots : piece = [dot, dot]
  · subst hdots
    rfl
  · by_cases hblank : isBlank piece = true
    · have hname : ¬ UnixPath.IsName piece := by
        simp only [isBlank, Bool.or_eq_true, beq_iff_eq] at hblank
        rintro ⟨hne, hdot, -⟩
        exact hblank.elim hne hdot
      simp [hblank, hdots, hname]
    · have hname : UnixPath.IsName piece := by
        simp only [isBlank, Bool.or_eq_true, beq_iff_eq, not_or] at hblank
        exact ⟨hblank.1, hblank.2, hdots, hslash, hnul⟩
      simp [hblank, hdots, hname, raw]

theorem Buffer.steps_raw (p : UnixPath.OsStr) :
    steps p.bytes = (UnixPath.steps p.bytes).map raw := by
  rw [steps, UnixPath.steps, List.map_filterMap]
  refine List.filterMap_congr fun piece hpiece => component?_raw ?_ ?_
  · exact fun hmem => (mem_splitOn hpiece slash hmem).2 rfl
  · exact fun hmem => p.noNul (mem_splitOn hpiece 0 hmem).1

theorem Buffer.lexical_raw (base : UnixPath.AbsPath) (cs : List UnixPath.Component) :
    lexical (base.map UnixPath.Name.bytes) (cs.map raw) =
      (UnixPath.lexical base cs).map UnixPath.Name.bytes := by
  induction cs generalizing base with
  | nil => rfl
  | cons c cs ih =>
    rw [UnixPath.lexical_cons, ← ih]
    cases c <;> simp [lexical, lexStep, raw, UnixPath.lexStep]

/-- A path in normal form is what the buffer holds in the end. -/
theorem toPath_normalize (p : UnixPath.OsStr) :
    (normalize p).toPath.bytes = Buffer.normalize p.bytes := by
  have hnames : Buffer.canonical p.bytes = (normalize p).map UnixPath.Name.bytes := by
    rw [Buffer.canonical_eq, Buffer.steps_raw, normalize_eq, UnixPath.OsStr.normalize_eq]
    exact Buffer.lexical_raw [] _
  rw [Buffer.normalize_eq_render, hnames]
  simp only [UnixPath.AbsPath.toPath, UnixPath.relative, render, List.map_map]
  rfl

end PathShim
