import Mathlib.Algebra.Group.Nat.Defs
import Mathlib.Data.List.Infix

/-!
# Unix pathnames

Pathnames as byte strings, their components, and the lexical normal form.
The component parser, `join` and prefix stripping follow the documented
behaviour of the Rust standard library on Unix. `AbsPath` is the normal form:
an absolute path without empty, `.` or `..` components, so that component-wise
equality of two normal paths is equality.
-/

namespace UnixPath

abbrev Bytes := List UInt8

def slash : UInt8 := 47
def dot : UInt8 := 46

def ascii (text : List Char) : Bytes := text.map fun c => c.toNat.toUInt8

/-- A string that crosses the system call boundary: NUL ends it, so it has none inside. -/
structure OsStr where
  bytes : Bytes
  noNul : (0 : UInt8) ∉ bytes
  deriving DecidableEq

theorem noNul_takeWhile (bytes : Bytes) : (0 : UInt8) ∉ bytes.takeWhile (· != 0) := by
  intro h
  simpa using List.all_eq_true.mp List.all_takeWhile 0 h

/-- The string up to its first NUL. -/
def OsStr.ofBytes (bytes : Bytes) : OsStr := ⟨bytes.takeWhile (· != 0), noNul_takeWhile bytes⟩

def osStr (text : List Char) : OsStr := .ofBytes (ascii text)

/-- What a single directory entry may be called. -/
def IsName (b : Bytes) : Prop :=
  b ≠ [] ∧ b ≠ [dot] ∧ b ≠ [dot, dot] ∧ slash ∉ b ∧ (0 : UInt8) ∉ b

instance (b : Bytes) : Decidable (IsName b) := by unfold IsName; infer_instance

structure Name where
  bytes : Bytes
  isName : IsName bytes
  deriving DecidableEq

theorem isName_letter {c : Char} (h : ascii [c] ∉ [[dot], [slash], [0]]) : IsName (ascii [c]) := by
  simp only [ascii, List.map_cons, List.map_nil, List.mem_cons, List.not_mem_nil, or_false,
    List.cons.injEq, and_true, not_or] at h
  obtain ⟨hdot, hslash, hnul⟩ := h
  exact ⟨by simp [ascii], by simpa [ascii] using hdot, by simp [ascii],
    by simpa [ascii] using Ne.symm hslash, by simpa [ascii] using Ne.symm hnul⟩

/-- A name of one letter. -/
def Name.letter (c : Char) (h : ascii [c] ∉ [[dot], [slash], [0]]) : Name :=
  ⟨ascii [c], isName_letter h⟩

theorem Name.ext {n m : Name} (h : n.bytes = m.bytes) : n = m := by
  cases n; cases m; cases h; rfl

/-- `std::path::Component`; `Component::Prefix` does not occur on Unix. -/
inductive Component where
  | rootDir
  | curDir
  | parentDir
  | normal (name : Name)
  deriving DecidableEq

/-- A normalised absolute path, root first. -/
abbrev AbsPath := List Name

-- ---------------------------------------------------------------------------
-- Components
-- ---------------------------------------------------------------------------

/-- One slash-free piece of a path. Empty pieces and `.` stand for nothing. -/
def component? (piece : Bytes) : Option Component :=
  if piece = [dot, dot] then some .parentDir
  else if h : IsName piece then some (.normal ⟨piece, h⟩)
  else none

/-- The pieces of a path that name a step, without its root or leading `.`. -/
def steps (p : Bytes) : List Component := (p.splitOn slash).filterMap component?

def OsStr.isAbsolute (p : OsStr) : Bool := p.bytes.head? == some slash

def OsStr.components (p : OsStr) : List Component :=
  if p.isAbsolute then .rootDir :: steps p.bytes
  else if (p.bytes.splitOn slash).head? = some [dot] then .curDir :: steps p.bytes
  else steps p.bytes

@[simp] theorem component?_nil : component? [] = none := by decide

theorem component?_name (n : Name) : component? n.bytes = some (.normal n) := by
  have hn := n.isName
  rw [component?, if_neg hn.2.2.1, dif_pos hn]

@[simp] theorem steps_nil : steps [] = [] := by simp [steps]

/-- A slash separates: the steps of both sides, in order. -/
theorem steps_append_slash (a b : Bytes) : steps (a ++ slash :: b) = steps a ++ steps b := by
  simp [steps, List.splitOn_append_cons_self]

@[simp] theorem steps_slash (b : Bytes) : steps (slash :: b) = steps b := by
  simpa using steps_append_slash [] b

theorem steps_intercalate (pieces : List Bytes) (h : ∀ piece ∈ pieces, slash ∉ piece) :
    steps ([slash].intercalate pieces) = pieces.filterMap component? := by
  cases pieces with
  | nil => simp [List.intercalate]
  | cons piece rest => rw [steps, List.splitOn_intercalate slash h (by simp)]

theorem steps_ne_root {p : Bytes} {c : Component} (h : c ∈ steps p) :
    c = .parentDir ∨ ∃ n, c = .normal n := by
  obtain ⟨piece, -, hc⟩ := List.mem_filterMap.mp h
  unfold component? at hc
  split at hc
  · exact .inl (Option.some.inj hc).symm
  · split at hc
    · exact .inr ⟨_, (Option.some.inj hc).symm⟩
    · cases hc

-- ---------------------------------------------------------------------------
-- Rendering
-- ---------------------------------------------------------------------------

def Component.bytes : Component → Bytes
  | .rootDir => [slash]
  | .curDir => [dot]
  | .parentDir => [dot, dot]
  | .normal n => n.bytes

theorem Component.noNul (c : Component) : (0 : UInt8) ∉ c.bytes := by
  cases c with
  | normal n => exact n.isName.2.2.2.2
  | _ => decide

theorem noNul_intercalate {pieces : List Bytes} (h : ∀ piece ∈ pieces, (0 : UInt8) ∉ piece) :
    (0 : UInt8) ∉ [slash].intercalate pieces := by
  induction pieces with
  | nil => simp [List.intercalate]
  | cons piece rest ih =>
    cases rest with
    | nil => simpa [List.intercalate] using h
    | cons next rest =>
      have hrest := ih fun x hx => h x (List.mem_cons_of_mem _ hx)
      rw [List.intercalate_cons_cons]
      simp only [List.mem_append, not_or]
      exact ⟨⟨h piece (by simp), by decide⟩, hrest⟩

/-- Components joined by slashes: a relative path. -/
def relative (cs : List Component) : OsStr :=
  ⟨[slash].intercalate (cs.map Component.bytes), noNul_intercalate fun piece hp => by
    obtain ⟨c, -, rfl⟩ := List.mem_map.mp hp
    exact c.noNul⟩

def AbsPath.toPath (p : AbsPath) : OsStr :=
  ⟨slash :: (relative (p.map .normal)).bytes, by
    simpa using ⟨by decide, (relative (p.map .normal)).noNul⟩⟩

theorem slash_notMem_names {names : List Name} :
    ∀ piece ∈ (names.map Component.normal).map Component.bytes, slash ∉ piece := by
  intro piece hp
  obtain ⟨c, hc, rfl⟩ := List.mem_map.mp hp
  obtain ⟨n, -, rfl⟩ := List.mem_map.mp hc
  exact n.isName.2.2.2.1

/-- The pieces of a path put together from names. -/
theorem splitOn_relative {names : List Name} (h : names ≠ []) :
    (relative (names.map .normal)).bytes.splitOn slash = names.map Name.bytes := by
  rw [relative, List.splitOn_intercalate slash slash_notMem_names (by simpa using h), List.map_map]
  rfl

theorem steps_relative (names : List Name) :
    steps (relative (names.map .normal)).bytes = names.map .normal := by
  rw [relative, steps_intercalate _ slash_notMem_names]
  induction names with
  | nil => rfl
  | cons n names ih =>
    simp only [List.map_cons, Component.bytes, List.filterMap_cons, component?_name]
    simpa using ih

@[simp] theorem AbsPath.isAbsolute_toPath (p : AbsPath) : p.toPath.isAbsolute = true := by
  simp [toPath, OsStr.isAbsolute]

@[simp] theorem AbsPath.steps_toPath (p : AbsPath) :
    steps p.toPath.bytes = p.map .normal := by
  simp [toPath, steps_relative]

@[simp] theorem AbsPath.components_toPath (p : AbsPath) :
    p.toPath.components = .rootDir :: p.map .normal := by
  simp [OsStr.components]

/-- Equal components mean equal steps. -/
theorem steps_of_components {p : OsStr} {path : AbsPath}
    (h : p.components = path.toPath.components) : steps p.bytes = path.map .normal := by
  rw [AbsPath.components_toPath, OsStr.components] at h
  split at h
  · exact (List.cons.inj h).2
  · split at h
    · cases (List.cons.inj h).1
    · have hroot : Component.rootDir ∈ steps p.bytes := h ▸ List.mem_cons_self
      rcases steps_ne_root hroot with h | ⟨n, h⟩ <;> cases h

-- ---------------------------------------------------------------------------
-- Lexical normalisation
-- ---------------------------------------------------------------------------

/-- One component applied to a normal path. `..` at the root stays there. -/
def lexStep (out : AbsPath) : Component → AbsPath
  | .rootDir | .curDir => out
  | .parentDir => out.dropLast
  | .normal part => out ++ [part]

def lexical (base : AbsPath) (cs : List Component) : AbsPath := cs.foldl lexStep base

def OsStr.normalize (p : OsStr) : AbsPath := lexical [] p.components

@[simp] theorem lexical_nil (base : AbsPath) : lexical base [] = base := rfl

@[simp] theorem lexical_cons (base : AbsPath) (c : Component) (cs : List Component) :
    lexical base (c :: cs) = lexical (lexStep base c) cs := rfl

theorem lexical_append (base : AbsPath) (cs ds : List Component) :
    lexical base (cs ++ ds) = lexical (lexical base cs) ds := List.foldl_append

@[simp] theorem lexical_names (base names : AbsPath) :
    lexical base (names.map .normal) = base ++ names := by
  induction names generalizing base with
  | nil => simp
  | cons n names ih => simp [lexStep, ih]

theorem OsStr.normalize_eq (p : OsStr) : p.normalize = lexical [] (steps p.bytes) := by
  unfold normalize components
  split
  · rfl
  · split <;> rfl

@[simp] theorem AbsPath.normalize_toPath (p : AbsPath) : p.toPath.normalize = p := by
  simp [OsStr.normalize_eq]

/-- The levels a pathname climbs above its base before it descends. -/
def climb (cs : List Component) : Nat × AbsPath :=
  cs.foldl (fun (up, down) c =>
    match c with
    | .rootDir | .curDir => (up, down)
    | .parentDir => if down = [] then (up + 1, []) else (up, down.dropLast)
    | .normal part => (up, down ++ [part])) (0, [])

/-- The ancestor `n` levels up; above the root there is only the root. -/
def AbsPath.up (p : AbsPath) (n : Nat) : AbsPath := p.take (p.length - n)

@[simp] theorem AbsPath.up_zero (p : AbsPath) : p.up 0 = p := by simp [up]

theorem AbsPath.dropLast_up (p : AbsPath) (n : Nat) : (p.up n).dropLast = p.up (n + 1) := by
  simp only [up, List.dropLast_eq_take, List.length_take, List.take_take]
  congr 1
  omega

/-- A relative pathname acts on any base in the same way: climb, then descend. -/
theorem lexical_eq_climb (base : AbsPath) (cs : List Component) :
    lexical base cs = base.up (climb cs).1 ++ (climb cs).2 := by
  induction cs using List.reverseRecOn with
  | nil => simp [climb]
  | append_singleton cs c ih =>
    have hc : climb (cs ++ [c]) = (match c with
        | .rootDir | .curDir => climb cs
        | .parentDir => if (climb cs).2 = [] then ((climb cs).1 + 1, [])
            else ((climb cs).1, (climb cs).2.dropLast)
        | .normal part => ((climb cs).1, (climb cs).2 ++ [part])) := by
      simp only [climb, List.foldl_append, List.foldl_cons, List.foldl_nil]
      cases c <;> rfl
    rw [lexical_append, ih, hc]
    cases c with
    | rootDir => rfl
    | curDir => rfl
    | parentDir =>
      simp only [lexical_cons, lexical_nil, lexStep]
      split
      · rename_i hd
        simp [hd, AbsPath.dropLast_up]
      · rename_i hd
        simp [List.dropLast_append_of_ne_nil hd]
    | normal part => simp [lexStep]

-- ---------------------------------------------------------------------------
-- Join and prefix stripping
-- ---------------------------------------------------------------------------

/-- `Path::join`: an absolute right side replaces the left; otherwise a slash
goes between them unless the left is empty or ends in one. -/
def OsStr.join (base p : OsStr) : OsStr :=
  if p.isAbsolute then p
  else if base.bytes = [] ∨ base.bytes.getLast? = some slash then
    ⟨base.bytes ++ p.bytes, by simpa using ⟨base.noNul, p.noNul⟩⟩
  else ⟨base.bytes ++ slash :: p.bytes, by simpa using ⟨base.noNul, by decide, p.noNul⟩⟩

theorem OsStr.steps_join {base p : OsStr} (h : p.isAbsolute = false) :
    steps (base.join p).bytes = steps base.bytes ++ steps p.bytes := by
  simp only [join, h, Bool.false_eq_true, if_false]
  split
  · rename_i hb
    rcases hb with hb | hb
    · simp [hb]
    · obtain ⟨body, hbody⟩ := List.getLast?_eq_some_iff.mp hb
      have hl : steps base.bytes = steps body := by
        simpa [hbody] using steps_append_slash body []
      show steps (base.bytes ++ p.bytes) = _
      rw [hl, hbody, List.append_assoc]
      exact steps_append_slash body p.bytes
  · exact steps_append_slash _ _

/-- A relative path is resolved step by step from the normal form of its base. -/
theorem OsStr.normalize_join {base p : OsStr} (h : p.isAbsolute = false) :
    (base.join p).normalize = lexical base.normalize (steps p.bytes) := by
  rw [normalize_eq, steps_join h, lexical_append, ← normalize_eq]

@[simp] theorem relative_isAbsolute (names : List Name) :
    (relative (names.map .normal)).isAbsolute = false := by
  cases names with
  | nil => rfl
  | cons n names =>
    obtain ⟨b, hb⟩ := n
    cases b with
    | nil => exact absurd rfl hb.1
    | cons c b =>
      have hc : c ≠ slash := fun h => hb.2.2.2.1 (by simp [h])
      cases names <;>
        simp [relative, OsStr.isAbsolute, Component.bytes, List.intercalate, hc]

/-- `Path::strip_prefix` against a normal path, component-wise. -/
def OsStr.stripBase (p : OsStr) (base : AbsPath) : Option OsStr :=
  (base.toPath.components.isPrefixOf? p.components).map relative

theorem isPrefixOf?_eq_some [BEq α] [LawfulBEq α] {xs ys rest : List α} :
    xs.isPrefixOf? ys = some rest ↔ ys = xs ++ rest := by
  induction xs generalizing ys with
  | nil => simp [List.isPrefixOf?, eq_comm]
  | cons x xs ih =>
    cases ys with
    | nil => simp [List.isPrefixOf?]
    | cons y ys =>
      simp only [List.isPrefixOf?, List.cons_append, List.cons.injEq]
      split
      · rename_i hxy
        simp [ih, eq_of_beq hxy]
      · rename_i hxy
        have hne : y ≠ x := fun h => hxy (by simp [h])
        simp [hne]

/-- Stripping a normal base from a path below it leaves the names in between. -/
theorem OsStr.stripBase_eq_some {p : OsStr} {path base : AbsPath}
    (hp : p.components = path.toPath.components) {rest : OsStr} :
    p.stripBase base = some rest ↔
      ∃ names, path = base ++ names ∧ rest = relative (names.map .normal) := by
  simp only [stripBase, hp, AbsPath.components_toPath, Option.map_eq_some_iff,
    isPrefixOf?_eq_some, List.cons_append, List.cons.injEq, true_and]
  constructor
  · rintro ⟨cs, hcs, rfl⟩
    obtain ⟨l, names, rfl, hl, rfl⟩ := List.map_eq_append_iff.mp hcs
    have hl : l = base := List.map_injective_iff.mpr (fun _ _ h => Component.normal.inj h) hl
    exact ⟨names, by rw [hl], rfl⟩
  · rintro ⟨names, rfl, rfl⟩
    exact ⟨names.map .normal, by simp, rfl⟩

/-- Joining names below a normal path, up to how the slashes are written. -/
theorem components_join_relative (base : AbsPath) (names : List Name) :
    (base.toPath.join (relative (names.map .normal))).components =
      (base ++ names : AbsPath).toPath.components := by
  have habs : (base.toPath.join (relative (names.map .normal))).isAbsolute = true := by
    simp only [OsStr.join, relative_isAbsolute, Bool.false_eq_true, if_false]
    split <;> simp [OsStr.isAbsolute, AbsPath.toPath]
  rw [OsStr.components, if_pos habs, OsStr.steps_join (relative_isAbsolute names)]
  simp [steps_relative]

end UnixPath
