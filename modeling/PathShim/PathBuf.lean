import Mathlib.Data.List.DropRight
import PathShim.UnixPath

/-!
# Path buffers

`std::path` on Unix as it acts on bytes: the components of a path, and `push`
and `pop` on a buffer. Any byte may stand between two slashes. A buffer that
holds an absolute path without empty, `.` or `..` components is a stack of its
names, and `push` and `pop` act on it as on a stack.
-/

namespace PathBuf

open UnixPath (Bytes slash dot)

/-- `std::path::Component`. -/
inductive Component where
  | prefixComponent
  | rootDir
  | curDir
  | parentDir
  | normal (part : Bytes)
  deriving DecidableEq

/-- What stands for nothing between two slashes. -/
def isBlank (piece : Bytes) : Bool := piece == [] || piece == [dot]

def component? (piece : Bytes) : Option Component :=
  if isBlank piece then none
  else if piece = [dot, dot] then some .parentDir
  else some (.normal piece)

def isAbsolute (p : Bytes) : Bool := p.head? == some slash

def steps (p : Bytes) : List Component := (p.splitOn slash).filterMap component?

/-- `Path::components`: a leading `.` counts, and any other one does not. -/
def components (p : Bytes) : List Component :=
  if isAbsolute p then .rootDir :: steps p
  else if (p.splitOn slash).head? = some [dot] then .curDir :: steps p
  else steps p

/-- `PathBuf::push`: an absolute path replaces the buffer; otherwise a slash goes between them
unless the buffer is empty or ends in one. -/
def push (buf path : Bytes) : Bytes :=
  if isAbsolute path then path
  else if buf = [] ∨ buf.getLast? = some slash then buf ++ path
  else buf ++ slash :: path

/-- A path from its first piece and the others, where an empty first piece is the root. -/
def unsplit (first : Bytes) (rest : List Bytes) : Bytes :=
  if first = [] ∧ rest = [] then [slash] else [slash].intercalate (first :: rest)

/-- `Path::parent`: what precedes the last component, without the slashes and `.` in between.
The root and the empty path have none. -/
def parent (p : Bytes) : Option Bytes :=
  match p.splitOn slash with
  | [] => none
  | first :: rest =>
    let body := rest.rdropWhile isBlank
    if body ≠ [] then some (unsplit first (body.dropLast.rdropWhile isBlank))
    else if first = [] then none
    else some []

/-- `PathBuf::pop`. -/
def pop (buf : Bytes) : Bytes := (parent buf).getD buf

-- ---------------------------------------------------------------------------
-- Components
-- ---------------------------------------------------------------------------

/-- What a component may be called. -/
def IsPart (b : Bytes) : Prop := b ≠ [] ∧ b ≠ [dot] ∧ b ≠ [dot, dot] ∧ slash ∉ b

theorem IsPart.not_blank {b : Bytes} (h : IsPart b) : isBlank b = false := by
  simp [isBlank, h.1, h.2.1]

theorem IsPart.component? {b : Bytes} (h : IsPart b) : component? b = some (.normal b) := by
  simp [PathBuf.component?, h.not_blank, h.2.2.1]

theorem IsPart.relative {b : Bytes} (h : IsPart b) : isAbsolute b = false := by
  cases b with
  | nil => rfl
  | cons c b =>
    have hc : c ≠ slash := fun hc => h.2.2.2 (by simp [hc])
    simpa [isAbsolute] using hc

theorem mem_splitOn {p piece : Bytes} (h : piece ∈ p.splitOn slash) :
    ∀ b ∈ piece, b ∈ p ∧ b ≠ slash := by
  induction p generalizing piece with
  | nil => simp_all
  | cons c p ih =>
    rw [List.splitOn_cons_eq_if_modifyHead] at h
    split at h
    · rcases List.mem_cons.mp h with rfl | h
      · simp
      · exact fun b hb => ⟨List.mem_cons_of_mem _ (ih h b hb).1, (ih h b hb).2⟩
    · rename_i hc
      cases hp : p.splitOn slash with
      | nil => exact absurd hp (List.splitOn_ne_nil _ _)
      | cons first rest =>
        rw [hp] at h ih
        intro b hb
        rcases List.mem_cons.mp h with rfl | h
        · rcases List.mem_cons.mp hb with rfl | hb
          · exact ⟨List.mem_cons_self, by simpa using hc⟩
          · exact ⟨List.mem_cons_of_mem _ (ih List.mem_cons_self b hb).1,
              (ih List.mem_cons_self b hb).2⟩
        · exact ⟨List.mem_cons_of_mem _ (ih (List.mem_cons_of_mem _ h) b hb).1,
            (ih (List.mem_cons_of_mem _ h) b hb).2⟩

theorem mem_steps {p : Bytes} {c : Component} (h : c ∈ steps p) :
    c = .parentDir ∨ ∃ part, IsPart part ∧ c = .normal part := by
  obtain ⟨piece, hpiece, hc⟩ := List.mem_filterMap.mp h
  have hslash : slash ∉ piece := fun hmem => (mem_splitOn hpiece slash hmem).2 rfl
  unfold component? at hc
  split at hc
  · cases hc
  · rename_i hblank
    simp only [isBlank, Bool.or_eq_true, beq_iff_eq, not_or] at hblank
    split at hc
    · exact .inl (Option.some.inj hc).symm
    · rename_i hdots
      exact .inr ⟨piece, ⟨hblank.1, hblank.2, hdots, hslash⟩, (Option.some.inj hc).symm⟩

theorem mem_components {p : Bytes} {c : Component} (h : c ∈ components p) :
    c = .rootDir ∨ c = .curDir ∨ c = .parentDir ∨ ∃ part, IsPart part ∧ c = .normal part := by
  unfold components at h
  split at h
  · rcases List.mem_cons.mp h with h | h
    · exact .inl h
    · exact .inr (.inr (mem_steps h))
  · split at h
    · rcases List.mem_cons.mp h with h | h
      · exact .inr (.inl h)
      · exact .inr (.inr (mem_steps h))
    · exact .inr (.inr (mem_steps h))

/-- A slash separates: the steps of both sides, in order. -/
theorem steps_append_slash (a b : Bytes) : steps (a ++ slash :: b) = steps a ++ steps b := by
  simp [steps, List.splitOn_append_cons_self]

@[simp] theorem steps_nil : steps [] = [] := by simp [steps, component?, isBlank]

theorem steps_push {buf path : Bytes} (h : isAbsolute path = false) :
    steps (push buf path) = steps buf ++ steps path := by
  simp only [push, h, Bool.false_eq_true, if_false]
  split
  · rename_i hbuf
    rcases hbuf with rfl | hbuf
    · simp
    · obtain ⟨body, rfl⟩ := List.getLast?_eq_some_iff.mp hbuf
      have hend : steps (body ++ [slash]) = steps body := by
        simpa using steps_append_slash body []
      rw [hend, List.append_assoc]
      exact steps_append_slash body path
  · exact steps_append_slash _ _

-- ---------------------------------------------------------------------------
-- A buffer as a stack
-- ---------------------------------------------------------------------------

/-- The absolute path of the given names. -/
def render (names : List Bytes) : Bytes := slash :: [slash].intercalate names

variable {names : List Bytes} {part : Bytes}

theorem render_append (hnames : names ≠ []) :
    render (names ++ [part]) = render names ++ slash :: part := by
  have hintercalate : [slash].intercalate (names ++ [part]) =
      [slash].intercalate names ++ slash :: part := by
    induction names with
    | nil => exact absurd rfl hnames
    | cons name names ih =>
      cases names with
      | nil => simp [List.intercalate]
      | cons next rest =>
        rw [List.cons_append, List.cons_append, List.intercalate_cons_cons, ← List.cons_append,
          ih (by simp), List.intercalate_cons_cons, List.append_assoc, List.append_assoc,
          List.append_assoc]
  rw [render, render, hintercalate, List.cons_append]

theorem unsplit_root : unsplit [] names = render names := by
  cases names with
  | nil => rfl
  | cons name rest => simp [unsplit, render, List.intercalate_cons_cons]

section
variable (hparts : ∀ name ∈ names, IsPart name)
include hparts

theorem splitOn_render (hnames : names ≠ []) : (render names).splitOn slash = [] :: names := by
  have hsplit := List.splitOn_append_cons_self (a := slash) [] ([slash].intercalate names)
  rw [List.splitOn_intercalate slash (fun name hname => (hparts name hname).2.2.2) hnames] at hsplit
  simpa [render] using hsplit

theorem steps_render : steps (render names) = names.map .normal := by
  have hsteps : names.filterMap component? = names.map .normal := by
    induction names with
    | nil => rfl
    | cons name names ih =>
      simp [(hparts name (by simp)).component?, ih fun n hn => hparts n (by simp [hn])]
  cases names with
  | nil => rfl
  | cons name rest =>
    rw [steps, splitOn_render hparts (by simp), List.filterMap_cons, hsteps]
    rfl

theorem rdropWhile_parts : names.rdropWhile isBlank = names := by
  refine List.rdropWhile_eq_self_iff.mpr fun hnames => ?_
  simp [(hparts _ (List.getLast_mem hnames)).not_blank]

/-- The last byte belongs to the last name. -/
theorem getLast?_render (hnames : names ≠ []) : (render names).getLast? ≠ some slash := by
  obtain ⟨init, last, rfl⟩ := (List.eq_nil_or_concat' names).resolve_left hnames
  have hends : ∃ front, render (init ++ [last]) = front ++ last := by
    cases init with
    | nil => exact ⟨[slash], by simp [render]⟩
    | cons first rest =>
      exact ⟨render (first :: rest) ++ [slash], by
        rw [render_append (by simp), List.append_assoc, List.singleton_append]⟩
  obtain ⟨front, hfront⟩ := hends
  have hlast := hparts last (by simp)
  obtain ⟨c, hc⟩ := Option.ne_none_iff_exists'.mp (mt List.getLast?_eq_none_iff.mp hlast.1)
  intro h
  rw [hfront, List.getLast?_append, hc, Option.some_or] at h
  exact hlast.2.2.2 (Option.some.inj h ▸ List.mem_of_getLast? hc)

theorem push_render (hpart : IsPart part) :
    push (render names) part = render (names ++ [part]) := by
  rw [push, if_neg (by simp [hpart.relative])]
  cases names with
  | nil => simp [render]
  | cons name rest =>
    rw [if_neg (not_or.mpr ⟨by simp [render], getLast?_render hparts (by simp)⟩),
      render_append (by simp)]

theorem pop_render : pop (render names) = render names.dropLast := by
  rcases List.eq_nil_or_concat' names with rfl | ⟨init, last, rfl⟩
  · rfl
  · have hinit : ∀ name ∈ init, IsPart name := fun name hname => hparts name (by simp [hname])
    simp only [pop, parent, splitOn_render hparts (by simp), rdropWhile_parts hparts,
      List.dropLast_concat, rdropWhile_parts hinit, unsplit_root]
    simp

end

end PathBuf
