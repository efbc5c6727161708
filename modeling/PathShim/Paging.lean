import Mathlib.Data.List.Infix

/-!
# Pages of a sequence

Blocks of various sizes are handed out in pages, each the longest run of the
remaining blocks that fits the room there is. Pages put together are a prefix
of the sequence, and enough pages with room for every block are all of it.
-/

namespace Paging

variable {β : Type*}

def total (size : β → Nat) : List β → Nat
  | [] => 0
  | b :: rest => size b + total size rest

/-- The longest run of the first blocks that fits. -/
def page (size : β → Nat) : Nat → List β → List β
  | _, [] => []
  | room, b :: rest => if size b ≤ room then b :: page size (room - size b) rest else []

/-- One page after the other. -/
def pages (size : β → Nat) : List Nat → List β → List (List β)
  | [], _ => []
  | room :: rooms, blocks =>
    page size room blocks :: pages size rooms (blocks.drop (page size room blocks).length)

variable {size : β → Nat} {room : Nat} {rooms : List Nat} {b : β} {blocks rest : List β}

@[simp] theorem total_nil : total size [] = 0 := rfl

@[simp] theorem total_cons : total size (b :: blocks) = size b + total size blocks := rfl

-- ---------------------------------------------------------------------------
-- One page
-- ---------------------------------------------------------------------------

@[simp] theorem page_nil : page size room [] = [] := rfl

theorem page_cons_of_le (h : size b ≤ room) :
    page size room (b :: rest) = b :: page size (room - size b) rest := if_pos h

theorem page_cons_of_lt (h : room < size b) : page size room (b :: rest) = [] :=
  if_neg (Nat.not_le.mpr h)

theorem page_initial (room : Nat) (blocks : List β) : page size room blocks <+: blocks := by
  induction blocks generalizing room with
  | nil => exact List.prefix_rfl
  | cons b rest ih =>
    by_cases h : size b ≤ room
    · rw [page_cons_of_le h]
      exact List.cons_prefix_cons.mpr ⟨rfl, ih _⟩
    · rw [page_cons_of_lt (Nat.not_le.mp h)]
      exact List.nil_prefix

theorem total_page_le (room : Nat) (blocks : List β) :
    total size (page size room blocks) ≤ room := by
  induction blocks generalizing room with
  | nil => exact Nat.zero_le _
  | cons b rest ih =>
    by_cases h : size b ≤ room
    · rw [page_cons_of_le h, total_cons]
      have := ih (room - size b)
      omega
    · rw [page_cons_of_lt (Nat.not_le.mp h)]
      exact Nat.zero_le _

theorem page_append_drop (room : Nat) (blocks : List β) :
    page size room blocks ++ blocks.drop (page size room blocks).length = blocks :=
  List.prefix_iff_eq_append.mp (page_initial room blocks)

/-- A page is empty if there is no block, or the next one does not fit. -/
theorem page_eq_nil : page size room blocks = [] ↔ ∀ b ∈ blocks.head?, room < size b := by
  cases blocks with
  | nil => simp
  | cons b rest =>
    by_cases h : size b ≤ room
    · simp [page_cons_of_le h, h]
    · simp [page_cons_of_lt (Nat.not_le.mp h), Nat.not_le.mp h]

-- ---------------------------------------------------------------------------
-- Many pages
-- ---------------------------------------------------------------------------

/-- The pages are a prefix, and what is left comes next. -/
theorem flatten_pages_append (rooms : List Nat) (blocks : List β) :
    (pages size rooms blocks).flatten ++
      blocks.drop (pages size rooms blocks).flatten.length = blocks := by
  induction rooms generalizing blocks with
  | nil => simp [pages]
  | cons room rooms ih =>
    simp only [pages, List.flatten_cons, List.length_append, List.append_assoc]
    rw [← List.drop_drop, ih, page_append_drop]

theorem flatten_pages (rooms : List Nat) (blocks : List β) :
    (pages size rooms blocks).flatten = blocks.take (pages size rooms blocks).flatten.length :=
  List.prefix_iff_eq_take.mp ⟨_, flatten_pages_append rooms blocks⟩

/-- With room for every block, each page hands out one at least. -/
theorem flatten_pages_of_fits (h : ∀ room ∈ rooms, ∀ b ∈ blocks, size b ≤ room)
    (hlength : blocks.length ≤ rooms.length) : (pages size rooms blocks).flatten = blocks := by
  induction rooms generalizing blocks with
  | nil =>
    obtain rfl := List.eq_nil_of_length_eq_zero (Nat.le_zero.mp hlength)
    rfl
  | cons room rooms ih =>
    cases blocks with
    | nil =>
      rw [flatten_pages, List.take_nil]
    | cons b rest =>
      have hfits : size b ≤ room := h room List.mem_cons_self b List.mem_cons_self
      have hpage : page size room (b :: rest) ++
          (b :: rest).drop (page size room (b :: rest)).length = b :: rest :=
        page_append_drop room (b :: rest)
      have hrest :
          ((b :: rest).drop (page size room (b :: rest)).length).length ≤ rooms.length := by
        rw [page_cons_of_le hfits, List.length_drop, List.length_cons, List.length_cons]
        rw [List.length_cons, List.length_cons] at hlength
        omega
      rw [pages, List.flatten_cons, ih (fun r hr c hc => ?_) hrest, hpage]
      exact h r (List.mem_cons_of_mem _ hr) c (List.mem_of_mem_drop hc)

end Paging
