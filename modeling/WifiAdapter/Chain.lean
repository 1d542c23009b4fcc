import WifiAdapter.Address

/-! Outgoing data as a chain of segments.

A chain is built by `push` and `ofBytes` and used up from the front by `advance`.
Its view is the run of bytes it stands for (`Chain.bytes`), and each operation has
one lemma that says what it does to the view. No operation makes an empty segment
(`Chain.Solid`), so a chain without bytes is a chain without segments. -/
namespace WifiAdapter

/-- Segments of outgoing data, the next to be sent first. -/
structure Chain where
  segments : List Bytes
deriving DecidableEq, Repr, Inhabited

namespace Chain

def empty : Chain := ⟨[]⟩

/-- The run of bytes a chain stands for. -/
def bytes (c : Chain) : Bytes := c.segments.flatten

/-- The number of bytes. -/
def length (c : Chain) : Nat := c.segments.foldr (fun segment count => segment.length + count) 0

def isEmpty (c : Chain) : Bool := c.segments.isEmpty

/-- The segment to be sent next. -/
def front? (c : Chain) : Option Bytes := c.segments.head?

/-- Adds a segment at the end. An empty one leaves no trace. -/
def push (c : Chain) (segment : Bytes) : Chain :=
  if segment.isEmpty then c else ⟨c.segments ++ [segment]⟩

/-- The pieces of `data` of `max size 1` bytes each, the last one possibly shorter. -/
def cut (size : Nat) (data : Bytes) : List Bytes :=
  if data.length = 0 then [] else data.take (max size 1) :: cut size (data.drop (max size 1))
termination_by data.length
decreasing_by
  simp only [List.length_drop]
  omega

/-- The chain of the pieces of `data`. -/
def ofBytes (data : Bytes) (size : Nat) : Chain := (cut size data).foldl push empty

/-- Drops up to `count` bytes of the front segment; the segment goes when nothing of it is left. -/
def advance (c : Chain) (count : Nat) : Chain :=
  match c.segments with
  | [] => c
  | segment :: rest =>
    if segment.length ≤ count then ⟨rest⟩ else ⟨segment.drop count :: rest⟩

/-- The front segment, or as much of it as one send takes. -/
def piece? (c : Chain) (size : Nat) : Option Bytes := c.front?.map (·.take size)

/-- Appends segments to a buffer of bounded size; none if one of them does not fit. -/
def flattenWithin (capacity : Nat) (buffer : Bytes) : List Bytes → Option Bytes
  | [] => some buffer
  | segment :: rest =>
    if buffer.length + segment.length ≤ capacity then
      flattenWithin capacity (buffer ++ segment) rest
    else none

/-- No segment is empty. -/
def Solid (c : Chain) : Prop := ∀ s ∈ c.segments, s ≠ []

/-! ### The view -/

theorem length_eq (c : Chain) : c.length = c.bytes.length := by
  obtain ⟨segments⟩ := c
  induction segments with
  | nil => rfl
  | cons s rest ih =>
    simp only [length, bytes, List.foldr_cons, List.flatten_cons, List.length_append] at ih ⊢
    rw [ih]

@[simp] theorem bytes_empty : empty.bytes = [] := rfl

@[simp] theorem bytes_push (c : Chain) (s : Bytes) : (c.push s).bytes = c.bytes ++ s := by
  unfold push
  cases s <;> simp [bytes]

theorem flatten_cut (size : Nat) (data : Bytes) : (cut size data).flatten = data := by
  fun_induction cut size data with
  | case1 data h => simp [List.length_eq_zero_iff.mp h]
  | case2 data h ih => simp [ih]

/-- A piece is not empty, is no longer than asked for, and is a part of the data. -/
theorem mem_cut {size : Nat} {data piece : Bytes} (h : piece ∈ cut size data) :
    piece ≠ [] ∧ piece.length ≤ max size 1 ∧ piece <:+: data := by
  fun_induction cut size data with
  | case1 => cases h
  | case2 data hdata ih =>
    rcases List.mem_cons.mp h with rfl | h
    · refine ⟨?_, List.length_take_le .., (List.take_prefix ..).isInfix⟩
      rw [ne_eq, List.take_eq_nil_iff, ← List.length_eq_zero_iff]
      omega
    · obtain ⟨hne, hlength, hinfix⟩ := ih h
      exact ⟨hne, hlength, hinfix.trans (List.drop_suffix ..).isInfix⟩

theorem bytes_foldl_push (pieces : List Bytes) (c : Chain) :
    (pieces.foldl push c).bytes = c.bytes ++ pieces.flatten := by
  induction pieces generalizing c with
  | nil => simp
  | cons p rest ih => simp [ih]

@[simp] theorem bytes_ofBytes (data : Bytes) (size : Nat) : (ofBytes data size).bytes = data := by
  simp [ofBytes, bytes_foldl_push, flatten_cut]

theorem bytes_advance (c : Chain) (count : Nat) :
    (c.advance count).bytes = c.bytes.drop (min count (c.front?.getD []).length) := by
  obtain ⟨segments⟩ := c
  cases segments with
  | nil => simp [advance, bytes]
  | cons s rest =>
    simp only [advance, front?, bytes, List.head?_cons, Option.getD_some, List.flatten_cons]
    split
    · next h => simp [Nat.min_eq_right h]
    · next h =>
      have h : count ≤ s.length := by omega
      simp [Nat.min_eq_left h, List.drop_append_of_le_length h]

theorem flattenWithin_eq_some_iff {capacity : Nat} {buffer result : Bytes} {segments : List Bytes}
    (h : buffer.length ≤ capacity) :
    flattenWithin capacity buffer segments = some result ↔
      result = buffer ++ segments.flatten ∧ result.length ≤ capacity := by
  induction segments generalizing buffer with
  | nil =>
    simp only [flattenWithin, Option.some.injEq, List.flatten_nil, List.append_nil]
    constructor
    · rintro rfl
      exact ⟨rfl, h⟩
    · rintro ⟨rfl, -⟩
      rfl
  | cons s rest ih =>
    rw [flattenWithin]
    split
    · next hs =>
      rw [ih (by rw [List.length_append]; exact hs), List.flatten_cons, List.append_assoc]
    · next hs =>
      simp only [reduceCtorEq, false_iff, not_and, List.flatten_cons]
      rintro rfl
      simp only [List.length_append]
      omega

/-! ### Sending off piece by piece -/

/-- A chain gets smaller by every piece sent off. -/
theorem advance_piece_lt {c : Chain} {size : Nat} {piece : Bytes} (hsize : 0 < size)
    (h : c.piece? size = some piece) :
    (c.advance piece.length).length + (c.advance piece.length).segments.length <
      c.length + c.segments.length := by
  obtain ⟨segments⟩ := c
  cases segments with
  | nil => cases h
  | cons s rest =>
    simp only [piece?, front?, List.head?_cons, Option.map_some, Option.some.injEq] at h
    subst h
    simp only [advance, List.length_take]
    split
    · simp only [length, List.foldr_cons, List.length_cons]
      omega
    · simp only [length, List.foldr_cons, List.length_cons, List.length_drop]
      omega

/-- Sending off a piece removes just that piece from the front. -/
theorem bytes_advance_piece {c : Chain} {size : Nat} {piece : Bytes}
    (h : c.piece? size = some piece) : piece ++ (c.advance piece.length).bytes = c.bytes := by
  obtain ⟨segments⟩ := c
  cases segments with
  | nil => cases h
  | cons s rest =>
    simp only [piece?, front?, List.head?_cons, Option.map_some, Option.some.injEq] at h
    subst h
    rw [bytes_advance]
    simp only [front?, List.head?_cons, Option.getD_some, bytes, List.flatten_cons,
      List.length_take]
    rw [List.drop_append_of_le_length (by omega), ← List.append_assoc]
    congr 1
    rw [show min (min size s.length) s.length = min size s.length by omega]
    conv => rhs; rw [← List.take_append_drop size s]
    rcases Nat.le_total size s.length with hs | hs
    · rw [Nat.min_eq_left hs]
    · rw [Nat.min_eq_right hs, List.drop_eq_nil_of_le hs, List.drop_eq_nil_of_le (Nat.le_refl _)]

/-- Without a piece there is nothing left. -/
theorem bytes_of_no_piece {c : Chain} {size : Nat} (h : c.piece? size = none) : c.bytes = [] := by
  obtain ⟨_ | ⟨segment, rest⟩⟩ := c
  · rfl
  · cases h

theorem bytes_of_isEmpty {c : Chain} (h : c.isEmpty = true) : c.bytes = [] := by
  obtain ⟨_ | ⟨segment, rest⟩⟩ := c
  · rfl
  · cases h

/-! ### Solid chains -/

theorem solid_empty : empty.Solid := by simp [Solid, empty]

theorem Solid.push {c : Chain} (h : c.Solid) (s : Bytes) : (c.push s).Solid := by
  unfold Chain.push
  cases s with
  | nil => exact h
  | cons b rest =>
    intro t ht
    simp only [List.isEmpty_cons, Bool.false_eq_true, if_false, List.mem_append,
      List.mem_singleton] at ht
    rcases ht with ht | rfl
    · exact h t ht
    · simp

theorem Solid.foldl_push {c : Chain} (h : c.Solid) (pieces : List Bytes) :
    (pieces.foldl Chain.push c).Solid := by
  induction pieces generalizing c with
  | nil => exact h
  | cons p rest ih => exact ih (h.push p)

theorem solid_ofBytes (data : Bytes) (size : Nat) : (ofBytes data size).Solid :=
  solid_empty.foldl_push _

theorem Solid.advance {c : Chain} (h : c.Solid) (count : Nat) : (c.advance count).Solid := by
  obtain ⟨segments⟩ := c
  cases segments with
  | nil => exact h
  | cons s rest =>
    intro t ht
    unfold Chain.advance at ht
    split at ht
    · exact h t ht
    · next hs =>
      cases hs
      split at ht
      · exact h t (List.mem_cons_of_mem _ ht)
      · next hc =>
        rcases List.mem_cons.mp ht with rfl | ht
        · simp only [ne_eq, List.drop_eq_nil_iff]
          exact hc
        · exact h t (List.mem_cons_of_mem _ ht)

theorem Solid.isEmpty_iff {c : Chain} (h : c.Solid) : c.isEmpty = true ↔ c.length = 0 := by
  obtain ⟨segments⟩ := c
  cases segments with
  | nil => simp [isEmpty, length]
  | cons s rest =>
    have := List.length_pos_iff.mpr (h s (List.mem_cons_self ..))
    simp only [isEmpty, List.isEmpty_cons, Bool.false_eq_true, length, List.foldr_cons,
      false_iff]
    omega

end Chain

end WifiAdapter
