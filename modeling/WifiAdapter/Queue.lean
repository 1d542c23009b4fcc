/-! First-in first-out queues of bounded length.

A queue of capacity `n` holds at most `n` items, by its type. `push?` refuses an
item when the queue is full and leaves it to the caller what that means; `pop?`
takes the oldest item. -/
namespace WifiAdapter

/-- At most `capacity` items, oldest first. -/
structure Queue (capacity : Nat) (α : Type) where
  items : List α
  within : items.length ≤ capacity
deriving DecidableEq

namespace Queue
variable {n : Nat} {α : Type}

def empty : Queue n α := ⟨[], Nat.zero_le n⟩

instance : Inhabited (Queue n α) := ⟨empty⟩

def length (q : Queue n α) : Nat := q.items.length

/-- Adds an item at the back, if there is room. -/
def push? (q : Queue n α) (x : α) : Option (Queue n α) :=
  if h : q.items.length < n then
    some ⟨q.items ++ [x], by rw [List.length_append]; exact h⟩
  else none

/-- Takes the item at the front, if there is one. -/
def pop? : Queue n α → Option (α × Queue n α)
  | ⟨[], _⟩ => none
  | ⟨x :: rest, h⟩ => some (x, ⟨rest, Nat.le_of_succ_le h⟩)

@[ext] theorem ext {p q : Queue n α} (h : p.items = q.items) : p = q := by
  cases p
  cases q
  cases h
  rfl

@[simp] theorem items_empty : (empty : Queue n α).items = [] := rfl

theorem items_push? {q r : Queue n α} {x : α} (h : q.push? x = some r) :
    r.items = q.items ++ [x] := by
  unfold push? at h
  split at h
  · cases h
    rfl
  · cases h

theorem push?_eq_none_iff (q : Queue n α) (x : α) : q.push? x = none ↔ q.items.length = n := by
  have := q.within
  unfold push?
  split
  · simp
    omega
  · simp
    omega

theorem items_pop? {q r : Queue n α} {x : α} (h : q.pop? = some (x, r)) :
    q.items = x :: r.items := by
  obtain ⟨items, within⟩ := q
  cases items with
  | nil => cases h
  | cons y rest =>
    cases h
    rfl

theorem exists_pop? {q : Queue n α} {x : α} {rest : List α} (h : q.items = x :: rest) :
    ∃ r, q.pop? = some (x, r) ∧ r.items = rest := by
  obtain ⟨items, within⟩ := q
  cases h
  exact ⟨_, rfl, rfl⟩

theorem pop?_eq_none_iff (q : Queue n α) : q.pop? = none ↔ q.items = [] := by
  obtain ⟨items, within⟩ := q
  cases items <;> simp [pop?]

end Queue

end WifiAdapter
