import WifiAdapter.Proofs.Runs

/-! Slots that are opened so often that their generation comes round.

A generation is a word. A stream socket that is closed and opened again, with nothing done in
between, leaves the session as it was but for the generation of the slot and the journal
(`Session.Recurs.reopened`). So the generation of an earlier occupant comes back after as many
openings as a word has values, and a caller that waited all the while cannot tell
(`Session.Recurs.comes_back`). -/
namespace WifiAdapter

theorem Bus.openSocket_eq {σ : Type} [Chip σ] {b : Bus σ} {kind : SocketKind} {answer : Answer Handle}
    {chip : σ} (h : Chip.openSocket kind b.chip = (answer, chip)) :
    b.openSocket kind = (answer, ⟨chip, b.journal ++ [.opening kind answer]⟩) := by
  unfold openSocket
  rw [h]
  rfl

namespace Session
variable {σ : Type}

/-- The session at another generation of a slot, with another journal. -/
def atGeneration (s : Session σ) (h : Handle) (generation : UInt32) (journal : List Entry) :
    Session σ :=
  { s with
    adapter := { s.adapter with
      table := ⟨s.adapter.table.slots.set h { s.adapter.table.slots.get h with generation }⟩
      bus := { s.adapter.bus with journal } } }

/-- A stream socket is closed and opened again, so many times. -/
def reopenings (h : Handle) : Nat → List (Action σ)
  | 0 => []
  | n + 1 => .close h :: .create .inet .stream :: reopenings h n

section AtGeneration
variable (s : Session σ) (h : Handle) (g g' : UInt32) (journal journal' : List Entry)

theorem slot_atGeneration : (s.atGeneration h g journal).adapter.table.slots.get h =
    { s.adapter.table.slots.get h with generation := g } := Slots.get_set_self _ h _

theorem atGeneration_atGeneration :
    (s.atGeneration h g journal).atGeneration h g' journal' = s.atGeneration h g' journal' := by
  have htable : (s.atGeneration h g journal).adapter.table.slots.set h
        { (s.atGeneration h g journal).adapter.table.slots.get h with generation := g' } =
      s.adapter.table.slots.set h { s.adapter.table.slots.get h with generation := g' } := by
    rw [slot_atGeneration]
    exact Slots.set_set ..
  unfold atGeneration at htable ⊢
  rw [htable]

theorem atGeneration_self : s.atGeneration h (s.adapter.table.generation h) journal =
    { s with adapter := { s.adapter with bus := { s.adapter.bus with journal } } } := by
  have htable : s.adapter.table.slots.set h
      { s.adapter.table.slots.get h with generation := s.adapter.table.generation h } =
      s.adapter.table.slots := Slots.set_get ..
  unfold atGeneration
  rw [htable]

end AtGeneration

variable [Chip σ] {s : Session σ} {h : Handle}

/-- The slot is in use for a stream socket that nothing was done with, and the chip gives the handle
out again as soon as it is closed. -/
structure Recurs (s : Session σ) (h : Handle) : Prop where
  fresh : s.adapter.table.get? h = some (.new .stream)
  apart : s.adapter.rx.leave h = s.adapter.rx
  again : Chip.openSocket .stream (Chip.execute (.close h) s.adapter.bus.chip).2 =
    (.accepted h, s.adapter.bus.chip)

theorem Recurs.kept (hs : s.Recurs h) (g : UInt32) (journal : List Entry) :
    (s.atGeneration h g journal).Recurs h where
  fresh := by
    rw [SocketTable.get?, slot_atGeneration]
    exact hs.fresh
  apart := hs.apart
  again := hs.again

/-- What is opened again is a new occupant, and otherwise nothing has changed. -/
theorem Recurs.reopened (hs : s.Recurs h) : ∃ journal,
    s.run [.close h, .create .inet .stream] =
      s.atGeneration h (s.adapter.table.generation h + 1) journal := by
  let slots := s.adapter.table.slots
  let freed : SocketTable := ⟨slots.set h { slots.get h with record? := none }⟩
  let bus := s.adapter.bus.order (.close h)
  have hclose : s.adapter.close h = { s.adapter with table := freed, bus } := by
    rw [Adapter.close, Adapter.release, SocketTable.release, hs.fresh]
    show ({ s.adapter with table := freed, bus, rx := s.adapter.rx.leave h } : Adapter σ) = _
    rw [hs.apart]
  have hanswer := Bus.openSocket_eq (b := bus) hs.again
  have hfree : freed.isOpen h = false := by
    rw [SocketTable.isOpen, SocketTable.get?, Slots.get_set_self]
    rfl
  have hoccupied : freed.occupy h (.new .stream) =
      ⟨slots.set h { slots.get h with generation := (slots.get h).generation + 1 }⟩ := by
    have hrecord : (slots.get h).record? = some (.new .stream) := hs.fresh
    rw [SocketTable.occupy, SocketTable.generation, Slots.get_set_self, Slots.set_set, ← hrecord]
  have hcreate : (s.adapter.close h).create .inet .stream = (.ok h,
      ({ s.adapter with
        table := freed.occupy h (.new .stream)
        bus := (bus.openSocket .stream).2 } : Adapter σ).enter
          (.opened ((freed.occupy h (.new .stream)).incarnation h))) := by
    rw [hclose]
    unfold Adapter.create SocketKind.of? SocketTable.allocate
    dsimp only
    rw [hanswer]
    dsimp only
    rw [hfree]
    rfl
  refine ⟨(bus.openSocket .stream).2.journal ++
    [.opened ((freed.occupy h (.new .stream)).incarnation h)], ?_⟩
  show ({ s with adapter := ((s.adapter.close h).create .inet .stream).2 } : Session σ) = _
  rw [hcreate, hoccupied, hanswer]
  rfl

/-- After so many openings the generation is so much higher, and otherwise nothing has changed. -/
theorem Recurs.run_reopenings (hs : s.Recurs h) (n : Nat) : ∃ journal,
    s.run (reopenings h n) =
      s.atGeneration h (s.adapter.table.generation h + UInt32.ofNat n) journal := by
  induction n generalizing s with
  | zero =>
    refine ⟨s.adapter.bus.journal, ?_⟩
    rw [show UInt32.ofNat 0 = 0 from rfl, UInt32.add_zero, atGeneration_self]
    rfl
  | succ n ih =>
    obtain ⟨journal, hfirst⟩ := hs.reopened
    obtain ⟨journal', hrest⟩ := ih (hs.kept (s.adapter.table.generation h + 1) journal)
    refine ⟨journal', ?_⟩
    show (s.run [.close h, .create .inet .stream]).run (reopenings h n) = _
    rw [hfirst, hrest, atGeneration_atGeneration, SocketTable.generation, slot_atGeneration,
      UInt32.add_assoc, ← UInt32.ofNat_one, ← UInt32.ofNat_add, Nat.add_comm 1]

/-- A slot can be opened until the generation of the occupant before comes back. -/
theorem Recurs.comes_back {before : List (Action σ)} (hs : (s.run before).Recurs h) {g : UInt32}
    (hg : (s.run before).adapter.table.generation h = g + 1) : ∃ rounds journal,
    s.run (before ++ rounds) = (s.run before).atGeneration h g journal := by
  obtain ⟨journal, hrun⟩ := hs.run_reopenings (UInt32.size - 1)
  have hround : (1 : UInt32) + UInt32.ofNat (UInt32.size - 1) = 0 := by decide
  refine ⟨reopenings h (UInt32.size - 1), journal, ?_⟩
  rw [run_append, hrun, hg, UInt32.add_assoc, hround, UInt32.add_zero]

end Session

end WifiAdapter
