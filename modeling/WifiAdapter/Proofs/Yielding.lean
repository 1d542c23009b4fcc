import WifiAdapter.Proofs.Lineage
import WifiAdapter.Proofs.Working

/-! Workers that yield.

The clock makes a worker tick only if its wait was looked at before. A worker that is parked has
looked at its wait (`Session.yielded_run`), whether it found the adapter free or busy. -/
namespace WifiAdapter

namespace Task
variable {σ : Type} {t : Task} {now : Nat} {a : Adapter σ}

/-- A worker that waits has looked at its wait. -/
def Yielded (t : Task) : Prop := ∀ nextTick, t ≠ .work (.waiting nextTick false)

theorem yielded_ofCall {outcome : Call.Outcome} (h : ofCall outcome = .waiting t) : t.Yielded := by
  cases outcome with
  | finished result => cases h
  | waiting c =>
    cases h
    exact nofun

theorem yielded_of_pollPost {note : Notification} (h : (pollPost note a).1 = .waiting t) :
    t.Yielded := by
  unfold pollPost at h
  split at h
  · cases h
  · cases h
    exact nofun

theorem yielded_of_pollEvent (h : (pollEvent a).1 = .waiting t) : t.Yielded := by
  unfold pollEvent at h
  split at h
  · cases h
  · cases h
    exact nofun

theorem yielded_of_poll [Chip σ] {old : Task} (h : (old.poll now a).1 = .waiting t) : t.Yielded := by
  cases old with
  | call c => exact yielded_ofCall h
  | post note => exact yielded_of_pollPost h
  | nextEvent => exact yielded_of_pollEvent h
  | work w =>
    cases h
    obtain ⟨next, hwaits⟩ := w.exists_waiting_of_round now a
    rw [← w.poll_eq_round] at hwaits
    exact fun nextTick heq => nomatch hwaits.symm.trans (Task.work.inj heq)

theorem yielded_of_contend {old : Task} (h : (old.contend now a).1 = .waiting t) : t.Yielded := by
  cases old with
  | call c =>
    cases h
    exact nofun
  | post note => exact yielded_of_pollPost h
  | nextEvent => exact yielded_of_pollEvent h
  | work w =>
    cases h
    exact fun nextTick heq => w.contend_ne_waiting now a nextTick (Task.work.inj heq)

end Task

namespace Session
variable {σ : Type} [Chip σ] {s : Session σ}

/-- Every task that is parked has yielded. -/
def Yielded (s : Session σ) : Prop := ∀ id t, s.find? id = some t → t.Yielded

omit [Chip σ] in
theorem yielded_begin {f : Nat → Adapter σ → Task.Outcome × Adapter σ} (hs : s.Yielded)
    (hf : ∀ t, (f s.clock s.adapter).1 = .waiting t → t.Yielded) :
    (Reply.ofBegun (s.begin f)).2.Yielded := by
  intro id t h
  rw [Reply.ofBegun_snd] at h
  rcases find?_begin h with h | ⟨-, -, h⟩
  · exact hs id t h
  · exact hf t (congrArg Prod.fst h)

omit [Chip σ] in
theorem yielded_pollWith {f : Task → Nat → Adapter σ → Task.Outcome × Adapter σ} {k : Nat}
    (hs : s.Yielded) (hf : ∀ old t, (f old s.clock s.adapter).1 = .waiting t → t.Yielded) :
    (Reply.ofPolled (s.pollWith f k)).2.Yielded := by
  intro id t h
  rw [Reply.ofPolled_snd] at h
  rcases find?_pollWith h with ⟨h, -⟩ | ⟨rfl, old, -, h⟩
  · exact hs id t h
  · exact hf old t (congrArg Prod.fst h)

theorem yielded_perform (hs : s.Yielded) (action : Action σ) : (s.perform action).2.Yielded := by
  cases action with
  | bind | listen => exact yielded_begin hs fun t h => Task.yielded_ofCall h
  | post note => exact yielded_begin hs fun t h => Task.yielded_of_pollPost h
  | nextEvent => exact yielded_begin hs fun t h => Task.yielded_of_pollEvent h
  | work => exact yielded_begin hs fun t h => Task.yielded_of_poll h
  | poll k => exact yielded_pollWith hs fun old t h => Task.yielded_of_poll h
  | contend k => exact yielded_pollWith hs fun old t h => Task.yielded_of_contend h
  | cancel k =>
    intro id t h
    change (s.remove k).find? id = some t at h
    rw [find?_remove] at h
    split at h
    · cases h
    · exact hs id t h
  | receive k =>
    show (s.receive k).2.Yielded
    unfold receive
    split <;> exact hs
  | drop place =>
    show (s.drop place).2.Yielded
    unfold drop
    split <;> exact hs
  | _ => exact hs

theorem yielded_run (hs : s.Yielded) (actions : List (Action σ)) : (s.run actions).Yielded := by
  induction actions generalizing s with
  | nil => exact hs
  | cons action rest ih => exact ih (yielded_perform hs action)

end Session

end WifiAdapter
