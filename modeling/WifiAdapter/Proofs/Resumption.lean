import WifiAdapter.Proofs.Runs
import WifiAdapter.ScriptedChip

/-! A caller that comes back after its slot was closed and taken into use again.

The cell for completions belongs to the slot, not to its occupant, and a caller that
comes back looks into it before it looks at the generation and takes back what it began
after that. What it leaves of the new occupant is said here exactly
(`Session.poll_stale_iff`): it robs the occupant's own caller of a posted completion, and
it moves the occupant out of a pending phase of its own kind. -/
namespace WifiAdapter

namespace Call
variable {σ : Type}

/-- The next poll of a call finishes it. -/
def Due (c : Call) (now : Nat) (a : Adapter σ) : Prop :=
  c.seen?.isSome = true ∨ (a.completions.get c.socket.handle).isSome = true ∨ c.deadline ≤ now

instance (c : Call) (now : Nat) (a : Adapter σ) : Decidable (c.Due now a) :=
  inferInstanceAs (Decidable (_ ∨ _ ∨ _))

section Stale
variable {c : Call} {a : Adapter σ} {p : Purpose} (hp : c.purpose? = some p)
  (hstale : a.table.isCurrent c.socket = false)
include hp hstale

/-- A caller whose socket is gone takes away what is posted and takes back what it began. -/
theorem finishCall_stale (outcome : Option Status) :
    a.finishCall c outcome =
      (.error .connectionAborted, (a.disarm c.socket.handle).revert c.socket.handle p) := by
  unfold Adapter.finishCall
  simp only [hstale]
  unfold Adapter.settleCall
  rw [hp]
  rfl

theorem conclude_stale (hseen : c.seen?.isSome = true) :
    c.conclude a = (.finished (.error .connectionAborted),
      (a.disarm c.socket.handle).revert c.socket.handle p) := by
  obtain ⟨outcome, hs⟩ := Option.isSome_iff_exists.mp hseen
  rw [conclude_seen hs, finishCall_stale hp hstale]

/-- The polls of a caller whose socket is gone: nothing is posted afterwards, and if the
call finishes, it is aborted and what it began is taken back from whoever is there. -/
theorem poll_stale (now : Nat) :
    (c.poll now a).2.completions.get c.socket.handle = none ∧
      (c.poll now a).1 =
        (if c.Due now a then .finished (.error .connectionAborted) else .waiting c) ∧
      (c.poll now a).2.table =
        if c.Due now a then a.table.modify c.socket.handle (·.apply (p.done false)) else a.table := by
  -- Every call that has seen an outcome ends in the same way, whatever it saw.
  have hfinish {c' : Call} {b : Adapter σ} (hsocket : c'.socket = c.socket)
      (hpurpose : c'.purpose? = c.purpose?) (htable : b.table = a.table)
      (hseen : c'.seen?.isSome = true) :
      (c'.conclude b).2.completions.get c.socket.handle = none ∧
        (c'.conclude b).1 = .finished (.error .connectionAborted) ∧
        (c'.conclude b).2.table = a.table.modify c.socket.handle (·.apply (p.done false)) := by
    rw [conclude_stale (hpurpose.trans hp) (by rw [htable, hsocket]; exact hstale) hseen, hsocket]
    refine ⟨Slots.get_set_self .., rfl, ?_⟩
    rw [← htable]
    rfl
  rw [poll_eq]
  cases hseen : c.seen? with
  | some outcome =>
    have hsome : c.seen?.isSome = true := by rw [hseen]; rfl
    rw [look_seen now hsome, if_pos (.inl hsome), if_pos (.inl hsome)]
    exact hfinish rfl rfl rfl hsome
  | none =>
    cases hposted : a.completions.get c.socket.handle with
    | some status =>
      have hdue : c.Due now a := .inr (.inl (by rw [hposted]; rfl))
      rw [look_posted now hseen hposted, if_pos hdue, if_pos hdue]
      exact hfinish rfl rfl rfl rfl
    | none =>
      rw [look_none now hseen hposted]
      by_cases hclock : c.deadline ≤ now
      · have hdue : c.Due now a := .inr (.inr hclock)
        rw [if_pos hclock, if_pos hdue, if_pos hdue]
        exact hfinish rfl rfl rfl rfl
      · have hdue : ¬ c.Due now a := by
          simp [Due, hseen, hposted, hclock]
        rw [if_neg hclock, if_neg hdue, if_neg hdue]
        rw [conclude_unseen hseen]
        exact ⟨hposted, rfl, rfl⟩

end Stale

end Call

namespace Session
variable {σ : Type}

/-- Some caller is parked on the present occupant of a slot. -/
def Attended (s : Session σ) (h : Handle) : Prop :=
  ∃ p ∈ s.tasks, ∃ c, p.task = .call c ∧ c.socket = s.adapter.table.incarnation h

/-- The occupant of a slot is as it was: its phase, its mark, and whatever is posted for
its own caller. -/
structure Undisturbed (s s' : Session σ) (h : Handle) : Prop where
  phase : (s'.adapter.table.get? h).map (·.phase) = (s.adapter.table.get? h).map (·.phase)
  waiting : (s'.adapter.table.get? h).map (·.waiting) = (s.adapter.table.get? h).map (·.waiting)
  completion : s.Attended h → s'.adapter.completions.get h = s.adapter.completions.get h

section Stale
variable [Chip σ] {s : Session σ} {id : Nat} {c : Call} {p : Purpose} {r : SocketRecord}
  (hc : s.find? id = some (.call c)) (hp : c.purpose? = some p)
  (hr : s.adapter.table.get? c.socket.handle = some r)
  (hstale : s.adapter.table.isCurrent c.socket = false)
include hc

omit [Chip σ] in
theorem contend_stale_iff :
    s.Undisturbed (s.contend id).2 c.socket.handle ↔
      (s.Attended c.socket.handle →
        c.seen?.isSome = true ∨ s.adapter.completions.get c.socket.handle = none) := by
  have hadapter : (s.contend id).2.adapter = (c.look s.clock s.adapter).2 := by
    rw [contend, adapter_pollWith, hc]
    rfl
  have hsame (heq : (c.look s.clock s.adapter).2 = s.adapter) :
      s.Undisturbed (s.contend id).2 c.socket.handle := by
    rw [heq] at hadapter
    exact ⟨by rw [hadapter], by rw [hadapter], fun _ => by rw [hadapter]⟩
  cases hseen : c.seen? with
  | some outcome =>
    have hsome : c.seen?.isSome = true := by rw [hseen]; rfl
    exact ⟨fun _ _ => .inl rfl, fun _ => hsame (by rw [Call.look_seen s.clock hsome])⟩
  | none =>
    cases hposted : s.adapter.completions.get c.socket.handle with
    | none => exact ⟨fun _ _ => .inr rfl, fun _ => hsame (by rw [Call.look_none s.clock hseen hposted])⟩
    | some status =>
      rw [Call.look_posted s.clock hseen hposted] at hadapter
      have htaken : (s.contend id).2.adapter.completions.get c.socket.handle = none := by
        rw [hadapter]
        exact Slots.get_set_self ..
      constructor
      · intro h hattended
        have hkept := h.completion hattended
        rw [htaken, hposted] at hkept
        cases hkept
      · intro hnone
        refine ⟨by rw [hadapter]; rfl, by rw [hadapter]; rfl, fun hattended => ?_⟩
        rcases hnone hattended with h | h
        · cases h
        · cases h

include hp hr hstale

theorem poll_stale_iff :
    s.Undisturbed (s.poll id).2 c.socket.handle ↔
      (s.Attended c.socket.handle → s.adapter.completions.get c.socket.handle = none) ∧
        (c.Due s.clock s.adapter → r.phase.step? (p.done false) = none) := by
  have hadapter : (s.poll id).2.adapter = (c.poll s.clock s.adapter).2 := by
    rw [poll, adapter_pollWith, hc]
    rfl
  obtain ⟨hposted, _, htable⟩ := Call.poll_stale hp hstale s.clock
  rw [← hadapter] at hposted htable
  have hget : (s.poll id).2.adapter.table.get? c.socket.handle =
      some (if c.Due s.clock s.adapter then r.apply (p.done false) else r) := by
    rw [htable]
    split
    · exact SocketTable.get?_modify_self hr
    · exact hr
  constructor
  · intro h
    refine ⟨fun hattended => (h.completion hattended).symm.trans hposted, fun hdue => ?_⟩
    have hphase := h.phase
    rw [hget, hr, if_pos hdue] at hphase
    exact (Phase.apply_done_false_iff r.phase p).mp (Option.some.inj hphase)
  · rintro ⟨hnone, hsettled⟩
    refine ⟨?_, ?_, fun hattended => hposted.trans (hnone hattended).symm⟩
    · rw [hget, hr]
      split
      · next hdue =>
        exact congrArg some ((Phase.apply_done_false_iff r.phase p).mpr (hsettled hdue))
      · rfl
    · rw [hget, hr]
      split <;> rfl

/-- A caller whose slot was closed and taken into use again leaves the new occupant
undisturbed just if nothing is posted for the occupant's own caller and the occupant is
not itself in the phase that the caller takes back. While the adapter is busy the caller
only looks, and then only what is posted is in danger. -/
theorem resumed_undisturbed_iff :
    (s.Undisturbed (s.poll id).2 c.socket.handle ↔
      (s.Attended c.socket.handle → s.adapter.completions.get c.socket.handle = none) ∧
        (c.Due s.clock s.adapter → r.phase.step? (p.done false) = none)) ∧
    (s.Undisturbed (s.contend id).2 c.socket.handle ↔
      (s.Attended c.socket.handle →
        c.seen?.isSome = true ∨ s.adapter.completions.get c.socket.handle = none)) :=
  ⟨poll_stale_iff hc hp hr hstale, contend_stale_iff hc⟩

end Stale

/-- The completion of the second occupant is posted, and the first caller takes it. -/
theorem resumed_robs_caller :
    let s := (new ScriptedChip.new 4 .defaults).run
      [.create .inet .stream, .bind 0 (.v4 ⟨⟨10, 0, 0, 1⟩, 80⟩), .close 0,
        .create .inet .stream, .bind 0 (.v4 ⟨⟨10, 0, 0, 1⟩, 80⟩),
        .dispatch (.socket 0 (.bound .success))]
    s.find? 0 = some (.call ⟨some .bind, ⟨0, 1⟩, 1000, none⟩) ∧
      s.adapter.table.isCurrent ⟨0, 1⟩ = false ∧ s.Attended 0 ∧
      ¬ s.Undisturbed (s.poll 0).2 0 ∧ ¬ s.Undisturbed (s.contend 0).2 0 := by
  have hattended : ((new ScriptedChip.new 4 .defaults).run
      [.create .inet .stream, .bind 0 (.v4 ⟨⟨10, 0, 0, 1⟩, 80⟩), .close 0,
        .create .inet .stream, .bind 0 (.v4 ⟨⟨10, 0, 0, 1⟩, 80⟩),
        .dispatch (.socket 0 (.bound .success))]).Attended 0 :=
    ⟨⟨1, .call ⟨some .bind, ⟨0, 2⟩, 1000, none⟩⟩, by decide, _, rfl, rfl⟩
  refine ⟨rfl, by decide, hattended, fun h => ?_, fun h => ?_⟩
  · have hnone := ((resumed_undisturbed_iff (c := ⟨some .bind, ⟨0, 1⟩, 1000, none⟩) rfl rfl rfl
      (by decide)).1.mp h).1 hattended
    exact absurd hnone (by decide)
  · have hnone := (resumed_undisturbed_iff (c := ⟨some .bind, ⟨0, 1⟩, 1000, none⟩) rfl rfl rfl
      (by decide)).2.mp h hattended
    exact absurd hnone (by decide)

/-- The first caller's time runs out while the second occupant of its slot is binding: the
occupant falls back to `unbound`. -/
theorem resumed_disturbs_binding :
    let s := (new ScriptedChip.new 4 .defaults).run
      [.create .inet .stream, .bind 0 (.v4 ⟨⟨10, 0, 0, 1⟩, 80⟩), .close 0,
        .create .inet .stream, .advance 500, .bind 0 (.v4 ⟨⟨10, 0, 0, 1⟩, 80⟩), .advance 500]
    s.find? 0 = some (.call ⟨some .bind, ⟨0, 1⟩, 1000, none⟩) ∧
      s.adapter.table.isCurrent ⟨0, 1⟩ = false ∧
      (s.adapter.table.get? 0).map (·.phase) = some .binding ∧
      ((s.poll 0).2.adapter.table.get? 0).map (·.phase) = some .unbound ∧
      ¬ s.Undisturbed (s.poll 0).2 0 :=
  ⟨rfl, by decide, by decide, by decide, fun h => absurd h.phase (by decide)⟩

end Session

end WifiAdapter
