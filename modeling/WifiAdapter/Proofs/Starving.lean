import WifiAdapter.Proofs.FlowControl
import WifiAdapter.Proofs.Visits
import WifiAdapter.Proofs.Yielding

/-! A tick that is put off.

The time of the next tick outlives the notifications that a worker handles, but the look at the
clock does not: a wait begins afresh after every notification, and a fresh wait has to be looked at
once before it notices the time. So a poll of a parked worker ticks just if there is a kick, or
there is nothing to handle and the tick is due (`Worker.pollTicks_waiting`), and a poll that
handles something leaves the worker parked with the same tick still due.

`put_off_iff`: a tick that is due is put off by every poll that finds a notification and no kick,
for as long as the polls do. -/
namespace WifiAdapter

/-! ### One poll -/

/-- There are notifications to handle and no kick: a worker that is polled does not tick. -/
def Adapter.Busy {σ : Type} (a : Adapter σ) : Prop :=
  a.notifications.items ≠ [] ∧ a.kicked = false

namespace Worker
variable {σ : Type} [Chip σ] {now nextTick : Nat} {looked : Bool} {a : Adapter σ}

/-- A poll of a wait that was looked at ticks at most once. -/
theorem pollTicks_waiting (now nextTick : Nat) (a : Adapter σ) :
    pollTicks (.waiting nextTick true) now a =
      if a.kicked = true ∨ a.notifications.items = [] ∧ nextTick ≤ now then
        [(round (.waiting nextTick true) now a).2]
      else [] := by
  have hdue : (Worker.waiting nextTick true).due now ↔ nextTick ≤ now := and_iff_right rfl
  refine (serves_round (.waiting nextTick true) now a (Nat.le_refl _)).ticks.trans ?_
  show sweepTicks (.waiting nextTick true) now a = _
  simp only [sweepTicks, hdue]
  rfl

/-- A poll that finds a notification and no kick leaves the time of the next tick. -/
theorem poll_of_busy (hbusy : a.Busy) : (poll (.waiting nextTick looked) now a).1 =
    .waiting nextTick true := by
  rw [poll_eq_round]
  show (sweep (.waiting nextTick looked) now a).1 = _
  unfold sweep
  dsimp only
  rw [if_neg (by simp [hbusy.2]), if_neg (fun h => hbusy.1 h.1)]
  rfl

end Worker

/-! ### Workers that are parked -/

/-- Polls a task, or drops it. -/
def Action.Tends {σ : Type} (id : Nat) : Action σ → Prop
  | .poll k | .contend k | .cancel k => k = id
  | _ => False

namespace Session
variable {σ : Type} [Chip σ] {s : Session σ} {id nextTick : Nat} {t : Task} {action : Action σ}

omit [Chip σ] in
theorem find?_begin_of_find? (f : Nat → Adapter σ → Task.Outcome × Adapter σ)
    (h : s.find? id = some t) : (s.begin f).2.find? id = some t := by
  unfold begin
  split
  · exact h
  · next task adapter _ =>
    show (({ s with adapter } : Session σ).park task).2.find? id = some t
    rw [find?_park, show ({ s with adapter } : Session σ).find? id = some t from h]
    rfl

omit [Chip σ] in
theorem find?_pollWith_of_find? {k : Nat} (f : Task → Nat → Adapter σ → Task.Outcome × Adapter σ)
    (hk : id ≠ k) (h : s.find? id = some t) : (s.pollWith f k).2.find? id = some t := by
  unfold pollWith
  split
  · exact h
  · split
    · next adapter _ =>
      show (({ s with adapter } : Session σ).remove k).find? id = some t
      rw [find?_remove, if_neg hk]
      exact h
    · next task adapter _ =>
      show (({ s with adapter } : Session σ).replace k task).find? id = some t
      rw [find?_replace, show ({ s with adapter } : Session σ).find? id = some t from h,
        Option.map_some, if_neg hk]

/-- A parked task stays as it is until it is polled or dropped. -/
theorem find?_perform_of_find? (hapart : ¬ action.Tends id) (h : s.find? id = some t) :
    (s.perform action).2.find? id = some t := by
  cases action with
  | bind | listen | post | nextEvent | work =>
    show (Reply.ofBegun (s.begin _)).2.find? id = some t
    rw [Reply.ofBegun_snd]
    exact find?_begin_of_find? _ h
  | poll k =>
    show (Reply.ofPolled (s.poll k)).2.find? id = some t
    rw [Reply.ofPolled_snd]
    exact find?_pollWith_of_find? _ (fun heq => hapart heq.symm) h
  | contend k =>
    show (Reply.ofPolled (s.contend k)).2.find? id = some t
    rw [Reply.ofPolled_snd]
    exact find?_pollWith_of_find? _ (fun heq => hapart heq.symm) h
  | cancel k =>
    exact (find?_remove s k id).trans ((if_neg fun heq => hapart heq.symm).trans h)
  | receive k =>
    show (s.receive k).2.find? id = some t
    unfold receive
    split <;> exact h
  | drop place =>
    show (s.drop place).2.find? id = some t
    unfold drop
    split <;> exact h
  | _ => exact h

/-! ### Poll after poll -/

theorem find?_run_of_find? {actions : List (Action σ)} (hapart : ∀ action ∈ actions, ¬ action.Tends id)
    (h : s.find? id = some t) : (s.run actions).find? id = some t := by
  induction actions generalizing s with
  | nil => exact h
  | cons action rest ih =>
    obtain ⟨hfirst, hrest⟩ := List.forall_mem_cons.mp hapart
    exact ih hrest (find?_perform_of_find? hfirst h)

theorem clock_run (s : Session σ) (actions : List (Action σ)) : s.clock ≤ (s.run actions).clock := by
  induction actions generalizing s with
  | nil => exact Nat.le_refl _
  | cons action rest ih => exact Nat.le_trans (clock_perform s action) (ih _)

/-- What happens when a task is polled again and again, after each batch of actions once. -/
def polls (id : Nat) : List (List (Action σ)) → List (Action σ)
  | [] => []
  | batch :: rest => batch ++ .poll id :: polls id rest

/-- Something holds at every one of these polls, just before it. -/
def AtPolls (id : Nat) (p : Session σ → Prop) : Session σ → List (List (Action σ)) → Prop
  | _, [] => True
  | s, batch :: rest =>
    p (s.run batch) ∧ AtPolls id p ((s.run batch).perform (.poll id)).2 rest

section Due
variable (hparked : s.find? id = some (.work (.waiting nextTick true)))
include hparked

/-- A poll of a worker whose tick is due ticks unless there are notifications and no kick. -/
theorem ticks_eq_nil_iff (hdue : nextTick ≤ s.clock) :
    s.ticks (.poll id) = [] ↔ s.adapter.Busy := by
  have hticks : s.ticks (.poll id) =
      (Worker.waiting nextTick true).pollTicks s.clock s.adapter := by
    rw [ticks, hparked]
    rfl
  rw [hticks, Worker.pollTicks_waiting]
  unfold Adapter.Busy
  simp [hdue, and_comm]

theorem find?_poll_of_busy (hbusy : s.adapter.Busy) :
    (s.perform (.poll id)).2.find? id = some (.work (.waiting nextTick true)) := by
  show (Reply.ofPolled (s.poll id)).2.find? id = _
  rw [Reply.ofPolled_snd]
  unfold poll pollWith
  rw [hparked]
  dsimp only [Task.poll]
  rw [find?_replace]
  show (s.find? id).map _ = _
  rw [hparked, Worker.poll_of_busy hbusy]
  simp

/-- The polls that find notifications and no kick leave the worker as it is. -/
theorem put_off (hdue : nextTick ≤ s.clock) {batches : List (List (Action σ))}
    (hapart : ∀ batch ∈ batches, ∀ action ∈ batch, ¬ action.Tends id) :
    (AtPolls id (fun u => u.ticks (.poll id) = []) s batches ↔
      AtPolls id (fun u => u.adapter.Busy) s batches) ∧
    (AtPolls id (fun u => u.adapter.Busy) s batches →
      (s.run (polls id batches)).find? id = some (.work (.waiting nextTick true))) := by
  induction batches generalizing s with
  | nil => exact ⟨.rfl, fun _ => hparked⟩
  | cons batch rest ih =>
    obtain ⟨hfirst, hrest⟩ := List.forall_mem_cons.mp hapart
    have hthen : (s.run batch).find? id = some (.work (.waiting nextTick true)) :=
      find?_run_of_find? hfirst hparked
    have hlate : nextTick ≤ (s.run batch).clock := Nat.le_trans hdue (clock_run s batch)
    have hafter (hbusy : (s.run batch).adapter.Busy) :=
      ih (find?_poll_of_busy hthen hbusy) (Nat.le_trans hlate (clock_perform _ _)) hrest
    have hfirst := ticks_eq_nil_iff hthen hlate
    refine ⟨⟨fun ⟨hquiet, hquiets⟩ => ?_, fun ⟨hbusy, hbusies⟩ => ?_⟩, fun ⟨hbusy, hbusies⟩ => ?_⟩
    · have hbusy := hfirst.mp hquiet
      exact ⟨hbusy, (hafter hbusy).1.mp hquiets⟩
    · exact ⟨hfirst.mpr hbusy, (hafter hbusy).1.mpr hbusies⟩
    · rw [polls, run_append]
      exact (hafter hbusy).2 hbusies

end Due

/-- The tick of a parked worker is due, and the worker is polled any number of times, with a batch
of actions before each poll that leave the worker alone. None of these polls ticks just if each of
them finds a notification and no kick; and then the worker is parked afterwards as it was before,
its tick still due. -/
theorem put_off_iff (chip : σ) (packets : Nat) (config : Config) (actions : List (Action σ))
    {looked : Bool}
    (hparked : ((new chip packets config).run actions).find? id =
      some (.work (.waiting nextTick looked)))
    (hdue : nextTick ≤ ((new chip packets config).run actions).clock)
    (batches : List (List (Action σ)))
    (hapart : ∀ batch ∈ batches, ∀ action ∈ batch, ¬ action.Tends id) :
    let s := (new chip packets config).run actions
    looked = true ∧
    (AtPolls id (fun u => u.ticks (.poll id) = []) s batches ↔
      AtPolls id (fun u => u.adapter.Busy) s batches) ∧
    (AtPolls id (fun u => u.adapter.Busy) s batches →
      (s.run (polls id batches)).find? id = s.find? id) := by
  have hnew : (new chip packets config).Yielded := nofun
  have hlooked : looked = true := by
    cases looked with
    | true => rfl
    | false => exact absurd rfl (yielded_run hnew actions id _ hparked nextTick)
  subst hlooked
  obtain ⟨hiff, hkept⟩ := put_off hparked hdue hapart
  exact ⟨rfl, hiff, fun hbusy => (hkept hbusy).trans hparked.symm⟩

/-- One notification before the first poll and none before the second: one of the two ticks. -/
theorem put_off_once :
    let s := (new ScriptedChip.new 4 .defaults).run [.work, .advance 100]
    let batches := [[.notify (.socket 0 (.bound .success))], []]
    s.find? 0 = some (.work (.waiting 100 true)) ∧ 100 ≤ s.clock ∧
      (∀ batch ∈ batches, ∀ action ∈ batch, ¬ action.Tends 0) ∧
      ¬ AtPolls 0 (fun u => u.ticks (.poll 0) = []) s batches := by
  intro s batches
  have hparked : s.find? 0 = some (.work (.waiting 100 true)) := by decide
  have hdue : 100 ≤ s.clock := by decide
  have hapart : ∀ batch ∈ batches, ∀ action ∈ batch, ¬ action.Tends 0 := by
    simp [batches, Action.Tends]
  refine ⟨hparked, hdue, hapart, fun hquiet => ?_⟩
  have hbusy := (put_off_iff ScriptedChip.new 4 .defaults [.work, .advance 100] hparked hdue
    batches hapart).2.1.mp hquiet
  exact absurd hbusy.2.1.1 (by decide)

/-- One notification before each of the two polls: neither ticks, and the tick that was due stays
due. -/
theorem put_off_twice :
    ¬ ∀ (actions first second : List (Action ScriptedChip)) (id nextTick : Nat) (looked : Bool),
      let s := (new ScriptedChip.new 4 .defaults).run actions
      let u := s.run first
      let v := (u.perform (.poll id)).2.run second
      s.find? id = some (.work (.waiting nextTick looked)) → nextTick ≤ s.clock →
      (∀ action ∈ first ++ second, ∃ note, action = .notify note) →
      u.ticks (.poll id) ++ v.ticks (.poll id) ≠ [] := by
  intro hnever
  let note : Action ScriptedChip := .notify (.socket 0 (.bound .success))
  refine hnever [.work, .advance 100] [note] [note] 0 100 true (by decide) (by decide) ?_ ?_
  · rintro action h
    exact ⟨_, by simpa [note] using h⟩
  · exact List.append_eq_nil_iff.mpr ⟨List.eq_nil_of_length_eq_zero (by decide),
      List.eq_nil_of_length_eq_zero (by decide)⟩

end Session

end WifiAdapter
