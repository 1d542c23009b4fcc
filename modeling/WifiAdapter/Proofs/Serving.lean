import WifiAdapter.Proofs.Apart
import WifiAdapter.Proofs.Yielding

/-! What the workers serve.

A worker takes notifications from the queue and handles them. Between the two it holds one in hand
while the adapter is busy, and what it holds is lost if the worker is dropped then. So there are two
accounts along every history. The notifications that were accepted are those that were taken,
followed by those that wait (`Session.queues_run`). And each worker has handled what it took, up to
what it holds or has lost (`Session.attended_run`). `Session.served_in_order` puts them together. -/
namespace WifiAdapter

namespace Task
variable {σ : Type}

/-- What a task contributes that is a worker. -/
@[simp] def ofWorker {α : Type} (f : Worker → List α) : Task → List α
  | .work w => f w
  | _ => []

/-- The notification that a task has in hand. -/
def hand (t : Task) : List Notification := t.ofWorker Worker.hand

/-- What is in hand after a look at a task. -/
def handAfter : Outcome → List Notification
  | .waiting t => t.hand
  | .finished _ => []

theorem handAfter_ofCall (outcome : Call.Outcome) : handAfter (ofCall outcome) = [] := by
  cases outcome <;> rfl

theorem handAfter_pollPost (note : Notification) (a : Adapter σ) :
    handAfter (pollPost note a).1 = [] := by
  unfold pollPost
  split <;> rfl

theorem handAfter_pollEvent (a : Adapter σ) : handAfter (pollEvent a).1 = [] := by
  unfold pollEvent
  split <;> rfl

/-- A worker that is polled handles what it has in hand and what it takes. -/
theorem attended_poll [Chip σ] (t : Task) (now : Nat) (a : Adapter σ) :
    t.hand ++ t.ofWorker (fun w => w.pollTaken now a) =
      t.ofWorker (fun w => w.pollHandled now a) ++ handAfter (t.poll now a).1 := by
  cases t with
  | call c => exact (handAfter_ofCall _).symm
  | post note => exact (handAfter_pollPost note a).symm
  | nextEvent => exact (handAfter_pollEvent a).symm
  | work w =>
    have hserves := w.serves_round now a (Nat.le_refl _)
    obtain ⟨nextTick, hwaits⟩ := w.exists_waiting_of_round now a
    have hafter : (w.poll now a).1.hand = [] := by
      rw [Worker.poll_eq_round, hwaits]
      rfl
    show w.hand ++ w.pollTaken now a = w.pollHandled now a ++ (w.poll now a).1.hand
    rw [hafter, List.append_nil, Worker.pollTaken, hserves.taken, Worker.pollHandled, hserves.handled]

/-- A worker that finds the adapter busy keeps what it takes in hand. -/
theorem attended_contend (t : Task) (now : Nat) (a : Adapter σ) :
    t.hand ++ t.ofWorker (fun w => w.turnTaken a) = handAfter (t.contend now a).1 := by
  cases t with
  | call c => rfl
  | post note => exact (handAfter_pollPost note a).symm
  | nextEvent => exact (handAfter_pollEvent a).symm
  | work w => exact (w.taken_contend now a).2.symm

/-- What has no room waits on. -/
theorem pollPost_cases (note : Notification) (a : Adapter σ) :
    (∃ queue, a.notifications.push? note = some queue ∧
      pollPost note a = (.finished .posted, a.requeue queue)) ∨
    pollPost note a = (.waiting (.post note), a) := by
  unfold pollPost Adapter.enqueue?
  cases hpush : a.notifications.push? note with
  | none => exact .inr rfl
  | some queue => exact .inl ⟨queue, rfl, rfl⟩

end Task

/-- A notification is taken in behind those that wait, or it is handed back and counted. -/
theorem Adapter.notify_cases {σ : Type} (note : Notification) (a : Adapter σ) :
    (∃ queue, a.notifications.push? note = some queue ∧
      a.notify note = (.ok (), a.requeue queue)) ∨
    a.notifications.push? note = none ∧
      a.notify note = (.error note, { a with overflowed := a.overflowed + 1 }) := by
  unfold notify Adapter.enqueue?
  cases hpush : a.notifications.push? note with
  | none => exact .inr ⟨rfl, rfl⟩
  | some queue => exact .inl ⟨queue, rfl, rfl⟩

/-- Whether a notification was accepted: `notify` had room for it, or a post is complete. -/
def Reply.accepts : Reply → Bool
  | .flag taken => taken
  | .finished .posted => true
  | _ => false

namespace Session
variable {σ : Type}

/-- The notification that an action offers to the queue. -/
def offer? (s : Session σ) : Action σ → Option Notification
  | .notify note | .post note => some note
  | .poll id | .contend id =>
    match s.find? id with
    | some (.post note) => some note
    | _ => none
  | _ => none

/-- What is handed back of the notifications that an action offers. -/
def refused (s : Session σ) : Action σ → List Notification
  | .notify note =>
    match (s.adapter.notify note).1 with
    | .ok () => []
    | .error back => [back]
  | _ => []

/-- What the parked worker of a number contributes, if there is one. -/
def share (s : Session σ) (id : Nat) (f : Worker → List Notification) : List (Nat × Notification) :=
  ((s.find? id).elim [] (Task.ofWorker f)).map (id, ·)

/-- What the task of a number has in hand. -/
def inHand (s : Session σ) (id : Nat) : List Notification := (s.find? id).elim [] Task.hand

/-- What is lost in an action: a worker is dropped that has it in hand. -/
def lost (s : Session σ) : Action σ → List (Nat × Notification)
  | .cancel id => s.share id Worker.hand
  | _ => []

variable [Chip σ]

/-- The notifications that an action has accepted. -/
def accepted (s : Session σ) (action : Action σ) : List Notification :=
  if (s.perform action).1.accepts then (s.offer? action).toList else []

/-- The notifications that a worker takes from the queue in an action, with its number. -/
def drawn (s : Session σ) : Action σ → List (Nat × Notification)
  | .work => (Worker.fresh.pollTaken s.clock s.adapter).map (s.nextTask, ·)
  | .poll id => s.share id fun w => w.pollTaken s.clock s.adapter
  | .contend id => s.share id fun w => w.turnTaken s.adapter
  | _ => []

/-- The notifications that a worker handles in an action, with its number. -/
def handled (s : Session σ) : Action σ → List (Nat × Notification)
  | .work => (Worker.fresh.pollHandled s.clock s.adapter).map (s.nextTask, ·)
  | .poll id => s.share id fun w => w.pollHandled s.clock s.adapter
  | _ => []

/-- What the actions of a history contribute, one after another. -/
def gather {α : Type} (f : Session σ → Action σ → List α) (s : Session σ) : List (Action σ) → List α
  | [] => []
  | action :: rest => f s action ++ gather f (s.perform action).2 rest

omit [Chip σ] in
/-- What the worker of a number contributes. -/
def part (id : Nat) (xs : List (Nat × Notification)) : List Notification :=
  (xs.filter (·.1 = id)).map (·.2)

/-! ### The queue -/

/-- What one action does to the queue of the workers. -/
structure Queues (s : Session σ) (action : Action σ) : Prop where
  conserved : s.adapter.notifications.items ++ s.accepted action =
    (s.drawn action).map (·.2) ++ (s.perform action).2.adapter.notifications.items
  counted : (s.perform action).2.adapter.overflowed =
    s.adapter.overflowed + UInt32.ofNat (s.refused action).length

section Queues
variable {s : Session σ} {action : Action σ}

/-- Nothing is offered, and the queue is left alone. -/
theorem Queues.of_same (haccepted : s.accepted action = []) (hdrawn : s.drawn action = [])
    (hrefused : s.refused action = [])
    (hsame : (s.perform action).2.adapter.notifications = s.adapter.notifications ∧
      (s.perform action).2.adapter.overflowed = s.adapter.overflowed) : s.Queues action where
  conserved := by rw [haccepted, hdrawn, hsame.1, List.append_nil, List.map_nil, List.nil_append]
  counted := by
    rw [hrefused, hsame.2]
    exact (UInt32.add_zero _).symm

/-- An offer is taken in, or it is put off. -/
theorem Queues.of_offer {note : Notification} (hoffer : s.offer? action = some note)
    (hdrawn : s.drawn action = []) (hrefused : s.refused action = [])
    (h : (s.perform action).1.accepts = true ∧
        (∃ queue, s.adapter.notifications.push? note = some queue ∧
          (s.perform action).2.adapter = s.adapter.requeue queue) ∨
      (s.perform action).1.accepts = false ∧ (s.perform action).2.adapter = s.adapter) :
    s.Queues action := by
  rcases h with ⟨haccepts, queue, hpush, hadapter⟩ | ⟨haccepts, hadapter⟩
  · have haccepted : s.accepted action = [note] := by rw [accepted, if_pos haccepts, hoffer]; rfl
    constructor
    · rw [haccepted, hdrawn, hadapter]
      exact (Queue.items_push? hpush).symm
    · rw [hrefused, hadapter]
      exact (UInt32.add_zero _).symm
  · have haccepted : s.accepted action = [] := by
      rw [accepted, haccepts, if_neg Bool.false_ne_true]
    exact .of_same haccepted hdrawn hrefused (by rw [hadapter]; exact ⟨rfl, rfl⟩)

/-- What a worker takes is taken from the front. -/
theorem Queues.of_drawn {notes : List Notification} (haccepted : s.accepted action = [])
    (hdrawn : (s.drawn action).map (·.2) = notes) (hrefused : s.refused action = [])
    (hqueue : notes ++ (s.perform action).2.adapter.notifications.items =
      s.adapter.notifications.items)
    (hoverflowed : (s.perform action).2.adapter.overflowed = s.adapter.overflowed) :
    s.Queues action where
  conserved := by rw [haccepted, hdrawn, hqueue, List.append_nil]
  counted := by
    rw [hrefused, hoverflowed]
    exact (UInt32.add_zero _).symm

theorem queues_post (s : Session σ) (note : Notification) : s.Queues (.post note) := by
  have hperform : s.perform (.post note) =
    Reply.ofBegun (s.begin fun _ a => Task.pollPost note a) := rfl
  refine .of_offer rfl rfl rfl ?_
  rw [hperform, begin]
  rcases Task.pollPost_cases note s.adapter with ⟨queue, hpush, heq⟩ | heq
  · rw [heq]
    exact .inl ⟨rfl, queue, hpush, rfl⟩
  · rw [heq]
    exact .inr ⟨rfl, rfl⟩

theorem queues_notify (s : Session σ) (note : Notification) : s.Queues (.notify note) := by
  have hperform : s.perform (.notify note) =
    (.flag (s.adapter.notify note).1.isOk, { s with adapter := (s.adapter.notify note).2 }) := rfl
  rcases Adapter.notify_cases note s.adapter with ⟨queue, hpush, hnotify⟩ | ⟨-, hnotify⟩
  · refine .of_offer rfl rfl ?_ (.inl ⟨?_, queue, hpush, ?_⟩)
    · rw [refused, hnotify]
    · rw [hperform, hnotify]
      rfl
    · rw [hperform, hnotify]
  · constructor
    · rw [accepted, hperform, hnotify]
      exact List.append_nil _
    · rw [refused, hnotify, hperform, hnotify]
      rfl

/-- What is not done to the queue leaves it alone. -/
theorem queue_perform (hs : s.adapter.Steady) (hqueue : ¬ deeds action .queue) :
    (s.perform action).2.adapter.notifications = s.adapter.notifications ∧
      (s.perform action).2.adapter.overflowed = s.adapter.overflowed := by
  have hnotes (note : Notification) (d : Deed) (hd : d ∈ note.deed?) : d ≠ .queue := by
    rintro rfl
    exact Notification.incoming hd
  have hsteps : Adapter.Steps (· ≠ .queue) (s.site? action) s.adapter (s.perform action).2.adapter :=
    (passes_perform s action hs).steps_of (fun d hd heq => hqueue (heq ▸ hd)) hnotes nofun hs
  exact hsteps.queue_eq fun h => h rfl

/-- A task is polled, busy or not: a post offers, a worker takes from the front, and the others leave
the queue alone. -/
theorem queues_pollWith {f : Task → Nat → Adapter σ → Task.Outcome × Adapter σ}
    {taken : Worker → List Notification} {id : Nat} (hs : s.adapter.Steady)
    (hperform : s.perform action = Reply.ofPolled (s.pollWith f id))
    (hoffer : s.offer? action = s.offer? (.poll id)) (hdrawn : s.drawn action = s.share id taken)
    (hrefused : s.refused action = [])
    (hpost : ∀ note, f (.post note) s.clock s.adapter = Task.pollPost note s.adapter)
    (hwork : ∀ w,
      taken w ++ (f (.work w) s.clock s.adapter).2.notifications.items =
          s.adapter.notifications.items ∧
        (f (.work w) s.clock s.adapter).2.overflowed = s.adapter.overflowed)
    (hcall : ∀ c, Adapter.Yields (· = .take) (Task.call c).site? s.adapter
      (f (.call c) s.clock s.adapter).2)
    (hevent : Adapter.Yields (· = .take) none s.adapter (f .nextEvent s.clock s.adapter).2) :
    s.Queues action := by
  have hadapter : (s.perform action).2.adapter =
      ((s.find? id).map fun t => (f t s.clock s.adapter).2).getD s.adapter := by
    rw [hperform, adapter_ofPolled]
  have haccepted (hnone : s.offer? action = none) : s.accepted action = [] := by
    rw [accepted, hnone]
    exact ite_self _
  rw [share] at hdrawn
  rw [offer?] at hoffer
  cases hfind : s.find? id with
  | none =>
    rw [hfind] at hadapter hdrawn hoffer
    exact .of_same (haccepted hoffer) hdrawn hrefused (hadapter ▸ ⟨rfl, rfl⟩)
  | some t =>
    rw [hfind] at hadapter hdrawn hoffer
    cases t with
    | post note =>
      refine .of_offer hoffer hdrawn hrefused ?_
      rw [hperform, pollWith, hfind]
      dsimp only
      rw [hpost]
      rcases Task.pollPost_cases note s.adapter with ⟨queue, hpush, heq⟩ | heq
      · rw [heq]
        exact .inl ⟨rfl, queue, hpush, rfl⟩
      · rw [heq]
        exact .inr ⟨rfl, rfl⟩
    | work w =>
      have hmapped : (s.drawn action).map (·.2) = taken w := by
        rw [hdrawn]
        simp [Function.comp_def]
      obtain ⟨hqueue, hoverflowed⟩ := hwork w
      exact .of_drawn (haccepted hoffer) hmapped hrefused (hadapter ▸ hqueue) (hadapter ▸ hoverflowed)
    | call c =>
      exact .of_same (haccepted hoffer) hdrawn hrefused (hadapter ▸ (hcall c hs).queue_eq nofun)
    | nextEvent =>
      exact .of_same (haccepted hoffer) hdrawn hrefused (hadapter ▸ (hevent hs).queue_eq nofun)

theorem queues_poll (hs : s.adapter.Steady) (id : Nat) : s.Queues (.poll id) :=
  queues_pollWith hs rfl rfl rfl rfl (fun _ => rfl) (fun w => w.emptied_poll s.clock s.adapter)
    (fun c => c.yields_poll s.clock s.adapter)
    (Task.leads_pollEvent (D := (· = .take)) s.adapter rfl).yields

theorem queues_contend (hs : s.adapter.Steady) (id : Nat) : s.Queues (.contend id) :=
  queues_pollWith hs rfl rfl rfl rfl (fun _ => rfl)
    (fun w => ⟨(w.taken_contend s.clock s.adapter).1, w.overflowed_contend s.clock s.adapter⟩)
    (fun c => c.yields_look s.clock s.adapter)
    (Task.leads_pollEvent (D := (· = .take)) s.adapter rfl).yields

/-- A worker that sets to work takes all that waits. -/
theorem queues_work (s : Session σ) : s.Queues .work := by
  have hadapter : (s.perform .work).2.adapter = (Worker.fresh.poll s.clock s.adapter).2 :=
    adapter_ofBegun ..
  have hdrawn : (s.drawn .work).map (·.2) = Worker.fresh.pollTaken s.clock s.adapter := by
    simp [drawn, Function.comp_def]
  have haccepted : s.accepted .work = [] := by
    rw [accepted]
    exact ite_self _
  obtain ⟨hqueue, hoverflowed⟩ := Worker.fresh.emptied_poll s.clock s.adapter
  exact .of_drawn haccepted hdrawn rfl (hadapter ▸ hqueue) (hadapter ▸ hoverflowed)

/-- Every action keeps account of the queue. -/
theorem queues_perform (hs : s.adapter.Steady) (action : Action σ) : s.Queues action := by
  have hother {action : Action σ} (hoffer : s.offer? action = none) (hdrawn : s.drawn action = [])
      (hrefused : s.refused action = []) (hqueue : ¬ deeds action .queue) : s.Queues action :=
    .of_same (by rw [accepted, hoffer]; exact ite_self _) hdrawn hrefused (queue_perform hs hqueue)
  cases action with
  | notify note => exact queues_notify s note
  | post note => exact queues_post s note
  | work => exact queues_work s
  | poll id => exact queues_poll hs id
  | contend id => exact queues_contend hs id
  | send => exact hother rfl rfl rfl fun hd => hd.elim nofun nofun
  | create | close | connect | receive | drop | tick | start | stop | join | scan | takeEvent |
    nextEvent => exact hother rfl rfl rfl nofun
  | _ => exact hother rfl rfl rfl fun hd => hd

theorem queues_run (hs : s.adapter.Steady) (actions : List (Action σ)) :
    s.adapter.notifications.items ++ s.gather accepted actions =
        (s.gather drawn actions).map (·.2) ++ (s.run actions).adapter.notifications.items ∧
      (s.run actions).adapter.overflowed =
        s.adapter.overflowed + UInt32.ofNat (s.gather refused actions).length := by
  induction actions generalizing s with
  | nil => exact ⟨List.append_nil _, (UInt32.add_zero _).symm⟩
  | cons action rest ih =>
    have hqueues := queues_perform hs action
    obtain ⟨hconserved, hcounted⟩ := ih (steady_perform hs action)
    constructor
    · rw [gather, gather, ← List.append_assoc, hqueues.conserved, List.append_assoc, hconserved,
        List.map_append, List.append_assoc]
      rfl
    · rw [gather, List.length_append, UInt32.ofNat_add, ← UInt32.add_assoc, ← hqueues.counted]
      exact hcounted

end Queues

/-! ### The workers -/

section Workers
variable {s : Session σ} {action : Action σ} {id : Nat}

omit [Chip σ] in
theorem part_append (id : Nat) (xs ys : List (Nat × Notification)) :
    part id (xs ++ ys) = part id xs ++ part id ys := by
  rw [part, List.filter_append, List.map_append]
  rfl

omit [Chip σ] in
theorem part_map (id k : Nat) (notes : List Notification) :
    part id (notes.map (k, ·)) = if id = k then notes else [] := by
  unfold part
  rw [List.filter_map, List.map_map]
  by_cases hid : id = k
  · subst hid
    simp [Function.comp_def]
  · simp [Function.comp_def, hid, Ne.symm hid]

omit [Chip σ] in
/-- A worker contributes to its own part only. -/
theorem part_share (s : Session σ) (id k : Nat) (f : Worker → List Notification) :
    part id (s.share k f) = if id = k then (s.find? id).elim [] (Task.ofWorker f) else [] := by
  rw [share, part_map]
  by_cases hid : id = k
  · rw [if_pos hid, if_pos hid, hid]
  · rw [if_neg hid, if_neg hid]

omit [Chip σ] in
/-- What an operation has in hand that begins. -/
theorem inHand_begin (hs : s.Numbered) (f : Nat → Adapter σ → Task.Outcome × Adapter σ) (id : Nat) :
    (Reply.ofBegun (s.begin f)).2.inHand id =
      s.inHand id ++ if id = s.nextTask then Task.handAfter (f s.clock s.adapter).1 else [] := by
  rw [Reply.ofBegun_snd]
  unfold begin
  split
  · next result adapter heq =>
    rw [heq]
    show s.inHand id = _
    exact (List.append_nil _).symm.trans (congrArg _ (ite_self _).symm)
  · next task adapter heq =>
    rw [heq]
    show (({ s with adapter } : Session σ).park task).2.inHand id = _
    unfold inHand
    rw [find?_park]
    show ((s.find? id).or _).elim [] Task.hand = _
    by_cases hid : id = s.nextTask
    · rw [hid, find?_nextTask hs, if_pos rfl, if_pos rfl]
      rfl
    · rw [if_neg hid, if_neg hid, Option.or_none, List.append_nil]

omit [Chip σ] in
/-- What a task has in hand that is polled. -/
theorem inHand_pollWith (s : Session σ) (f : Task → Nat → Adapter σ → Task.Outcome × Adapter σ)
    (k id : Nat) :
    (Reply.ofPolled (s.pollWith f k)).2.inHand id =
      if id = k then (s.find? id).elim [] fun t => Task.handAfter (f t s.clock s.adapter).1
      else s.inHand id := by
  rw [Reply.ofPolled_snd]
  unfold pollWith
  cases hfind : s.find? k with
  | none =>
    by_cases hid : id = k
    · subst hid
      rw [if_pos rfl, inHand, hfind]
      rfl
    · rw [if_neg hid]
  | some t =>
    dsimp only
    split
    · next result adapter heq =>
      show (({ s with adapter } : Session σ).remove k).inHand id = _
      rw [inHand, find?_remove]
      by_cases hid : id = k
      · subst hid
        rw [if_pos rfl, if_pos rfl, hfind]
        exact (congrArg (fun x => Task.handAfter x.1) heq).symm
      · rw [if_neg hid, if_neg hid]
        rfl
    · next task adapter heq =>
      show (({ s with adapter } : Session σ).replace k task).inHand id = _
      rw [inHand, find?_replace]
      show ((s.find? id).map _).elim [] Task.hand = _
      by_cases hid : id = k
      · subst hid
        rw [if_pos rfl, hfind, Option.map_some, if_pos rfl]
        exact (congrArg (fun x => Task.handAfter x.1) heq).symm
      · rw [if_neg hid, inHand]
        simp only [if_neg hid, Option.map_id']

omit [Chip σ] in
/-- An operation that begins takes nothing in hand, unless it is a worker. -/
theorem attended_begin (hs : s.Numbered) {f : Nat → Adapter σ → Task.Outcome × Adapter σ}
    (hf : Task.handAfter (f s.clock s.adapter).1 = []) (id : Nat) :
    s.inHand id ++ [] = (Reply.ofBegun (s.begin f)).2.inHand id := by
  rw [inHand_begin hs, hf, ite_self]

omit [Chip σ] in
/-- A poll concerns the task that is polled. -/
theorem attended_pollWith {f : Task → Nat → Adapter σ → Task.Outcome × Adapter σ}
    {drawn handled : Worker → List Notification}
    (hf : ∀ t : Task, t.hand ++ t.ofWorker drawn =
      t.ofWorker handled ++ Task.handAfter (f t s.clock s.adapter).1) (k id : Nat) :
    s.inHand id ++ part id (s.share k drawn) =
      part id (s.share k handled) ++ (Reply.ofPolled (s.pollWith f k)).2.inHand id := by
  rw [part_share, part_share, inHand_pollWith]
  by_cases hid : id = k
  · rw [if_pos hid, if_pos hid, if_pos hid, inHand]
    cases s.find? id with
    | none => rfl
    | some t => exact hf t
  · rw [if_neg hid, if_neg hid, if_neg hid]
    exact List.append_nil _

/-- A worker that sets to work has handled what it took. -/
theorem attended_work (hs : s.Numbered) (id : Nat) :
    s.inHand id ++ part id (s.drawn .work) =
      part id (s.handled .work) ++ (s.perform .work).2.inHand id := by
  have hfresh := (Task.work .fresh).attended_poll s.clock s.adapter
  have hbegun := inHand_begin hs (fun now a => (Task.work .fresh).poll now a) id
  show s.inHand id ++ part id ((Worker.fresh.pollTaken s.clock s.adapter).map (s.nextTask, ·)) =
    part id ((Worker.fresh.pollHandled s.clock s.adapter).map (s.nextTask, ·)) ++
      (Reply.ofBegun (s.begin fun now a => (Task.work .fresh).poll now a)).2.inHand id
  rw [hbegun, part_map, part_map]
  by_cases hid : id = s.nextTask
  · have hnothing : s.inHand id = [] := by rw [inHand, hid, find?_nextTask hs]; rfl
    rw [if_pos hid, if_pos hid, if_pos hid, hnothing]
    exact hfresh
  · rw [if_neg hid, if_neg hid, if_neg hid]
    rfl

/-- Every action keeps account of what a worker has taken: it handles it, loses it or has it in
hand. -/
theorem attended_perform (hs : s.Numbered) (action : Action σ) (id : Nat) :
    s.inHand id ++ part id (s.drawn action) =
      part id (s.handled action) ++ part id (s.lost action) ++ (s.perform action).2.inHand id := by
  cases action with
  | bind h address => exact attended_begin hs (Task.handAfter_ofCall _) id
  | listen h backlog => exact attended_begin hs (Task.handAfter_ofCall _) id
  | post note => exact attended_begin hs (Task.handAfter_pollPost note _) id
  | nextEvent => exact attended_begin hs (Task.handAfter_pollEvent _) id
  | work =>
    rw [show part id (s.lost .work) = [] from rfl, List.append_nil]
    exact attended_work hs id
  | poll k =>
    rw [show part id (s.lost (.poll k)) = [] from rfl, List.append_nil]
    exact attended_pollWith (fun t => t.attended_poll s.clock s.adapter) k id
  | contend k =>
    have hnone : s.share k (fun _ => []) = [] := by
      unfold share
      cases s.find? k with
      | none => rfl
      | some t => cases t <;> rfl
    have hbusy (t : Task) : t.hand ++ t.ofWorker (fun w => w.turnTaken s.adapter) =
        t.ofWorker (fun _ => []) ++ Task.handAfter (t.contend s.clock s.adapter).1 := by
      rw [t.attended_contend s.clock s.adapter]
      cases t <;> rfl
    have h := attended_pollWith (f := fun t now a => t.contend now a) hbusy k id
    rw [hnone] at h
    exact h
  | cancel k =>
    show s.inHand id ++ [] = [] ++ part id (s.share k Worker.hand) ++ (s.remove k).inHand id
    rw [part_share, inHand, inHand, find?_remove]
    by_cases hid : id = k
    · rw [if_pos hid, if_pos hid]
      rfl
    · rw [if_neg hid, if_neg hid]
      exact List.append_nil _
  | receive k =>
    have hsame : (s.receive k).2.inHand id = s.inHand id := by
      unfold receive
      split <;> rfl
    exact (List.append_nil _).trans hsame.symm
  | drop place =>
    have hsame : (s.drop place).2.inHand id = s.inHand id := by
      unfold drop
      split <;> rfl
    exact (List.append_nil _).trans hsame.symm
  | _ => exact List.append_nil _

/-! ### Histories of the workers -/

theorem find?_gone (hnone : s.find? id = none) (hid : id < s.nextTask) (action : Action σ) :
    (s.perform action).2.find? id = none := by
  cases hfind : (s.perform action).2.find? id with
  | none => rfl
  | some t =>
    cases origin_perform action hfind with
    | kept h => cases hnone.symm.trans h
    | polled _ h => cases hnone.symm.trans h
    | contended _ h => cases hnone.symm.trans h
    | begun hnext => omega

/-- A worker that is gone handles nothing. -/
theorem handled_gone (hnone : s.find? id = none) (hid : id < s.nextTask)
    (actions : List (Action σ)) : part id (s.gather handled actions) = [] := by
  induction actions generalizing s with
  | nil => rfl
  | cons action rest ih =>
    have hfirst : part id (s.handled action) = [] := by
      cases action with
      | work => exact (part_map ..).trans (if_neg (Nat.ne_of_lt hid))
      | poll k =>
        refine (part_share ..).trans ?_
        rw [hnone]
        exact ite_self _
      | _ => rfl
    rw [gather, part_append, hfirst]
    exact ih (find?_gone hnone hid action) (Nat.lt_of_lt_of_le hid (nextTask_perform s action))

/-- What a worker loses is the last of what it took. -/
theorem lost_last (hs : s.Numbered) (id : Nat) (action : Action σ) (rest : List (Action σ)) :
    part id (s.lost action) = [] ∨ part id ((s.perform action).2.gather handled rest) = [] := by
  cases action with
  | cancel k =>
    by_cases hid : id = k
    · subst hid
      cases hfind : s.find? id with
      | none =>
        refine .inl ((part_share ..).trans ?_)
        rw [hfind]
        exact ite_self _
      | some t =>
        have hnone : (s.remove id).find? id = none := (find?_remove s id id).trans (if_pos rfl)
        exact .inr (handled_gone hnone (hs id t hfind) rest)
    · exact .inl ((part_share ..).trans (if_neg hid))
  | _ => exact .inl rfl

/-- Along every history each worker has handled what it took, in the same order, up to what it has
in hand or has lost. -/
theorem attended_run (hs : s.Numbered) (actions : List (Action σ)) (id : Nat) :
    s.inHand id ++ part id (s.gather drawn actions) =
      part id (s.gather handled actions) ++ part id (s.gather lost actions) ++
        (s.run actions).inHand id := by
  induction actions generalizing s with
  | nil => exact List.append_nil _
  | cons action rest ih =>
    have hrest := ih (numbered_perform hs action)
    have hlast : part id (s.lost action) ++ part id ((s.perform action).2.gather handled rest) =
        part id ((s.perform action).2.gather handled rest) ++ part id (s.lost action) := by
      rcases lost_last hs id action rest with h | h <;> rw [h, List.append_nil] <;> rfl
    calc s.inHand id ++ part id (s.gather drawn (action :: rest))
      _ = (s.inHand id ++ part id (s.drawn action)) ++
            part id ((s.perform action).2.gather drawn rest) := by
          rw [gather, part_append, List.append_assoc]
      _ = part id (s.handled action) ++ (part id (s.lost action) ++
            part id ((s.perform action).2.gather handled rest)) ++
            (part id ((s.perform action).2.gather lost rest) ++
              (s.run (action :: rest)).inHand id) := by
          rw [attended_perform hs, List.append_assoc _ _ (part id _), hrest, run]
          simp only [List.append_assoc]
      _ = part id (s.gather handled (action :: rest)) ++ part id (s.gather lost (action :: rest)) ++
            (s.run (action :: rest)).inHand id := by
          rw [hlast, gather, gather, part_append, part_append]
          simp only [List.append_assoc]

/-- A worker with nothing in hand handles just what it takes, unless it finds the adapter busy. -/
theorem handled_eq_drawn (hfree : ∀ id, s.inHand id = []) (hcontend : ∀ id, action ≠ .contend id) :
    s.handled action = s.drawn action := by
  have hserves (w : Worker) (hhand : w.hand = []) :
      w.pollHandled s.clock s.adapter = w.pollTaken s.clock s.adapter := by
    have h := w.serves_round s.clock s.adapter (Nat.le_refl _)
    rw [Worker.pollHandled, h.handled, Worker.pollTaken, h.taken, hhand]
    rfl
  cases action with
  | work => exact congrArg _ (hserves .fresh rfl)
  | contend id => exact absurd rfl (hcontend id)
  | poll id =>
    have hhand := hfree id
    unfold inHand at hhand
    show s.share id _ = s.share id _
    unfold share
    cases hfind : s.find? id with
    | none => rfl
    | some t =>
      rw [hfind] at hhand
      cases t with
      | work w => exact congrArg _ (hserves w hhand)
      | _ => rfl
  | _ => rfl

/-- While no worker finds the adapter busy, the workers handle what they take at once. -/
theorem handled_run (hs : s.Numbered) (hfree : ∀ id, s.inHand id = []) {actions : List (Action σ)}
    (hcontend : ∀ id, .contend id ∉ actions) : s.gather handled actions = s.gather drawn actions := by
  induction actions generalizing s with
  | nil => rfl
  | cons action rest ih =>
    have hfirst : s.handled action = s.drawn action :=
      handled_eq_drawn hfree fun id heq => hcontend id (heq ▸ List.mem_cons_self)
    have hstill (id : Nat) : (s.perform action).2.inHand id = [] := by
      have hkept := attended_perform hs action id
      rw [hfree, hfirst, List.append_assoc] at hkept
      exact (List.append_eq_nil_iff.mp (List.self_eq_append_right.mp hkept)).2
    rw [gather, gather, hfirst,
      ih (numbered_perform hs action) hstill fun id hmem => hcontend id (List.mem_cons_of_mem _ hmem)]

end Workers

/-! ### Every notification that was accepted -/

/-- **No notification is doubled or overtaken, and none is lost but with its worker.** Those
accepted so far are those the workers have taken, followed by those that wait, at most sixteen. One
that finds no room is handed back and counted. Each worker has handled what it took, in the same
order, but for the one it has in hand while the adapter is busy, or has lost because it was dropped
then. A poll that finds the adapter free is a round, however many turns it is given: it does what
is in hand, takes and handles all that waits, and leaves nothing to do; and it keeps the same
account after each of its turns. A poll that finds the adapter busy takes what comes first in hand,
and the next free poll goes on from there. -/
theorem served_in_order (chip : σ) (packets : Nat) (config : Config) (actions : List (Action σ)) :
    let start := new chip packets config
    let s := start.run actions
    let a := s.adapter
    start.gather accepted actions =
        (start.gather drawn actions).map (·.2) ++ a.notifications.items ∧
      a.notifications.items.length ≤ 16 ∧
      a.overflowed = UInt32.ofNat (start.gather refused actions).length ∧
      (∀ note, a.notifications.items.length < 16 ∧
          (∃ queue, a.notify note = (.ok (), a.requeue queue) ∧
            queue.items = a.notifications.items ++ [note]) ∨
        a.notifications.items.length = 16 ∧
          a.notify note = (.error note, { a with overflowed := a.overflowed + 1 })) ∧
      (∀ id, part id (start.gather drawn actions) =
        part id (start.gather handled actions) ++ part id (start.gather lost actions) ++ s.inHand id) ∧
      (∀ id, (∀ taken ∈ start.gather drawn actions, taken.1 = id) →
        start.gather accepted actions = part id (start.gather handled actions) ++
          part id (start.gather lost actions) ++ s.inHand id ++ a.notifications.items) ∧
      ((∀ id, .contend id ∉ actions) → start.gather accepted actions =
        (start.gather handled actions).map (·.2) ++ a.notifications.items) ∧
      (∀ (b : Adapter σ) (w : Worker) (now more : Nat),
        w.poll now b = w.round now b ∧
          Worker.turns now (Worker.enough b + more) w b = w.round now b ∧
          w.pollTaken now b = b.notifications.items ∧
          w.pollHandled now b = w.hand ++ b.notifications.items ∧
          w.pollTicks now b =
            Worker.turnTicks now w b ++ (w.resume now b).1.sweepTicks now (w.resume now b).2 ∧
          (w.round now b).2.notifications = .empty ∧ (w.round now b).2.kicked = false ∧
          (w.round now b).1.hand = []) ∧
      (∀ (b : Adapter σ) (w : Worker) (now n : Nat),
        Worker.gather Worker.turnTaken now n w b ++
            (Worker.turns now n w b).2.notifications.items = b.notifications.items ∧
          w.hand ++ Worker.gather Worker.turnTaken now n w b =
            Worker.gather (fun w _ => w.hand) now n w b ++ (Worker.turns now n w b).1.hand) ∧
      ∀ (b : Adapter σ) (w : Worker) (now : Nat),
        (∃ notifications kicked, (w.contend now b).2 = { b with notifications, kicked }) ∧
          w.turnTaken b ++ (w.contend now b).2.notifications.items = b.notifications.items ∧
          (w.contend now b).1.hand = w.hand ++ w.turnTaken b ∧
          ∀ id, s.find? id = some (.work w) →
            (w.contend now b).1.round now (w.contend now b).2 = w.round now b := by
  intro start s a
  have hnumbered : start.Numbered := numbered_new chip packets config
  have hfree (id : Nat) : start.inHand id = [] := rfl
  obtain ⟨hconserved, hcounted⟩ := queues_run (s := start) (Adapter.steady_new chip packets config)
    actions
  have hattended (id : Nat) : part id (start.gather drawn actions) =
      part id (start.gather handled actions) ++ part id (start.gather lost actions) ++ s.inHand id :=
    attended_run hnumbered actions id
  refine ⟨hconserved, a.notifications.within, ?_, fun note => ?_, hattended, fun id honly => ?_,
    fun hcontend => ?_, fun b w now more => ?_, fun b w now n => w.conserved_turns now n b,
    fun b w now => ?_⟩
  · rw [hcounted]
    exact UInt32.zero_add _
  · rcases Adapter.notify_cases note a with ⟨queue, hpush, hnotify⟩ | ⟨hpush, hnotify⟩
    · have hitems := Queue.items_push? hpush
      have hwithin : queue.items.length ≤ 16 := queue.within
      rw [hitems, List.length_append, List.length_singleton] at hwithin
      exact .inl ⟨hwithin, queue, hnotify, hitems⟩
    · exact .inr ⟨(Queue.push?_eq_none_iff _ note).mp hpush, hnotify⟩
  · have hall : part id (start.gather drawn actions) = (start.gather drawn actions).map (·.2) := by
      rw [part, List.filter_eq_self.mpr fun taken htaken => decide_eq_true (honly taken htaken)]
    rw [← hattended, hall]
    exact hconserved
  · rw [handled_run hnumbered hfree hcontend]
    exact hconserved
  · have hserves := w.serves_round now b (Nat.le_refl _)
    have hdesk := w.desk_round now b
    obtain ⟨nextTick, hwaits⟩ := w.exists_waiting_of_round now b
    exact ⟨w.poll_eq_round now b, (w.serves_round now b (Nat.le_add_right _ _)).ends,
      hserves.taken, hserves.handled, hserves.ticks, congrArg Desk.notifications hdesk,
      congrArg Desk.kicked hdesk, by rw [hwaits]; rfl⟩
  · obtain ⟨hqueue, hhand⟩ := w.taken_contend now b
    refine ⟨w.contend_eq now b, hqueue, hhand, fun id hfind => w.round_contend now b ?_⟩
    rintro nextTick rfl
    have hnew : start.Yielded := nofun
    exact yielded_run hnew actions id _ hfind nextTick rfl

/-- A worker finds the adapter busy with two notifications in the queue: it has the first in hand,
and the second waits. -/
theorem served_in_order_busy :
    let start := new ScriptedChip.new 4 .defaults
    let first : Notification := .socket 0 (.bound .success)
    let second : Notification := .socket 0 (.listening .success)
    let actions := [.work, .notify first, .notify second]
    let s := (start.run actions).perform (.contend 0)
    (∀ id, .contend id ∉ actions) ∧
      start.gather accepted actions = [first, second] ∧
      (∀ taken ∈ start.gather drawn (actions ++ [.contend 0]), taken.1 = 0) ∧
      start.gather accepted (actions ++ [.contend 0]) = [] ++ [] ++ [first] ++ [second] ∧
      s.2.find? 0 = some (.work (.handling 100 first)) := by
  intro start first second actions s
  have hcontend : ∀ id, .contend id ∉ actions := by simp [actions]
  have honly : ∀ taken ∈ start.gather drawn (actions ++ [.contend 0]), taken.1 = 0 := by decide
  have hfree := served_in_order ScriptedChip.new 4 .defaults actions
  have hbusy := served_in_order ScriptedChip.new 4 .defaults (actions ++ [.contend 0])
  refine ⟨hcontend, ?_, honly, ?_, by decide⟩
  · exact (hfree.2.2.2.2.2.2.1 hcontend).trans (by decide)
  · exact (hbusy.2.2.2.2.2.1 0 honly).trans (by decide)

/-- What a worker has in hand is accepted, but neither handled nor in the queue, and if it is a
tick, the next poll may tick twice. -/
theorem accepted_in_hand :
    (¬ ∀ actions : List (Action ScriptedChip),
      let start := new ScriptedChip.new 4 .defaults
      start.gather accepted actions = (start.gather handled actions).map (·.2) ++
        (start.run actions).adapter.notifications.items) ∧
    ¬ ∀ (actions : List (Action ScriptedChip)) (id : Nat) (w : Worker),
      let s := (new ScriptedChip.new 4 .defaults).run actions
      s.find? id = some (.work w) → (w.pollTicks s.clock s.adapter).length ≤ 1 := by
  constructor
  · intro hall
    let note : Notification := .socket 0 (.bound .success)
    exact absurd (hall [.work, .notify note, .contend 0]) (by decide)
  · intro hall
    -- The kick of the first request is in hand when the second one comes.
    exact absurd (hall [.work, .start, .contend 0, .scan] 0 .ticking (by decide)) (by decide)

end Session
end WifiAdapter
