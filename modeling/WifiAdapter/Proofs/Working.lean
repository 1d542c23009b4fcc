import WifiAdapter.Proofs.Backdrop
import WifiAdapter.Proofs.Courses

/-! What a poll of the worker comes to.

A poll that finds the adapter free is a round (`Worker.round`): what is in hand is done, the
notifications that wait are handled in their order, and at most one tick follows, for the kick or
for the time. However many turns it is given beyond those it needs, the worker ends there
(`Worker.poll_eq_round`, `Worker.Serves`). A poll that finds the adapter busy is the beginning of a
round, and the next poll is the rest of it (`Worker.round_contend`). -/
namespace WifiAdapter

namespace Worker
variable {σ : Type}

/-- Whether the clock calls for a tick: the same wait was looked at before, and its time has come. -/
def due (w : Worker) (now : Nat) : Prop :=
  match w with
  | .waiting nextTick looked => looked = true ∧ nextTick ≤ now
  | _ => False

instance (w : Worker) (now : Nat) : Decidable (w.due now) := by
  unfold due
  split <;> infer_instance

/-- The notification in hand. -/
def hand : Worker → List Notification
  | .handling _ note => [note]
  | _ => []

/-- The notification that a turn takes from the queue. -/
def turnTaken (w : Worker) (a : Adapter σ) : List Notification :=
  match w with
  | .waiting .. => (a.notifications.pop?.map (·.1)).toList
  | _ => []

variable [Chip σ]

/-- The notifications that wait are handled in their order. Then there is a tick if the kick is
pending, and one if there was nothing to handle and the clock calls for it. -/
def sweep (w : Worker) (now : Nat) (a : Adapter σ) : Worker × Adapter σ :=
  let served := (a.requeue .empty).handleAll now a.notifications.items
  let ticked : Worker := .waiting (now + a.config.pollInterval) true
  if a.kicked then (ticked, { served with kicked := false }.tick now)
  else if a.notifications.items = [] ∧ w.due now then (ticked, served.tick now)
  else (w.lookedAt, served)

/-- The worker begins, or does what it has in hand, and then it does what there is to do. -/
def round (w : Worker) (now : Nat) (a : Adapter σ) : Worker × Adapter σ :=
  (w.resume now a).1.sweep now (w.resume now a).2

/-- The notifications that a poll takes from the queue. -/
def pollTaken (w : Worker) (now : Nat) (a : Adapter σ) : List Notification :=
  gather turnTaken now (enough a) w a

/-- The notifications that a poll handles. -/
def pollHandled (w : Worker) (now : Nat) (a : Adapter σ) : List Notification :=
  gather (fun w _ => w.hand) now (enough a) w a

/-- So many turns take these notifications, handle these and make these ticks, and end there. -/
structure Serves (now n : Nat) (w : Worker) (a : Adapter σ) (taken handled : List Notification)
    (ticks : List (Adapter σ)) (last : Worker × Adapter σ) : Prop where
  ends : turns now n w a = last
  taken : gather turnTaken now n w a = taken
  handled : gather (fun w _ => w.hand) now n w a = handled
  ticks : gather (turnTicks now) now n w a = ticks

/-- The tick of a sweep. -/
def sweepTicks (w : Worker) (now : Nat) (a : Adapter σ) : List (Adapter σ) :=
  if a.kicked = true ∨ a.notifications.items = [] ∧ w.due now then [(w.sweep now a).2] else []

section Waits
variable {now nextTick n : Nat} {looked : Bool} {w w' : Worker} {a b : Adapter σ}
  {taken handled : List Notification} {ticks : List (Adapter σ)} {last : Worker × Adapter σ}
  {note : Notification} {rest : Queue notificationCapacity Notification}

/-- One turn, and then the others. -/
theorem Serves.turn (hturn : Worker.turn now w a = some (w', b))
    (h : Serves now n w' b taken handled ticks last) :
    Serves now (n + 1) w a (turnTaken w a ++ taken) (w.hand ++ handled)
      (turnTicks now w a ++ ticks) last where
  ends := by
    rw [turns, hturn]
    exact h.ends
  taken := by rw [gather, hturn, ← h.taken]
  handled := by rw [gather, hturn, ← h.handled]
  ticks := by rw [gather, hturn, ← h.ticks]

/-! ### Waits -/

omit [Chip σ] in
theorem take?_of_pop (hpop : a.notifications.pop? = some (note, rest)) :
    take? now nextTick looked a = some (.handling nextTick note, a.requeue rest) := by
  rw [take?, hpop]
  rfl

omit [Chip σ] in
/-- Without notifications the kick comes first, then the time. -/
theorem take?_of_empty (hempty : a.notifications = .empty) :
    take? now nextTick looked a =
      if a.kicked then some (.ticking, { a with kicked := false })
      else if (Worker.waiting nextTick looked).due now then some (.ticking, a)
      else none := by
  have hpop : a.notifications.pop? = none := by rw [hempty]; rfl
  rw [take?, hpop]
  rfl

/-- What is handled leaves the desk as it is. -/
theorem desk_served (rest : Queue notificationCapacity Notification) :
    ((a.requeue rest).handle now note).desk = { a.desk with notifications := rest } :=
  Adapter.desk_handle _ now note

/-- A tick does not change how long the worker waits for the next one. -/
theorem afterTick_tick : afterTick now (b.tick now) = .waiting (now + b.config.pollInterval) false := by
  have hinterval : (b.tick now).config.pollInterval = b.config.pollInterval :=
    congrArg Desk.pollInterval (b.desk_tick now)
  rw [afterTick, hinterval]

/-! ### Sweeps -/

/-- Without notifications there is at most a tick. -/
theorem sweep_of_empty (hempty : a.notifications = .empty) :
    sweep w now a =
      if a.kicked then
        (.waiting (now + a.config.pollInterval) true, { a with kicked := false }.tick now)
      else if w.due now then (.waiting (now + a.config.pollInterval) true, a.tick now)
      else (w.lookedAt, a) := by
  have hitems : a.notifications.items = [] := by rw [hempty, Queue.items_empty]
  have hsame : a.requeue .empty = a := by rw [← hempty, Adapter.requeue]
  simp [sweep, hitems, hsame, Adapter.handleAll]

/-- The oldest notification is handled, and the wait begins afresh. -/
theorem sweep_of_pop (hpop : a.notifications.pop? = some (note, rest)) :
    sweep (.waiting nextTick looked) now a =
      sweep (.waiting nextTick false) now ((a.requeue rest).handle now note) := by
  have hdesk := a.desk_handle now note
  have hkicked : (a.handle now note).kicked = a.kicked := congrArg Desk.kicked hdesk
  have hinterval : (a.handle now note).config.pollInterval = a.config.pollInterval :=
    congrArg Desk.pollInterval hdesk
  have hserved : (a.requeue .empty).handleAll now a.notifications.items =
      ((a.handle now note).requeue .empty).handleAll now rest.items := by
    rw [Queue.items_pop? hpop, ← Adapter.handle_requeue]
    rfl
  rw [Adapter.handle_requeue]
  unfold sweep
  rw [hserved]
  simp [Adapter.requeue, hkicked, hinterval, due, lookedAt, Queue.items_pop? hpop]

/-- The tick comes after the oldest notification as well. -/
theorem sweepTicks_of_pop (hpop : a.notifications.pop? = some (note, rest)) :
    sweepTicks (.waiting nextTick looked) now a =
      sweepTicks (.waiting nextTick false) now ((a.requeue rest).handle now note) := by
  have hdesk : ((a.requeue rest).handle now note).desk = { a.desk with notifications := rest } :=
    desk_served rest
  have hkicked : ((a.requeue rest).handle now note).kicked = a.kicked :=
    congrArg Desk.kicked hdesk
  have hsweep : sweep (.waiting nextTick looked) now a = _ := sweep_of_pop hpop
  unfold sweepTicks
  rw [← hsweep, hkicked]
  simp [due, Queue.items_pop? hpop]

/-! ### Turns -/

/-- With nothing to take a turn only looks. -/
theorem serves_of_idle (hempty : a.notifications = .empty) (hkicked : ¬ a.kicked = true)
    (hdue : ¬ (Worker.waiting nextTick looked).due now) :
    Serves now (n + 1) (.waiting nextTick looked) a [] [] [] (.waiting nextTick true, a) := by
  have hturn : Worker.turn now (.waiting nextTick looked) a = none := by
    rw [Worker.turn, take?_of_empty hempty, if_neg hkicked, if_neg hdue]
  constructor
  · rw [turns, hturn]
    rfl
  all_goals rw [gather, hturn]

/-- A tick leaves nothing to do. -/
theorem serves_of_tick (hempty : a.notifications = .empty) (hempty' : b.notifications = .empty)
    (hkicked : ¬ b.kicked = true) (hconfig : b.config = a.config)
    (htake : take? now nextTick looked a = some (.ticking, b)) :
    Serves now (n + 3) (.waiting nextTick looked) a [] [] [b.tick now]
      (.waiting (now + a.config.pollInterval) true, b.tick now) := by
  have hdesk := b.desk_tick now
  have hidle : Serves now (n + 1) (.waiting (now + a.config.pollInterval) false) (b.tick now) []
      [] [] (.waiting (now + a.config.pollInterval) true, b.tick now) :=
    serves_of_idle ((congrArg Desk.notifications hdesk).trans hempty')
      (fun h => hkicked ((congrArg Desk.kicked hdesk).symm.trans h)) (fun h => Bool.false_ne_true h.1)
  have hticked : Worker.turn now .ticking b =
      some (.waiting (now + a.config.pollInterval) false, b.tick now) := by
    rw [← hconfig, ← afterTick_tick]
    rfl
  have hserves := (hidle.turn hticked).turn (w := .waiting nextTick looked) htake
  have htaken : turnTaken (.waiting nextTick looked) a = [] := by
    rw [turnTaken, hempty]
    rfl
  rwa [htaken] at hserves

/-- A wait does what there is to do, given two turns for each notification and three more. -/
theorem serves_waiting (hn : 2 * a.notifications.items.length + 3 ≤ n) :
    Serves now n (.waiting nextTick looked) a a.notifications.items a.notifications.items
      (sweepTicks (.waiting nextTick looked) now a) (sweep (.waiting nextTick looked) now a) := by
  induction hitems : a.notifications.items generalizing a n looked with
  | nil =>
    have hempty : a.notifications = .empty := Queue.ext hitems
    rw [hitems] at hn
    obtain ⟨n, rfl⟩ := Nat.exists_eq_add_of_le' hn
    have htake : take? now nextTick looked a = _ := take?_of_empty hempty
    rw [sweepTicks, sweep_of_empty hempty, hitems]
    by_cases hkicked : a.kicked = true
    · rw [if_pos hkicked] at htake
      rw [if_pos hkicked, if_pos (.inl hkicked)]
      exact serves_of_tick (b := { a with kicked := false }) hempty hempty Bool.false_ne_true rfl htake
    · rw [if_neg hkicked] at htake
      rw [if_neg hkicked]
      by_cases hdue : (Worker.waiting nextTick looked).due now
      · rw [if_pos hdue] at htake
        rw [if_pos hdue, if_pos (.inr ⟨rfl, hdue⟩)]
        exact serves_of_tick hempty hempty hkicked rfl htake
      · rw [if_neg hdue, if_neg (not_or.mpr ⟨hkicked, fun h => hdue h.2⟩)]
        exact serves_of_idle hempty hkicked hdue
  | cons note notes ih =>
    obtain ⟨rest, hpop, rfl⟩ := Queue.exists_pop? hitems
    have hqueue : ((a.requeue rest).handle now note).notifications = rest :=
      congrArg Desk.notifications (desk_served rest)
    rw [hitems, List.length_cons] at hn
    obtain ⟨n, rfl⟩ : ∃ m, n = m + 2 := ⟨n - 2, by omega⟩
    have hrest : Serves now n (.waiting nextTick false) ((a.requeue rest).handle now note) rest.items
        rest.items (sweepTicks (.waiting nextTick false) now ((a.requeue rest).handle now note))
        (sweep (.waiting nextTick false) now ((a.requeue rest).handle now note)) :=
      ih (by rw [hqueue]; omega) (congrArg Queue.items hqueue)
    -- The notification is taken in one turn and handled in the next.
    have hserves := (hrest.turn (w := .handling nextTick note) (a := a.requeue rest) rfl).turn
      (w := .waiting nextTick looked) (take?_of_pop hpop)
    have htaken : turnTaken (.waiting nextTick looked) a = [note] := by
      rw [turnTaken, hpop]
      rfl
    rw [htaken] at hserves
    rw [sweepTicks_of_pop hpop, sweep_of_pop hpop]
    exact hserves

/-! ### Rounds -/

/-- To do what is in hand changes nothing on the desk. -/
theorem desk_resume (w : Worker) (now : Nat) (a : Adapter σ) : (w.resume now a).2.desk = a.desk := by
  cases w with
  | fresh | waiting => rfl
  | handling nextTick note => exact a.desk_handle now note
  | ticking => exact a.desk_tick now

/-- What was in hand is done, and the worker waits. -/
theorem exists_waiting_of_resume (w : Worker) (now : Nat) (a : Adapter σ) :
    ∃ nextTick looked, (w.resume now a).1 = .waiting nextTick looked := by
  cases w <;> exact ⟨_, _, rfl⟩

/-- A poll is a round: what is in hand takes one turn more. -/
theorem serves_round (w : Worker) (now : Nat) (a : Adapter σ) (hn : enough a ≤ n) :
    Serves now n w a a.notifications.items (w.hand ++ a.notifications.items)
      (turnTicks now w a ++ (w.resume now a).1.sweepTicks now (w.resume now a).2)
      (w.round now a) := by
  have hqueue : (w.resume now a).2.notifications = a.notifications :=
    congrArg Desk.notifications (desk_resume w now a)
  obtain ⟨nextTick, looked, hwaits⟩ := exists_waiting_of_resume w now a
  unfold enough at hn
  have hrest {m : Nat} (hm : 2 * a.notifications.items.length + 3 ≤ m) :
      Serves now m (w.resume now a).1 (w.resume now a).2 a.notifications.items
        a.notifications.items ((w.resume now a).1.sweepTicks now (w.resume now a).2)
        (w.round now a) := by
    rw [round, hwaits, ← hqueue]
    exact serves_waiting (by rw [hqueue]; exact hm)
  obtain ⟨n, rfl⟩ : ∃ m, n = m + 1 := ⟨n - 1, by omega⟩
  have hturn (hbusy : Worker.turn now w a = some (w.resume now a)) := (hrest (m := n) (by omega)).turn hbusy
  cases w with
  | waiting => exact hrest (by omega)
  | fresh | handling | ticking => exact hturn rfl

theorem poll_eq_round (w : Worker) (now : Nat) (a : Adapter σ) : w.poll now a = w.round now a :=
  (serves_round w now a (Nat.le_refl _)).ends

/-- A sweep leaves nothing to do. -/
theorem desk_sweep (w : Worker) (now : Nat) (a : Adapter σ) :
    (w.sweep now a).2.desk = { a.desk with notifications := .empty, kicked := false } := by
  have hserved : ((a.requeue .empty).handleAll now a.notifications.items).desk =
      { a.desk with notifications := .empty } := Adapter.desk_handleAll _ now _
  unfold sweep
  dsimp only
  by_cases hkicked : a.kicked = true
  · rw [if_pos hkicked, Adapter.desk_tick]
    exact congrArg (fun d : Desk => { d with kicked := false }) hserved
  · have hdesk : ({ a.desk with notifications := .empty } : Desk) =
        { a.desk with notifications := .empty, kicked := false } := by
      rw [← Bool.eq_false_iff.mpr hkicked]
      rfl
    rw [if_neg hkicked]
    split
    · rw [Adapter.desk_tick, hserved, hdesk]
    · rw [hserved, hdesk]

/-- A round leaves nothing to do, and counts nothing. -/
theorem desk_round (w : Worker) (now : Nat) (a : Adapter σ) :
    (w.round now a).2.desk = { a.desk with notifications := .empty, kicked := false } := by
  rw [round, desk_sweep, desk_resume]

/-- A poll takes all that waits, and counts nothing. -/
theorem emptied_poll (w : Worker) (now : Nat) (a : Adapter σ) :
    w.pollTaken now a ++ (w.poll now a).2.notifications.items = a.notifications.items ∧
      (w.poll now a).2.overflowed = a.overflowed := by
  have hdesk := w.desk_round now a
  have hempty : (w.round now a).2.notifications = .empty := congrArg Desk.notifications hdesk
  rw [poll_eq_round, hempty, pollTaken, (w.serves_round now a (Nat.le_refl _)).taken]
  exact ⟨List.append_nil _, congrArg Desk.overflowed hdesk⟩

/-- After a round the worker waits, with nothing in hand, and its wait was looked at. -/
theorem exists_waiting_of_round (w : Worker) (now : Nat) (a : Adapter σ) :
    ∃ nextTick, (w.round now a).1 = .waiting nextTick true := by
  obtain ⟨nextTick, looked, hwaits⟩ := exists_waiting_of_resume w now a
  rw [round, hwaits]
  unfold sweep
  dsimp only
  split
  · exact ⟨_, rfl⟩
  · split <;> exact ⟨_, rfl⟩

/-! ### Between turns -/

omit [Chip σ] in
/-- What is taken in hand is taken from the front of the queue. -/
theorem taken_take? (h : take? now nextTick looked a = some (w, b)) :
    turnTaken (.waiting nextTick looked) a ++ b.notifications.items = a.notifications.items ∧
      w.hand = turnTaken (.waiting nextTick looked) a := by
  unfold turnTaken
  rcases take?_cases h with ⟨note, rest, hpop, rfl, rfl⟩ | ⟨hpop, rfl, kicked, rfl⟩
  · rw [hpop]
    exact ⟨(Queue.items_pop? hpop).symm, rfl⟩
  · rw [hpop]
    exact ⟨rfl, rfl⟩

omit [Chip σ] in
/-- Who finds nothing to take finds no notification. -/
theorem turnTaken_of_none (h : take? now nextTick looked a = none) :
    turnTaken (.waiting nextTick looked) a = [] := by
  unfold turnTaken
  dsimp only
  cases hpop : a.notifications.pop? with
  | some popped =>
    rw [take?_of_pop hpop] at h
    cases h
  | none => rfl

/-- What a turn takes it takes from the front of the queue, and it has it in hand then. -/
theorem conserved_turn (hturn : Worker.turn now w a = some (w', b)) :
    turnTaken w a ++ b.notifications.items = a.notifications.items ∧ w'.hand = turnTaken w a := by
  have hresumed (hbusy : Worker.turn now w a = some (w.resume now a)) (htaken : turnTaken w a = []) :
      turnTaken w a ++ b.notifications.items = a.notifications.items ∧ w'.hand = turnTaken w a := by
    have hlast : w.resume now a = (w', b) := Option.some.inj (hbusy.symm.trans hturn)
    obtain ⟨nextTick, looked, hwaits⟩ := exists_waiting_of_resume w now a
    have hdesk := desk_resume w now a
    rw [hlast] at hwaits hdesk
    have hqueue : b.notifications = a.notifications := congrArg Desk.notifications hdesk
    change w' = _ at hwaits
    rw [htaken, hwaits, hqueue]
    exact ⟨rfl, rfl⟩
  cases w with
  | fresh | handling | ticking => exact hresumed rfl rfl
  | waiting nextTick looked => exact taken_take? hturn

/-- After any number of turns, what was taken was handled, or it is in hand. -/
theorem conserved_turns (now n : Nat) (w : Worker) (a : Adapter σ) :
    gather turnTaken now n w a ++ (turns now n w a).2.notifications.items = a.notifications.items ∧
      w.hand ++ gather turnTaken now n w a =
        gather (fun w _ => w.hand) now n w a ++ (turns now n w a).1.hand := by
  fun_induction turns now n w a with
  | case1 w a => exact ⟨rfl, List.append_nil _⟩
  | case2 n w a w' b hturn ih =>
    obtain ⟨hqueue, hhand⟩ := conserved_turn hturn
    rw [gather, gather, hturn]
    dsimp only
    rw [List.append_assoc, ih.1, ← hhand, ih.2, List.append_assoc]
    exact ⟨hhand ▸ hqueue, rfl⟩
  | case3 n w a hturn =>
    rw [gather, gather, hturn]
    cases w <;> exact ⟨rfl, rfl⟩

/-! ### Polls while the adapter is busy -/

omit [Chip σ] in
/-- A notification that is taken in hand is the oldest in the queue; the others stay there. -/
theorem taken_contend (w : Worker) (now : Nat) (a : Adapter σ) :
    turnTaken w a ++ (w.contend now a).2.notifications.items = a.notifications.items ∧
      (w.contend now a).1.hand = w.hand ++ turnTaken w a := by
  cases w with
  | fresh | handling | ticking => exact ⟨rfl, (List.append_nil _).symm⟩
  | waiting nextTick looked =>
    unfold contend
    dsimp only
    cases h : take? now nextTick looked a with
    | some taken => exact taken_take? h
    | none =>
      rw [turnTaken_of_none h]
      exact ⟨rfl, rfl⟩

omit [Chip σ] in
/-- A wait that goes on was looked at. -/
theorem contend_ne_waiting (w : Worker) (now : Nat) (a : Adapter σ) (nextTick : Nat) :
    (w.contend now a).1 ≠ .waiting nextTick false := by
  cases w with
  | fresh | handling | ticking => exact nofun
  | waiting next looked =>
    unfold contend
    dsimp only
    cases h : take? now next looked a with
    | none => exact nofun
    | some taken =>
      obtain ⟨w, b⟩ := taken
      rcases take?_cases h with ⟨_, _, _, rfl, _⟩ | ⟨_, rfl, _⟩ <;> exact nofun

omit [Chip σ] in
/-- Nothing is counted. -/
theorem overflowed_contend (w : Worker) (now : Nat) (a : Adapter σ) :
    (w.contend now a).2.overflowed = a.overflowed := by
  obtain ⟨_, _, heq⟩ := w.contend_eq now a
  rw [heq]

/-- A round that finds the adapter busy at first is put off, and no more: the worker goes on from
what it has in hand. -/
theorem round_contend (w : Worker) (now : Nat) (a : Adapter σ)
    (hlooked : ∀ nextTick, w ≠ .waiting nextTick false) :
    (w.contend now a).1.round now (w.contend now a).2 = w.round now a := by
  cases w with
  | fresh | handling | ticking => rfl
  | waiting nextTick looked =>
    cases looked with
    | false => exact absurd rfl (hlooked nextTick)
    | true =>
      unfold contend
      dsimp only
      cases hpop : a.notifications.pop? with
      | some popped =>
        rw [take?_of_pop hpop]
        exact (sweep_of_pop hpop).symm
      | none =>
        have hempty : a.notifications = .empty := Queue.ext ((Queue.pop?_eq_none_iff _).mp hpop)
        -- A tick in hand is all there is to do.
        have hticked {b : Adapter σ} (hempty' : b.notifications = .empty)
            (hkicked : ¬ b.kicked = true) (hconfig : b.config = a.config) :
            round .ticking now b = (.waiting (now + a.config.pollInterval) true, b.tick now) := by
          have hdesk := b.desk_tick now
          have hquiet : ¬ (b.tick now).kicked = true :=
            fun h => hkicked ((congrArg Desk.kicked hdesk).symm.trans h)
          show sweep (afterTick now (b.tick now)) now (b.tick now) = _
          rw [sweep_of_empty ((congrArg Desk.notifications hdesk).trans hempty'), if_neg hquiet,
            if_neg (fun h => Bool.false_ne_true h.1), afterTick_tick, hconfig]
          rfl
        rw [take?_of_empty hempty]
        show _ = sweep (.waiting nextTick true) now a
        rw [sweep_of_empty hempty]
        split
        · exact hticked (b := { a with kicked := false }) hempty Bool.false_ne_true rfl
        · next hkicked =>
          split
          · exact hticked hempty hkicked rfl
          · next hdue =>
            show sweep (.waiting nextTick true) now a = _
            rw [sweep_of_empty hempty, if_neg hkicked, if_neg hdue]

end Waits

end Worker

end WifiAdapter
