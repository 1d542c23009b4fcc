import WifiAdapter.Proofs.Apart
import WifiAdapter.Proofs.Resting
import WifiAdapter.Proofs.Runs

/-! What an adapter asks of its link.

A request of the application, a tick and a message of the radio are visits to the link: the
link acts on them over the bus, and the adapter takes its events away. Nothing else that happens
to an adapter concerns the link (`Adapter.Step.link_eq`), so a history is rounds of visits
(`Session.rounds_run`). They lead the link from where it was to where it is, each finding it as
the one before left it (`Session.tour_run`); and they are made in the order of their times
(`Session.visits_in_time`). -/
namespace WifiAdapter

/-- Something asked of the link at a time, and the station that was asked. -/
structure Visit (σ : Type) where
  time : Nat
  action : Station.Action
  before : Station σ

section Tours
variable {σ : Type} [Chip σ]

/-- The station after a visit. -/
def Visit.after (v : Visit σ) : Station σ := (v.before.perform v.time v.action).2

/-- The visits lead from one link to another. Each finds the link as the one before left it, its
events taken. -/
def Tour : List (Visit σ) → Link → Link → Prop
  | [], l, l' => l' = l
  | v :: rest, l, l' => v.before.link = l ∧ Tour rest v.after.link.flushed l'

variable {vs vs' : List (Visit σ)} {v : Visit σ} {l l' : Link}

theorem tour_append :
    Tour (vs ++ vs') l l' ↔ ∃ m, Tour vs l m ∧ Tour vs' m l' := by
  induction vs generalizing l with
  | nil => exact ⟨fun h => ⟨l, rfl, h⟩, fun ⟨_, rfl, h⟩ => h⟩
  | cons v rest ih =>
    constructor
    · rintro ⟨hbefore, hrest⟩
      obtain ⟨m, hrest, h⟩ := ih.mp hrest
      exact ⟨m, ⟨hbefore, hrest⟩, h⟩
    · rintro ⟨m, ⟨hbefore, hrest⟩, h⟩
      exact ⟨hbefore, ih.mpr ⟨m, hrest, h⟩⟩

theorem Tour.append {m : Link} (h : Tour vs l m) (h' : Tour vs' m l') : Tour (vs ++ vs') l l' :=
  tour_append.mpr ⟨m, h, h'⟩

theorem tour_snoc :
    Tour (vs ++ [v]) l l' ↔ Tour vs l v.before.link ∧ l' = v.after.link.flushed := by
  rw [tour_append]
  constructor
  · rintro ⟨_, h, rfl, rfl⟩
    exact ⟨h, rfl⟩
  · rintro ⟨h, rfl⟩
    exact ⟨_, h, rfl, rfl⟩

end Tours

namespace Adapter
variable {σ : Type}

/-- The link of an adapter, over its bus. -/
def station (a : Adapter σ) : Station σ := ⟨a.link, a.bus⟩

/-! ### Rounds -/

theorem link_announce (a : Adapter σ) (e : Event) : (a.announce e).link = a.link :=
  congrArg Prod.fst (apart_announce a e)

theorem link_flushLinkEvents (a : Adapter σ) : a.flushLinkEvents.link = a.link.flushed := by
  have hfold (events : List LinkEvent) (b : Adapter σ) :
      (events.foldl (fun b e => b.announce (.link e)) b).link = b.link := by
    induction events generalizing b with
    | nil => rfl
    | cons e rest ih => rw [List.foldl_cons, ih, link_announce]
  exact hfold _ _

theorem link_withStation {α : Type} (a : Adapter σ) (f : Station σ → α × Station σ) :
    (a.withStation f).2.link = (f a.station).2.link.flushed :=
  link_flushLinkEvents _

variable [Chip σ]

/-- From one adapter to another by visits to the link, with steps in between that do not concern
it. -/
inductive Rounds (a : Adapter σ) : List (Visit σ) → Adapter σ → Prop where
  | refl : Rounds a [] a
  | step {vs : List (Visit σ)} {b c : Adapter σ} {D : Deed → Prop} {site? : Option Handle}
      (h : Rounds a vs b) (hstep : Step D site? b c) (hD : ¬ D .link) : Rounds a vs c
  | visit {vs : List (Visit σ)} {b : Adapter σ} (h : Rounds a vs b) (now : Nat)
      (action : Station.Action) :
      Rounds a (vs ++ [⟨now, action, b.station⟩]) (b.withStation (·.perform now action)).2

section Rounds
variable {a b c : Adapter σ} {vs vs' : List (Visit σ)} {D : Deed → Prop} {site? : Option Handle}
  {now : Nat}

theorem Rounds.trans (h : Rounds a vs b) (h' : Rounds b vs' c) : Rounds a (vs ++ vs') c := by
  induction h' with
  | refl => rwa [List.append_nil]
  | step _ hstep hD ih => exact .step ih hstep hD
  | visit _ now action ih =>
    rw [← List.append_assoc]
    exact .visit ih now action

/-- A visit, and nothing else. -/
theorem rounds_asked (a : Adapter σ) (now : Nat) (action : Station.Action) :
    Rounds a [⟨now, action, a.station⟩] (a.withStation (·.perform now action)).2 :=
  .visit .refl now action

theorem Steps.rounds (h : Steps D site? a b) (hD : ¬ D .link) : Rounds a [] b := by
  induction h with
  | refl => exact .refl
  | tail _ hstep ih => exact .step ih hstep hD

theorem Leads.rounds (h : Leads D a b) (hD : ¬ D .link) (ha : a.Steady) : Rounds a [] b :=
  have hsteps : Steps D none a b := h.yields ha
  hsteps.rounds hD

/-- A request also has the worker look at the link. -/
theorem rounds_request (a : Adapter σ) (now : Nat) (action : Station.Action) :
    Rounds a [⟨now, action, a.station⟩] (a.request (·.perform now action)).2 :=
  have hkick (b : Adapter σ) : Step Deed.None none b { b with kicked := true } :=
    .move (.chore (.queues b b.notifications true b.overflowed (.inr ⟨rfl, rfl⟩)))
  .step (a.rounds_asked now action) (hkick _) id

theorem Rounds.tour (h : Rounds a vs b) : Tour vs a.link b.link := by
  induction h with
  | refl => rfl
  | step _ hstep hD ih =>
    rw [hstep.link_eq hD]
    exact ih
  | visit _ now action ih => exact ih.append ⟨rfl, link_withStation ..⟩

end Rounds

end Adapter

section Moments
variable {σ : Type} {m : Moment σ} {now : Nat} {v : Visit σ}

/-- A message of the radio is a visit; a message for a socket is not. -/
def Moment.visits (now : Nat) (m : Moment σ) : List (Visit σ) :=
  match m.note with
  | .radio message => [⟨now, .radio message, (m.adapter.noted m.note).station⟩]
  | .socket .. => []

theorem Moment.time_visits (hv : v ∈ m.visits now) : v.time = now := by
  unfold visits at hv
  split at hv
  · rw [List.mem_singleton.mp hv]
  · cases hv

end Moments

variable {σ : Type} [Chip σ]

namespace Adapter
variable {a b : Adapter σ} {D : Deed → Prop} {site? : Option Handle} {now : Nat}

theorem rounds_handle (ha : a.Steady) (now : Nat) (note : Notification) :
    Rounds a ((⟨a, note⟩ : Moment σ).visits now) (a.handle now note) := by
  cases note with
  | radio message =>
    have hnoted : Leads Deed.None a (a.noted (.radio message)) :=
      leads_noted a (fun _ => rfl) nofun nofun
    exact (hnoted.rounds id ha).trans ((a.noted (.radio message)).rounds_asked now (.radio message))
  | socket h message =>
    refine (leads_handle_deeds a now _).rounds (fun hd => ?_) ha
    have hd : (Notification.socket h message).deed? = some .link := hd.resolve_left nofun
    cases message <;> cases hd

/-- Where nothing else may concern the link, it is visited by the notifications that are handled. -/
theorem Course.rounds {ms : List (Moment σ)} (h : Course D site? now a ms b) (hD : ¬ D .link)
    (ha : a.Steady) : Rounds a (ms.flatMap (Moment.visits now)) b := by
  induction h with
  | refl => exact .refl
  | step _ hstep ih => exact .step ih hstep hD
  | handle hbefore note ih =>
    rw [List.flatMap_append, List.flatMap_singleton]
    exact ih.trans (rounds_handle (hbefore.steady ha) now note)
  | poll hbefore ih =>
    rw [← List.append_nil (List.flatMap _ _)]
    exact ih.trans ((leads_pollIdle (D := Deed.Asking) rfl _).rounds nofun (hbefore.steady ha))

/-- The visits of a tick: those of the notifications it handles, and its own. -/
def tickVisits (a : Adapter σ) (now : Nat) : List (Visit σ) :=
  (a.tickMoments now).flatMap (Moment.visits now) ++ [⟨now, .tick, (a.caughtUp now).station⟩]

theorem time_tickVisits {v : Visit σ} (hv : v ∈ a.tickVisits now) : v.time = now := by
  rcases List.mem_append.mp hv with hv | hv
  · obtain ⟨_, _, hv⟩ := List.mem_flatMap.mp hv
    exact Moment.time_visits hv
  · rw [List.mem_singleton.mp hv]

theorem rounds_tick (ha : a.Steady) (now : Nat) : Rounds a (a.tickVisits now) (a.tick now) := by
  have hcourse : Course Deed.None none now a (a.tickMoments now) (a.caughtUp now) :=
    passes_caughtUp a now ha
  have hlook := (a.caughtUp now).rounds_asked now .tick
  have hrest := (leads_pollIdle (D := Deed.Asking) rfl _).rounds nofun (steady_looked ha now)
  have htick := (hcourse.rounds id ha).trans (hlook.trans hrest)
  rwa [List.append_nil] at htick

end Adapter

namespace Worker
variable {a b : Adapter σ}

/-- The visits of a turn. -/
def turnVisits (now : Nat) (w : Worker) (a : Adapter σ) : List (Visit σ) :=
  match w with
  | .handling _ note => (⟨a, note⟩ : Moment σ).visits now
  | .ticking => a.tickVisits now
  | _ => []

/-- The visits that a worker makes when it is polled. -/
def pollVisits (w : Worker) (now : Nat) (a : Adapter σ) : List (Visit σ) :=
  gather (turnVisits now) now (enough a) w a

theorem time_turnVisits {now : Nat} {w : Worker} {v : Visit σ} (hv : v ∈ turnVisits now w a) :
    v.time = now := by
  cases w with
  | fresh | waiting => cases hv
  | handling => exact Moment.time_visits hv
  | ticking => exact Adapter.time_tickVisits hv

theorem time_pollVisits {now : Nat} {w : Worker} {v : Visit σ} (hv : v ∈ w.pollVisits now a) :
    v.time = now := by
  obtain ⟨_, _, -, hv⟩ := mem_gather none hv
  exact time_turnVisits hv

theorem rounds_turn {now : Nat} {w w' : Worker} (ha : a.Steady)
    (h : turn now w a = some (w', b)) : Adapter.Rounds a (turnVisits now w a) b := by
  cases w with
  | fresh =>
    cases h
    exact .refl
  | waiting nextTick looked =>
    obtain ⟨notifications, kicked, rfl⟩ := take?_eq h
    exact (Adapter.Leads.chore (D := (· = .queue))
      (.queues a notifications kicked _ (.inl rfl))).rounds nofun ha
  | handling nextTick note =>
    cases h
    exact Adapter.rounds_handle ha now note
  | ticking =>
    cases h
    exact Adapter.rounds_tick ha now

theorem rounds_turns (now n : Nat) (w : Worker) (ha : a.Steady) :
    Adapter.Rounds a (gather (turnVisits now) now n w a) (turns now n w a).2 := by
  fun_induction turns now n w a with
  | case1 => exact .refl
  | case2 n w a w' b h ih =>
    rw [gather, h]
    have hturn : Adapter.Course Deed.Any none now a (turnMoments now w a) b :=
      passes_turn trivial trivial h ha
    exact (rounds_turn ha h).trans (ih (hturn.steady ha))
  | case3 n w a h =>
    rw [gather, h]
    exact .refl

end Worker

namespace Task

/-- The visits that a task makes when it is polled. -/
def visits (t : Task) (now : Nat) (a : Adapter σ) : List (Visit σ) :=
  match t with
  | .work w => w.pollVisits now a
  | _ => []

theorem rounds_poll {a : Adapter σ} (t : Task) (now : Nat) (ha : a.Steady) :
    Adapter.Rounds a (t.visits now a) (t.poll now a).2 := by
  cases t with
  | call c => exact Adapter.Steps.rounds (D := Deed.None) (c.yields_poll now a ha) id
  | post note => exact (leads_pollPost (D := (· = .queue)) note a rfl).rounds nofun ha
  | nextEvent => exact (leads_pollEvent (D := (· = .take)) a rfl).rounds nofun ha
  | work w => exact w.rounds_turns now _ ha

end Task

namespace Session
variable {s : Session σ} {actions : List (Action σ)}

/-- The visits of an action. -/
def visitsOf (s : Session σ) : Action σ → List (Visit σ)
  | .tick => s.adapter.tickVisits s.clock
  | .start => [⟨s.clock, .start, s.adapter.station⟩]
  | .stop => [⟨s.clock, .stop, s.adapter.station⟩]
  | .join ssid key => [⟨s.clock, .join ssid key, s.adapter.station⟩]
  | .scan => [⟨s.clock, .scan, s.adapter.station⟩]
  | .work => Worker.fresh.pollVisits s.clock s.adapter
  | .poll id => ((s.find? id).map fun t => t.visits s.clock s.adapter).getD []
  | action => (s.moments action).flatMap (Moment.visits s.clock)

/-- The visits of a history. -/
def visits (s : Session σ) : List (Action σ) → List (Visit σ)
  | [] => []
  | action :: rest => s.visitsOf action ++ visits (s.perform action).2 rest

theorem rounds_perform (hs : s.adapter.Steady) (action : Action σ) :
    Adapter.Rounds s.adapter (s.visitsOf action) (s.perform action).2.adapter := by
  cases action with
  | tick => exact Adapter.rounds_tick hs s.clock
  | start => exact s.adapter.rounds_request s.clock .start
  | stop => exact s.adapter.rounds_asked s.clock .stop
  | join ssid key => exact s.adapter.rounds_request s.clock (.join ssid key)
  | scan => exact s.adapter.rounds_request s.clock .scan
  | work =>
    show Adapter.Rounds _ _ (Reply.ofBegun (s.begin _)).2.adapter
    rw [adapter_ofBegun]
    exact (Task.work .fresh).rounds_poll s.clock hs
  | poll id =>
    show Adapter.Rounds _ (((s.find? id).map _).getD [])
      (Reply.ofPolled (s.pollWith Task.poll id)).2.adapter
    rw [adapter_ofPolled]
    cases s.find? id with
    | none => exact .refl
    | some t => exact t.rounds_poll s.clock hs
  | create | close | connect | receive | drop | notify | post | takeEvent | nextEvent =>
    exact (passes_perform s _ hs).rounds nofun hs
  | send | contend => exact (passes_perform s _ hs).rounds (fun hd => hd.elim nofun nofun) hs
  | _ => exact (passes_perform s _ hs).rounds id hs

/-- A history is rounds of its visits. -/
theorem rounds_run (hs : s.adapter.Steady) (actions : List (Action σ)) :
    Adapter.Rounds s.adapter (s.visits actions) (s.run actions).adapter := by
  induction actions generalizing s with
  | nil => exact .refl
  | cons action rest ih =>
    exact (rounds_perform hs action).trans (ih (steady_perform hs action))

/-- The visits of a history lead the link from where it was to where it is. -/
theorem tour_run (hs : s.adapter.Steady) (actions : List (Action σ)) :
    Tour (s.visits actions) s.adapter.link (s.run actions).adapter.link :=
  (rounds_run hs actions).tour

/-! ### The times of visits -/

/-- The visits of an action are made at its time. -/
theorem time_visitsOf {action : Action σ} {v : Visit σ} (hv : v ∈ s.visitsOf action) :
    v.time = s.clock := by
  have hmoments (ms : List (Moment σ)) (hv : v ∈ ms.flatMap (Moment.visits s.clock)) :
      v.time = s.clock := by
    obtain ⟨_, _, hv⟩ := List.mem_flatMap.mp hv
    exact Moment.time_visits hv
  cases action with
  | tick => exact Adapter.time_tickVisits hv
  | start | stop | join | scan => rw [List.mem_singleton.mp hv]
  | work => exact Worker.time_pollVisits hv
  | poll id =>
    change v ∈ ((s.find? id).map _).getD [] at hv
    cases hfind : s.find? id with
    | none =>
      rw [hfind] at hv
      cases hv
    | some t =>
      rw [hfind] at hv
      cases t with
      | work w => exact Worker.time_pollVisits hv
      | call | post | nextEvent => cases hv
  | _ => exact hmoments _ hv

/-- Time does not run back. -/
theorem clock_perform (s : Session σ) (action : Action σ) :
    s.clock ≤ (s.perform action).2.clock := by
  cases action with
  | bind | listen | post | nextEvent | work => exact Nat.le_of_eq (s.begin_keeps _).1.symm
  | poll id | contend id => exact Nat.le_of_eq (pollWith_keeps _ s id).1.symm
  | receive h =>
    show s.clock ≤ (s.receive h).2.clock
    unfold receive
    split <;> exact Nat.le_refl _
  | drop place =>
    show s.clock ≤ (s.drop place).2.clock
    unfold drop
    split <;> exact Nat.le_refl _
  | advance milliseconds => exact Nat.le_add_right ..
  | create | close | connect | send | setOption | dispatch | notify | tick | start | stop | join
  | scan | takeEvent | cancel | chip => exact Nat.le_refl _

theorem clock_le_time {v : Visit σ} (hv : v ∈ s.visits actions) : s.clock ≤ v.time := by
  induction actions generalizing s with
  | nil => cases hv
  | cons action rest ih =>
    rcases List.mem_append.mp hv with hv | hv
    · exact Nat.le_of_eq (time_visitsOf hv).symm
    · exact Nat.le_trans (clock_perform s action) (ih hv)

/-- The visits of a history are made in the order of their times. -/
theorem visits_in_time (s : Session σ) (actions : List (Action σ)) :
    (s.visits actions).Pairwise fun v w => v.time ≤ w.time := by
  induction actions generalizing s with
  | nil => exact .nil
  | cons action rest ih =>
    refine List.pairwise_append.mpr ⟨?_, ih _, fun v hv w hw => ?_⟩
    · refine List.pairwise_of_forall_mem_list fun v hv w hw => ?_
      exact Nat.le_of_eq ((time_visitsOf hv).trans (time_visitsOf hw).symm)
    · rw [time_visitsOf hv]
      exact Nat.le_trans (clock_perform s action) (clock_le_time hw)

end Session

end WifiAdapter
