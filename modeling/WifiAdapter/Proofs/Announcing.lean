import WifiAdapter.Proofs.Serving
import WifiAdapter.Proofs.Tallies

/-! What the application is told, what it misses, and what the counters say.

Every action has its tally (`Session.tallies_perform`). What the application takes and what waits
for it are then the events of the whole history that found room, and the counters say how many did
not, and how many packets were ever queued and of how many bytes (`Session.packets_announced`). -/
namespace WifiAdapter

/-! ### Tasks -/

namespace Task
variable {σ : Type}

/-- The event that a finished task was waiting for. -/
def event? : Outcome → Option Event
  | .finished (.event e) => some e
  | _ => none

theorem event?_ofCall (outcome : Call.Outcome) : event? (ofCall outcome) = none := by
  cases outcome <;> rfl

theorem event?_pollPost (note : Notification) (a : Adapter σ) :
    event? (pollPost note a).1 = none := by
  rcases pollPost_cases note a with ⟨_, _, heq⟩ | heq <;> rw [heq] <;> rfl

theorem tallied_pollEvent (a : Adapter σ) :
    a.Tallied (pollEvent a).2 a.table.inbound (event? (pollEvent a).1).toList := by
  have htake := a.tallied_takeEvent
  unfold pollEvent
  generalize a.takeEvent = taken at htake ⊢
  obtain ⟨_ | e, b⟩ := taken <;> exact htake

variable [Chip σ] {a : Adapter σ}

/-- Nothing is taken by a task that does not wait for an event. -/
theorem tallied_of_yields (site? : Option Handle) {looked : Outcome × Adapter σ}
    (h : Adapter.Yields Deed.Adding site? a looked.2) (ha : a.Steady)
    (hevent : event? looked.1 = none) :
    a.Tallied looked.2 a.table.inbound (event? looked.1).toList := by
  rw [hevent]
  exact h.adds ha

theorem tallied_poll (t : Task) (now : Nat) (ha : a.Steady) :
    a.Tallied (t.poll now a).2 a.table.inbound (event? (t.poll now a).1).toList := by
  cases t with
  | call c => exact tallied_of_yields _ (c.yields_poll now a) ha (event?_ofCall _)
  | post note =>
    exact tallied_of_yields none (leads_pollPost note a trivial).yields ha
      (event?_pollPost note a)
  | nextEvent => exact tallied_pollEvent a
  | work w =>
    have hsteps : Adapter.Yields Deed.Adding none a (w.poll now a).2 := fun ha =>
      (w.passes_poll (D := Deed.Adding) now a trivial trivial ha).steps_of (fun _ => id)
        (fun _ _ => Notification.adding) trivial ha
    exact tallied_of_yields _ hsteps ha rfl

theorem tallied_contend (t : Task) (now : Nat) (ha : a.Steady) :
    a.Tallied (t.contend now a).2 a.table.inbound (event? (t.contend now a).1).toList := by
  cases t with
  | call c => exact tallied_of_yields _ (c.yields_look now a) ha rfl
  | post note =>
    exact tallied_of_yields none (leads_pollPost note a trivial).yields ha
      (event?_pollPost note a)
  | nextEvent => exact tallied_pollEvent a
  | work w => exact tallied_of_yields none (w.yields_contend now a trivial) ha rfl

end Task

/-! ### Actions -/

/-- The event that the application is given. -/
def Reply.event? : Reply → Option Event
  | .event e? => e?
  | .finished (.event e) => some e
  | _ => none

namespace Session
variable {σ : Type}

theorem event?_ofBegun (s : Session σ) (f : Nat → Adapter σ → Task.Outcome × Adapter σ) :
    (Reply.ofBegun (s.begin f)).1.event? = Task.event? (f s.clock s.adapter).1 := by
  unfold begin
  generalize f s.clock s.adapter = looked
  obtain ⟨_ | result, a⟩ := looked
  · rfl
  · cases result <;> rfl

theorem event?_ofPolled (s : Session σ) (id : Nat)
    (f : Task → Nat → Adapter σ → Task.Outcome × Adapter σ) :
    (Reply.ofPolled (s.pollWith f id)).1.event? =
      (s.find? id).bind fun t => Task.event? (f t s.clock s.adapter).1 := by
  unfold pollWith
  cases s.find? id with
  | none => rfl
  | some t =>
    dsimp only [Option.bind_some]
    generalize f t s.clock s.adapter = looked
    obtain ⟨_ | result, a⟩ := looked
    · rfl
    · cases result <;> rfl

/-- What an action leaves of the packets queued at a socket. -/
def left (s : Session σ) : Action σ → Handle → List Packet
  | .receive h, k => if h = k then (s.adapter.table.inbound k).tail else s.adapter.table.inbound k
  | .close h, k => if h = k then [] else s.adapter.table.inbound k
  | _, k => s.adapter.table.inbound k

variable [Chip σ]

/-- The event that an action takes. -/
def taken (s : Session σ) (action : Action σ) : List Event :=
  (s.perform action).1.event?.toList

/-- The packets that an action queues, socket by socket. -/
def appended (s : Session σ) (action : Action σ) : List Packet :=
  Handle.all.flatMap fun h =>
    ((s.perform action).2.adapter.table.inbound h).drop (s.left action h).length

/-- There is a tally of an action. -/
def Tallies (s : Session σ) (action : Action σ) : Prop :=
  s.adapter.Tallied (s.perform action).2.adapter (s.left action) (s.taken action)

section Actions
variable {s : Session σ} {action : Action σ}

theorem tallies_begin {f : Nat → Adapter σ → Task.Outcome × Adapter σ}
    (hperform : s.perform action = Reply.ofBegun (s.begin f))
    (hleft : s.left action = s.adapter.table.inbound)
    (hf : s.adapter.Tallied (f s.clock s.adapter).2 s.adapter.table.inbound
      (Task.event? (f s.clock s.adapter).1).toList) : s.Tallies action := by
  rw [Tallies, taken, hperform, hleft, event?_ofBegun, adapter_ofBegun]
  exact hf

theorem tallies_pollWith {f : Task → Nat → Adapter σ → Task.Outcome × Adapter σ} {id : Nat}
    (hperform : s.perform action = Reply.ofPolled (s.pollWith f id))
    (hleft : s.left action = s.adapter.table.inbound)
    (hf : ∀ t : Task, s.adapter.Tallied (f t s.clock s.adapter).2 s.adapter.table.inbound
      (Task.event? (f t s.clock s.adapter).1).toList) : s.Tallies action := by
  rw [Tallies, taken, hperform, hleft, event?_ofPolled, adapter_ofPolled]
  cases s.find? id with
  | none => exact Adapter.Adds.refl _
  | some t => exact hf t

/-- An action that takes nothing adds to the queues at most. -/
theorem tallies_of_deeds (hs : s.adapter.Steady) (hleft : s.left action = s.adapter.table.inbound)
    (htaken : (s.perform action).1.event? = none) (hdeeds : ∀ d, deeds action d → d.Adding) :
    s.Tallies action := by
  have hyields : Adapter.Yields Deed.Adding (s.site? action) s.adapter
      (s.perform action).2.adapter := fun hs =>
    (passes_perform s action hs).steps_of hdeeds (fun _ _ => Notification.adding) trivial hs
  rw [Tallies, taken, hleft, htaken]
  exact hyields.adds hs

/-- Every action has its tally. -/
theorem tallies_perform (hs : s.adapter.Steady) (action : Action σ) : s.Tallies action := by
  cases action with
  | takeEvent => exact s.adapter.tallied_takeEvent
  | nextEvent => exact tallies_begin rfl rfl (Task.tallied_pollEvent _)
  | receive h =>
    have htallied := s.adapter.tallied_receive h
    show s.adapter.Tallied (s.receive h).2.adapter _ _
    unfold receive
    generalize s.adapter.receive h = received at htallied ⊢
    obtain ⟨_ | _, b⟩ := received <;> exact htallied
  | close h => exact s.adapter.tallied_close h
  | bind h address =>
    exact tallies_begin rfl rfl (Task.tallied_of_yields _ (Call.yields_bind h address _ _) hs
      (Task.event?_ofCall _))
  | listen h backlog =>
    exact tallies_begin rfl rfl (Task.tallied_of_yields _ (Call.yields_listen h backlog _ _) hs
      (Task.event?_ofCall _))
  | post note =>
    exact tallies_begin rfl rfl (Task.tallied_poll (.post note) s.clock hs)
  | work => exact tallies_begin rfl rfl (Task.tallied_poll (.work .fresh) s.clock hs)
  | poll id => exact tallies_pollWith rfl rfl fun t => t.tallied_poll _ hs
  | contend id => exact tallies_pollWith rfl rfl fun t => t.tallied_contend _ hs
  | create | connect | drop | notify | tick | start | stop | join | scan =>
    exact tallies_of_deeds hs rfl rfl fun d hd => by cases hd; trivial
  | send => exact tallies_of_deeds hs rfl rfl fun d hd => by rcases hd with rfl | rfl <;> trivial
  | setOption | dispatch | cancel | advance | chip =>
    exact tallies_of_deeds hs rfl rfl fun _ hd => hd.elim

/-- What is queued in an action is what the tally says, socket by socket. -/
theorem appended_perm {taken : List Event} {arrivals : List (Handle × Packet)} {news : List Notice}
    (h : s.adapter.Tally (s.perform action).2.adapter (s.left action) taken arrivals news) :
    (s.appended action).Perm (arrivals.map (·.2)) := by
  have happended : s.appended action = Handle.all.flatMap fun k => packetsFor k arrivals :=
    List.flatMap_congr fun k _ => by rw [h.inbound, List.drop_left]
  rw [happended]
  exact packetsFor_perm arrivals

end Actions

/-! ### Histories -/

/-- The tallies of a history, put together. -/
theorem tallied_run {s : Session σ} (hs : s.adapter.Steady) (actions : List (Action σ)) :
    ∃ news, (s.run actions).adapter.bus.notices = s.adapter.bus.notices ++ news ∧
      s.gather taken actions ++ (s.run actions).adapter.events.items =
        s.adapter.events.items ++ Notice.told news ∧
      Counts (Notice.lost news).length s.adapter.stats.droppedEvents
        (s.run actions).adapter.stats.droppedEvents ∧
      Counts (s.gather appended actions).length s.adapter.stats.rxPackets
        (s.run actions).adapter.stats.rxPackets ∧
      Counts ((s.gather appended actions).flatMap (·.data)).length s.adapter.stats.rxBytes
        (s.run actions).adapter.stats.rxBytes := by
  induction actions generalizing s with
  | nil =>
    exact ⟨[], (List.append_nil _).symm, (List.append_nil _).symm, counts_zero _, counts_zero _,
      counts_zero _⟩
  | cons action rest ih =>
    obtain ⟨arrivals, news, htally⟩ := tallies_perform hs action
    obtain ⟨more, hnotices, hevents, hdropped, hpackets, hbytes⟩ := ih (steady_perform hs action)
    have hperm := appended_perm htally
    refine ⟨news ++ more, ?_, ?_, ?_, ?_, ?_⟩
    · rw [run, hnotices, htally.entered, List.append_assoc]
    · rw [run, gather, List.append_assoc, hevents, ← List.append_assoc, htally.events,
        List.append_assoc, Notice.told_append]
    · rw [Notice.lost_append, List.length_append]
      exact htally.dropped.trans hdropped
    · rw [gather, List.length_append, hperm.length_eq, List.length_map]
      exact htally.packets.trans hpackets
    · rw [gather, List.flatMap_append, List.length_append, (hperm.flatMap_right _).length_eq,
        List.flatMap_map]
      exact htally.bytes.trans hbytes

/-- **A packet is queued and announced in one, and no event is lost uncounted.** Whatever is done
next, the packets that it queues are those that it announces, and an event finds room if fewer than
sixteen wait (`Adapter.Tally`). The application has been given, and will find waiting, the events
that found room, in order; the others are counted, and so are all packets ever queued and their
bytes, as far as the counters go. -/
theorem packets_announced (chip : σ) (packets : Nat) (config : Config)
    (actions : List (Action σ)) :
    let start := new chip packets config
    let s := start.run actions
    let a := s.adapter
    (∀ action, s.Tallies action) ∧
      start.gather taken actions ++ a.events.items = Notice.told a.bus.notices ∧
      a.shownStats.droppedEvents = min (Notice.lost a.bus.notices).length counterMax ∧
      a.shownStats.rxPackets = min (start.gather appended actions).length counterMax ∧
      a.shownStats.rxBytes =
        min ((start.gather appended actions).flatMap (·.data)).length counterMax := by
  intro start s a
  have hstart : start.adapter.Steady := Adapter.steady_new chip packets config
  obtain ⟨news, hnotices, hevents, hdropped, hpackets, hbytes⟩ := tallied_run hstart actions
  obtain rfl : news = a.bus.notices := hnotices.symm
  have hzero (n : Nat) : min (0 + n) counterMax = min n counterMax := by rw [Nat.zero_add]
  exact ⟨tallies_perform (steady_run hstart actions), hevents, (hdropped 0 rfl).trans (hzero _),
    (hpackets 0 rfl).trans (hzero _), (hbytes 0 rfl).trans (hzero _)⟩

end Session

end WifiAdapter
