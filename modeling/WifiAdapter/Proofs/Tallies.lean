import Mathlib.Data.List.Nodup
import WifiAdapter.Proofs.Records

/-! Tallies: packets queued, events announced, and the counters of both.

A packet is queued at a socket and announced in one move, and nothing else announces data. An event
is queued if fewer than sixteen wait, and otherwise it is lost and counted. So there is a tally of
whatever steps do (`Adapter.Tally`): the packets they queue are those they announce, one by one, and
the counters of packets, of bytes and of lost events grow by what is on the tally. A step by which
nothing is taken adds to the queues at most (`Adapter.Step.adds`); reading, closing and taking an
event have their tallies, too. -/
namespace WifiAdapter

/-! ### Counters -/

/-- A counter that shows some total, as far as it goes, comes to show so much more. -/
def Counts (n before after : Nat) : Prop :=
  ∀ total, before = min total counterMax → after = min (total + n) counterMax

theorem counts_zero (m : Nat) : Counts 0 m m := fun _ => id

theorem counts_saturatingAdd (m n : Nat) : Counts n m (saturatingAdd m n) := by
  rintro total rfl
  unfold saturatingAdd
  omega

theorem Counts.trans {m n x y z : Nat} (h : Counts m x y) (h' : Counts n y z) :
    Counts (m + n) x z := fun total hx => by
  rw [← Nat.add_assoc]
  exact h' _ (h total hx)

/-! ### Notices -/

/-- An event for the application, and whether its queue had room. -/
structure Notice where
  event : Event
  queued : Bool
deriving DecidableEq, Repr

def Entry.notice? : Entry → Option Notice
  | .event e queued => some ⟨e, queued⟩
  | _ => none

/-- The events of a history, with what became of them. -/
def Bus.notices {σ : Type} (b : Bus σ) : List Notice := b.journal.filterMap Entry.notice?

namespace Notice

/-- The socket that is said to have data. -/
def announced? : Notice → Option Handle
  | ⟨.readable h .data, _⟩ => some h
  | _ => none

/-- The events that found room. -/
def told (ns : List Notice) : List Event :=
  ns.filterMap fun n => if n.queued then some n.event else none

/-- The events that did not. -/
def lost (ns : List Notice) : List Event :=
  ns.filterMap fun n => if n.queued then none else some n.event

/-- Each event found room just if fewer than sixteen waited when it came: as many as waited at
first, and those that found room since. -/
def RoomFor : Nat → List Notice → Prop
  | _, [] => True
  | waiting, n :: rest =>
    (n.queued = true ↔ waiting < eventCapacity) ∧ RoomFor (waiting + (told [n]).length) rest

theorem told_append (ns more : List Notice) : told (ns ++ more) = told ns ++ told more :=
  List.filterMap_append

theorem lost_append (ns more : List Notice) : lost (ns ++ more) = lost ns ++ lost more :=
  List.filterMap_append

theorem roomFor_append {waiting : Nat} {ns more : List Notice} (h : RoomFor waiting ns)
    (h' : RoomFor (waiting + (told ns).length) more) : RoomFor waiting (ns ++ more) := by
  induction ns generalizing waiting with
  | nil => exact h'
  | cons n rest ih =>
    rw [← List.singleton_append, told_append, List.length_append, ← Nat.add_assoc] at h'
    exact ⟨h.1, ih h.2 h'⟩

end Notice

theorem Bus.notices_append {σ : Type} {b b' : Bus σ} (es : List Entry)
    (h : b'.journal = b.journal ++ es) : b'.notices = b.notices ++ es.filterMap Entry.notice? := by
  rw [notices, notices, h, List.filterMap_append]

/-! ### Packets -/

/-- The packets for one socket, in order. -/
def packetsFor (h : Handle) (arrivals : List (Handle × Packet)) : List Packet :=
  (arrivals.filter fun x => x.1 = h).map (·.2)

theorem packetsFor_append (h : Handle) (xs ys : List (Handle × Packet)) :
    packetsFor h (xs ++ ys) = packetsFor h xs ++ packetsFor h ys := by
  rw [packetsFor, List.filter_append, List.map_append]
  rfl

theorem packetsFor_cons (h k : Handle) (packet : Packet) (rest : List (Handle × Packet)) :
    packetsFor h ((k, packet) :: rest) =
      if k = h then packet :: packetsFor h rest else packetsFor h rest := by
  unfold packetsFor
  rw [List.filter_cons]
  by_cases hk : k = h <;> simp [hk]

/-- Socket by socket, all packets come up. -/
theorem packetsFor_perm (arrivals : List (Handle × Packet)) :
    (Handle.all.flatMap fun h => packetsFor h arrivals).Perm (arrivals.map (·.2)) := by
  induction arrivals with
  | nil => exact .of_eq (List.flatMap_eq_nil_iff.mpr fun _ _ => rfl)
  | cons arrival rest ih =>
    -- The packet comes up at its socket, and at no socket before or after it.
    obtain ⟨k, packet⟩ := arrival
    obtain ⟨before, after, hall⟩ := List.append_of_mem (Handle.mem_all k)
    have hnodup : (before ++ k :: after).Nodup := hall ▸ List.nodup_finRange maxSockets
    have hothers {l : List Handle} (hk : k ∉ l) :
        (l.flatMap fun h => packetsFor h ((k, packet) :: rest)) =
          l.flatMap fun h => packetsFor h rest :=
      List.flatMap_congr fun h hh => by
        rw [packetsFor_cons, if_neg fun heq : k = h => hk (heq ▸ hh)]
    obtain ⟨hbefore, hafter⟩ : k ∉ before ∧ k ∉ after :=
      not_or.mp (List.mem_append.not.mp (List.nodup_cons.mp (List.nodup_middle.mp hnodup)).1)
    rw [hall] at ih ⊢
    rw [List.flatMap_append, List.flatMap_cons, hothers hbefore, hothers hafter, packetsFor_cons,
      if_pos rfl]
    rw [List.flatMap_append, List.flatMap_cons] at ih
    exact List.perm_middle.trans (ih.cons packet)

namespace SocketTable

/-- The packets queued at a socket; at a free slot there are none. -/
def inbound (t : SocketTable) (h : Handle) : List Packet := ((t.get? h).map (·.inbound)).getD []

section Inbound
variable {t : SocketTable} {h : Handle}

theorem inbound_of_get {r : SocketRecord} (hr : t.get? h = some r) : t.inbound h = r.inbound := by
  rw [inbound, hr]
  rfl

theorem inbound_of_none (hr : t.get? h = none) : t.inbound h = [] := by
  rw [inbound, hr]
  rfl

theorem inbound_of_free (hfree : t.isOpen h = false) : t.inbound h = [] :=
  inbound_of_none (get?_of_free hfree)

theorem Keeps.inbound {t' : SocketTable} (hk : t.Keeps t') (h : Handle) :
    t'.inbound h = t.inbound h := by
  cases hr : t.get? h with
  | none => rw [inbound_of_none hr, inbound_of_none (hk.free h hr)]
  | some r =>
    obtain ⟨r', hr', hkeep⟩ := hk.record h r hr
    rw [inbound_of_get hr, inbound_of_get hr', hkeep.inbound]

/-- What is queued changes in one slot at most. -/
theorem inbound_modify (t : SocketTable) (h k : Handle) {f : SocketRecord → SocketRecord}
    {g : List Packet → List Packet} (hf : ∀ r, (f r).inbound = g r.inbound)
    (hopen : t.isOpen h = true) :
    (t.modify h f).inbound k = if h = k then g (t.inbound k) else t.inbound k := by
  rw [inbound, get?_modify]
  split
  · next hk =>
    subst hk
    obtain ⟨r, hr⟩ := Option.isSome_iff_exists.mp hopen
    rw [hr, inbound_of_get hr]
    exact hf r
  · rfl

/-- A slot that is taken into use has nothing queued, and had nothing. -/
theorem inbound_occupy (hfree : t.isOpen h = false) {r : SocketRecord} (hr : r.inbound = [])
    (k : Handle) : (t.occupy h r).inbound k = t.inbound k := by
  rw [inbound, get?_occupy]
  split
  · next hk =>
    subst hk
    rw [inbound_of_free hfree]
    exact hr
  · rfl

theorem inbound_release (t : SocketTable) (pool : Pool) (h k : Handle) :
    (t.release pool h).2.1.inbound k = if h = k then [] else t.inbound k := by
  rw [inbound, get?_release]
  split <;> rfl

end Inbound

end SocketTable

/-! ### Tallies -/

/-- Nothing is taken out of the queues that the application reads. -/
def Deed.Adding : Deed → Prop
  | .read _ | .shut _ | .take => False
  | _ => True

theorem Notification.adding {note : Notification} {d : Deed} (hd : d ∈ note.deed?) : d.Adding := by
  have hincoming := Notification.incoming hd
  cases d with
  | read | shut | take => exact hincoming
  | _ => trivial

namespace Adapter
variable {σ : Type}

/-- A tally of what leads from `a` to `b`: the packets that arrive at sockets and the events that
are offered to the application, in order. The sockets that are said to have data are those at which
the packets arrive, one by one. At each socket they are behind what is left of those that were
queued; what is taken of the events and what then waits are those that waited and those that found
room. -/
structure Tally (a b : Adapter σ) (left : Handle → List Packet) (taken : List Event)
    (arrivals : List (Handle × Packet)) (news : List Notice) : Prop where
  entered : b.bus.notices = a.bus.notices ++ news
  announced : news.filterMap Notice.announced? = arrivals.map (·.1)
  inbound : ∀ h, b.table.inbound h = left h ++ packetsFor h arrivals
  packets : Counts arrivals.length a.stats.rxPackets b.stats.rxPackets
  bytes : Counts (arrivals.flatMap (·.2.data)).length a.stats.rxBytes b.stats.rxBytes
  room : Notice.RoomFor a.events.items.length news
  events : taken ++ b.events.items = a.events.items ++ Notice.told news
  dropped : Counts (Notice.lost news).length a.stats.droppedEvents b.stats.droppedEvents

/-- There is a tally of what leads from `a` to `b`. -/
def Tallied (a b : Adapter σ) (left : Handle → List Packet) (taken : List Event) : Prop :=
  ∃ arrivals news, a.Tally b left taken arrivals news

/-- There is a tally, and nothing is taken out of a queue. -/
def Adds (a b : Adapter σ) : Prop := a.Tallied b a.table.inbound []

/-- Neither the queues nor what is counted of them change. -/
structure Mute (a b : Adapter σ) : Prop where
  inbound : ∀ h, b.table.inbound h = a.table.inbound h
  notices : b.bus.notices = a.bus.notices
  events : b.events = a.events
  stats : b.stats =
    { a.stats with flowPauses := b.stats.flowPauses, discarded := b.stats.discarded }

section Tallies
variable {a b c : Adapter σ}

/-- What is taken is on the tally, and nothing else. -/
theorem tally_of_taken {left : Handle → List Packet} {taken : List Event}
    (hinbound : ∀ h, b.table.inbound h = left h) (hnotices : b.bus.notices = a.bus.notices)
    (hevents : taken ++ b.events.items = a.events.items)
    (hstats : b.stats =
      { a.stats with flowPauses := b.stats.flowPauses, discarded := b.stats.discarded }) :
    a.Tally b left taken [] [] where
  entered := hnotices.trans (List.append_nil _).symm
  announced := rfl
  inbound h := (hinbound h).trans (List.append_nil _).symm
  packets := by rw [hstats]; exact counts_zero _
  bytes := by rw [hstats]; exact counts_zero _
  room := trivial
  events := hevents.trans (List.append_nil _).symm
  dropped := by rw [hstats]; exact counts_zero _

theorem Mute.adds (h : a.Mute b) : a.Adds b :=
  ⟨[], [], tally_of_taken h.inbound h.notices (congrArg (·.items) h.events) h.stats⟩

/-- Nothing is entered that is an event. -/
theorem Mute.of_entries (hinbound : ∀ h, b.table.inbound h = a.table.inbound h) (es : List Entry)
    (hjournal : b.bus.journal = a.bus.journal ++ es) (hes : es.filterMap Entry.notice? = [])
    (hevents : b.events = a.events)
    (hstats : b.stats =
      { a.stats with flowPauses := b.stats.flowPauses, discarded := b.stats.discarded }) :
    a.Mute b :=
  ⟨hinbound, by rw [Bus.notices_append es hjournal, hes, List.append_nil], hevents, hstats⟩

theorem Mute.trans (h : a.Mute b) (h' : b.Mute c) : a.Mute c :=
  ⟨fun k => (h'.inbound k).trans (h.inbound k), h'.notices.trans h.notices,
    h'.events.trans h.events, by rw [h'.stats, h.stats]⟩

theorem Adds.refl (a : Adapter σ) : a.Adds a := Mute.adds ⟨fun _ => rfl, rfl, rfl, rfl⟩

theorem Adds.trans (hab : a.Adds b) (hbc : b.Adds c) : a.Adds c := by
  obtain ⟨xs, news, hab⟩ := hab
  obtain ⟨ys, more, hbc⟩ := hbc
  have hitems : b.events.items = a.events.items ++ Notice.told news := hab.events
  refine ⟨xs ++ ys, news ++ more, ?_, ?_, fun h => ?_, ?_, ?_, ?_, ?_, ?_⟩
  · rw [hbc.entered, hab.entered, List.append_assoc]
  · rw [List.filterMap_append, hab.announced, hbc.announced, List.map_append]
  · rw [hbc.inbound, hab.inbound, packetsFor_append, List.append_assoc]
  · rw [List.length_append]
    exact hab.packets.trans hbc.packets
  · rw [List.flatMap_append, List.length_append]
    exact hab.bytes.trans hbc.bytes
  · refine Notice.roomFor_append hab.room ?_
    rw [← List.length_append, ← hitems]
    exact hbc.room
  · rw [Notice.told_append, ← List.append_assoc]
    exact hbc.events.trans (congrArg (· ++ _) hitems)
  · rw [Notice.lost_append, List.length_append]
    exact hab.dropped.trans hbc.dropped

/-! ### One step -/

/-- An event is queued behind those that wait, or it is lost and counted. -/
theorem announce_notice (a : Adapter σ) (e : Event) : ∃ queued,
    (a.announce e).bus.notices = a.bus.notices ++ [⟨e, queued⟩] ∧
    Notice.RoomFor a.events.items.length [⟨e, queued⟩] ∧
    (a.announce e).events.items = a.events.items ++ Notice.told [⟨e, queued⟩] ∧
    Counts (Notice.lost [⟨e, queued⟩]).length a.stats.droppedEvents
      (a.announce e).stats.droppedEvents ∧
    (a.announce e).stats =
      { a.stats with droppedEvents := (a.announce e).stats.droppedEvents } := by
  have hwithin := a.events.within
  by_cases hfull : a.events.items.length = eventCapacity
  · rw [announce_of_full a e hfull]
    refine ⟨false, Bus.notices_append [.event e false] rfl, ⟨?_, trivial⟩,
      (List.append_nil _).symm, counts_saturatingAdd _ 1, rfl⟩
    exact iff_of_false Bool.false_ne_true (by omega)
  · obtain ⟨events, hitems, heq⟩ := announce_of_room a e hfull
    rw [heq]
    refine ⟨true, Bus.notices_append [.event e true] rfl, ⟨?_, trivial⟩, hitems, counts_zero _, rfl⟩
    exact iff_of_true rfl (by omega)

/-- The event does not say that there is data. -/
theorem adds_announce (a : Adapter σ) {e : Event}
    (he : ∀ queued, Notice.announced? ⟨e, queued⟩ = none) : a.Adds (a.announce e) := by
  obtain ⟨queued, hnotices, hroom, hevents, hdropped, hstats⟩ := a.announce_notice e
  refine ⟨[], [⟨e, queued⟩], hnotices, ?_, fun h => ?_, ?_, ?_, hroom, hevents, hdropped⟩
  · exact List.filterMap_cons_none (he queued)
  · rw [table_announce]
    exact (List.append_nil _).symm
  · rw [hstats]
    exact counts_zero _
  · rw [hstats]
    exact counts_zero _

/-- A packet is queued at an open socket and announced. -/
theorem adds_handOver (a : Adapter σ) {h : Handle} (hopen : a.table.isOpen h = true)
    (packet : Packet) : a.Adds (a.handOver h packet) := by
  obtain ⟨queued, hnotices, hroom, hevents, hdropped, hstats⟩ :=
    (a.counted h packet).announce_notice (.readable h .data)
  refine ⟨[(h, packet)], [⟨.readable h .data, queued⟩], hnotices, rfl, fun k => ?_, ?_, ?_, hroom,
    hevents, hdropped⟩
  · rw [table_handOver, packetsFor_cons,
      a.table.inbound_modify h k (g := (· ++ [packet])) (fun _ => rfl) hopen]
    split
    · rfl
    · exact (List.append_nil _).symm
  · rw [handOver_eq, hstats]
    exact counts_saturatingAdd _ 1
  · rw [handOver_eq, hstats, List.flatMap_singleton]
    exact counts_saturatingAdd _ packet.data.length

/-- The end of a stream is told, which is no data. -/
theorem adds_endStream (a : Adapter σ) {h : Handle} (hopen : a.table.isOpen h = true)
    (status : Status) {read : ReadStatus} (hread : read ≠ .data) :
    a.Adds (a.endStream h status read) := by
  let ended (r : SocketRecord) : SocketRecord := { r with peerClosed := true, poll := false }
  have hmarked : a.Mute (((a.onRx .dropPartial).modify h ended).wake h status) := by
    rw [wake_eq]
    refine ⟨fun k => ?_, rfl, rfl, rfl⟩
    refine (a.table.inbound_modify h k (f := ended) (g := id) (fun _ => rfl) hopen).trans ?_
    exact ite_self _
  rw [endStream_eq a hopen]
  refine hmarked.adds.trans (adds_announce _ fun queued => ?_)
  cases read with
  | data => exact absurd rfl hread
  | endOfStream | failed => rfl

theorem mute_onRx (a : Adapter σ) (f : RxState → RxState) : a.Mute (a.onRx f) :=
  ⟨fun _ => rfl, rfl, rfl, rfl⟩

theorem mute_occupied (a : Adapter σ) {h : Handle} (hfree : a.table.isOpen h = false)
    {r : SocketRecord} (hr : r.inbound = []) : a.Mute (a.occupied h r) :=
  .of_entries (SocketTable.inbound_occupy hfree hr) [.opened _] rfl rfl rfl rfl

theorem Answered.adds {i : Incarnation} {d : Delivery} (hab : a.Answered i d b) (ha : a.Steady)
    (hout : a.rx.outstanding? = some i) : a.Adds b := by
  have hopen (f : RxState → RxState) :
      ((a.noted (.socket i.handle (.received d))).onRx f).table.isOpen i.handle = true :=
    ha.isOpen hout
  have hnoted (f : RxState → RxState) :
      a.Adds ((a.noted (.socket i.handle (.received d))).onRx f) :=
    Mute.adds (.of_entries (fun _ => rfl) [.handled _ _] rfl rfl rfl rfl)
  cases hab with
  | noData | keep => exact hnoted _
  | finish => exact (hnoted _).trans (adds_handOver _ (hopen (·.part.withdraw)) _)
  | ended _ hread => exact (hnoted _).trans (adds_endStream _ (hopen .withdraw) _ hread)

theorem CallStep.mute {h : Handle} (hab : CallStep h a b) : a.Mute b := by
  have hinbound := hab.quiet.table.inbound
  cases hab with
  | request | revert | disarm | mark => exact ⟨hinbound, rfl, rfl, rfl⟩
  | park => exact .of_entries hinbound [.parked _] rfl rfl rfl rfl
  | take => exact .of_entries hinbound [.taken _ _] rfl rfl rfl rfl

variable [Chip σ]

theorem mute_order (a : Adapter σ) (c : Command) : a.Mute (a.order c) :=
  .of_entries (fun _ => rfl) [.command c _] rfl rfl rfl rfl

theorem Chore.adds (hab : Chore Deed.Adding a b) : a.Adds b := by
  have hinbound := hab.quiet.table.inbound
  cases hab with
  | writable | linkEvent => exact adds_announce a fun _ => rfl
  | take _ hd => exact hd.elim
  | opening kind hd => exact (Mute.of_entries hinbound [.opening kind _] rfl rfl rfl rfl).adds
  | command | turnAway | transmit => exact (mute_order a _).adds
  | note => exact (Mute.of_entries hinbound [.handled _ _] rfl rfl rfl rfl).adds
  | connect => exact (Mute.of_entries hinbound [.command _ _] rfl rfl rfl rfl).adds
  | complete =>
    refine (Mute.of_entries hinbound [.completed _ _ _] (journal_complete ..) rfl ?_ ?_).adds
    · unfold Adapter.complete
      rw [wake_eq]
      rfl
    · unfold Adapter.complete
      rw [wake_eq]
      rfl
  | _ => exact Mute.adds ⟨hinbound, rfl, rfl, rfl⟩

theorem mute_resumeFlow (a : Adapter σ) : a.Mute a.resumeFlow := by
  obtain ⟨bus, es, heq, hjournal, hes⟩ := resumeFlow_eq a
  rw [heq]
  refine .of_entries (fun _ => rfl) es hjournal ?_ rfl rfl
  refine List.filterMap_eq_nil_iff.mpr fun e he => ?_
  obtain ⟨_, rfl⟩ := hes e he
  rfl

theorem mute_pauseFlow (a : Adapter σ) : a.Mute a.pauseFlow := by
  unfold pauseFlow
  split
  · exact ⟨fun _ => rfl, rfl, rfl, rfl⟩
  · exact .of_entries (fun _ => rfl) [.command _ _] rfl rfl rfl rfl

theorem Move.adds (hab : Move Deed.Adding a b) (ha : a.Steady) : a.Adds b := by
  cases hab with
  | chore hab => exact hab.adds
  | @create kind h _ hfree hd =>
    have hoccupied := mute_occupied { a with bus := (a.bus.openSocket kind).2 } (h := h) hfree
      (r := .new kind) rfl
    exact (Chore.opening a kind hd).adds.trans hoccupied.adds
  | @register listener child r _ _ peer _ hfree =>
    have hoccupied := mute_occupied a hfree (r := .accepted r.kind peer) rfl
    have htold := hoccupied.adds.trans
      (adds_announce _ (e := .newConnection listener child) fun _ => rfl)
    rw [register_eq]
    dsimp only
    split
    · exact htold
    · -- The slot is freed again, and nothing is queued in it.
      refine htold.trans (Mute.trans ?_ (mute_order _ (.close child))).adds
      refine ⟨fun k => ?_, rfl, rfl, rfl⟩
      refine (SocketTable.inbound_release ..).trans ?_
      split
      · next hk =>
        subst hk
        rw [table_announce]
        exact ((hoccupied.inbound child).trans (SocketTable.inbound_of_free hfree)).symm
      · rfl
  | read h hd => exact hd.elim
  | resume => exact (mute_resumeFlow a).adds
  | @lease packet pool =>
    have hleased : a.Mute ({ a with pool }.onRx fun x => { x with packet? := some packet }) :=
      ⟨fun _ => rfl, rfl, rfl, rfl⟩
    exact (hleased.trans (mute_resumeFlow _)).adds
  | pause => exact (mute_pauseFlow a).adds
  | settle _ howner =>
    have hopen : (a.onRx .part).table.isOpen _ = true := ha.sound.isOpen (.inr howner)
    exact (mute_onRx a _).adds.trans (adds_handOver _ hopen _)
  | ask _ hpacket =>
    rw [ask_eq a _ hpacket]
    dsimp only
    split
    · dsimp only
      exact ((mute_order a _).trans (mute_onRx _ _)).adds
    · exact (mute_order a _).adds
  | answer hout _ hab => exact hab.adds ha hout

/-- A step by which nothing is taken queues no packet that it does not announce, and announces none
that it does not queue. -/
theorem Step.adds {site? : Option Handle} (hab : Step Deed.Adding site? a b) (ha : a.Steady) :
    a.Adds b := by
  cases hab with
  | move hab => exact hab.adds ha
  | close hsite hd => exact hd.elim
  | call _ hcall => exact hcall.mute.adds

theorem Yields.adds {site? : Option Handle} (hab : Yields Deed.Adding site? a b) (ha : a.Steady) :
    a.Adds b := by
  have hsteps := hab ha
  clear hab
  induction hsteps with
  | refl => exact .refl a
  | tail hsteps hstep ih => exact ih.trans (hstep.adds (Steps.steady hsteps ha))

/-! ### What is taken -/

omit [Chip σ] in
theorem tallied_takeEvent (a : Adapter σ) :
    a.Tallied a.takeEvent.2 a.table.inbound a.takeEvent.1.toList := by
  refine ⟨[], [], ?_⟩
  unfold takeEvent
  cases hpop : a.events.pop? with
  | none => exact tally_of_taken (fun _ => rfl) rfl rfl rfl
  | some popped =>
    exact tally_of_taken (fun _ => rfl) rfl (Queue.items_pop? hpop).symm rfl

omit [Chip σ] in
theorem tallied_receive (a : Adapter σ) (h : Handle) :
    a.Tallied (a.receive h).2
      (fun k => if h = k then (a.table.inbound k).tail else a.table.inbound k) [] := by
  have hidle (hempty : a.table.inbound h = []) (k : Handle) :
      a.table.inbound k = if h = k then (a.table.inbound k).tail else a.table.inbound k := by
    split
    · next hk => rw [← hk, hempty, List.tail_nil]
    · rfl
  refine ⟨[], [], ?_⟩
  unfold receive SocketTable.get
  cases hr : a.table.get? h with
  | none => exact tally_of_taken (hidle (SocketTable.inbound_of_none hr)) rfl rfl rfl
  | some r =>
    dsimp only
    cases hinbound : r.inbound with
    | nil =>
      have hempty := (SocketTable.inbound_of_get hr).trans hinbound
      exact tally_of_taken (hidle hempty) rfl rfl rfl
    | cons packet rest =>
      refine tally_of_taken (fun k => ?_) ?_ rfl rfl
      · have hopen : a.table.isOpen h = true := by rw [SocketTable.isOpen, hr]; rfl
        refine (a.table.inbound_modify h k (g := fun _ => rest) (fun _ => rfl) hopen).trans ?_
        split
        · next hk => rw [← hk, SocketTable.inbound_of_get hr, hinbound, List.tail_cons]
        · rfl
      · exact (Bus.notices_append [.read _ packet] rfl).trans (List.append_nil _)

theorem tallied_close (a : Adapter σ) (h : Handle) :
    a.Tallied (a.close h) (fun k => if h = k then [] else a.table.inbound k) [] := by
  refine ⟨[], [], ?_⟩
  cases hr : a.table.get? h with
  | none =>
    rw [close_none a h hr]
    refine tally_of_taken (fun k => ?_) rfl rfl rfl
    split
    · next hk => rw [← hk, SocketTable.inbound_of_none hr]
    · rfl
  | some r =>
    obtain ⟨answer, hjournal⟩ := journal_close a hr
    refine tally_of_taken (fun k => ?_) ?_ ?_ ?_
    · rw [table_close a hr]
      exact a.table.inbound_release a.pool h k
    · exact (Bus.notices_append _ hjournal).trans (List.append_nil _)
    · rw [close_some a hr]
      dsimp only
      split <;> rfl
    · rw [close_some a hr]
      dsimp only
      split <;> rfl

end Tallies

end Adapter

end WifiAdapter
