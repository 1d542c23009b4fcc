import WifiAdapter.Proofs.Apart
import WifiAdapter.Proofs.Intake
import WifiAdapter.Proofs.Reopening

/-! One receive at a time.

A receive that the chip took is outstanding until a delivery for its socket is handled or the
chip is told to close it. `Turn` says once what a step can do to the outstanding receive; from it
follows that the state of receiving and the journal agree on which one it is (`Asking`), after
every step. The size of packets is that of the settings (`Sized`), so no receive asks for nothing.
What becomes of an answer that comes after its socket was closed is told in `LateAnswers`.

`one_receive_outstanding`: before the next receive the one before is answered or its socket
closed, and an answer finds the room that was asked for. -/
namespace WifiAdapter

namespace Entry

/-- A receive that the chip took. -/
def request (h : Handle) (room timeout : Nat) : Entry :=
  .command (.receive h room timeout) (.accepted ())

/-- A receive, whether the chip took it or not. -/
def Asks : Entry → Prop
  | .command (.receive ..) _ => True
  | _ => False

/-- Whether a delivery for a socket is handled. -/
def delivers (h : Handle) : Entry → Bool
  | .handled (.socket k (.received _)) _ => k == h
  | _ => false

/-- Whether the chip is told to close a socket. -/
def closes (h : Handle) : Entry → Bool
  | .command (.close k) _ => k == h
  | _ => false

/-- Nothing is asked for, nothing delivered and no slot taken into use. -/
structure Aside (e : Entry) : Prop where
  asks : ¬ e.Asks
  delivers : ∀ h, e.delivers h = false
  opens : ∀ h, e.opens h = false

theorem aside_event (event : Event) (told : Bool) : (Entry.event event told).Aside :=
  ⟨id, fun _ => rfl, fun _ => rfl⟩

theorem aside_command {c : Command} (answer : Answer Unit)
    (hc : ∀ h room timeout, c ≠ .receive h room timeout) : (Entry.command c answer).Aside := by
  refine ⟨fun h => ?_, fun _ => rfl, fun _ => rfl⟩
  cases c with
  | receive k room timeout => exact hc k room timeout rfl
  | _ => exact h

/-- An entry of a longer history stood before, or it was added. -/
theorem split_append {es more before since : List Entry} {e : Entry}
    (h : es ++ more = before ++ e :: since) :
    (∃ since', es = before ++ e :: since' ∧ since = since' ++ more) ∨
      ∃ before', before = es ++ before' ∧ more = before' ++ e :: since := by
  rcases List.append_eq_append_iff.mp h with ⟨before', hbefore, hmore⟩ | ⟨rest, hes, hrest⟩
  · exact .inr ⟨before', hbefore, hmore⟩
  · cases rest with
    | nil => exact .inr ⟨[], by simpa using hes.symm, by simpa using hrest.symm⟩
    | cons e' since' =>
      obtain ⟨rfl, rfl⟩ := List.cons.inj hrest
      exact .inl ⟨since', hes, rfl⟩

end Entry

namespace RxState
variable {x : RxState} {t : SocketTable} {i : Incarnation}

theorem Sound.outstanding (h : x.Sound t) (hi : x.cursor? = some i) : x.outstanding? = some i := by
  unfold outstanding?
  rw [if_pos (h.polling.mpr (by rw [hi]; rfl)), hi]

/-- A socket that is neither asked nor has bytes in flight is closed. -/
theorem Sound.leave_other (h : x.Sound t) (hi : x.cursor? = some i) {k : Handle}
    (hne : i.handle ≠ k) : x.leave k = x := by
  have hcursor : x.cursor?.any (·.handle == k) = false := by
    rw [hi]
    exact beq_eq_false_iff_ne.mpr hne
  have howner : x.owner?.any (·.handle == k) = false := by
    rcases (h.asked i hi).owner with ho | ho
    · rw [ho]
      rfl
    · rw [ho]
      exact beq_eq_false_iff_ne.mpr hne
  unfold RxState.leave
  simp only [hcursor, howner, Bool.false_eq_true, if_false]

theorem cursor_leave_self (hi : x.cursor? = some i) : (x.leave i.handle).cursor? = none := by
  rw [cursor_leave, hi, Option.any_some, if_pos (beq_self_eq_true _)]

theorem cursor_leave_none (hi : x.cursor? = none) (k : Handle) : (x.leave k).cursor? = none := by
  rw [cursor_leave, hi]
  exact ite_self _

end RxState

namespace Adapter
variable {σ : Type}

/-! ### What a step does to the outstanding receive -/

/-- What becomes of the outstanding receive while some entries are made in the journal. -/
inductive Turn (D : Deed → Prop) (a b : Adapter σ) (es : List Entry) : Prop where
  /-- Whoever is asked is still asked, for as many bytes as before. -/
  | still (hcursor : b.rx.cursor? = a.rx.cursor?)
      (hroom : b.rx.cursor?.isSome = true → b.rx.room = a.rx.room) (hasks : ∀ e ∈ es, ¬ e.Asks)
      (hapart : ∀ i, a.rx.cursor? = some i → ∀ e ∈ es,
        e.delivers i.handle = false ∧ e.opens i.handle = false)
  | answered {i : Incarnation} (hcursor : a.rx.cursor? = some i) (hidle : b.rx.cursor? = none)
      (hasks : ∀ e ∈ es, ¬ e.Asks) (hdelivers : ∃ e ∈ es, e.delivers i.handle = true)
      (hd : D (.answer i.handle))
  | closed {i : Incarnation} (hcursor : a.rx.cursor? = some i) (hidle : b.rx.cursor? = none)
      (hasks : ∀ e ∈ es, ¬ e.Asks) (hcloses : ∃ e ∈ es, e.closes i.handle = true)
      (hclosed : b.table.isOpen i.handle = false) (hd : D (.shut i.handle))
  | asked {h : Handle} {timeout : Nat} {answer : Answer Unit} (hidle : a.rx.cursor? = none)
      (hpacket : a.rx.packet?.isSome = true)
      (hes : es = [.command (.receive h a.rx.room timeout) answer])
      (hroom : b.rx.room = a.rx.room) (htable : b.table = a.table)
      (haccepted : ∀ value, answer = .accepted value → b.rx.cursor? = some (a.table.incarnation h))
      (hrefused : ∀ status, answer = .refused status → b.rx.cursor? = none) (hd : D .ask)

section Turn
variable {D : Deed → Prop} {a b : Adapter σ} {es : List Entry}

theorem Turn.aside (hrx : b.rx = a.rx) (hes : ∀ e ∈ es, e.Aside) : Turn D a b es :=
  .still (by rw [hrx]) (fun _ => by rw [hrx]) (fun e he => (hes e he).asks) fun _ _ e he =>
    ⟨(hes e he).delivers _, (hes e he).opens _⟩

/-- Neither the state of receiving nor the journal is concerned. -/
theorem turn_of_same (hrx : b.rx = a.rx) (hjournal : b.bus.journal = a.bus.journal) :
    ∃ es, b.bus.journal = a.bus.journal ++ es ∧ Turn D a b es :=
  ⟨[], by rw [hjournal, List.append_nil], .aside hrx (by simp)⟩

/-- Nothing is outstanding. -/
theorem Turn.idle (hidle : a.rx.cursor? = none) (hidle' : b.rx.cursor? = none)
    (hasks : ∀ e ∈ es, ¬ e.Asks) : Turn D a b es := by
  refine .still (hidle'.trans hidle.symm) (fun hsome => ?_) hasks fun i hi => ?_
  · rw [hidle'] at hsome
    cases hsome
  · rw [hidle] at hi
    cases hi

/-- Another slot than that of the socket that is asked is taken into use. -/
theorem Turn.occupied (ha : a.Steady) {h : Handle} (hfree : a.table.isOpen h = false)
    (hrx : b.rx = a.rx) (hasks : ∀ e ∈ es, ¬ e.Asks)
    (hes : ∀ e ∈ es, ∀ k, k ≠ h → e.delivers k = false ∧ e.opens k = false) : Turn D a b es := by
  refine .still (by rw [hrx]) (fun _ => by rw [hrx]) hasks fun i hi e he => hes e he _ ?_
  rintro rfl
  rw [ha.sound.isOpen (.inl hi)] at hfree
  cases hfree

theorem opens_other (t : SocketTable) (h : Handle) (r : SocketRecord) {k : Handle} (hk : k ≠ h) :
    (Entry.opened ((t.occupy h r).incarnation h)).opens k = false :=
  beq_eq_false_iff_ne.mpr hk.symm

/-- A notification that is no answer is no delivery for the socket that is asked. -/
theorem delivers_noted (ha : a.Steady) {note : Notification}
    (hn : (Entry.handled note a.rx.expecting?).answer? = none) {i : Incarnation}
    (hi : a.rx.cursor? = some i) : (Entry.handled note a.rx.expecting?).delivers i.handle = false := by
  unfold Entry.delivers
  split
  · next k d expecting? heq =>
    cases heq
    refine beq_eq_false_iff_ne.mpr ?_
    rintro rfl
    rw [Entry.answer?_of_outstanding (ha.sound.outstanding hi)] at hn
    cases hn
  · rfl

theorem Answered.turn {i : Incarnation} {d : Delivery} (h : a.Answered i d b) (ha : a.Steady)
    (hout : a.rx.outstanding? = some i) (hd : D (.answer i.handle)) :
    ∃ es, b.bus.journal = a.bus.journal ++ es ∧ Turn D a b es := by
  have hcursor := RxState.cursor_of_outstanding hout
  have hdelivers (x : Option Expectation) (more : List Entry) :
      ∃ e ∈ .handled (.socket i.handle (.received d)) x :: more, e.delivers i.handle = true :=
    ⟨_, List.mem_cons_self .., beq_self_eq_true _⟩
  cases h with
  | noData | keep =>
    exact ⟨[_], rfl, .answered hcursor rfl (by simp [Entry.Asks]) (hdelivers ..) hd⟩
  | finish _ hpacket =>
    obtain ⟨told, hjournal⟩ := journal_handOver
      ((a.noted (.socket i.handle (.received d))).onRx (·.part.withdraw)) i.handle (a.fill i.handle d _)
    refine ⟨_, hjournal.trans (List.append_assoc ..), .answered hcursor ?_ (by simp [Entry.Asks])
      (hdelivers ..) hd⟩
    rw [rx_handOver]
    rfl
  | @ended status read =>
    have hopen : ((a.noted (.socket i.handle (.received d))).onRx .withdraw).table.isOpen i.handle =
        true := ha.sound.isOpen (.inl hcursor)
    obtain ⟨told, hjournal⟩ := journal_endStream _ hopen status read
    refine ⟨_, hjournal.trans (List.append_assoc ..), .answered hcursor ?_ (by simp [Entry.Asks])
      (hdelivers ..) hd⟩
    rw [rx_endStream _ hopen]
    rfl

end Turn

section Steps
variable [Chip σ] {D : Deed → Prop} {a b : Adapter σ} {site? : Option Handle}

theorem Chore.turn (hab : Chore D a b) (ha : a.Steady) :
    ∃ es, b.bus.journal = a.bus.journal ++ es ∧ Turn D a b es := by
  have horder (c : Command) (hc : ∀ h room timeout, c ≠ .receive h room timeout) :
      ∃ es, (a.order c).bus.journal = a.bus.journal ++ es ∧ Turn D a (a.order c) es :=
    ⟨[_], rfl, .aside rfl (by simpa using Entry.aside_command _ hc)⟩
  cases hab with
  | chip | connectDone | aim | pending | discard | link | scratch | queues | take | giveBack =>
    exact turn_of_same rfl rfl
  | opening kind =>
    exact ⟨[_], rfl, .aside rfl (by simpa using ⟨id, fun _ => rfl, fun _ => rfl⟩)⟩
  | @command c hc =>
    refine horder c ?_
    rintro _ _ _ rfl
    exact hc
  | turnAway child => exact horder _ nofun
  | transmit h data => exact horder _ nofun
  | connect h peer =>
    exact ⟨[_], rfl, .aside rfl (List.forall_mem_singleton.mpr (Entry.aside_command _ nofun))⟩
  | note hn =>
    refine ⟨[_], rfl, .still rfl (fun _ => rfl) (by simp [Entry.Asks]) fun i hi => ?_⟩
    simpa using ⟨delivers_noted ha hn hi, rfl⟩
  | complete hr hp starts =>
    refine ⟨_, journal_complete .., .aside (quiet_complete ..).rx ?_⟩
    simpa using ⟨id, fun _ => rfl, fun _ => rfl⟩
  | writable | linkEvent =>
    exact ⟨_, journal_announce .., .aside (rx_announce ..) (by simpa using Entry.aside_event _ _)⟩

omit [Chip σ] in
theorem CallStep.turn {h : Handle} (hab : CallStep h a b) :
    ∃ es, b.bus.journal = a.bus.journal ++ es ∧ Turn D a b es := by
  cases hab with
  | request | revert | disarm | mark => exact turn_of_same rfl rfl
  | park | take => exact ⟨[_], rfl, .aside rfl (by simpa using ⟨id, fun _ => rfl, fun _ => rfl⟩)⟩

theorem turn_register (ha : a.Steady) (listener : Handle) {child : Handle} (kind : SocketKind)
    (peer : Endpoint) (hfree : a.table.isOpen child = false) :
    let b := (a.register listener child (a.table.occupy child (.accepted kind peer))).2
    ∃ es, b.bus.journal = a.bus.journal ++ es ∧ Turn D a b es := by
  have hopened (k : Handle) := opens_other (k := k) a.table child (.accepted kind peer)
  have hjournal := journal_announce (a.occupied child (.accepted kind peer))
    (.newConnection listener child)
  dsimp only
  rw [register_eq]
  dsimp only
  split
  · refine ⟨_, hjournal.trans (List.append_assoc ..), .occupied ha hfree (rx_announce ..) ?_ ?_⟩
    · simp [Entry.Asks]
    · simpa [Entry.delivers, Entry.opens] using hopened
  · refine ⟨_, (congrArg (· ++ _) hjournal).trans ((List.append_assoc ..).trans
      (List.append_assoc ..)), .occupied ha hfree (rx_announce ..) ?_ ?_⟩
    · simp [Entry.Asks]
    · simpa [Entry.delivers, Entry.opens] using hopened

theorem turn_ask (hidle : a.rx.cursor? = none) (hpacket : a.rx.packet?.isSome = true) (h : Handle)
    (hd : D .ask) :
    ∃ es, (a.ask h).2.bus.journal = a.bus.journal ++ es ∧ Turn D a (a.ask h).2 es := by
  have hjournal := a.bus.journal_issue (.receive h a.rx.room a.config.recvTimeout)
  rw [ask_eq a h hpacket]
  dsimp only
  cases hanswer : (a.bus.issue (.receive h a.rx.room a.config.recvTimeout)).1 with
  | accepted value =>
    rw [hanswer] at hjournal
    exact ⟨_, hjournal, .asked hidle hpacket rfl rfl rfl (fun _ _ => rfl) nofun hd⟩
  | refused status =>
    rw [hanswer] at hjournal
    exact ⟨_, hjournal, .asked hidle hpacket rfl rfl rfl nofun (fun _ _ => hidle) hd⟩

theorem turn_close (ha : a.Steady) (h : Handle) (hd : D (.shut h)) :
    ∃ es, (a.close h).bus.journal = a.bus.journal ++ es ∧ Turn D a (a.close h) es := by
  cases hr : a.table.get? h with
  | none =>
    rw [close_none a h hr]
    exact turn_of_same rfl rfl
  | some r =>
    obtain ⟨answer, hjournal⟩ := journal_close a hr
    have haside : (Entry.command (.close h) answer).Aside := Entry.aside_command answer nofun
    have hrx := rx_close a hr
    refine ⟨_, hjournal, ?_⟩
    cases hi : a.rx.cursor? with
    | none =>
      refine .idle hi ?_ (by simpa using haside.asks)
      rw [hrx, RxState.cursor_leave_none hi]
    | some i =>
      by_cases hh : i.handle = h
      · subst hh
        refine .closed hi ?_ (by simpa using haside.asks)
          ⟨_, List.mem_singleton_self _, beq_self_eq_true _⟩ (isOpen_close a _) hd
        rw [hrx, RxState.cursor_leave_self hi]
      · exact .aside (hrx.trans (ha.sound.leave_other hi hh)) (by simpa using haside)

theorem Move.turn (hab : Move D a b) (ha : a.Steady) :
    ∃ es, b.bus.journal = a.bus.journal ++ es ∧ Turn D a b es := by
  have haside {paused : Bool} {es : List Entry}
      (hes : ∀ e ∈ es, ∃ answer, e = .command (.flow paused) answer) : ∀ e ∈ es, e.Aside := by
    intro e he
    obtain ⟨answer, rfl⟩ := hes e he
    exact Entry.aside_command answer nofun
  cases hab with
  | chore hab => exact hab.turn ha
  | @create kind h _ hfree =>
    refine ⟨[.opening kind _, .opened _], List.append_assoc .., .occupied ha hfree rfl ?_ ?_⟩
    · simp [Entry.Asks]
    · simpa [Entry.delivers, Entry.opens] using fun k => opens_other a.table h (.new kind)
  | register _ _ peer _ hfree => exact turn_register ha _ _ peer hfree
  | read h =>
    rcases a.receive_cases h with ⟨_, heq⟩ | ⟨_, packet, rest, _, _, _, heq⟩
    · rw [heq]
      exact turn_of_same rfl rfl
    · rw [heq]
      exact ⟨[_], rfl, .aside rfl (by simpa using ⟨id, fun _ => rfl, fun _ => rfl⟩)⟩
  | resume =>
    obtain ⟨bus, es, heq, hjournal, hes⟩ := resumeFlow_eq a
    rw [heq]
    exact ⟨es, hjournal, .still rfl (fun _ => rfl) (fun e he => (haside hes e he).asks) fun i _ e he =>
      ⟨(haside hes e he).delivers _, (haside hes e he).opens _⟩⟩
  | @lease packet pool hnone _ =>
    obtain ⟨bus, es, heq, hjournal, hes⟩ := resumeFlow_eq
      ({ a with pool }.onRx fun x => { x with packet? := some packet })
    have hidle := (ha.sound.without_packet hnone).2
    rw [heq]
    exact ⟨es, hjournal, .idle hidle hidle fun e he => (haside hes e he).asks⟩
  | pause hnone =>
    obtain ⟨bus, stats, es, heq, hjournal, hes⟩ := pauseFlow_eq a
    have hidle := (ha.sound.without_packet hnone).2
    rw [heq]
    exact ⟨es, hjournal, .idle hidle hidle fun e he => (haside hes e he).asks⟩
  | settle hidle howner hpacket =>
    obtain ⟨told, hjournal⟩ := journal_handOver (a.onRx .part) _ _
    refine ⟨_, hjournal, .idle hidle ?_ (by simp [Entry.Asks])⟩
    rw [rx_handOver]
    exact hidle
  | ask hidle hpacket _ _ hd => exact turn_ask hidle hpacket _ hd
  | answer hout hd hab => exact hab.turn ha hout hd

theorem Step.turn (hab : Step D site? a b) (ha : a.Steady) :
    ∃ es, b.bus.journal = a.bus.journal ++ es ∧ Turn D a b es := by
  cases hab with
  | move hab => exact hab.turn ha
  | close _ hd => exact turn_close ha _ hd
  | call _ hcall => exact hcall.turn

end Steps

/-! ### The size of packets -/

/-- Packets in flight have the size of the settings, which stay as they are. -/
structure Sized (n : Nat) (a : Adapter σ) : Prop where
  config : a.config.rxPacketSize = n
  packet : ∀ p, a.rx.packet? = some p → p.capacity = n

theorem sized_new (chip : σ) (packets : Nat) (config : Config) :
    (new chip packets config).Sized config.sanitized.rxPacketSize where
  config := rfl
  packet p hp := by cases hp

section Sized
variable {n : Nat} {a b : Adapter σ}

theorem capacity_fill (a : Adapter σ) (h : Handle) (d : Delivery) (before : Packet) :
    (a.fill h d before).capacity = before.capacity := by
  unfold fill
  dsimp only
  split <;> rfl

theorem capacity_dropPartial {x : RxState} {p : Packet} (hp : x.dropPartial.packet? = some p) :
    ∃ q, x.packet? = some q ∧ p.capacity = q.capacity := by
  obtain ⟨q, hq, rfl⟩ := Option.map_eq_some_iff.mp hp
  exact ⟨q, hq, rfl⟩

theorem capacity_leave {x : RxState} {h : Handle} {p : Packet} (hp : (x.leave h).packet? = some p) :
    ∃ q, x.packet? = some q ∧ p.capacity = q.capacity := by
  rw [RxState.packet_leave] at hp
  split at hp
  · exact capacity_dropPartial hp
  · exact ⟨p, hp, rfl⟩

/-- A packet in flight was there before, perhaps with other bytes. -/
theorem Answered.capacity {i : Incarnation} {d : Delivery} (h : a.Answered i d b)
    (hopen : a.table.isOpen i.handle = true) {p : Packet} (hp : b.rx.packet? = some p) :
    ∃ q, a.rx.packet? = some q ∧ p.capacity = q.capacity := by
  cases h with
  | noData => exact ⟨p, hp, rfl⟩
  | keep hd hpacket =>
    cases hp
    exact ⟨_, hpacket, capacity_fill ..⟩
  | finish =>
    rw [rx_handOver] at hp
    cases hp
  | ended =>
    refine capacity_dropPartial (x := a.rx.withdraw) (Eq.trans (Eq.symm ?_) hp)
    exact congrArg RxState.packet? (rx_endStream ((a.noted _).onRx .withdraw) hopen ..)

variable [Chip σ] {D : Deed → Prop} {site? : Option Handle}

theorem packet_resumeFlow (a : Adapter σ) : a.resumeFlow.rx.packet? = a.rx.packet? := by
  obtain ⟨bus, es, heq, -⟩ := resumeFlow_eq a
  rw [heq]

/-- A packet in flight was there before, or was leased just now. -/
theorem Move.capacity (hab : Move D a b) (hs : a.Steady) {p : Packet}
    (hp : b.rx.packet? = some p) :
    (∃ q, a.rx.packet? = some q ∧ p.capacity = q.capacity) ∨
      p.capacity = a.config.rxPacketSize := by
  cases hab with
  | chore hab => exact .inl ⟨p, congrArg RxState.packet? hab.quiet.rx ▸ hp, rfl⟩
  | create => exact .inl ⟨p, hp, rfl⟩
  | register =>
    rw [register_eq] at hp
    dsimp only at hp
    split at hp
    · rw [rx_announce] at hp
      exact .inl ⟨p, hp, rfl⟩
    · refine .inl ⟨p, Eq.trans (Eq.symm ?_) hp, rfl⟩
      exact congrArg RxState.packet? (rx_announce ..)
  | read h =>
    rcases a.receive_cases h with ⟨_, heq⟩ | ⟨_, _, _, _, _, _, heq⟩
    all_goals
      rw [heq] at hp
      exact .inl ⟨p, hp, rfl⟩
  | resume => exact .inl ⟨p, (packet_resumeFlow a).symm.trans hp, rfl⟩
  | lease _ hpool =>
    obtain ⟨rfl, _⟩ := Pool.available_lease? hpool
    rw [packet_resumeFlow] at hp
    cases hp
    exact .inr rfl
  | pause =>
    obtain ⟨bus, stats, es, heq, -⟩ := pauseFlow_eq a
    rw [heq] at hp
    exact .inl ⟨p, hp, rfl⟩
  | settle =>
    rw [rx_handOver] at hp
    cases hp
  | ask _ hpacket =>
    rw [ask_eq a _ hpacket] at hp
    dsimp only at hp
    split at hp
    all_goals exact .inl ⟨p, hp, rfl⟩
  | answer hout _ hab => exact .inl (hab.capacity (hs.isOpen hout) hp)

theorem Step.capacity (hab : Step D site? a b) (hs : a.Steady) {p : Packet}
    (hp : b.rx.packet? = some p) :
    (∃ q, a.rx.packet? = some q ∧ p.capacity = q.capacity) ∨
      p.capacity = a.config.rxPacketSize := by
  cases hab with
  | move hab => exact hab.capacity hs hp
  | @close h =>
    cases hr : a.table.get? h with
    | none =>
      rw [close_none a h hr] at hp
      exact .inl ⟨p, hp, rfl⟩
    | some r =>
      rw [rx_close a hr] at hp
      exact .inl (capacity_leave hp)
  | call _ hcall => exact .inl ⟨p, congrArg RxState.packet? hcall.quiet.rx ▸ hp, rfl⟩

theorem Step.sized (hab : Step D site? a b) (hs : a.Steady) (ha : a.Sized n) : b.Sized n where
  config := by rw [hab.config_eq, ha.config]
  packet p hp := by
    rcases hab.capacity hs hp with ⟨q, hq, hcapacity⟩ | hleased
    · rw [hcapacity, ha.packet q hq]
    · rw [hleased, ha.config]

omit [Chip σ] in
/-- Whoever is asked next is asked for something, and for no more than a packet. -/
theorem Sized.room (ha : a.Sized n) (hs : a.Steady) (hn : 1 ≤ n)
    (hpacket : a.rx.packet?.isSome = true) : 1 ≤ a.rx.room ∧ a.rx.room ≤ n := by
  obtain ⟨p, hp⟩ := Option.isSome_iff_exists.mp hpacket
  have hcapacity := ha.packet p hp
  rw [RxState.room_of_packet hp]
  refine ⟨?_, ?_⟩
  · cases ho : a.rx.owner? with
    | none =>
      have hblank := (hs.sound.blank ho p hp).1
      unfold Packet.room
      rw [hblank, hcapacity]
      exact hn
    | some i =>
      obtain ⟨q, hq, hroom, _⟩ := (hs.sound.owned i ho).packet
      cases hp.symm.trans hq
      exact hroom
  · unfold Packet.room
    omega

end Sized

/-! ### The outstanding receive -/

/-- A receive that the chip took is outstanding: it is for whoever is in the slot, who was there
ever since. -/
structure Outstanding (a : Adapter σ) (h : Handle) (room : Nat) (since : List Entry) : Prop where
  cursor : a.rx.cursor? = some (a.table.incarnation h)
  room : a.rx.room = room
  opens : ∀ e ∈ since, e.opens h = false

/-- The socket was closed since: the slot is free, or it was taken into use again. -/
structure Left (a : Adapter σ) (h : Handle) (since : List Entry) : Prop where
  closes : ∃ e ∈ since, e.closes h = true
  gone : a.table.isOpen h = false ∨ ∃ e ∈ since, e.opens h = true

/-- The state of receiving and the journal agree on what was asked for. -/
structure Asking (n : Nat) (a : Adapter σ) : Prop where
  sized : a.Sized n
  rooms : ∀ h room timeout answer, .command (.receive h room timeout) answer ∈ a.bus.journal →
    1 ≤ room ∧ room ≤ n
  /-- Whoever is asked was asked, and no delivery for it was handled since. -/
  asked : ∀ i, a.rx.cursor? = some i → ∃ before room timeout since,
    a.bus.journal = before ++ .request i.handle room timeout :: since ∧
      ∀ e ∈ since, e.delivers i.handle = false ∧ e.opens i.handle = false
  /-- A receive that no delivery answers is outstanding, unless its socket was closed. -/
  unanswered : ∀ before h room timeout since,
    a.bus.journal = before ++ .request h room timeout :: since →
    (∀ e ∈ since, e.delivers h = false) → a.Outstanding h room since ∨ a.Left h since
  apart : ∀ before h room timeout middle h' room' timeout' after,
    a.bus.journal =
      before ++ .request h room timeout :: (middle ++ .request h' room' timeout' :: after) →
    ∃ e ∈ middle, e.delivers h = true ∨ e.closes h = true

theorem asking_new (chip : σ) (packets : Nat) (config : Config) :
    (new chip packets config).Asking config.sanitized.rxPacketSize where
  sized := sized_new chip packets config
  rooms h room timeout answer hmem := by cases hmem
  asked i hi := by cases hi
  unanswered before h room timeout since hjournal := by
    have hempty : before ++ Entry.request h room timeout :: since = [] := hjournal.symm
    simp at hempty
  apart before h room timeout middle h' room' timeout' after hjournal := by
    have hempty : before ++ Entry.request h room timeout ::
      (middle ++ .request h' room' timeout' :: after) = [] := hjournal.symm
    simp at hempty

section Asking
variable {n : Nat} {D : Deed → Prop} {a b : Adapter σ} {es : List Entry}

/-- The only entry that asks is that of a socket that is asked. -/
theorem Turn.mem_asks (hturn : Turn D a b es) {e : Entry} (he : e ∈ es) (hasks : e.Asks) :
    a.rx.cursor? = none ∧ a.rx.packet?.isSome = true ∧ ∃ h timeout answer,
      es = [.command (.receive h a.rx.room timeout) answer] ∧
      e = .command (.receive h a.rx.room timeout) answer := by
  cases hturn with
  | still _ _ hnone | answered _ _ hnone | closed _ _ hnone => exact absurd hasks (hnone e he)
  | asked hidle hpacket hes =>
    subst hes
    exact ⟨hidle, hpacket, _, _, _, rfl, List.mem_singleton.mp he⟩

theorem Asking.rooms_turn (ha : a.Asking n) (hs : a.Steady) (hn : 1 ≤ n)
    (hjournal : b.bus.journal = a.bus.journal ++ es) (hturn : Turn D a b es) (h : Handle)
    (room timeout : Nat) (answer : Answer Unit)
    (hmem : .command (.receive h room timeout) answer ∈ b.bus.journal) : 1 ≤ room ∧ room ≤ n := by
  rw [hjournal] at hmem
  rcases List.mem_append.mp hmem with hmem | hmem
  · exact ha.rooms h room timeout answer hmem
  · obtain ⟨-, hpacket, _, _, _, -, heq⟩ := hturn.mem_asks hmem trivial
    cases heq
    exact ha.sized.room hs hn hpacket

theorem Asking.asked_turn (ha : a.Asking n) (hjournal : b.bus.journal = a.bus.journal ++ es)
    (hturn : Turn D a b es) (i : Incarnation) (hi : b.rx.cursor? = some i) :
    ∃ before room timeout since, b.bus.journal = before ++ .request i.handle room timeout :: since ∧
      ∀ e ∈ since, e.delivers i.handle = false ∧ e.opens i.handle = false := by
  cases hturn with
  | still hcursor _ _ hapart =>
    rw [hcursor] at hi
    obtain ⟨before, room, timeout, since, hbefore, hsince⟩ := ha.asked i hi
    refine ⟨before, room, timeout, since ++ es, by rw [hjournal, hbefore]; simp, fun e he => ?_⟩
    rcases List.mem_append.mp he with he | he
    · exact hsince e he
    · exact hapart i hi e he
  | answered _ hidle | closed _ hidle =>
    rw [hidle] at hi
    cases hi
  | @asked h timeout answer _ _ hes _ _ haccepted hrefused =>
    cases answer with
    | refused status => cases (hrefused status rfl).symm.trans hi
    | accepted value =>
      cases (haccepted value rfl).symm.trans hi
      exact ⟨_, _, _, [], hjournal.trans (congrArg (_ ++ ·) hes), by simp⟩

/-- What step is made, a receive that was outstanding or whose socket was closed is one or the other. -/
theorem Asking.unanswered_turn (ha : a.Asking n) (hb : b.Steady)
    (hjournal : b.bus.journal = a.bus.journal ++ es) (hturn : Turn D a b es)
    (hfree : ∀ h, a.table.isOpen h = false →
      b.table.isOpen h = false ∨ ∃ e ∈ es, e.opens h = true)
    (before : List Entry) (h : Handle) (room timeout : Nat) (since : List Entry)
    (hsplit : b.bus.journal = before ++ .request h room timeout :: since)
    (hnone : ∀ e ∈ since, e.delivers h = false) : b.Outstanding h room since ∨ b.Left h since := by
  rw [hjournal] at hsplit
  rcases Entry.split_append hsplit with ⟨since', hbefore, rfl⟩ | ⟨before', -, hes⟩
  · -- The receive is an old one.
    have hnone' : ∀ e ∈ since', e.delivers h = false := fun e he =>
      hnone e (List.mem_append_left _ he)
    rcases ha.unanswered before h room timeout since' hbefore hnone' with hout | hleft
    · have hcursor := hout.cursor
      cases hturn with
      | still hsame hroom _ hapart =>
        have hkept := hsame.trans hcursor
        have hcurrent := SocketTable.incarnation_of_current (hb.sound.asked _ hkept).current
        refine .inl ⟨hkept.trans (congrArg some hcurrent.symm), ?_, fun e he => ?_⟩
        · rw [hroom (by rw [hkept]; rfl), hout.room]
        · rcases List.mem_append.mp he with he | he
          · exact hout.opens e he
          · exact (hapart _ hcursor e he).2
      | answered hi _ _ hdelivers =>
        cases hi.symm.trans hcursor
        obtain ⟨e, he, hdelivers⟩ := hdelivers
        cases (hnone e (List.mem_append_right _ he)).symm.trans hdelivers
      | closed hi _ _ hcloses hclosed =>
        cases hi.symm.trans hcursor
        obtain ⟨e, he, hcloses⟩ := hcloses
        exact .inr ⟨⟨e, List.mem_append_right _ he, hcloses⟩, .inl hclosed⟩
      | asked hidle => cases hidle.symm.trans hcursor
    · obtain ⟨e, he, hcloses⟩ := hleft.closes
      refine .inr ⟨⟨e, List.mem_append_left _ he, hcloses⟩, ?_⟩
      rcases hleft.gone with hgone | ⟨e', he', hopens⟩
      · rcases hfree h hgone with hgone | ⟨e', he', hopens⟩
        · exact .inl hgone
        · exact .inr ⟨e', List.mem_append_right _ he', hopens⟩
      · exact .inr ⟨e', List.mem_append_left _ he', hopens⟩
  · -- The socket is asked by this step.
    cases hturn with
    | still _ _ hasks | answered _ _ hasks | closed _ _ hasks =>
      exact absurd trivial (hasks (.request h room timeout) (by rw [hes]; simp))
    | @asked k timeout' answer _ _ hasked hroom htable haccepted =>
      obtain ⟨rfl, hsingle⟩ : before' = [] ∧ [Entry.command (.receive k a.rx.room timeout') answer] =
          .request h room timeout :: since := by
        rw [hasked] at hes
        cases before' with
        | nil => exact ⟨rfl, hes⟩
        | cons e rest => simp at hes
      cases hsingle
      refine .inl ⟨?_, hroom, by simp⟩
      rw [htable]
      exact haccepted () rfl

/-- Before a socket is asked, the receive before was answered or its socket closed. -/
theorem Asking.apart_turn (ha : a.Asking n) (hjournal : b.bus.journal = a.bus.journal ++ es)
    (hturn : Turn D a b es) (before : List Entry) (h : Handle) (room timeout : Nat)
    (middle : List Entry) (h' : Handle) (room' timeout' : Nat) (after : List Entry)
    (hsplit : b.bus.journal =
      before ++ .request h room timeout :: (middle ++ .request h' room' timeout' :: after)) :
    ∃ e ∈ middle, e.delivers h = true ∨ e.closes h = true := by
  rw [hjournal, ← List.cons_append, ← List.append_assoc] at hsplit
  rcases Entry.split_append hsplit with ⟨after', hbefore, -⟩ | ⟨before', hbefore, hes⟩
  · rw [List.append_assoc, List.cons_append] at hbefore
    exact ha.apart before h room timeout middle h' room' timeout' after' hbefore
  · obtain ⟨hidle, -, _, _, _, hsingle, -⟩ :=
      hturn.mem_asks (e := .request h' room' timeout') (by rw [hes]; simp) trivial
    have hnil : before' = [] := by
      rw [hsingle] at hes
      cases before' with
      | nil => rfl
      | cons e rest => simp at hes
    rw [hnil, List.append_nil] at hbefore
    by_cases hdelivers : ∀ e ∈ middle, e.delivers h = false
    · rcases ha.unanswered before h room timeout middle hbefore.symm hdelivers with hout | hleft
      · cases hidle.symm.trans hout.cursor
      · obtain ⟨e, he, hcloses⟩ := hleft.closes
        exact ⟨e, he, .inr hcloses⟩
    · simp only [Classical.not_forall, Bool.not_eq_false] at hdelivers
      obtain ⟨e, he, hdelivers⟩ := hdelivers
      exact ⟨e, he, .inl hdelivers⟩

theorem Asking.step [Chip σ] {site? : Option Handle} (ha : a.Asking n)
    (hs : a.Steady) (hn : 1 ≤ n) (hab : Step D site? a b) : b.Asking n := by
  obtain ⟨es, hjournal, hturn⟩ := hab.turn hs
  have hfree (h : Handle) (hclosed : a.table.isOpen h = false) :
      b.table.isOpen h = false ∨ ∃ e ∈ es, e.opens h = true := by
    obtain ⟨k, hk⟩ := Steps.ages (h := h) (.single hab) hs
    obtain ⟨es', hjournal', rfl⟩ := hk.journal
    obtain rfl := List.append_cancel_left (hjournal.symm.trans hjournal')
    cases hopen : b.table.isOpen h with
    | false => exact .inl rfl
    | true =>
      obtain ⟨r', hr'⟩ := Option.isSome_iff_exists.mp hopen
      refine .inr (List.countP_pos_iff.mp (Nat.pos_of_ne_zero fun hzero => ?_))
      obtain ⟨r, hr, _⟩ := hk.record hzero r' hr'
      unfold SocketTable.isOpen at hclosed
      rw [hr] at hclosed
      cases hclosed
  exact ⟨hab.sized hs ha.sized, ha.rooms_turn hs hn hjournal hturn, ha.asked_turn hjournal hturn,
    ha.unanswered_turn (hab.steady hs) hjournal hturn hfree, ha.apart_turn hjournal hturn⟩

/-- The answer to a receive that is outstanding brings all its bytes, if it brings no more than
were asked for. -/
theorem Outstanding.brings [Chip σ] {h : Handle} {room : Nat} {since : List Entry}
    (hout : a.Outstanding h room since) (hs : a.Steady) (now : Nat) {d : Delivery}
    (hends : d.ends = false) (hfits : d.bytes.length ≤ room) :
    ∃ x, a.intake h = some x ∧
      (a.handle now (.socket h (.received d))).intake h = some { x with bytes := x.bytes ++ d.bytes } := by
  obtain ⟨x, ⟨bytes, ended⟩, hx, hy, hbrings⟩ :=
    intake_answer hs (hs.sound.outstanding hout.cursor) now d
  have hbytes : bytes = x.bytes ++ d.bytes := by
    have htaken := hbrings.bytes hends
    rwa [hout.room, List.take_of_length_le hfits] at htaken
  have hended : ended = x.ended := hbrings.ended.trans (hends.trans hbrings.running.symm)
  exact ⟨x, hx, hy.trans (by rw [hbytes, hended])⟩

end Asking

end Adapter

namespace Session
variable {σ : Type} [Chip σ]

theorem asking_run (chip : σ) (packets : Nat) (config : Config) (actions : List (Action σ)) :
    let s := new chip packets config
    (s.run actions).adapter.Asking config.sanitized.rxPacketSize ∧
      ∀ m ∈ s.trail actions, m.adapter.Steady ∧ m.adapter.Asking config.sanitized.rxPacketSize := by
  have hsize : 1 ≤ config.sanitized.rxPacketSize :=
    Nat.le_trans (by decide) (le_clamp (show 64 ≤ maxRxPacket by decide) config.rxPacketSize)
  exact invariant_run (fun _ _ _ hs ha hab => ha.step hs hsize hab)
    (Adapter.steady_new chip packets config) (Adapter.asking_new chip packets config) actions

/-- One receive is outstanding at a time: before the chip takes the next one, a delivery for the
socket of the one before was handled or the chip was told to close that socket. Every receive asks
for something, and for no more than a packet of the settings. As long as a receive is outstanding,
a delivery for its socket finds as much room as was asked for, so of a delivery that brings no more
than that no byte is lost. -/
theorem one_receive_outstanding (chip : σ) (packets : Nat) (config : Config)
    (actions : List (Action σ)) :
    let s := new chip packets config
    let journal := (s.run actions).adapter.bus.journal
    (∀ before h room timeout middle h' room' timeout' after,
      journal = before ++ .request h room timeout :: (middle ++ .request h' room' timeout' :: after) →
      ∃ e ∈ middle, e.delivers h = true ∨ e.closes h = true) ∧
    (∀ h room timeout answer, .command (.receive h room timeout) answer ∈ journal →
      1 ≤ room ∧ room ≤ config.sanitized.rxPacketSize) ∧
    ∀ m ∈ s.trail actions, ∀ h d, m.note = .socket h (.received d) →
      ∀ before room timeout since,
        m.adapter.bus.journal = before ++ .request h room timeout :: since →
        (∀ e ∈ since, e.delivers h = false ∧ e.closes h = false) →
        (∃ p, m.adapter.rx.packet? = some p ∧ p.room = room) ∧
        ∀ now, d.ends = false → d.bytes.length ≤ room → ∃ x, m.adapter.intake h = some x ∧
          (m.adapter.handle now m.note).intake h = some { x with bytes := x.bytes ++ d.bytes } := by
  intro s journal
  obtain ⟨hrun, htrail⟩ := asking_run chip packets config actions
  refine ⟨hrun.apart, hrun.rooms, fun m hm h d hnote before room timeout since hjournal hopen => ?_⟩
  obtain ⟨hs, ha⟩ := htrail m hm
  rcases ha.unanswered before h room timeout since hjournal fun e he => (hopen e he).1 with
    hout | hleft
  · obtain ⟨p, hp⟩ := Option.isSome_iff_exists.mp (hs.sound.asked _ hout.cursor).packet
    refine ⟨⟨p, hp, (RxState.room_of_packet hp).symm.trans hout.room⟩, fun now hends hfits => ?_⟩
    rw [hnote]
    exact hout.brings hs now hends hfits
  · obtain ⟨e, he, hcloses⟩ := hleft.closes
    cases (hopen e he).2.symm.trans hcloses

/-- Three bytes of five came first, and the chip was asked for as many more as the packet takes. -/
theorem one_receive_outstanding_partial :
    let s := new ScriptedChip.new 4 .defaults
    let d : Delivery := ⟨2, 0, default, [4, 5]⟩
    ∃ m ∈ s.trail [.create .inet .stream, .connect 0 (.v4 ⟨⟨10, 0, 0, 1⟩, 80⟩),
        .dispatch (.socket 0 (.connected .success)),
        .dispatch (.socket 0 (.received ⟨3, 2, default, [1, 2, 3]⟩)),
        .dispatch (.socket 0 (.received d))],
      m.note = .socket 0 (.received d) ∧ (∃ p, m.adapter.rx.packet? = some p ∧ p.room = 1497) ∧
      ∃ x, m.adapter.intake 0 = some x ∧ x.bytes = [1, 2, 3] ∧
        (m.adapter.handle 0 m.note).intake 0 = some { x with bytes := x.bytes ++ [4, 5] } := by
  intro s d
  let actions : List (Action ScriptedChip) := [.create .inet .stream,
    .connect 0 (.v4 ⟨⟨10, 0, 0, 1⟩, 80⟩), .dispatch (.socket 0 (.connected .success)),
    .dispatch (.socket 0 (.received ⟨3, 2, default, [1, 2, 3]⟩)), .dispatch (.socket 0 (.received d))]
  let m : Moment ScriptedChip := ⟨(s.run (actions.take 4)).adapter, .socket 0 (.received d)⟩
  have hm : m ∈ s.trail actions := mem_trail_dispatch s (actions.take 4) _
  have hjournal : m.adapter.bus.journal =
      m.adapter.bus.journal.take 7 ++ [.request 0 1497 1] := by decide +kernel
  obtain ⟨-, -, houtstanding⟩ := one_receive_outstanding ScriptedChip.new 4 .defaults actions
  obtain ⟨hroom, hbrings⟩ := houtstanding m hm 0 d rfl _ 1497 1 [] hjournal (by simp)
  obtain ⟨x, hx, hafter⟩ := hbrings 0 (by decide) (by decide)
  have hbytes : (m.adapter.intake 0).map (·.bytes) = some [1, 2, 3] := by decide +kernel
  rw [hx] at hbytes
  exact ⟨m, hm, rfl, hroom, x, hx, Option.some.inj hbytes, hafter⟩

end Session

end WifiAdapter
