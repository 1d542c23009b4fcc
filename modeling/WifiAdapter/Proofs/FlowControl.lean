import WifiAdapter.Proofs.Asking
import WifiAdapter.Proofs.Leases

/-! Flow control.

While no packet can be leased the chip is told to hold inbound data back, and it is told to
deliver again as soon as one is in flight. A step leaves flow control level (`Adapter.Level`) or
gives one of the two commands (`Adapter.Regulates`); from it follows that the adapter remembers
what it told the chip last and never says the same twice (`Adapter.Regulated`). Every poll ends
with a packet in flight or with a chip that holds back and a pool that is empty
(`Adapter.Settled`), and every tick ends with a poll.

`flow_regulated`: the commands of every history take turns, and a tick resumes the chip if a lease
is free. -/
namespace WifiAdapter

namespace Entry

/-- Whether a command of flow control stops the delivery of inbound data. -/
def flow? : Entry → Option Bool
  | .command (.flow paused) _ => some paused
  | _ => none

end Entry

/-- The commands of flow control, in order: `true` stops the delivery, `false` resumes it. -/
def flows (es : List Entry) : List Bool := es.filterMap (·.flow?)

theorem flows_append (es more : List Entry) : flows (es ++ more) = flows es ++ flows more :=
  List.filterMap_append ..

theorem flows_eq_nil {es : List Entry} (h : ∀ e ∈ es, e.flow? = none) : flows es = [] :=
  List.filterMap_eq_nil_iff.mpr h

theorem RxState.paused_leave (x : RxState) (h : Handle) : (x.leave h).paused = x.paused := by
  rw [leave_eq]
  cases x.cursor?.any (·.handle == h) <;> cases x.owner?.any (·.handle == h) <;> rfl

namespace Adapter
variable {σ : Type}

/-! ### What leaves flow control alone -/

/-- The chip is told nothing about the delivery of inbound data, and while it holds back no lease
is taken. -/
structure Level (a b : Adapter σ) : Prop where
  paused : b.rx.paused = a.rx.paused
  pauses : b.stats.flowPauses = a.stats.flowPauses
  pool : a.rx.paused = true → a.pool.available ≤ b.pool.available
  journal : ∃ es, b.bus.journal = a.bus.journal ++ es ∧ ∀ e ∈ es, e.flow? = none

section Level
variable {a b c : Adapter σ}

theorem Level.of_eq (hpaused : b.rx.paused = a.rx.paused) (hstats : b.stats = a.stats)
    (hpool : b.pool = a.pool) (hjournal : b.bus.journal = a.bus.journal) : a.Level b where
  paused := hpaused
  pauses := by rw [hstats]
  pool _ := by rw [hpool]
  journal := ⟨[], by simp [hjournal], by simp⟩

theorem Level.trans (h : a.Level b) (h' : b.Level c) : a.Level c where
  paused := h'.paused.trans h.paused
  pauses := h'.pauses.trans h.pauses
  pool hp := Nat.le_trans (h.pool hp) (h'.pool (h.paused.trans hp))
  journal := Entry.appended_trans h.journal h'.journal

variable (a)

theorem level_enter {e : Entry} (he : e.flow? = none) : a.Level (a.enter e) :=
  ⟨rfl, rfl, fun _ => Nat.le_refl _, [e], rfl, by simpa using he⟩

theorem level_modify (h : Handle) (f : SocketRecord → SocketRecord) : a.Level (a.modify h f) :=
  .of_eq rfl rfl rfl rfl

theorem level_wake (h : Handle) (status : Status) : a.Level (a.wake h status) := by
  rw [wake_eq]
  exact .of_eq rfl rfl rfl rfl

theorem level_announce (e : Event) : a.Level (a.announce e) := by
  refine ⟨by rw [rx_announce], ?_, fun _ => by rw [pool_announce], _, journal_announce a e, by simp [Entry.flow?]⟩
  unfold announce emit
  split <;> rfl

theorem level_handOver (h : Handle) (packet : Packet) : a.Level (a.handOver h packet) :=
  have hcounted : (a.modify h fun r => { r with inbound := r.inbound ++ [packet] }).Level
      (a.counted h packet) :=
    ⟨rfl, rfl, fun _ => Nat.le_refl _, [], (List.append_nil _).symm, by simp⟩
  (level_modify a h _).trans (hcounted.trans (level_announce _ _))

theorem level_endStream {h : Handle} (hopen : a.table.isOpen h = true) (status : Status)
    (read : ReadStatus) : a.Level (a.endStream h status read) := by
  have hdropped : a.Level (a.onRx .dropPartial) := .of_eq rfl rfl rfl rfl
  rw [endStream_eq a hopen]
  exact (hdropped.trans (level_modify _ h _)).trans ((level_wake _ h status).trans
    (level_announce _ _))

theorem level_complete (h : Handle) (purpose : Purpose) (status : Status) (starts : Bool) :
    a.Level (a.complete h purpose status starts) :=
  (level_modify a h _).trans ((level_enter _ rfl).trans (level_wake _ h status))

theorem level_release (h : Handle) : a.Level (a.release h).2 where
  paused := rfl
  pauses := rfl
  pool _ := by
    have hpool : (a.release h).2.pool.available = a.pool.available + a.table.queuedAt h :=
      (a.table.queued_release a.pool h).1
    omega
  journal := ⟨[], (List.append_nil _).symm, by simp⟩

variable [Chip σ]

theorem level_order {c : Command} (hc : ∀ paused, c ≠ .flow paused) : a.Level (a.order c) := by
  refine ⟨rfl, rfl, fun _ => Nat.le_refl _, [_], rfl, ?_⟩
  cases c with
  | flow paused => exact absurd rfl (hc paused)
  | _ => simp [Entry.flow?]

theorem level_close (h : Handle) : a.Level (a.close h) := by
  cases hr : a.table.get? h with
  | none =>
    rw [close_none a h hr]
    exact .of_eq rfl rfl rfl rfl
  | some r =>
    have hleft : ((a.release h).2.order (.close h)).Level
        (((a.release h).2.order (.close h)).onRx (·.leave h)) :=
      .of_eq (RxState.paused_leave ..) rfl rfl rfl
    have hclosed := (level_release a h).trans ((level_order _ (c := .close h) nofun).trans hleft)
    rw [close_some a hr]
    dsimp only
    split
    · exact hclosed.trans (.of_eq rfl rfl rfl rfl)
    · exact hclosed

theorem level_register (listener child : Handle) (kind : SocketKind) (peer : Endpoint) :
    a.Level (a.register listener child (a.table.occupy child (.accepted kind peer))).2 := by
  have htold : a.Level ((a.occupied child (.accepted kind peer)).announce
      (.newConnection listener child)) :=
    Level.trans (b := a.occupied child _)
      ⟨rfl, rfl, fun _ => Nat.le_refl _, [.opened _], rfl, by simp [Entry.flow?]⟩ (level_announce _ _)
  rw [register_eq]
  dsimp only
  split
  · exact htold
  · exact htold.trans ((level_release _ child).trans (level_order _ nofun))

theorem level_ask (h : Handle) (hpacket : a.rx.packet?.isSome = true) : a.Level (a.ask h).2 := by
  have hasked := level_order a (c := .receive h a.rx.room a.config.recvTimeout) nofun
  rw [ask_eq a h hpacket]
  dsimp only
  split
  · exact hasked.trans (.of_eq rfl rfl rfl rfl)
  · exact hasked

end Level

/-! ### What a step does -/

variable [Chip σ] {a b : Adapter σ} {D : Deed → Prop} {site? : Option Handle}

/-- What a step does to flow control. -/
inductive Regulates (a b : Adapter σ) : Prop where
  | level (h : a.Level b)
  | pauses {answer : Answer Unit} (hpaused : a.rx.paused = false) (hpaused' : b.rx.paused = true)
      (hpauses : b.stats.flowPauses = saturatingAdd a.stats.flowPauses 1)
      (hjournal : b.bus.journal = a.bus.journal ++ [.command (.flow true) answer])
  | resumes {answer : Answer Unit} (hpaused : a.rx.paused = true) (hpaused' : b.rx.paused = false)
      (hpauses : b.stats.flowPauses = a.stats.flowPauses)
      (hjournal : b.bus.journal = a.bus.journal ++ [.command (.flow false) answer])

theorem Chore.level (h : Chore D a b) : a.Level b := by
  cases h with
  | chip | link | scratch | queues | take => exact .of_eq rfl rfl rfl rfl
  | discard => exact ⟨rfl, rfl, fun _ => Nat.le_refl _, [], (List.append_nil _).symm, by simp⟩
  | opening kind => exact ⟨rfl, rfl, fun _ => Nat.le_refl _, [_], rfl, by simp [Entry.flow?]⟩
  | command hc =>
    refine level_order a fun paused => ?_
    rintro rfl
    exact hc
  | turnAway | transmit => exact level_order a nofun
  | note => exact level_enter a rfl
  | connect => exact (level_modify a _ _).trans (level_order _ nofun)
  | connectDone | aim | pending => exact level_modify a _ _
  | complete => exact level_complete ..
  | writable | linkEvent => exact level_announce a _
  | giveBack leases =>
    exact ⟨rfl, rfl, fun _ => Nat.le_add_right _ leases, [], (List.append_nil _).symm, by simp⟩

omit [Chip σ] in
theorem CallStep.level {h : Handle} (hcall : CallStep h a b) : a.Level b := by
  cases hcall with
  | request | revert | mark => exact level_modify a _ _
  | disarm => exact .of_eq rfl rfl rfl rfl
  | park | take => exact level_enter a rfl

omit [Chip σ] in
theorem Answered.level {i : Incarnation} {d : Delivery} (h : a.Answered i d b) (ha : a.Steady)
    (hout : a.rx.outstanding? = some i) : a.Level b := by
  have hnoted : a.Level (a.noted (.socket i.handle (.received d))) := level_enter a rfl
  cases h with
  | noData | keep => exact hnoted.trans (.of_eq rfl rfl rfl rfl)
  | finish =>
    have hparted : (a.noted (.socket i.handle (.received d))).Level
        ((a.noted (.socket i.handle (.received d))).onRx (·.part.withdraw)) := .of_eq rfl rfl rfl rfl
    exact hnoted.trans (hparted.trans (level_handOver _ _ _))
  | @ended status read =>
    have hwithdrawn : a.Level ((a.noted (.socket i.handle (.received d))).onRx .withdraw) :=
      hnoted.trans (.of_eq rfl rfl rfl rfl)
    exact hwithdrawn.trans (level_endStream ((a.noted (.socket i.handle (.received d))).onRx .withdraw)
      (ha.isOpen hout) status read)

/-- The chip is told to deliver if it was told to hold back, whatever else a packet in flight
brings with it. -/
theorem regulates_resumeFlow {c : Adapter σ} (hpaused : c.rx.paused = a.rx.paused)
    (hstats : c.stats = a.stats) (hbus : c.bus = a.bus) : a.Regulates c.resumeFlow := by
  unfold resumeFlow
  by_cases hp : c.rx.paused = true
  · rw [if_pos hp]
    have hjournal : (c.bus.order (.flow false)).journal =
        a.bus.journal ++ [.command (.flow false) (c.bus.issue (.flow false)).1] := by
      rw [← hbus]
      rfl
    exact .resumes (hpaused.symm.trans hp) rfl (congrArg Stats.flowPauses hstats) hjournal
  · rw [if_neg hp]
    refine .level ⟨hpaused, by rw [hstats], fun h => absurd (hpaused.trans h) hp, [], ?_, by simp⟩
    rw [hbus, List.append_nil]

theorem regulates_pauseFlow (a : Adapter σ) : a.Regulates a.pauseFlow := by
  unfold pauseFlow
  by_cases hp : a.rx.paused = true
  · rw [if_pos hp]
    exact .level (.of_eq rfl rfl rfl rfl)
  · rw [if_neg hp]
    exact .pauses (Bool.eq_false_iff.mpr hp) rfl rfl (a.bus.journal_issue (.flow true))

theorem Move.regulates (h : Move D a b) (ha : a.Steady) : a.Regulates b := by
  cases h with
  | chore h => exact .level h.level
  | create =>
    refine .level ⟨rfl, rfl, fun _ => Nat.le_refl _, [_, _], List.append_assoc .., ?_⟩
    simp [Entry.flow?]
  | register _ _ peer => exact .level (level_register a _ _ _ peer)
  | read h =>
    rcases a.receive_cases h with ⟨_, heq⟩ | ⟨_, packet, rest, _, _, _, heq⟩
    · rw [heq]
      exact .level (.of_eq rfl rfl rfl rfl)
    · rw [heq]
      exact .level ((level_modify a h _).trans (level_enter _ rfl))
  | resume => exact regulates_resumeFlow rfl rfl rfl
  | lease => exact regulates_resumeFlow rfl rfl rfl
  | pause => exact regulates_pauseFlow a
  | settle =>
    have hparted : a.Level (a.onRx .part) := .of_eq rfl rfl rfl rfl
    exact .level (hparted.trans (level_handOver _ _ _))
  | ask _ hpacket => exact .level (level_ask a _ hpacket)
  | answer hout _ h => exact .level (h.level ha hout)

theorem Step.regulates (h : Step D site? a b) (ha : a.Steady) : a.Regulates b := by
  cases h with
  | move h => exact h.regulates ha
  | close => exact .level (level_close a _)
  | call _ hcall => exact .level hcall.level

/-! ### What every step keeps -/

omit [Chip σ] in
/-- The commands of flow control take turns, the adapter knows the last of them and counts those
that stop the delivery, and the chip is asked for nothing while it holds back. -/
structure Regulated (a : Adapter σ) : Prop where
  alternate : Alternates (flows a.bus.journal)
  paused : a.rx.paused = (flows a.bus.journal).getLastD false
  pauses : a.stats.flowPauses = min ((flows a.bus.journal).count true) counterMax
  unasked : ∀ before h room timeout answer after,
    a.bus.journal = before ++ .command (.receive h room timeout) answer :: after →
    (flows before).getLastD false = false

omit [Chip σ] in
theorem regulated_new (chip : σ) (packets : Nat) (config : Config) :
    (new chip packets config).Regulated where
  alternate := alternates_nil
  paused := rfl
  pauses := rfl
  unasked before h room timeout answer after hjournal := by
    have hempty : before ++ Entry.command (.receive h room timeout) answer :: after = [] :=
      hjournal.symm
    simp at hempty

/-- Whoever is asked is asked with a packet in flight, and so not while the chip holds back. -/
theorem Regulated.unasked_step (h : a.Regulated) (ha : a.Steady) (hab : Step D site? a b)
    (before : List Entry) (k : Handle) (room timeout : Nat) (answer : Answer Unit)
    (after : List Entry)
    (hsplit : b.bus.journal = before ++ .command (.receive k room timeout) answer :: after) :
    (flows before).getLastD false = false := by
  obtain ⟨es, hjournal, hturn⟩ := hab.turn ha
  rw [hjournal] at hsplit
  rcases Entry.split_append hsplit with ⟨after', hbefore, -⟩ | ⟨before', rfl, hes⟩
  · exact h.unasked before k room timeout answer after' hbefore
  · obtain ⟨-, hpacket, _, _, _, hsingle, -⟩ :=
      hturn.mem_asks (e := .command (.receive k room timeout) answer) (by rw [hes]; simp) trivial
    have hnil : before' = [] := by
      rw [hsingle] at hes
      cases before' with
      | nil => rfl
      | cons e rest => simp at hes
    rw [hnil, List.append_nil, ← h.paused]
    refine Bool.eq_false_iff.mpr fun hp => ?_
    rw [(ha.sound.paused hp).1] at hpacket
    cases hpacket

theorem Regulated.step (h : a.Regulated) (ha : a.Steady) (hab : Step D site? a b) : b.Regulated := by
  have hunasked := h.unasked_step ha hab
  cases hab.regulates ha with
  | level hlevel =>
    obtain ⟨es, hjournal, hes⟩ := hlevel.journal
    have hflows : flows b.bus.journal = flows a.bus.journal := by
      rw [hjournal, flows_append, flows_eq_nil hes, List.append_nil]
    refine ⟨?_, ?_, ?_, hunasked⟩
    · rw [hflows]
      exact h.alternate
    · rw [hlevel.paused, hflows, h.paused]
    · rw [hlevel.pauses, hflows, h.pauses]
  | pauses hpaused hpaused' hpauses hjournal =>
    have hflows : flows b.bus.journal = flows a.bus.journal ++ [true] := by
      rw [hjournal, flows_append]
      rfl
    refine ⟨?_, ?_, ?_, hunasked⟩
    · rw [hflows]
      exact h.alternate.concat (h.paused.symm.trans hpaused)
    · rw [hpaused', hflows, List.getLastD_concat]
    · rw [hpauses, hflows, h.pauses, List.count_append, List.count_singleton_self, saturatingAdd]
      omega
  | resumes hpaused hpaused' hpauses hjournal =>
    have hflows : flows b.bus.journal = flows a.bus.journal ++ [false] := by
      rw [hjournal, flows_append]
      rfl
    refine ⟨?_, ?_, ?_, hunasked⟩
    · rw [hflows]
      exact h.alternate.concat (h.paused.symm.trans hpaused)
    · rw [hpaused', hflows, List.getLastD_concat]
    · rw [hpauses, hflows, h.pauses, List.count_append]
      rfl

/-- Since a time when the chip was told to hold back it was told to deliver, or it still holds
back and the pool has as many leases or more. -/
def Releases (a b : Adapter σ) : Prop :=
  ∃ es, b.bus.journal = a.bus.journal ++ es ∧
    (false ∈ flows es ∨ b.rx.paused = true ∧ a.pool.available ≤ b.pool.available)

omit [Chip σ] in
theorem Releases.refl (ha : a.rx.paused = true) : a.Releases a :=
  ⟨[], (List.append_nil _).symm, .inr ⟨ha, Nat.le_refl _⟩⟩

theorem Releases.step {c : Adapter σ} (h : a.Releases b) (hb : b.Steady)
    (hbc : Step D site? b c) : a.Releases c := by
  obtain ⟨es, hjournal, hes⟩ := h
  cases hbc.regulates hb with
  | level hlevel =>
    obtain ⟨more, hmore, -⟩ := hlevel.journal
    refine ⟨es ++ more, by rw [hmore, hjournal, List.append_assoc], ?_⟩
    rcases hes with hes | ⟨hpaused, hpool⟩
    · exact .inl (by rw [flows_append]; exact List.mem_append_left _ hes)
    · exact .inr ⟨hlevel.paused.trans hpaused, Nat.le_trans hpool (hlevel.pool hpaused)⟩
  | @pauses answer hpaused _ _ hmore =>
    refine ⟨es ++ [.command (.flow true) answer], by rw [hmore, hjournal, List.append_assoc], ?_⟩
    rcases hes with hes | ⟨hpaused', -⟩
    · exact .inl (by rw [flows_append]; exact List.mem_append_left _ hes)
    · cases hpaused.symm.trans hpaused'
  | @resumes answer _ _ _ hmore =>
    refine ⟨es ++ [.command (.flow false) answer], by rw [hmore, hjournal, List.append_assoc], ?_⟩
    exact .inl (by rw [flows_append]; exact List.mem_append_right _ (List.mem_singleton_self _))

/-! ### What a poll ends with -/

/-- A packet is in flight and the chip may deliver. -/
structure Ready (a : Adapter σ) : Prop where
  packet : a.rx.packet?.isSome = true
  paused : a.rx.paused = false

/-- The chip holds back just if no packet is in flight, and then no lease is left either. -/
structure Settled (a : Adapter σ) : Prop where
  paused : a.rx.paused = true ↔ a.rx.packet? = none
  drained : a.rx.paused = true → a.pool.available = 0

omit [Chip σ] in
theorem Ready.settled (h : a.Ready) : a.Settled := by
  have hpacket : a.rx.packet? ≠ none := Option.isSome_iff_ne_none.mp h.packet
  refine ⟨⟨fun hp => ?_, fun hnone => absurd hnone hpacket⟩, fun hp => ?_⟩
  · cases h.paused.symm.trans hp
  · cases h.paused.symm.trans hp

theorem ready_resumeFlow (hpacket : a.rx.packet?.isSome = true) : a.resumeFlow.Ready := by
  obtain ⟨bus, es, heq, -⟩ := resumeFlow_eq a
  rw [heq]
  exact ⟨hpacket, rfl⟩

theorem settled_pauseFlow (hnone : a.rx.packet? = none) (hpool : a.pool.available = 0) :
    a.pauseFlow.Settled := by
  obtain ⟨bus, stats, es, heq, -⟩ := pauseFlow_eq a
  rw [heq]
  exact ⟨⟨fun _ => hnone, fun _ => rfl⟩, fun _ => hpool⟩

/-- Polling goes on with a packet in flight, or ends because there is none to lease. -/
def Proceeds (polled : Bool × Adapter σ) : Prop :=
  if polled.1 = true then polled.2.Ready else polled.2.Settled

theorem proceeds_ensurePacket (a : Adapter σ) : Proceeds a.ensurePacket := by
  unfold ensurePacket
  cases hp : a.rx.packet? with
  | some packet => exact ready_resumeFlow (by rw [hp]; rfl)
  | none =>
    cases hl : a.pool.lease? a.config.rxPacketSize with
    | some leased => exact ready_resumeFlow rfl
    | none => exact settled_pauseFlow hp ((a.pool.lease?_eq_none_iff _).mp hl)

theorem proceeds_clearFor (ha : a.Ready) (h : Handle) : Proceeds (a.clearFor h) := by
  unfold clearFor
  split
  · exact ha
  · split
    · exact ha
    · exact proceeds_ensurePacket _

theorem ready_ask (ha : a.Ready) (h : Handle) : (a.ask h).2.Ready := by
  rw [ask_eq a h ha.packet]
  dsimp only
  split
  · exact ⟨ha.packet, ha.paused⟩
  · exact ⟨ha.packet, ha.paused⟩

theorem settled_pollEach (l : List Handle) (ha : a.Ready) : (pollEach l a).Settled := by
  induction l generalizing a with
  | nil => exact ha.settled
  | cons h rest ih =>
    have hcleared := proceeds_clearFor ha h
    unfold pollEach
    split
    · split
      · next heq =>
        rw [heq] at hcleared
        exact hcleared
      · next b heq =>
        rw [heq] at hcleared
        have hasked : (b.ask h).2.Ready := ready_ask hcleared h
        split
        · next heq =>
          rw [heq] at hasked
          exact hasked.settled
        · next heq =>
          rw [heq] at hasked
          exact ih hasked
    · exact ih ha

theorem settled_pollFrom (a : Adapter σ) (start : Nat) : (a.pollFrom start).Settled := by
  have hensured := proceeds_ensurePacket (a.onRx .withdraw)
  unfold pollFrom
  dsimp only
  split
  · next heq =>
    rw [heq] at hensured
    exact hensured
  · next heq =>
    rw [heq] at hensured
    exact settled_pollEach _ hensured

/-- While a receive is outstanding a packet is in flight for it. -/
theorem settled_pollIdle (ha : a.Steady) : a.pollIdle.Settled := by
  unfold pollIdle
  split
  · next hpolling =>
    obtain ⟨i, hi⟩ := Option.isSome_iff_exists.mp (ha.sound.polling.mp hpolling)
    have hpacket := (ha.sound.asked i hi).packet
    refine Ready.settled ⟨hpacket, Bool.eq_false_iff.mpr fun hp => ?_⟩
    rw [(ha.sound.paused hp).1] at hpacket
    cases hpacket
  · exact settled_pollFrom a 0

theorem settled_tick (ha : a.Steady) (now : Nat) : (a.tick now).Settled :=
  settled_pollIdle (steady_looked ha now)

end Adapter

/-! ### Ticks -/

namespace Worker
variable {σ : Type} [Chip σ]

variable {site? : Option Handle} {a b : Adapter σ}

/-- Every tick is reached by steps and settles. -/
theorem ticks_poll {now : Nat} {w : Worker} (ha : a.Steady) (hb : b ∈ w.pollTicks now a) :
    Adapter.Steps Deed.Any site? a b ∧ b.Settled := by
  obtain ⟨w, c, hreached, hb⟩ := mem_gather site? hb
  have hc := (hreached ha).steady ha
  cases w with
  | ticking =>
    obtain rfl := List.mem_singleton.mp hb
    have htick : Adapter.Steps Deed.Any site? c (c.tick now) :=
      (Adapter.passes_tick (D := Deed.Any) c now trivial hc).steps hc
    exact ⟨Relation.ReflTransGen.trans (hreached ha) htick, Adapter.settled_tick hc now⟩
  | fresh | waiting | handling => cases hb

end Worker

/-- The adapter after every tick that a task makes when it is polled. -/
def Task.ticks {σ : Type} [Chip σ] (t : Task) (now : Nat) (a : Adapter σ) : List (Adapter σ) :=
  match t with
  | .work w => w.pollTicks now a
  | _ => []

namespace Session
variable {σ : Type} [Chip σ]

/-- The adapter after every tick of an action, whether the application asks for it or a worker
makes it. -/
def ticks (s : Session σ) : Action σ → List (Adapter σ)
  | .tick => [s.adapter.tick s.clock]
  | .work => Worker.fresh.pollTicks s.clock s.adapter
  | .poll id => ((s.find? id).map fun t => t.ticks s.clock s.adapter).getD []
  | _ => []

/-- The adapter after every tick of a history. -/
def beats (s : Session σ) : List (Action σ) → List (Adapter σ)
  | [] => []
  | action :: rest => s.ticks action ++ beats (s.perform action).2 rest

theorem ticks_perform {s : Session σ} (hs : s.adapter.Steady) {action : Action σ} {b : Adapter σ}
    (hb : b ∈ s.ticks action) : Adapter.Steps Deed.Any none s.adapter b ∧ b.Settled := by
  unfold ticks at hb
  split at hb
  · obtain rfl := List.mem_singleton.mp hb
    exact ⟨(Adapter.passes_tick (D := Deed.Any) s.adapter s.clock trivial hs).steps hs,
      Adapter.settled_tick hs s.clock⟩
  · exact Worker.ticks_poll hs hb
  · next id =>
    cases hfind : s.find? id with
    | none =>
      rw [hfind] at hb
      cases hb
    | some t =>
      rw [hfind] at hb
      cases t with
      | work w => exact Worker.ticks_poll hs hb
      | call | post | nextEvent => cases hb
  · cases hb

/-- Every tick of a history settles, and what every step keeps holds after it. -/
theorem invariant_beats {s : Session σ} {P : Adapter σ → Prop}
    (hstep : ∀ (site? : Option Handle) (a b : Adapter σ), a.Steady → P a →
      Adapter.Step Deed.Any site? a b → P b)
    (hs : s.adapter.Steady) (h : P s.adapter) (actions : List (Action σ)) :
    ∀ b ∈ s.beats actions, b.Settled ∧ P b := by
  induction actions generalizing s with
  | nil => exact fun b hb => absurd hb List.not_mem_nil
  | cons action rest ih =>
    intro b hb
    rcases List.mem_append.mp hb with hb | hb
    · obtain ⟨hreached, hsettled⟩ := ticks_perform hs hb
      exact ⟨hsettled, hreached.keeps (hstep none) hs h⟩
    · have hsteps := yields_perform s action hs
      exact ih (hsteps.steady hs) (hsteps.keeps (hstep _) hs h) b hb

theorem regulated_run (chip : σ) (packets : Nat) (config : Config) (actions : List (Action σ)) :
    let s := new chip packets config
    (s.run actions).adapter.Regulated ∧
      ∀ m ∈ s.trail actions, m.adapter.Steady ∧ m.adapter.Regulated :=
  invariant_run (fun _ _ _ hs ha hab => ha.step hs hab) (Adapter.steady_new chip packets config)
    (Adapter.regulated_new chip packets config) actions

/-- The commands of flow control take turns, the first of them stops the delivery, and the adapter
remembers the last and counts those that stop it; the chip is asked for nothing while it holds
back. After every tick the chip holds back just if no packet is in flight, and then the pool is
empty. So a chip that holds back although a lease is free is told to deliver before the next tick
is over. -/
theorem flow_regulated (chip : σ) (packets : Nat) (config : Config)
    (before during : List (Action σ)) :
    let s := (new chip packets config).run before
    s.adapter.Regulated ∧ ∀ b ∈ s.beats during, b.Regulated ∧ b.Settled ∧
      (s.adapter.rx.paused = true → 0 < s.adapter.pool.available →
        ∃ es, b.bus.journal = s.adapter.bus.journal ++ es ∧ false ∈ flows es) := by
  intro s
  have hsteady : s.adapter.Steady := steady_run (Adapter.steady_new chip packets config) before
  have hrun := (regulated_run chip packets config before).1
  refine ⟨hrun, fun b hb => ?_⟩
  obtain ⟨hsettled, hregulated⟩ :=
    invariant_beats (fun _ _ _ hs ha hab => ha.step hs hab) hsteady hrun during b hb
  refine ⟨hregulated, hsettled, fun hpaused hlease => ?_⟩
  obtain ⟨-, es, hjournal, hes⟩ :=
    invariant_beats (P := s.adapter.Releases) (fun _ _ _ hs ha hab => ha.step hs hab) hsteady
      (.refl hpaused) during b hb
  rcases hes with hes | ⟨hstill, hpool⟩
  · exact ⟨es, hjournal, hes⟩
  · have hdrained := hsettled.drained hstill
    omega

/-- The only lease was with a packet that the application took and dropped. -/
theorem flow_regulated_resumed :
    let s := (new ScriptedChip.new 1 .defaults).run [.create .inet .datagram,
      .bind 7 (.v4 ⟨⟨0, 0, 0, 0⟩, 53⟩), .dispatch (.socket 7 (.bound .success)),
      .dispatch (.socket 7 (.received ⟨3, 0, default, [1, 2, 3]⟩)), .receive 7, .drop 0]
    flows s.adapter.bus.journal = [true] ∧ s.adapter.rx.paused = true ∧ s.adapter.pool = ⟨1⟩ ∧
      ∃ b ∈ s.beats [.tick], b.Settled ∧
        ∃ es, b.bus.journal = s.adapter.bus.journal ++ es ∧ false ∈ flows es := by
  intro s
  have hflows : flows s.adapter.bus.journal = [true] := by decide +kernel
  have hpaused : s.adapter.rx.paused = true := by decide +kernel
  have hpool : s.adapter.pool = ⟨1⟩ := by decide +kernel
  obtain ⟨-, hbeats⟩ := flow_regulated ScriptedChip.new 1 .defaults [.create .inet .datagram,
    .bind 7 (.v4 ⟨⟨0, 0, 0, 0⟩, 53⟩), .dispatch (.socket 7 (.bound .success)),
    .dispatch (.socket 7 (.received ⟨3, 0, default, [1, 2, 3]⟩)), .receive 7, .drop 0] [.tick]
  have htick : s.adapter.tick s.clock ∈ s.beats [.tick] := List.mem_singleton_self _
  obtain ⟨-, hsettled, hresumed⟩ := hbeats _ htick
  exact ⟨hflows, hpaused, hpool, _, htick, hsettled, hresumed hpaused (by rw [hpool]; decide)⟩

end Session

end WifiAdapter
