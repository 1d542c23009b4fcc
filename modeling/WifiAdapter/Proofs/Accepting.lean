import WifiAdapter.Proofs.OpenSockets
import WifiAdapter.Proofs.Separation

/-! A connection is taken in whole, or turned down and leaves nothing behind.

The slot of a connection is taken into use before the application is told of it, and freed again if
there is no room to tell it; only then does receiving go on. A connection that becomes a socket is
the next thing the application hears of, and nothing else that it hears in the same breath is about
that socket (`Adapter.Delivers`): receiving may settle the packet in flight, and nobody has bytes in
flight in a free slot. Any other connection is closed, and the records, the state of receiving and
the events are what they were (`Adapter.TurnsDown`).

`Session.taken_whole_or_turned_down`: which of the two happens is settled by the answer of the
chip, the listener, the slot and the room for events. -/
namespace WifiAdapter

namespace Entry

/-- The event that finds room. -/
def queued? : Entry → Option Event
  | .event e true => some e
  | _ => none

/-- The command that the chip is given. -/
def order? : Entry → Option Command
  | .command c _ => some c
  | _ => none

/-- The chip is asked for a socket. -/
def Seeks : Entry → Prop
  | .opening .. => True
  | _ => False

end Entry

/-- The close of a connection that the chip has opened. -/
def Answer.closing : Answer Handle → List Command
  | .accepted child => [.close child]
  | .refused _ => []

namespace Adapter
variable {σ : Type}

/-- The connection becomes a socket in its free slot. The application is told of it, and then at
most of packets of other sockets. -/
structure Delivers (listener child : Handle) (peer : Endpoint) (a b : Adapter σ) : Prop where
  free : a.table.get? child = none
  record : b.table.get? child = some
    { kind := .stream, peer? := some peer, waiting := false, poll := true, peerClosed := false,
      inbound := [], pendingTx? := none, phase := .connected }
  generation : b.table.generation child = a.table.generation child + 1
  events : ∃ others,
    b.events.items = a.events.items ++ .newConnection listener child :: others ∧
      ∀ e ∈ others, ∃ k ≠ child, e = .readable k .data

/-- The connection does not become a socket. It is closed if the chip has opened one; apart from
that at most its slot was taken into use and an event was lost. -/
structure TurnsDown (child : Answer Handle) (a b : Adapter σ) : Prop where
  records : ∀ h, b.table.get? h = a.table.get? h
  generations : ∀ h, child ≠ .accepted h → b.table.generation h = a.table.generation h
  rest : b =
    { a with
      table := b.table
      bus := b.bus
      stats := { a.stats with droppedEvents := b.stats.droppedEvents } }
  orders : ∃ es, b.bus.journal = a.bus.journal ++ es ∧ es.filterMap Entry.order? = child.closing ∧
    ∀ e ∈ es, ¬ e.Seeks

/-- The listener listens, the slot is free, and there is room for an event. -/
def Takes (listener child : Handle) (a : Adapter σ) : Prop :=
  a.table.listens listener = true ∧ a.table.isOpen child = false ∧
    a.events.items.length < eventCapacity

instance (listener child : Handle) (a : Adapter σ) : Decidable (a.Takes listener child) :=
  inferInstanceAs (Decidable (_ ∧ _ ∧ _))

/-- The application is told of packets that were handed over, and of nothing else. -/
def Hands (a b : Adapter σ) : Prop :=
  ∃ es, b.bus.journal = a.bus.journal ++ es ∧
    b.events.items = a.events.items ++ es.filterMap Entry.queued? ∧
    ∀ e ∈ es.filterMap Entry.queued?, ∃ h, e = .readable h .data

section Hands
variable {a b c : Adapter σ}

/-- The application is told of nothing. -/
theorem Hands.of_mute (es : List Entry) (hjournal : b.bus.journal = a.bus.journal ++ es)
    (hevents : b.events = a.events) (hes : ∀ e ∈ es, e.queued? = none) : a.Hands b := by
  have hnone : es.filterMap Entry.queued? = [] := List.filterMap_eq_nil_iff.mpr hes
  refine ⟨es, hjournal, ?_, ?_⟩
  · rw [hnone, hevents, List.append_nil]
  · rw [hnone]
    exact nofun

theorem Hands.refl (a : Adapter σ) : a.Hands a := .of_mute [] (List.append_nil _).symm rfl nofun

theorem Hands.trans (hab : a.Hands b) (hbc : b.Hands c) : a.Hands c := by
  obtain ⟨es, hjournal, hevents, hes⟩ := hab
  obtain ⟨more, hjournal', hevents', hmore⟩ := hbc
  refine ⟨es ++ more, ?_, ?_, ?_⟩
  · rw [hjournal', hjournal, List.append_assoc]
  · rw [hevents', hevents, List.filterMap_append, List.append_assoc]
  · rw [List.filterMap_append]
    exact List.forall_mem_append.mpr ⟨hes, hmore⟩

theorem hands_enter (a : Adapter σ) {e : Entry} (he : e.queued? = none) : a.Hands (a.enter e) :=
  .of_mute [e] rfl rfl (List.forall_mem_singleton.mpr he)

theorem hands_handOver (a : Adapter σ) (h : Handle) (packet : Packet) :
    a.Hands (a.handOver h packet) := by
  rw [handOver_eq]
  by_cases hfull : a.events.items.length = eventCapacity
  · rw [announce_of_full (a.counted h packet) _ hfull]
    exact .of_mute [_] rfl rfl (List.forall_mem_singleton.mpr rfl)
  · obtain ⟨events, hitems, heq⟩ :=
      announce_of_room (a.counted h packet) (.readable h .data) hfull
    rw [heq]
    exact ⟨[_], rfl, hitems, List.forall_mem_singleton.mpr ⟨h, rfl⟩⟩

theorem hands_finishPacket (a : Adapter σ) (h : Handle) : a.Hands (a.finishPacket h) := by
  unfold finishPacket
  split
  · exact hands_enter (e := .unexpected .noPacket) (a.onRx .part) rfl
  · dsimp only
    split
    · exact hands_handOver (a.onRx .part) h _
    · exact .of_mute [_] rfl rfl (List.forall_mem_singleton.mpr rfl)

theorem hands_settlePartial (a : Adapter σ) : a.Hands a.settlePartial := by
  unfold settlePartial
  split
  · exact .refl a
  · split
    · exact hands_finishPacket a _
    · exact hands_enter (e := .unexpected .staleOwner) a rfl

/-- A command tells the application nothing. -/
theorem Hands.of_commands {es : List Entry} {c : Command}
    (hjournal : b.bus.journal = a.bus.journal ++ es) (hevents : b.events = a.events)
    (hes : ∀ e ∈ es, ∃ answer, e = .command c answer) : a.Hands b :=
  .of_mute es hjournal hevents fun e he => by
    obtain ⟨answer, rfl⟩ := hes e he
    rfl

variable [Chip σ]

theorem hands_resumeFlow (a : Adapter σ) : a.Hands a.resumeFlow := by
  obtain ⟨bus, es, heq, hjournal, hes⟩ := resumeFlow_eq a
  rw [heq]
  exact .of_commands hjournal rfl hes

theorem hands_ensurePacket (a : Adapter σ) : a.Hands a.ensurePacket.2 := by
  unfold ensurePacket
  split
  · exact hands_resumeFlow a
  · split
    · next packet pool _ =>
      exact hands_resumeFlow ({ a with pool }.onRx fun r => { r with packet? := some packet })
    · obtain ⟨bus, stats, es, heq, hjournal, hes⟩ := pauseFlow_eq a
      dsimp only
      rw [heq]
      exact .of_commands hjournal rfl hes

theorem hands_clearFor (a : Adapter σ) (h : Handle) : a.Hands (a.clearFor h).2 := by
  unfold clearFor
  split
  · exact .refl a
  · split
    · exact .refl a
    · exact (hands_settlePartial a).trans (hands_ensurePacket _)

theorem hands_ask (a : Adapter σ) (h : Handle) : a.Hands (a.ask h).2 := by
  have hexpect : a.Hands a.expectPacket := by
    unfold expectPacket
    split
    · exact .refl a
    · exact hands_enter (e := .unexpected .noPacket) a rfl
  have hissue : a.Hands (a.expectPacket.issue (.receive h a.rx.room a.config.recvTimeout)).2 :=
    hexpect.trans (.of_mute [_] rfl rfl (List.forall_mem_singleton.mpr rfl))
  unfold ask
  split
  · next heq =>
    rw [heq] at hissue
    exact hissue
  · next heq =>
    rw [heq] at hissue
    exact hissue

theorem hands_pollEach (l : List Handle) (a : Adapter σ) : a.Hands (pollEach l a) := by
  induction l generalizing a with
  | nil => exact .refl a
  | cons h rest ih =>
    have hcleared := hands_clearFor a h
    unfold pollEach
    split
    · split
      · next heq => rwa [heq] at hcleared
      · next b heq =>
        rw [heq] at hcleared
        have hasked := hands_ask b h
        split
        · next heq =>
          rw [heq] at hasked
          exact hcleared.trans hasked
        · next heq =>
          rw [heq] at hasked
          exact (hcleared.trans hasked).trans (ih _)
    · exact ih a

/-- When receiving goes on, the application is told of packets at most. -/
theorem hands_pollIdle (a : Adapter σ) : a.Hands a.pollIdle := by
  unfold pollIdle
  split
  · exact .refl a
  · have hready := hands_ensurePacket (a.onRx .withdraw)
    unfold pollFrom
    dsimp only
    split
    · next heq => rwa [heq] at hready
    · next heq =>
      rw [heq] at hready
      exact Hands.trans (b := _) hready (hands_pollEach _ _)

end Hands

/-! ### A connection -/

section Accept
variable [Chip σ] {a : Adapter σ} {listener child : Handle} {peer : NativeAddr} {k : Handle}

/-- A poll does nothing to a slot that nobody has bytes in flight of. -/
theorem aloof_pollIdle (ha : a.Steady) (howner : ∀ i, a.rx.owner? = some i → i.handle ≠ k) :
    a.Aloof k a.pollIdle := by
  rcases spares_pollIdle (k := k) ha with haloof | hhanded
  · exact haloof
  · obtain ⟨_, _, _, howned, -⟩ := hhanded.record
    exact absurd rfl (howner _ howned)

/-- The connection is taken in. -/
theorem delivers_onAccept (ha : a.Steady) (hregular : ∀ h r, a.table.get? h = some r → r.Regular)
    (htakes : a.Takes listener child) :
    a.Delivers listener child peer.endpoint (a.onAccept listener (.accepted child) peer) := by
  obtain ⟨hlistens, hfree, hroom⟩ := htakes
  obtain ⟨r, hr, hphase, heq⟩ := onAccept_registers a listener child peer hfree hlistens
  have hkind : r.kind = .stream := by
    cases hkind : r.kind with
    | stream => rfl
    | datagram =>
      -- A datagram socket does not listen.
      obtain ⟨hdatagram, -⟩ := (hregular listener r hr).datagram hkind
      rw [hphase] at hdatagram
      rcases hdatagram with h | h | h <;> cases h
  let taken := a.occupied child (.accepted r.kind peer.endpoint)
  obtain ⟨events, hitems, htold⟩ :=
    announce_of_room taken (.newConnection listener child) (Nat.ne_of_lt hroom)
  let told := taken.announce (.newConnection listener child)
  have hsteady : told.Steady :=
    (steady_occupied ha hfree _).of_quiet (quiet_announce _ fun _ => trivial)
  have hget : a.table.get? child = none := SocketTable.get?_of_free hfree
  have haloof : told.Aloof child told.pollIdle := by
    refine aloof_pollIdle hsteady fun i howner heq => ?_
    have hrx : told.rx = a.rx := rx_announce ..
    have hopen := ha.sound.isOpen (.inr (hrx ▸ howner))
    rw [heq, hfree] at hopen
    cases hopen
  have htable : told.table = a.table.occupy child (.accepted r.kind peer.endpoint) :=
    table_announce ..
  rw [heq, register_cases, if_neg (Nat.ne_of_lt hroom)]
  show a.Delivers listener child peer.endpoint told.pollIdle
  refine ⟨hget, ?_, ?_, ?_⟩
  · rw [haloof.record, htable, SocketTable.get?_occupy, if_pos rfl, hkind]
    rfl
  · rw [haloof.generation, htable, SocketTable.generation_occupy, if_pos rfl]
  · obtain ⟨es, hjournal, hevents, hpackets⟩ := hands_pollIdle told
    obtain ⟨es', hjournal', hsilent⟩ := haloof.silent
    obtain rfl := List.append_cancel_left (hjournal.symm.trans hjournal')
    refine ⟨es.filterMap Entry.queued?, ?_, fun e he => ?_⟩
    · rw [hevents]
      show (taken.announce _).events.items ++ _ = _
      rw [htold]
      show events.items ++ _ = _
      rw [hitems, List.append_assoc]
      rfl
    · obtain ⟨h, rfl⟩ := hpackets e he
      refine ⟨h, ?_, rfl⟩
      rintro rfl
      obtain ⟨entry, hentry, hqueued⟩ := List.mem_filterMap.mp he
      refine hsilent entry hentry ?_
      unfold Entry.queued? at hqueued
      split at hqueued
      · cases hqueued
        exact rfl
      · cases hqueued

/-- A connection that is only closed. -/
theorem turnsDown_order (a : Adapter σ) (child : Handle) :
    a.TurnsDown (.accepted child) (a.order (.close child)) where
  records _ := rfl
  generations _ _ := rfl
  rest := rfl
  orders := ⟨[_], rfl, rfl, List.forall_mem_singleton.mpr id⟩

omit [Chip σ] in
/-- A socket with nothing to be read gives no lease back. -/
theorem release_of_unread {r : SocketRecord} (hr : a.table.get? child = some r)
    (hunread : r.inbound = []) :
    (a.release child).2 = { a with table := (a.table.release a.pool child).2.1 } := by
  unfold release SocketTable.release
  rw [hr]
  dsimp only
  rw [hunread]
  rfl

/-- A connection of which the application cannot be told. -/
theorem turnsDown_untold (hfree : a.table.isOpen child = false)
    (hlistens : a.table.listens listener = true) (hfull : a.events.items.length = eventCapacity) :
    a.TurnsDown (.accepted child) (a.onAccept listener (.accepted child) peer) := by
  obtain ⟨r, -, -, heq⟩ := onAccept_registers a listener child peer hfree hlistens
  let taken := a.occupied child (.accepted r.kind peer.endpoint)
  let lost := (taken.enter (.event (.newConnection listener child) false)).onStats fun s =>
    { s with droppedEvents := saturatingAdd s.droppedEvents 1 }
  have hlost : taken.announce (.newConnection listener child) = lost := announce_of_full taken _ hfull
  have hget : a.table.get? child = none := SocketTable.get?_of_free hfree
  have hrecord : lost.table.get? child = some (.accepted r.kind peer.endpoint) :=
    (SocketTable.get?_occupy ..).trans (if_pos rfl)
  rw [heq, register_cases, if_pos hfull]
  show a.TurnsDown _ (((taken.announce _).release child).2.order (.close child))
  rw [hlost, release_of_unread hrecord rfl]
  refine ⟨fun h => ?_, fun h hne => ?_, rfl, ?_⟩
  · show ((a.table.occupy child _).release _ child).2.1.get? h = _
    rw [SocketTable.get?_release, SocketTable.get?_occupy]
    by_cases hh : child = h
    · rw [if_pos hh, ← hh, hget]
    · rw [if_neg hh, if_neg hh]
  · show ((a.table.occupy child _).release _ child).2.1.generation h = _
    have hh : child ≠ h := fun heq => hne (congrArg Answer.accepted heq)
    rw [SocketTable.generation_release, SocketTable.generation_occupy, if_neg hh]
  · have hjournal : (lost.bus.order (.close child)).journal =
        a.bus.journal ++ [.opened (lost.table.incarnation child),
          .event (.newConnection listener child) false,
          .command (.close child) (lost.bus.issue (.close child)).1] := by
      show a.bus.journal ++ [_] ++ [_] ++ [_] = _
      rw [List.append_assoc, List.append_assoc]
      rfl
    exact ⟨_, hjournal, rfl, by simp [Entry.Seeks]⟩

/-- The connection is turned down. -/
theorem turnsDown_onAccept (child : Answer Handle)
    (hturned : ∀ c, child = .accepted c → ¬ a.Takes listener c) :
    a.TurnsDown child (a.onAccept listener child peer) := by
  cases child with
  | refused status => exact ⟨fun _ => rfl, fun _ _ => rfl, rfl, [], (List.append_nil _).symm, rfl, nofun⟩
  | accepted child =>
    cases hfree : a.table.isOpen child with
    | true =>
      rw [onAccept_occupied a listener child peer hfree]
      exact turnsDown_order a child
    | false =>
      cases hlistens : a.table.listens listener with
      | false =>
        rw [onAccept_unlistened a listener child peer hlistens]
        exact turnsDown_order a child
      | true =>
        refine turnsDown_untold hfree hlistens (Decidable.of_not_not fun hroom => ?_)
        exact hturned child rfl ⟨hlistens, hfree, Nat.lt_of_le_of_ne a.events.within hroom⟩

omit [Chip σ] in
/-- The entry of the notification makes no difference. -/
theorem TurnsDown.of_noted {b : Adapter σ} {note : Notification} {child : Answer Handle}
    (h : (a.noted note).TurnsDown child b) : a.TurnsDown child b := by
  obtain ⟨es, hjournal, horders, hseeks⟩ := h.orders
  refine ⟨h.records, h.generations, h.rest, .handled note a.rx.expecting? :: es, ?_, horders, ?_⟩
  · rw [hjournal]
    exact (List.append_cons ..).symm
  · exact List.forall_mem_cons.mpr ⟨id, hseeks⟩

/-- Whether a connection becomes a socket depends on what there is before. -/
theorem taken_whole (ha : a.Steady) (hregular : ∀ h r, a.table.get? h = some r → r.Regular)
    (now : Nat) (listener : Handle) (child : Answer Handle) (peer : NativeAddr) :
    let b := a.handle now (.socket listener (.accepted child peer))
    ((∃ c, child = .accepted c ∧ a.Delivers listener c peer.endpoint b) ↔
      ∃ c, child = .accepted c ∧ a.Takes listener c) ∧
    (a.TurnsDown child b ↔ ∀ c, child = .accepted c → ¬ a.Takes listener c) := by
  intro b
  let n := a.noted (.socket listener (.accepted child peer))
  have hn : n.Steady := steady_enter ha (by simp)
  have hdelivers (c : Handle) (hc : child = .accepted c) (htakes : a.Takes listener c) :
      a.Delivers listener c peer.endpoint b := by
    subst hc
    have h : n.Delivers listener c peer.endpoint b := delivers_onAccept hn hregular htakes
    exact ⟨h.free, h.record, h.generation, h.events⟩
  have hturns (h : ∀ c, child = .accepted c → ¬ a.Takes listener c) : a.TurnsDown child b :=
    .of_noted (turnsDown_onAccept (a := n) child h)
  -- A connection is not both: its slot is free before, and after only one of the two.
  have happart (c : Handle) (h : a.Delivers listener c peer.endpoint b) : ¬ a.TurnsDown child b :=
    fun hdown => by
      cases (hdown.records c).symm.trans h.record |>.symm.trans h.free
  refine ⟨⟨fun ⟨c, hc, h⟩ => ⟨c, hc, ?_⟩, fun ⟨c, hc, h⟩ => ⟨c, hc, hdelivers c hc h⟩⟩,
    fun h c hc htakes => happart c (hdelivers c hc htakes) h, hturns⟩
  refine Decidable.of_not_not fun hnot => happart c h (hturns fun c' hc' => ?_)
  cases hc.symm.trans hc'
  exact hnot

end Accept

end Adapter

namespace Session
variable {σ : Type} [Chip σ]

theorem regular_reached (chip : σ) (packets : Nat) (config : Config) (actions : List (Action σ)) :
    ∀ a ∈ (new chip packets config).reached actions, ∀ h r, a.table.get? h = some r → r.Regular := by
  obtain ⟨hrun, htrail⟩ := kempt_run chip packets config actions
  intro a ha
  rcases List.mem_append.mp ha with ha | ha
  · obtain ⟨m, hm, rfl⟩ := List.mem_map.mp ha
    exact (htrail m hm).regular
  · rw [List.mem_singleton.mp ha]
    exact hrun.regular

/-- Whenever a connection is reported, it becomes a socket of which the application is told, just if
the chip has opened it, its listener listens, its slot is free and there is room for an event;
otherwise the chip is told to close what it has opened, and everything but the generation of the
slot and the count of lost events is as it was. -/
theorem taken_whole_or_turned_down (chip : σ) (packets : Nat) (config : Config)
    (actions : List (Action σ)) :
    ∀ a ∈ (new chip packets config).reached actions,
      ∀ (now : Nat) (listener : Handle) (child : Answer Handle) (peer : NativeAddr),
        let b := a.handle now (.socket listener (.accepted child peer))
        ((∃ c, child = .accepted c ∧ a.Delivers listener c peer.endpoint b) ↔
          ∃ c, child = .accepted c ∧ a.Takes listener c) ∧
        (a.TurnsDown child b ↔ ∀ c, child = .accepted c → ¬ a.Takes listener c) := fun a ha =>
  Adapter.taken_whole (steady_reached (Adapter.steady_new chip packets config) actions a ha)
    (regular_reached chip packets config actions a ha)

/-- The first connection of a listener is taken in. The same one again is turned down, since its
slot is in use. -/
theorem taken_whole_once :
    let start := new ScriptedChip.new 4 .defaults
    let listening : List (Action ScriptedChip) := [.create .inet .stream,
      .bind 0 (.v4 ⟨⟨0, 0, 0, 0⟩, 80⟩), .dispatch (.socket 0 (.bound .success)), .poll 0,
      .listen 0 4, .dispatch (.socket 0 (.listening .success))]
    let note : Notification := .socket 0 (.accepted (.accepted 1) default)
    let a := (start.run listening).adapter
    let b := a.handle 0 note
    a ∈ start.reached listening ∧ a.Delivers 0 1 (default : NativeAddr).endpoint b ∧
      b ∈ start.reached (listening ++ [.dispatch note]) ∧
      b.TurnsDown (.accepted 1) (b.handle 0 note) := by
  intro start listening note a b
  have ha : a ∈ start.reached listening := List.mem_append_right _ (List.mem_singleton_self _)
  have hclock : (start.run listening).clock = 0 := by decide
  have hdispatch (s : Session ScriptedChip) (actions : List (Action ScriptedChip)) :
      (s.run (actions ++ [.dispatch note])).adapter =
        (s.run actions).adapter.handle (s.run actions).clock note := by
    rw [run_snoc]
    rfl
  have hlast : (start.run (listening ++ [.dispatch note])).adapter = b :=
    (hdispatch start listening).trans (congrArg (a.handle · note) hclock)
  have hb : b ∈ start.reached (listening ++ [.dispatch note]) :=
    List.mem_append_right _ (List.mem_singleton.mpr hlast.symm)
  obtain ⟨c, hc, hdelivers⟩ :=
    (taken_whole_or_turned_down _ _ _ listening a ha 0 0 (.accepted 1) default).1.mpr
      ⟨1, rfl, by decide⟩
  have hturned := (taken_whole_or_turned_down _ _ _ _ b hb 0 0 (.accepted 1) default).2.mpr
  cases hc
  refine ⟨ha, hdelivers, hb, hturned fun c hc htakes => ?_⟩
  cases hc
  exact absurd htakes.2.1 (by decide)

end Session

end WifiAdapter
