import WifiAdapter.Adapter.Sockets

/-! What the operations of the adapter do to its parts.

One lemma for an operation and a part: the table, the state of receiving, the posted
completions and the journal. What an operation does is said here once; invariants are
shown from these lemmas. -/
namespace WifiAdapter

namespace Adapter
variable {σ : Type} (a : Adapter σ) (h : Handle)

/-! ### Handing over -/

/-- A packet is queued at a socket and counted, and the application is yet to be told. -/
def counted (packet : Packet) : Adapter σ :=
  (a.modify h fun r => { r with inbound := r.inbound ++ [packet] }).onStats fun s =>
    { s with
      rxPackets := saturatingAdd s.rxPackets 1
      rxBytes := saturatingAdd s.rxBytes packet.data.length }

theorem handOver_eq (packet : Packet) :
    a.handOver h packet = (a.counted h packet).announce (.readable h .data) := rfl

@[simp] theorem table_handOver (packet : Packet) :
    (a.handOver h packet).table =
      a.table.modify h fun r => { r with inbound := r.inbound ++ [packet] } := by
  simp [handOver, modify, onTable, onStats]

@[simp] theorem rx_handOver (packet : Packet) : (a.handOver h packet).rx = a.rx := by
  simp [handOver, modify, onTable, onStats]

theorem journal_handOver (packet : Packet) :
    ∃ told, (a.handOver h packet).bus.journal =
      a.bus.journal ++ [.event (.readable h .data) told] :=
  ⟨_, journal_announce ..⟩

/-- The application can be told if its queue has room. -/
theorem emit_told (e : Event) : (a.emit e).1 = true ↔ a.events.items.length ≠ eventCapacity := by
  unfold emit
  cases hpush : a.events.push? e with
  | none =>
    have hfull := (a.events.push?_eq_none_iff e).mp hpush
    exact iff_of_false Bool.false_ne_true (not_not_intro hfull)
  | some events =>
    refine iff_of_true rfl fun hfull => ?_
    rw [(a.events.push?_eq_none_iff e).mpr hfull] at hpush
    cases hpush

theorem announce_of_room (e : Event) (hroom : a.events.items.length ≠ eventCapacity) :
    ∃ events, events.items = a.events.items ++ [e] ∧
      a.announce e = { a with events }.enter (.event e true) := by
  unfold announce emit
  cases hpush : a.events.push? e with
  | none => exact absurd ((a.events.push?_eq_none_iff e).mp hpush) hroom
  | some events => exact ⟨events, Queue.items_push? hpush, rfl⟩

theorem announce_of_full (e : Event) (hfull : a.events.items.length = eventCapacity) :
    a.announce e = (a.enter (.event e false)).onStats fun s =>
      { s with droppedEvents := saturatingAdd s.droppedEvents 1 } := by
  unfold announce emit
  rw [(a.events.push?_eq_none_iff e).mpr hfull]

theorem onRx_announce (e : Event) (f : RxState → RxState) :
    (a.announce e).onRx f = (a.onRx f).announce e := by
  unfold announce emit
  cases h : a.events.push? e with
  | some events =>
    rw [show (a.onRx f).events.push? e = some events from h]
    rfl
  | none =>
    rw [show (a.onRx f).events.push? e = none from h]
    rfl

/-- Handing over does not look at the state of receiving. -/
theorem onRx_handOver (packet : Packet) (f : RxState → RxState) :
    (a.handOver h packet).onRx f = (a.onRx f).handOver h packet :=
  onRx_announce _ _ f

theorem finishPacket_eq {packet : Packet} (hpacket : a.rx.packet? = some packet)
    (hopen : a.table.isOpen h = true) :
    a.finishPacket h = (a.onRx .part).handOver h packet := by
  unfold finishPacket
  rw [hpacket]
  exact if_pos hopen

/-- Delivered bytes stay in flight or complete the packet in flight. -/
theorem takeIn_eq {i : Incarnation} (hopen : a.table.isOpen i.handle = true) (d : Delivery)
    (remaining : Nat) (before : Packet) :
    (a.takeIn i d remaining before).onRx .withdraw =
      if 0 < remaining ∧ 0 < (a.fill i.handle d before).room then
        a.onRx fun x =>
          { x with
            packet? := some (a.fill i.handle d before)
            owner? := some i
            cursor? := none
            polling := false }
      else (a.onRx (·.part.withdraw)).handOver i.handle (a.fill i.handle d before) := by
  unfold takeIn
  dsimp only
  split
  · rfl
  · rw [finishPacket_eq (a.onRx _) i.handle rfl hopen, onRx_handOver]
    rfl

/-! ### The end of a stream -/

section EndStream
variable {h} (hopen : a.table.isOpen h = true) (status : Status) (read : ReadStatus)
include hopen

theorem endStream_eq :
    a.endStream h status read =
      (((a.onRx .dropPartial).modify h fun r => { r with peerClosed := true, poll := false }).wake h
        status).announce (.readable h read) := by
  unfold endStream
  exact if_pos hopen

/-- It makes no difference to the end of a stream whether a receive is outstanding. -/
theorem withdraw_endStream :
    (a.endStream h status read).onRx .withdraw = (a.onRx .withdraw).endStream h status read := by
  rw [endStream_eq a hopen, endStream_eq (a.onRx .withdraw) hopen, onRx_announce, wake_eq, wake_eq]
  rfl

theorem table_endStream :
    (a.endStream h status read).table =
      a.table.modify h fun r => { r with peerClosed := true, poll := false } := by
  rw [endStream_eq a hopen, table_announce, wake_eq]
  rfl

theorem rx_endStream : (a.endStream h status read).rx = a.rx.dropPartial := by
  rw [endStream_eq a hopen, rx_announce, wake_eq]
  rfl

theorem completions_endStream :
    (a.endStream h status read).completions =
      if (a.table.get? h).any (·.waiting) then a.completions.set h (some status)
      else a.completions := by
  rw [endStream_eq a hopen, completions_announce, wake_eq]
  show (if ((a.table.modify h _).get? h).any (·.waiting) then _ else _) = _
  rw [SocketTable.get?_modify, if_pos rfl]
  cases a.table.get? h <;> rfl

theorem journal_endStream :
    ∃ told, (a.endStream h status read).bus.journal =
      a.bus.journal ++ [.event (.readable h read) told] := by
  rw [endStream_eq a hopen, wake_eq]
  exact ⟨_, journal_announce ..⟩

end EndStream

/-- With a packet in flight there is nothing to complain of. -/
theorem expectPacket_eq (hpacket : a.rx.packet?.isSome = true) : a.expectPacket = a := by
  unfold expectPacket
  cases hp : a.rx.packet? with
  | none =>
    rw [hp] at hpacket
    cases hpacket
  | some packet => rfl

theorem data_fill (d : Delivery) (before : Packet) :
    (a.fill h d before).data = before.data ++ d.payload.take before.room := by
  unfold fill
  dsimp only
  split <;> rfl

/-- A packet names a sender once a datagram begins it. -/
theorem source_fill (d : Delivery) (before : Packet) :
    (a.fill h d before).source?.isSome = true ↔
      (before.data = [] ∧ a.table.kind? h = some .datagram) ∨ before.source?.isSome = true := by
  have hstamp : (before.isEmpty && a.table.kind? h == some .datagram) = true ↔
      before.data = [] ∧ a.table.kind? h = some .datagram := by
    rw [Bool.and_eq_true, beq_iff_eq]
    exact and_congr List.isEmpty_iff Iff.rfl
  unfold fill
  dsimp only
  by_cases hs : before.data = [] ∧ a.table.kind? h = some .datagram
  · rw [if_pos (hstamp.mpr hs)]
    exact ⟨fun _ => .inl hs, fun _ => rfl⟩
  · rw [if_neg fun h => hs (hstamp.mp h)]
    exact ⟨.inr, fun h => h.resolve_left hs⟩

/-! ### Reading -/

/-- Reading fails and does nothing, or it takes the oldest packet. -/
theorem receive_cases :
    (∃ error, a.receive h = (.error error, a)) ∨
      ∃ r packet rest received, a.table.get? h = some r ∧ r.inbound = packet :: rest ∧
        a.receive h = (.ok received, (a.modify h fun r => { r with inbound := rest }).enter
          (.read (a.table.incarnation h) packet)) := by
  unfold receive SocketTable.get
  cases hr : a.table.get? h with
  | none => exact .inl ⟨_, rfl⟩
  | some r =>
    dsimp only
    cases hin : r.inbound with
    | nil => exact .inl ⟨_, rfl⟩
    | cons packet rest => exact .inr ⟨r, packet, rest, _, rfl, hin, rfl⟩

/-! ### Waiting -/

/-- A posted completion is taken by a call that has seen nothing yet. -/
theorem takeCompletion_posted {c : Call} (hseen : c.seen? = none) {status : Status}
    (hposted : a.completions.get c.socket.handle = some status) :
    a.takeCompletion c = ({ c with seen? := some (some status) },
      (a.disarm c.socket.handle).enter (.taken c.socket status)) := by
  unfold takeCompletion
  rw [hseen, hposted]

theorem takeCompletion_seen {c : Call} (hseen : c.seen?.isSome = true) :
    a.takeCompletion c = (c, a) := by
  unfold takeCompletion
  cases hs : c.seen? with
  | none =>
    rw [hs] at hseen
    cases hseen
  | some outcome => rfl

theorem takeCompletion_none {c : Call} (hposted : a.completions.get c.socket.handle = none) :
    a.takeCompletion c = (c, a) := by
  unfold takeCompletion
  rw [hposted]
  cases c.seen? <;> rfl

theorem takeCompletion_keeps (c : Call) :
    (a.takeCompletion c).1.socket = c.socket ∧ (a.takeCompletion c).1.purpose? = c.purpose? ∧
      (a.takeCompletion c).2.table = a.table := by
  unfold takeCompletion
  split <;> exact ⟨rfl, rfl, rfl⟩

/-! ### The result of a call -/

section Result
variable (c : Call) {q : Phase}

theorem phase_settleCall (hq : (a.table.get? c.socket.handle).map (·.phase) = some q)
    (result : Except SocketError Unit) :
    ((a.settleCall c result).table.get? c.socket.handle).map (·.phase) =
      some (match result, c.purpose? with
        | .error _, some p => q.apply (p.done false)
        | _, _ => q) := by
  obtain ⟨r, hr, rfl⟩ := Option.map_eq_some_iff.mp hq
  unfold settleCall
  cases result with
  | ok value => exact hq
  | error error =>
    cases c.purpose? with
    | none => exact hq
    | some p =>
      refine Option.map_eq_some_iff.mpr ⟨r.apply (p.done false), ?_, rfl⟩
      exact (SocketTable.get?_modify ..).trans (by rw [if_pos rfl, hr]; rfl)

/-- A call that failed takes its socket back, any other leaves the phase alone. -/
theorem phase_finishCall (hq : (a.table.get? c.socket.handle).map (·.phase) = some q)
    (outcome : Option Status) :
    ((a.finishCall c outcome).2.table.get? c.socket.handle).map (·.phase) =
      some (match (a.finishCall c outcome).1, c.purpose? with
        | .error _, some p => q.apply (p.done false)
        | _, _ => q) := by
  obtain ⟨r, hr, rfl⟩ := Option.map_eq_some_iff.mp hq
  unfold finishCall
  dsimp only
  refine phase_settleCall _ c ?_ _
  split
  · refine Option.map_eq_some_iff.mpr ⟨{ r with waiting := false }, ?_, rfl⟩
    exact (SocketTable.get?_modify ..).trans (by rw [if_pos rfl]; exact congrArg _ hr)
  · exact hq

end Result

/-! ### The end of an operation -/

section Complete
variable (purpose : Purpose) (status : Status) (starts : Bool)

theorem table_complete :
    (a.complete h purpose status starts).table =
      a.table.modify h fun r =>
        let r := r.apply (purpose.done status.isSuccess)
        if starts then { r with poll := true } else r := by
  unfold complete
  rw [wake_eq]
  rfl

theorem completions_complete :
    (a.complete h purpose status starts).completions =
      if (a.table.get? h).any (·.waiting) then a.completions.set h (some status)
      else a.completions := by
  unfold complete
  rw [wake_eq]
  show (if ((a.table.modify h _).get? h).any (·.waiting) then _ else _) = _
  rw [SocketTable.get?_modify, if_pos rfl]
  cases a.table.get? h with
  | none => rfl
  | some r => cases starts <;> rfl

theorem journal_complete :
    (a.complete h purpose status starts).bus.journal =
      a.bus.journal ++ [.completed (a.table.incarnation h) purpose status] := by
  unfold complete
  rw [wake_eq]
  show a.bus.journal ++ [.completed ((a.table.modify h _).incarnation h) purpose status] = _
  rw [SocketTable.incarnation_modify]

end Complete

/-! ### Releasing -/

theorem release_none (hr : a.table.get? h = none) : a.release h = (none, a) := by
  unfold release SocketTable.release
  rw [hr]

theorem release_some {r : SocketRecord} (hr : a.table.get? h = some r) :
    a.release h = (some (SocketTable.retired r), (a.release h).2) := by
  unfold release SocketTable.release
  rw [hr]

@[simp] theorem table_release : (a.release h).2.table = (a.table.release a.pool h).2.1 := rfl

variable [Chip σ]

/-! ### Flow control -/

theorem resumeFlow_eq :
    ∃ bus : Bus σ, ∃ es, a.resumeFlow = { a with bus, rx := { a.rx with paused := false } } ∧
      bus.journal = a.bus.journal ++ es ∧ ∀ e ∈ es, ∃ answer, e = .command (.flow false) answer := by
  unfold resumeFlow
  by_cases hp : a.rx.paused = true
  · rw [if_pos hp]
    exact ⟨_, [_], rfl, rfl, by simp⟩
  · rw [if_neg hp]
    refine ⟨a.bus, [], ?_, (List.append_nil _).symm, by simp⟩
    rw [← Bool.eq_false_iff.mpr hp]

theorem pauseFlow_eq :
    ∃ bus : Bus σ, ∃ stats es,
      a.pauseFlow = { a with bus, stats, rx := { a.rx with paused := true } } ∧
      bus.journal = a.bus.journal ++ es ∧ ∀ e ∈ es, ∃ answer, e = .command (.flow true) answer := by
  unfold pauseFlow
  by_cases hp : a.rx.paused = true
  · rw [if_pos hp]
    refine ⟨a.bus, a.stats, [], ?_, (List.append_nil _).symm, by simp⟩
    rw [← hp]
  · rw [if_neg hp]
    exact ⟨_, _, [_], rfl, rfl, by simp⟩

/-! ### Closing -/

theorem close_none (hr : a.table.get? h = none) : a.close h = a := by
  unfold close
  rw [release_none a h hr]

section Close
variable {h} {r : SocketRecord} (hr : a.table.get? h = some r)
include hr

theorem close_some :
    a.close h =
      let b := ((a.release h).2.order (.close h)).onRx (·.leave h)
      if r.waiting then b.signal h .connectionAborted else b := by
  unfold close
  rw [release_some a h hr]
  rfl

theorem table_close : (a.close h).table = (a.table.release a.pool h).2.1 := by
  rw [close_some a hr]
  dsimp only
  split <;> rfl

theorem rx_close : (a.close h).rx = a.rx.leave h := by
  rw [close_some a hr]
  dsimp only
  split <;> rfl

theorem completions_close :
    (a.close h).completions =
      if r.waiting then a.completions.set h (some .connectionAborted) else a.completions := by
  rw [close_some a hr]
  dsimp only
  split <;> rfl

theorem journal_close :
    ∃ answer, (a.close h).bus.journal = a.bus.journal ++ [.command (.close h) answer] := by
  rw [close_some a hr]
  dsimp only
  split <;> exact ⟨_, rfl⟩

end Close

/-- A closed slot is not open. -/
theorem isOpen_close : (a.close h).table.isOpen h = false := by
  unfold SocketTable.isOpen
  cases hr : a.table.get? h with
  | none =>
    rw [close_none a h hr, hr]
    rfl
  | some r =>
    rw [table_close a hr, SocketTable.get?_release, if_pos rfl]
    rfl

/-! ### Registering a connection -/

theorem register_eq (listener : Handle) (t : SocketTable) :
    a.register listener h t =
      let b := { a with table := t }.enter (.opened (t.incarnation h))
      if (b.emit (.newConnection listener h)).1 then (true, b.announce (.newConnection listener h))
      else (false, ((b.announce (.newConnection listener h)).release h).2.order (.close h)) := by
  unfold register announce
  dsimp only
  generalize ({ a with table := t }.enter (.opened (t.incarnation h))).emit
    (.newConnection listener h) = told
  obtain ⟨told, b⟩ := told
  cases told <;> rfl

/-! ### Asking -/

/-- The chip is asked, and if it takes the request a receive is outstanding. -/
theorem ask_eq (hpacket : a.rx.packet?.isSome = true) :
    a.ask h =
      let command := .receive h a.rx.room a.config.recvTimeout
      match (a.bus.issue command).1 with
      | .accepted _ =>
        (true, (a.order command).onRx fun r =>
          { r with cursor? := some (a.table.incarnation h), polling := true })
      | .refused _ => (false, a.order command) := by
  unfold ask
  rw [expectPacket_eq a hpacket]
  unfold issue order Bus.order
  dsimp only
  generalize a.bus.issue (.receive h a.rx.room a.config.recvTimeout) = answered
  obtain ⟨answer, bus⟩ := answered
  cases answer <;> rfl

theorem rx_ask_of_refused (hpacket : a.rx.packet?.isSome = true) (hrefused : (a.ask h).1 = false) :
    (a.ask h).2.rx = a.rx := by
  rw [ask_eq a h hpacket] at hrefused ⊢
  dsimp only at hrefused ⊢
  cases hanswer : (a.bus.issue (.receive h a.rx.room a.config.recvTimeout)).1 with
  | accepted value =>
    rw [hanswer] at hrefused
    cases hrefused
  | refused status => rfl

end Adapter

/-! ### Looking -/

namespace Call
variable {σ : Type} {c : Call} (now : Nat) {a : Adapter σ}

theorem look_seen (hseen : c.seen?.isSome = true) : c.look now a = (c, a) := by
  unfold look
  rw [a.takeCompletion_seen hseen]
  dsimp only
  cases hs : c.seen? with
  | none =>
    rw [hs] at hseen
    cases hseen
  | some outcome => rfl

theorem look_posted (hseen : c.seen? = none) {status : Status}
    (hposted : a.completions.get c.socket.handle = some status) :
    c.look now a = ({ c with seen? := some (some status) },
      (a.disarm c.socket.handle).enter (.taken c.socket status)) := by
  unfold look
  rw [a.takeCompletion_posted hseen hposted]

/-- A look changes neither what the call waits for nor the table. -/
theorem look_keeps :
    (c.look now a).1.socket = c.socket ∧ (c.look now a).1.purpose? = c.purpose? ∧
      (c.look now a).2.table = a.table := by
  have hkeeps := a.takeCompletion_keeps c
  unfold look
  dsimp only
  split
  · split <;> exact hkeeps
  · exact hkeeps

/-- With nothing posted the clock decides. -/
theorem look_none (hseen : c.seen? = none) (hposted : a.completions.get c.socket.handle = none) :
    c.look now a = (if c.deadline ≤ now then { c with seen? := some none } else c, a) := by
  unfold look
  rw [a.takeCompletion_none hposted]
  dsimp only
  rw [hseen]

/-- A call that has seen nothing after a look goes on as before. -/
theorem look_unseen (h : (c.look now a).1.seen? = none) :
    c.seen? = none ∧ a.completions.get c.socket.handle = none ∧ c.look now a = (c, a) := by
  cases hseen : c.seen? with
  | some outcome =>
    rw [look_seen now (by rw [hseen]; rfl)] at h
    cases hseen.symm.trans h
  | none =>
    cases hposted : a.completions.get c.socket.handle with
    | some status =>
      rw [look_posted now hseen hposted] at h
      cases h
    | none =>
      rw [look_none now hseen hposted] at h ⊢
      by_cases hclock : c.deadline ≤ now
      · rw [if_pos hclock] at h
        cases h
      · rw [if_neg hclock]
        exact ⟨rfl, rfl, rfl⟩

theorem conclude_unseen (hseen : c.seen? = none) : c.conclude a = (.waiting c, a) := by
  unfold conclude
  rw [hseen]

theorem conclude_seen {outcome : Option Status} (hseen : c.seen? = some outcome) :
    c.conclude a = (.finished (a.finishCall c outcome).1, (a.finishCall c outcome).2) := by
  unfold conclude
  rw [hseen]

theorem poll_eq : c.poll now a = (c.look now a).1.conclude (c.look now a).2 := rfl

end Call

end WifiAdapter
