import WifiAdapter.Proofs.Ledger
import WifiAdapter.Proofs.OpenSockets
import WifiAdapter.Proofs.Peers

/-! Whom received packets come from.

Every byte that arrives at a socket has a sender, that of the delivery which brought it
(`sources`). The packets that are queued and in flight hold the bytes that arrived and were not
read, in order, so each of them begins at a certain place in what arrived; the packet of a
datagram socket is stamped with the sender of the byte at this place, and that of a stream is not
stamped at all (`Attributed`). What the application is told when it reads a packet follows
(`Session.received_from_sender`): a datagram comes from the sender of its first byte, whoever sent
the rest, and a stream from the other end of its connection. -/
namespace WifiAdapter

/-! ### Bytes with their senders -/

/-- The bytes that an answer to a socket brought, as far as they fit, each with its sender. -/
def Entry.sources (i : Incarnation) (e : Entry) : List (UInt8 × Endpoint) :=
  match e.answer? with
  | some (x, d) => if x.socket = i then (d.bytes.take x.room).map (·, d.sender.endpoint) else []
  | none => []

/-- All bytes that answers brought to a socket, in order, each with its sender. -/
def sources (i : Incarnation) (es : List Entry) : List (UInt8 × Endpoint) :=
  es.flatMap (·.sources i)

section Sources
variable {i : Incarnation} {e : Entry} {es more : List Entry}

theorem Entry.map_sources (i : Incarnation) (e : Entry) :
    (e.sources i).map (·.1) = e.arrival i := by
  unfold Entry.sources Entry.arrival
  cases e.answer? with
  | none => rfl
  | some answer =>
    dsimp only
    split
    · rw [List.map_map]
      exact List.map_id _
    · rfl

theorem map_sources (i : Incarnation) (es : List Entry) :
    (sources i es).map (·.1) = arrived i es := by
  unfold sources arrived
  rw [List.map_flatMap]
  exact congrArg (es.flatMap ·) (funext fun e => e.map_sources i)

theorem length_sources (i : Incarnation) (es : List Entry) :
    (sources i es).length = (arrived i es).length := by
  rw [← map_sources, List.length_map]

theorem sources_append : sources i (es ++ more) = sources i es ++ sources i more :=
  List.flatMap_append

theorem sources_silent (h : ∀ e ∈ more, e.Silent i) : sources i more = [] := by
  rw [← List.map_eq_nil_iff (f := Prod.fst)]
  exact (map_sources i more).trans (arrived_silent h)

theorem Entry.sources_answer {room : Nat} {held : Bytes} {d : Delivery}
    (h : e.answer? = some (⟨i, room, held⟩, d)) :
    e.sources i = (d.bytes.take room).map (·, d.sender.endpoint) := by
  unfold Entry.sources
  rw [h]
  exact if_pos rfl

end Sources

/-! ### Stamps -/

/-- The packet of a datagram socket, if it is not empty, is stamped with the sender of its first
byte, which is at a place in what arrived. That of a stream is not stamped. -/
def Packet.StampedAt (kind : SocketKind) (l : List (UInt8 × Endpoint)) (place : Nat) (p : Packet) :
    Prop :=
  match kind with
  | .datagram => ∀ byte rest, p.data = byte :: rest →
      ∃ sender, p.source? = some sender ∧ l[place]? = some (byte, sender)
  | .stream => p.source? = none

/-- Packets in a row, the first of which begins at a place in what arrived. -/
def StampedFrom (kind : SocketKind) (l : List (UInt8 × Endpoint)) : Nat → List Packet → Prop
  | _, [] => True
  | place, p :: rest => p.StampedAt kind l place ∧ StampedFrom kind l (place + p.data.length) rest

section Stamps
variable {kind : SocketKind} {l : List (UInt8 × Endpoint)} {place : Nat} {p : Packet}

/-- What arrives later changes nothing. -/
theorem Packet.StampedAt.append (h : p.StampedAt kind l place) (more : List (UInt8 × Endpoint)) :
    p.StampedAt kind (l ++ more) place := by
  cases kind with
  | stream => exact h
  | datagram =>
    intro byte rest hdata
    obtain ⟨sender, hsource, hplace⟩ := h byte rest hdata
    have hlt := (List.getElem?_eq_some_iff.mp hplace).1
    exact ⟨sender, hsource, by rw [List.getElem?_append_left hlt, hplace]⟩

theorem StampedFrom.append {ps : List Packet} (h : StampedFrom kind l place ps)
    (more : List (UInt8 × Endpoint)) : StampedFrom kind (l ++ more) place ps := by
  induction ps generalizing place with
  | nil => trivial
  | cons p rest ih => exact ⟨h.1.append more, ih h.2⟩

theorem stampedFrom_append {ps qs : List Packet} :
    StampedFrom kind l place (ps ++ qs) ↔
      StampedFrom kind l place ps ∧
        StampedFrom kind l (place + (ps.flatMap (·.data)).length) qs := by
  induction ps generalizing place with
  | nil => simp [StampedFrom]
  | cons p rest ih =>
    simp only [List.cons_append, StampedFrom, ih, List.flatMap_cons, List.length_append,
      Nat.add_assoc, and_assoc]

/-- The last packet of a row begins where the others end. -/
theorem stampedFrom_concat {ps : List Packet} :
    StampedFrom kind l place (ps ++ [p]) ↔
      StampedFrom kind l place ps ∧
        p.StampedAt kind l (place + (ps.flatMap (·.data)).length) :=
  stampedFrom_append.trans (and_congr_right fun _ => iff_of_eq (and_true _))

end Stamps

/-! ### The book -/

/-- The packets queued at a socket and in flight for it hold what arrived and was not read, and
each is stamped for what it holds. -/
structure Attributed (i : Incarnation) (es : List Entry) (r : SocketRecord)
    (flight? : Option Packet) : Prop where
  balanced : Balanced i es r ((flight?.map (·.data)).getD [])
  stamped : StampedFrom r.kind (sources i es) (readOut i es).length (r.inbound ++ flight?.toList)

section Book
variable {i : Incarnation} {es : List Entry} {r : SocketRecord} {flight? : Option Packet}

theorem Attributed.queue (h : Attributed i es r flight?) :
    StampedFrom r.kind (sources i es) (readOut i es).length r.inbound :=
  (stampedFrom_append.mp h.stamped).1

/-- Nothing has come after what is in flight. -/
theorem Balanced.length_arrived {held : Bytes} (h : Balanced i es r held)
    (hlive : r.peerClosed = false) :
    (arrived i es).length = (readOut i es).length + r.queued.length + held.length := by
  rw [h.bytes, h.running hlive, List.flatten_nil, List.append_nil, List.length_append,
    List.length_append]

/-- What is in flight begins where what is queued ends. -/
theorem Attributed.flight {packet : Packet} (h : Attributed i es r (some packet)) :
    packet.StampedAt r.kind (sources i es) ((readOut i es).length + r.queued.length) :=
  (stampedFrom_concat.mp h.stamped).2

/-- A datagram that was begun keeps its stamp, and one that begins is stamped for its first byte. -/
theorem stampedAt_datagram {l : List (UInt8 × Endpoint)} {place : Nat} {d : Delivery}
    {before after : Packet} (hlength : l.length = place + before.data.length)
    (hbefore : before.data ≠ [] → before.StampedAt .datagram l place)
    (hfilled : Filled .datagram d before after) :
    after.StampedAt .datagram (l ++ (d.payload.take before.room).map (·, d.sender.endpoint))
      place := by
  obtain ⟨hdata, hsource⟩ := hfilled
  intro byte rest hfirst
  rw [hdata] at hfirst
  cases hheld : before.data with
  | nil =>
    rw [hheld, List.nil_append] at hfirst
    rw [if_pos ⟨hheld, rfl⟩] at hsource
    rw [hheld, List.length_nil, Nat.add_zero] at hlength
    refine ⟨_, hsource, ?_⟩
    rw [← hlength, List.getElem?_append_right (Nat.le_refl _), Nat.sub_self, hfirst]
    rfl
  | cons first others =>
    rw [hheld, List.cons_append] at hfirst
    obtain ⟨rfl, -⟩ := List.cons.inj hfirst
    have hne : before.data ≠ [] := by
      rw [hheld]
      exact List.cons_ne_nil _ _
    rw [if_neg fun hc => hne hc.1] at hsource
    obtain ⟨sender, hs, hplace⟩ := (hbefore hne).append _ first others hheld
    exact ⟨sender, hsource.trans hs, hplace⟩

/-- What is in flight holds the bytes of a delivery after those it held before; so it is stamped
for its first byte. -/
theorem Attributed.stampedAt_filled (h : Attributed i es r flight?) (hlive : r.peerClosed = false)
    {before after : Packet} (hcarries : Carries flight? before) {d : Delivery}
    (hfilled : Filled r.kind d before after) :
    after.StampedAt r.kind
      (sources i es ++ (d.payload.take before.room).map (·, d.sender.endpoint))
      ((readOut i es).length + r.queued.length) := by
  have hlength := h.balanced.length_arrived hlive
  rw [hcarries.data, ← length_sources] at hlength
  cases hkind : r.kind with
  | stream =>
    rw [hkind] at hfilled
    obtain ⟨-, hsource⟩ := hfilled
    rw [if_neg fun hc => nomatch hc.2] at hsource
    refine hsource.trans ?_
    rcases hcarries with rfl | ⟨-, -, hblank⟩
    · have hstamped := h.flight
      rw [hkind] at hstamped
      exact hstamped
    · exact hblank
  | datagram =>
    rw [hkind] at hfilled
    refine stampedAt_datagram hlength (fun hheld => ?_) hfilled
    rcases hcarries with rfl | ⟨-, hblank, -⟩
    · exact hkind ▸ h.flight
    · exact absurd hblank hheld

end Book

/-- The stamps are kept. -/
theorem attributed_kept : Bookkeeping Attributed where
  opened {i r} hinbound hclosed := by
    refine ⟨balanced_kept.opened hinbound hclosed, ?_⟩
    rw [hinbound]
    trivial
  silent {i es more r r' flight?} h hmore hkind hinbound hclosed := by
    refine ⟨balanced_kept.silent h.balanced hmore hkind hinbound hclosed, ?_⟩
    rw [hkind, hinbound, sources_append, sources_silent hmore, readOut_append, readOut_silent hmore,
      List.append_nil, List.append_nil]
    exact h.stamped
  brought {i es r flight? e d remaining before after} h hlive hcarries hd hanswer hfilled := by
    refine ⟨balanced_kept.brought h.balanced hlive hcarries hd hanswer hfilled, ?_⟩
    have hsources : sources i (es ++ [e]) =
        sources i es ++ (d.payload.take before.room).map (·, d.sender.endpoint) := by
      rw [sources_append, sources, sources, List.flatMap_singleton, Entry.sources_answer hanswer,
        Delivery.bytes_of_data hd]
    have hread : readOut i (es ++ [e]) = readOut i es := by
      rw [readOut_append, readOut, readOut, List.flatMap_singleton, Entry.reading_answer hanswer,
        List.append_nil]
    rw [hsources, hread]
    exact stampedFrom_concat.mpr ⟨h.queue.append _, h.stampedAt_filled hlive hcarries hfilled⟩
  queued {i es r packet} h hlive := by
    refine ⟨balanced_kept.queued h.balanced hlive, ?_⟩
    rw [Option.toList_none, List.append_nil]
    exact h.stamped
  ended {i es r flight? e d room} h hlive hd hanswer := by
    refine ⟨balanced_kept.ended h.balanced hlive hd hanswer, ?_⟩
    have hread : readOut i (es ++ [e]) = readOut i es := by
      rw [readOut_append, readOut, readOut, List.flatMap_singleton, Entry.reading_answer hanswer,
        List.append_nil]
    rw [sources_append, hread, Option.toList_none, List.append_nil]
    exact h.queue.append _
  read {i es r flight? packet rest} h hin := by
    refine ⟨balanced_kept.read h.balanced hin, ?_⟩
    have hread : (readOut i (es ++ [.read i packet])).length =
        (readOut i es).length + packet.data.length := by
      rw [readOut_append, List.length_append, readOut, readOut, List.flatMap_singleton]
      exact congrArg (_ + List.length ·) (if_pos rfl)
    have hstamped := h.stamped
    rw [hin, List.cons_append] at hstamped
    rw [sources_append, hread]
    exact hstamped.2.append _

/-- What a read that gives a packet says: who the packet is stamped with, or else who is at the
other end of the socket. -/
theorem Adapter.receive_ok {σ : Type} {a : Adapter σ} {h : Handle} {packet : Packet}
    {sender : Endpoint} (hread : (a.receive h).1 = .ok ⟨packet, sender⟩) :
    ∃ r rest, a.table.get? h = some r ∧ r.inbound = packet :: rest ∧
      sender = (packet.source?.or r.peer?).getD .unspecified := by
  unfold receive SocketTable.get at hread
  cases hr : a.table.get? h with
  | none =>
    rw [hr] at hread
    cases hread
  | some r =>
    rw [hr] at hread
    dsimp only at hread
    cases hin : r.inbound with
    | nil =>
      rw [hin] at hread
      cases hread
    | cons first rest =>
      rw [hin] at hread
      cases hread
      exact ⟨r, rest, rfl, hin, rfl⟩

namespace Session
variable {σ : Type} [Chip σ]

/-- The packets of every socket are stamped after every history. -/
theorem attributed_run (chip : σ) (packets : Nat) (config : Config) (actions : List (Action σ))
    {h : Handle} {r : SocketRecord}
    (hr : ((new chip packets config).run actions).adapter.table.get? h = some r) :
    let a := ((new chip packets config).run actions).adapter
    Attributed (a.table.incarnation h) (a.bus.history h) r
      (a.rx.inFlight? (a.table.incarnation h)) :=
  ledger_run attributed_kept (Adapter.steady_new chip packets config)
    (Adapter.ledger_new chip packets config) actions h r hr

theorem reply_receive (s : Session σ) (h : Handle) :
    (s.perform (.receive h)).1 = .received (s.adapter.receive h).1 := by
  show Reply.received (s.receive h).1 = _
  unfold receive
  split
  · next heq => rw [heq]
  · next heq => rw [heq]

/-- The application that reads a packet gets the bytes that follow those it has read. On a datagram
socket it is told that they come from the sender of the first of them, and on a stream, which is
then connected, that they come from the other end of the connection. -/
theorem received_from_sender (chip : σ) (packets : Nat) (config : Config)
    (actions : List (Action σ)) {h : Handle} {packet : Packet} {sender : Endpoint}
    (hread : (((new chip packets config).run actions).perform (.receive h)).1 =
      .received (.ok ⟨packet, sender⟩)) :
    let a := ((new chip packets config).run actions).adapter
    let i := a.table.incarnation h
    let es := a.bus.history h
    (∃ later, (sources i es).map (·.1) = readOut i es ++ packet.data ++ later) ∧
      (a.table.kind? h = some .datagram → ∀ byte rest, packet.data = byte :: rest →
        (sources i es)[(readOut i es).length]? = some (byte, sender)) ∧
      (a.table.kind? h = some .stream →
        a.table.phase? h = some .connected ∧ a.bus.partner? h = some sender) := by
  intro a i es
  have hok : (a.receive h).1 = .ok ⟨packet, sender⟩ := by
    rw [reply_receive] at hread
    exact Reply.received.inj hread
  obtain ⟨r, rest, hr, hin, hsender⟩ := Adapter.receive_ok hok
  have hattributed := attributed_run chip packets config actions hr
  have hkind : a.table.kind? h = some r.kind := congrArg (Option.map SocketRecord.kind) hr
  have hstamped : packet.StampedAt r.kind (sources i es) (readOut i es).length := by
    have hqueue := hattributed.queue
    rw [hin] at hqueue
    exact hqueue.1
  refine ⟨?_, fun hdatagram byte others hdata => ?_, fun hstream => ?_⟩
  · -- The packet is the first of those that hold what was not read.
    have hqueued : r.queued = packet.data ++ rest.flatMap (·.data) := congrArg _ hin
    have hbytes : arrived i es = readOut i es ++ r.queued ++
        ((a.rx.inFlight? i).map (·.data)).getD [] ++ (WifiAdapter.endings i es).flatten :=
      hattributed.balanced.bytes
    refine ⟨rest.flatMap (·.data) ++ ((a.rx.inFlight? i).map (·.data)).getD [] ++
      (WifiAdapter.endings i es).flatten, ?_⟩
    rw [map_sources, hbytes, hqueued]
    simp only [List.append_assoc]
  · rw [Option.some.inj (hkind.symm.trans hdatagram)] at hstamped
    obtain ⟨source, hsource, hplace⟩ := hstamped byte others hdata
    rw [hsender, hsource]
    exact hplace
  · have hkind' := Option.some.inj (hkind.symm.trans hstream)
    have hregular := (kempt_run chip packets config actions).1.regular h r hr
    have hconnected : r.phase = .connected := hregular.heard hkind' (.inl (by rw [hin]; nofun))
    have hunstamped : packet.source? = none := by
      rw [hkind'] at hstamped
      exact hstamped
    have hpartner := acquainted_run chip packets config actions h r hr ⟨hkind', .inr hconnected⟩
    obtain ⟨peer, hpeer⟩ := Option.isSome_iff_exists.mp (hregular.peer (.inr hconnected))
    refine ⟨?_, ?_⟩
    · rw [SocketTable.phase?, hr, Option.map_some, hconnected]
    · rw [hsender, hunstamped, Option.none_or, hpeer, Option.getD_some, ← hpeer]
      exact hpartner.symm

/-- A datagram socket that hears from two senders in one packet, and a listener with a connection
that hears from its other end. -/
def heardFromMany (datagram listener child : Handle) (first second client : Endpoint) :
    List (Action ScriptedChip) :=
  [.create .inet .datagram, .bind datagram (.v4 ⟨⟨10, 0, 0, 2⟩, 53⟩),
    .dispatch (.socket datagram (.bound .success)),
    .dispatch (.socket datagram (.received ⟨2, 1, .ofEndpoint first, [1, 2]⟩)),
    .dispatch (.socket datagram (.received ⟨1, 0, .ofEndpoint second, [3]⟩)),
    .create .inet .stream, .bind listener (.v4 ⟨⟨10, 0, 0, 2⟩, 80⟩),
    .dispatch (.socket listener (.bound .success)), .poll 1, .listen listener 1,
    .dispatch (.socket listener (.listening .success)),
    .dispatch (.socket listener (.accepted (.accepted child) (.ofEndpoint client))), .tick,
    .dispatch (.socket child (.received ⟨1, 0, .ofEndpoint first, [4]⟩))]

/-- The datagram comes from the first of its two senders, and the stream from the client, whatever
the delivery says. -/
theorem received_from_sender_many :
    let first : Endpoint := ⟨⟨10, 0, 0, 7⟩, 7000⟩
    let client : Endpoint := ⟨⟨10, 0, 0, 9⟩, 9000⟩
    let actions := heardFromMany 7 0 1 first ⟨⟨10, 0, 0, 8⟩, 8000⟩ client
    let s := (new ScriptedChip.new 4 .defaults).run actions
    ((s.perform (.receive 7)).1 = .received (.ok ⟨⟨[1, 2, 3], 1500, some first⟩, first⟩) ∧
        (sources (s.adapter.table.incarnation 7) (s.adapter.bus.history 7))[0]? =
          some (1, first)) ∧
      (s.perform (.receive 1)).1 = .received (.ok ⟨⟨[4], 1500, none⟩, client⟩) ∧
        s.adapter.bus.partner? 1 = some client := by
  intro first client actions s
  have hdatagram : (s.perform (.receive 7)).1 =
      .received (.ok ⟨⟨[1, 2, 3], 1500, some first⟩, first⟩) := by
    rw [reply_receive]
    exact congrArg Reply.received (by decide +kernel)
  have hstream : (s.perform (.receive 1)).1 =
      .received (.ok ⟨⟨[4], 1500, none⟩, client⟩) := by
    rw [reply_receive]
    exact congrArg Reply.received (by decide +kernel)
  obtain ⟨-, hfirst, -⟩ := received_from_sender ScriptedChip.new 4 .defaults actions hdatagram
  obtain ⟨-, -, hpeer⟩ := received_from_sender ScriptedChip.new 4 .defaults actions hstream
  have hread : (readOut (s.adapter.table.incarnation 7) (s.adapter.bus.history 7)).length = 0 := by
    decide +kernel
  have hstamped := hfirst (by decide +kernel) 1 [2, 3] rfl
  rw [hread] at hstamped
  exact ⟨⟨hdatagram, hstamped⟩, hstream, (hpeer (by decide +kernel)).2⟩

end Session

end WifiAdapter
