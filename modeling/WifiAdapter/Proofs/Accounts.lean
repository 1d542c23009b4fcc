import WifiAdapter.Proofs.Runs

/-! Accounts of what sockets receive.

A book says something of a socket: of what was entered since its slot was taken into use, of its
record and of the packet in flight for it. Little can happen to what a socket receives. Its slot is
taken into use, an answer brings bytes into the packet in flight, that packet is queued, the
application reads one, or the stream ends. A book that is kept whenever one of these happens
(`Bookkeeping`) is right for every socket after every history (`Session.ledger_run`), for a step
does one of them to one socket and leaves the account of every other alone. -/
namespace WifiAdapter

/-- The packet in flight after a delivery to a socket of a kind. -/
structure Filled (kind : SocketKind) (d : Delivery) (before after : Packet) : Prop where
  data : after.data = before.data ++ d.payload.take before.room
  source : after.source? =
    if before.data = [] ∧ kind = .datagram then some d.sender.endpoint else before.source?

/-- The packet in flight is that of the socket, or it is nobody's and blank. -/
def Carries (flight? : Option Packet) (packet : Packet) : Prop :=
  flight? = some packet ∨ flight? = none ∧ packet.data = [] ∧ packet.source? = none

theorem Carries.data {flight? : Option Packet} {packet : Packet} (h : Carries flight? packet) :
    (flight?.map (·.data)).getD [] = packet.data := by
  rcases h with rfl | ⟨rfl, hdata, -⟩
  · rfl
  · exact hdata.symm

/-- What a book says of a socket: its history, its record and the packet in flight for it. -/
abbrev Book := Incarnation → List Entry → SocketRecord → Option Packet → Prop

/-- What a book owes. -/
structure Bookkeeping (P : Book) : Prop where
  /-- A slot is taken into use. -/
  opened : ∀ {i : Incarnation} {r : SocketRecord}, r.inbound = [] → r.peerClosed = false →
    P i [] r none
  /-- Nothing happens to what the socket receives. -/
  silent : ∀ {i : Incarnation} {es more : List Entry} {r r' : SocketRecord} {flight? : Option Packet},
    P i es r flight? → (∀ e ∈ more, e.Silent i) → r'.kind = r.kind → r'.inbound = r.inbound →
      r'.peerClosed = r.peerClosed → P i (es ++ more) r' flight?
  /-- An answer brings bytes into the packet in flight. -/
  brought : ∀ {i : Incarnation} {es : List Entry} {r : SocketRecord} {flight? : Option Packet}
    {e : Entry} {d : Delivery} {remaining : Nat} {before after : Packet}, P i es r flight? →
      r.peerClosed = false → Carries flight? before → d.outcome = .data remaining →
      e.answer? = some (⟨i, before.room, before.data⟩, d) → Filled r.kind d before after →
      P i (es ++ [e]) r (some after)
  /-- The packet in flight is queued. -/
  queued : ∀ {i : Incarnation} {es : List Entry} {r : SocketRecord} {packet : Packet},
    P i es r (some packet) → r.peerClosed = false →
      P i es { r with inbound := r.inbound ++ [packet] } none
  /-- The stream ends, and what was in flight is lost. -/
  ended : ∀ {i : Incarnation} {es : List Entry} {r : SocketRecord} {flight? : Option Packet}
    {e : Entry} {d : Delivery} {room : Nat}, P i es r flight? → r.peerClosed = false →
      d.ends = true → e.answer? = some (⟨i, room, (flight?.map (·.data)).getD []⟩, d) →
      P i (es ++ [e]) { r with peerClosed := true, poll := false } none
  /-- The application reads the oldest packet. -/
  read : ∀ {i : Incarnation} {es : List Entry} {r : SocketRecord} {flight? : Option Packet}
    {packet : Packet} {rest : List Packet}, P i es r flight? → r.inbound = packet :: rest →
      P i (es ++ [.read i packet]) { r with inbound := rest } flight?

/-! ### The packet in flight -/

namespace RxState
variable {x : RxState} {i : Incarnation}

/-- The packet in flight, if its bytes are those of a socket. -/
def inFlight? (x : RxState) (i : Incarnation) : Option Packet :=
  if x.owner? = some i then x.packet? else none

theorem inFlight?_of_not_owner (h : x.owner? ≠ some i) : x.inFlight? i = none := if_neg h

theorem inFlight?_of_owner (h : x.owner? = some i) : x.inFlight? i = x.packet? := if_pos h

theorem held_eq (x : RxState) (i : Incarnation) :
    x.held i = ((x.inFlight? i).map (·.data)).getD [] := by
  unfold held inFlight?
  cases x.packet? with
  | none => rw [ite_self]; rfl
  | some p =>
    dsimp only
    split <;> rfl

theorem held_of_not_owner (h : x.owner? ≠ some i) : x.held i = [] := by
  rw [held_eq, inFlight?_of_not_owner h]
  rfl

theorem held_of_owner (h : x.owner? = some i) {p : Packet} (hp : x.packet? = some p) :
    x.held i = p.data := by
  rw [held_eq, inFlight?_of_owner h, hp]
  rfl

theorem room_of_packet {p : Packet} (hp : x.packet? = some p) : x.room = p.room := by
  unfold room
  rw [hp]

theorem inFlight?_dropPartial (x : RxState) (i : Incarnation) : x.dropPartial.inFlight? i = none :=
  inFlight?_of_not_owner nofun

theorem inFlight?_leave (x : RxState) {h : Handle} (hne : i.handle ≠ h) :
    (x.leave h).inFlight? i = x.inFlight? i := by
  have howner := owner_leave x h
  have hpacket := packet_leave x h
  cases hany : x.owner?.any (·.handle == h) with
  | false =>
    rw [hany] at howner hpacket
    unfold inFlight?
    rw [howner, hpacket]
    rfl
  | true =>
    -- The packet in flight is that of the socket that is closed.
    rw [hany] at howner
    rw [inFlight?_of_not_owner, inFlight?_of_not_owner]
    · intro ho
      rw [ho, Option.any_some] at hany
      exact hne (beq_iff_eq.mp hany)
    · rw [howner]
      nofun

/-- The packet in flight is that of the socket that is asked, or blank. -/
theorem Sound.carries {t : SocketTable} (h : x.Sound t) (hi : x.cursor? = some i) {p : Packet}
    (hp : x.packet? = some p) : Carries (x.inFlight? i) p := by
  rcases (h.asked i hi).owner with ho | ho
  · exact .inr ⟨inFlight?_of_not_owner (by rw [ho]; nofun), h.blank ho p hp⟩
  · exact .inl ((inFlight?_of_owner ho).trans hp)

/-- All bytes in flight are those of the socket that is asked. -/
theorem Sound.held_asked {t : SocketTable} (h : x.Sound t) (hi : x.cursor? = some i) {p : Packet}
    (hp : x.packet? = some p) : x.held i = p.data :=
  (held_eq x i).trans (h.carries hi hp).data

/-- Nobody else has a packet in flight while a socket is asked. -/
theorem Sound.inFlight?_other {t : SocketTable} (h : x.Sound t) (hi : x.cursor? = some i)
    {j : Incarnation} (hj : j ≠ i) : x.inFlight? j = none := by
  refine inFlight?_of_not_owner fun ho => ?_
  rcases (h.asked i hi).owner with ho' | ho'
  · cases ho'.symm.trans ho
  · exact hj (Option.some.inj (ho.symm.trans ho'))

end RxState

/-! ### Accounts of an adapter -/

namespace Adapter
variable {σ : Type} {P : Book}

theorem filled_fill (a : Adapter σ) {h : Handle} {kind : SocketKind}
    (hkind : a.table.kind? h = some kind) (d : Delivery) (before : Packet) :
    Filled kind d before (a.fill h d before) := by
  refine ⟨data_fill a h d before, ?_⟩
  unfold fill
  rw [hkind]
  obtain ⟨data, capacity, source?⟩ := before
  cases data <;> cases kind <;> rfl

/-- A book is right for a slot, if the slot is in use. -/
def Account (P : Book) (a : Adapter σ) (h : Handle) : Prop :=
  ∀ r, a.table.get? h = some r →
    P (a.table.incarnation h) (a.bus.history h) r (a.rx.inFlight? (a.table.incarnation h))

/-- A book is right for every slot in use. -/
def Ledger (P : Book) (a : Adapter σ) : Prop := ∀ h, a.Account P h

/-- A slot that is not in use is no concern of a book. -/
theorem account_free {a : Adapter σ} {h : Handle} (hr : a.table.get? h = none) : a.Account P h := by
  intro r hr'
  rw [hr] at hr'
  cases hr'

theorem ledger_new (chip : σ) (packets : Nat) (config : Config) :
    (new chip packets config).Ledger P := by
  intro h
  refine account_free ?_
  simp [new, SocketTable.empty, SocketTable.get?, Slot.free]

theorem account_of_eq {a : Adapter σ} {i : Incarnation} {es : List Entry} {r : SocketRecord}
    {flight? : Option Packet} (hp : P i es r flight?) {h : Handle} (hi : a.table.incarnation h = i)
    (hes : a.bus.history h = es) (hflight : a.rx.inFlight? i = flight?) :
    P (a.table.incarnation h) (a.bus.history h) r (a.rx.inFlight? (a.table.incarnation h)) := by
  rw [hi, hes, hflight]
  exact hp

section Keeping
variable (hP : Bookkeeping P)
include hP

/-- A slot whose socket is not concerned. -/
theorem Account.frame {a b : Adapter σ} {h : Handle} (ha : a.Account P h) (es : List Entry)
    (hgen : b.table.generation h = a.table.generation h)
    (hget : ∀ r', b.table.get? h = some r' → ∃ r, a.table.get? h = some r ∧
      r'.kind = r.kind ∧ r'.inbound = r.inbound ∧ r'.peerClosed = r.peerClosed)
    (hflight : b.rx.inFlight? (a.table.incarnation h) = a.rx.inFlight? (a.table.incarnation h))
    (hjournal : b.bus.journal = a.bus.journal ++ es)
    (hes : ∀ e ∈ es, e.Silent (a.table.incarnation h) ∧ e.opens h = false) : b.Account P h := by
  intro r' hr'
  obtain ⟨r, hr, hkind, hinbound, hclosed⟩ := hget r' hr'
  have hsame : b.table.incarnation h = a.table.incarnation h := by
    unfold SocketTable.incarnation
    rw [hgen]
  have hhistory := Bus.history_append hjournal fun e he => (hes e he).2
  exact account_of_eq (hP.silent (ha r hr) (fun e he => (hes e he).1) hkind hinbound hclosed) hsame
    hhistory hflight

theorem Account.of_quiet {a b : Adapter σ} {h : Handle} (ha : a.Account P h) (hq : a.Quiet b) :
    b.Account P h := by
  obtain ⟨es, hjournal, hes⟩ := hq.journal
  refine ha.frame hP es (hq.table.generation h) (fun r' hr' => ?_) (by rw [hq.rx]) hjournal
    fun e he => ⟨(hes e he).silent _, (hes e he).opens h⟩
  cases hr : a.table.get? h with
  | none =>
    rw [hq.table.free h hr] at hr'
    cases hr'
  | some r =>
    obtain ⟨r'', hr'', hkeep⟩ := hq.table.record h r hr
    rw [hr''] at hr'
    cases hr'
    exact ⟨r, rfl, hkeep.kind, hkeep.inbound, hkeep.peerClosed⟩

/-- Whatever is done to the record of one slot does not concern another. -/
theorem Account.frame_modify {a b : Adapter σ} {h k : Handle} (ha : a.Account P k)
    (es : List Entry) (hne : h ≠ k) {f : SocketRecord → SocketRecord}
    (htable : b.table = a.table.modify h f)
    (hflight : b.rx.inFlight? (a.table.incarnation k) = a.rx.inFlight? (a.table.incarnation k))
    (hjournal : b.bus.journal = a.bus.journal ++ es)
    (hes : ∀ e ∈ es, e.Silent (a.table.incarnation k) ∧ e.opens k = false) : b.Account P k := by
  refine ha.frame hP es ?_ (fun r' hr' => ⟨r', ?_, rfl, rfl, rfl⟩) hflight hjournal hes
  · rw [htable, SocketTable.generation_modify]
  · rwa [htable, SocketTable.get?_modify, if_neg hne] at hr'

/-! ### Opening and closing -/

theorem ledger_occupied {a : Adapter σ} (hs : a.Steady) (ha : a.Ledger P) {h : Handle}
    (hfree : a.table.isOpen h = false) {r : SocketRecord} (hinbound : r.inbound = [])
    (hclosed : r.peerClosed = false) : (a.occupied h r).Ledger P := by
  intro k
  by_cases hk : h = k
  · subst hk
    intro r' hr'
    have hget : (a.occupied h r).table.get? h = some r := by
      show (a.table.occupy h r).get? h = some r
      rw [SocketTable.get?_occupy, if_pos rfl]
    cases hget.symm.trans hr'
    refine account_of_eq (hP.opened hinbound hclosed) rfl ?_ ?_
    · show Entry.since _ (_ ++ [_]) = []
      rw [Entry.since_concat]
      exact if_pos (beq_self_eq_true h)
    · -- The slot was free, so nothing in flight is for its new occupant.
      refine RxState.inFlight?_of_not_owner fun ho => ?_
      have hopen := hs.sound.isOpen (.inr ho)
      rw [show ((a.occupied h r).table.incarnation h).handle = h from rfl, hfree] at hopen
      cases hopen
  · have hopened : (Entry.opened ((a.table.occupy h r).incarnation h)).Silent
        (a.table.incarnation k) := ⟨rfl, rfl, rfl⟩
    refine (ha k).frame hP (b := a.occupied h r) [_] ?_ (fun r' hr' => ⟨r', ?_, rfl, rfl, rfl⟩) rfl
      rfl ?_
    · exact (SocketTable.generation_occupy a.table h k r).trans (if_neg hk)
    · exact ((SocketTable.get?_occupy a.table h k r).trans (if_neg hk)).symm.trans hr'
    · intro e he
      rw [List.mem_singleton.mp he]
      exact ⟨hopened, beq_eq_false_iff_ne.mpr hk⟩

theorem ledger_release {a : Adapter σ} (ha : a.Ledger P) (h : Handle) :
    (a.release h).2.Ledger P := by
  intro k
  by_cases hk : h = k
  · subst hk
    refine account_free ?_
    rw [table_release, SocketTable.get?_release, if_pos rfl]
  · refine (ha k).frame hP (b := (a.release h).2) [] ?_ (fun r' hr' => ⟨r', ?_, rfl, rfl, rfl⟩) rfl
      (List.append_nil _).symm nofun
    · exact SocketTable.generation_release a.table a.pool h k
    · rwa [table_release, SocketTable.get?_release, if_neg hk] at hr'

/-! ### Packets -/

theorem ledger_read {a : Adapter σ} (ha : a.Ledger P) (h : Handle) : (a.receive h).2.Ledger P := by
  rcases a.receive_cases h with ⟨_, heq⟩ | ⟨r, packet, rest, _, hr, hin, heq⟩
  · rw [heq]
    exact ha
  · rw [heq]
    intro k
    by_cases hk : h = k
    · subst hk
      intro r' hr'
      change (a.table.modify h _).get? h = some r' at hr'
      rw [SocketTable.get?_modify, if_pos rfl, hr] at hr'
      cases hr'
      exact account_of_eq (hP.read (ha h r hr) hin) (SocketTable.incarnation_modify ..)
        (Entry.since_concat ..) rfl
    · refine (ha k).frame_modify hP [_] hk rfl rfl rfl fun e he => ?_
      rw [List.mem_singleton.mp he]
      refine ⟨⟨rfl, rfl, if_neg fun heq => hk ?_⟩, rfl⟩
      exact congrArg Incarnation.handle heq

/-- The packet in flight for a socket is queued at it. -/
theorem ledger_handOver {a : Adapter σ} (ha : a.Ledger P) {i : Incarnation}
    (hcurrent : a.table.isCurrent i = true)
    (hlive : ∀ r, a.table.get? i.handle = some r → r.peerClosed = false) {packet : Packet}
    (hflight : a.rx.inFlight? i = some packet) (hothers : ∀ j, j ≠ i → a.rx.inFlight? j = none) :
    ((a.onRx .part).handOver i.handle packet).Ledger P := by
  intro k
  obtain ⟨told, hjournal⟩ := journal_handOver (a.onRx .part) i.handle packet
  have hsilent (j : Incarnation) : ∀ e ∈ [Entry.event (.readable i.handle .data) told],
      e.Silent j ∧ e.opens k = false := by
    intro e he
    rw [List.mem_singleton.mp he]
    exact ⟨⟨rfl, rfl, rfl⟩, rfl⟩
  by_cases hk : i.handle = k
  · subst hk
    intro r' hr'
    rw [table_handOver, SocketTable.get?_modify, if_pos rfl] at hr'
    obtain ⟨r, hr, rfl⟩ := Option.map_eq_some_iff.mp hr'
    have hb := ha i.handle r hr
    rw [SocketTable.incarnation_of_current hcurrent, hflight] at hb
    have hqueued := hP.silent (hP.queued hb (hlive r hr)) (fun e he => (hsilent i e he).1) rfl rfl rfl
    refine account_of_eq hqueued ?_ ?_ ?_
    · rw [table_handOver, SocketTable.incarnation_modify]
      exact SocketTable.incarnation_of_current hcurrent
    · exact Bus.history_append hjournal fun e he => (hsilent i e he).2
    · rw [rx_handOver]
      exact RxState.inFlight?_of_not_owner nofun
  · refine (ha k).frame_modify hP _ hk (table_handOver ..) ?_ hjournal (hsilent _)
    rw [rx_handOver, hothers]
    · exact RxState.inFlight?_of_not_owner nofun
    · intro heq
      exact hk (congrArg Incarnation.handle heq).symm

/-! ### Answers -/

section Answers
variable {a : Adapter σ} (hs : a.Steady) (ha : a.Ledger P) {i : Incarnation}
  (hout : a.rx.outstanding? = some i) {d : Delivery}
include hs ha hout

/-- The delivered bytes come into flight. -/
theorem ledger_keep {remaining : Nat} (hd : d.outcome = .data remaining) {before : Packet}
    (hbefore : a.rx.packet? = some before) :
    ((a.noted (.socket i.handle (.received d))).onRx fun x =>
      { x with
        packet? := some (a.fill i.handle d before)
        owner? := some i
        cursor? := none
        polling := false }).Ledger P := by
  have hcursor := RxState.cursor_of_outstanding hout
  have hasks := hs.sound.asked i hcursor
  have hanswer := Entry.answer?_of_outstanding hout d
  rw [RxState.room_of_packet hbefore, hs.sound.held_asked hcursor hbefore] at hanswer
  intro k
  by_cases hk : i.handle = k
  · subst hk
    intro r hr
    have hb := ha i.handle r hr
    rw [SocketTable.incarnation_of_current hasks.current] at hb
    have hkind : a.table.kind? i.handle = some r.kind :=
      congrArg (Option.map SocketRecord.kind) hr
    refine account_of_eq (hP.brought hb (SocketTable.live_of_awaits hasks.awaits hr)
      (hs.sound.carries hcursor hbefore) hd hanswer (filled_fill a hkind d before))
      (SocketTable.incarnation_of_current hasks.current) (Entry.since_concat ..) ?_
    exact RxState.inFlight?_of_owner rfl
  · have hne : a.table.incarnation k ≠ i := by
      rintro rfl
      exact hk rfl
    refine (ha k).frame hP [_] rfl (fun r hr => ⟨r, hr, rfl, rfl, rfl⟩) ?_ rfl fun e he => ?_
    · rw [hs.sound.inFlight?_other hcursor hne]
      exact RxState.inFlight?_of_not_owner fun ho => hne (Option.some.inj ho).symm
    · rw [List.mem_singleton.mp he]
      have hanswer := Entry.answer?_of_outstanding hout d
      exact ⟨Entry.silent_answer hanswer hne, rfl⟩

/-- The delivered bytes complete the packet in flight. -/
theorem ledger_finish {remaining : Nat} (hd : d.outcome = .data remaining) {before : Packet}
    (hbefore : a.rx.packet? = some before) :
    (((a.noted (.socket i.handle (.received d))).onRx (·.part.withdraw)).handOver i.handle
      (a.fill i.handle d before)).Ledger P := by
  have hasks := hs.sound.asked i (RxState.cursor_of_outstanding hout)
  -- First the bytes come into flight, then they are handed over.
  have hkept := ledger_keep hP hs ha hout hd hbefore
  refine ledger_handOver hP hkept hasks.current
    (fun r hr => SocketTable.live_of_awaits hasks.awaits hr) (RxState.inFlight?_of_owner rfl)
    fun j hj => ?_
  exact RxState.inFlight?_of_not_owner fun ho => hj (Option.some.inj ho).symm

/-- The stream of the socket that is asked ends. -/
theorem ledger_ended (hd : d.ends = true) (status : Status) (read : ReadStatus) :
    (((a.noted (.socket i.handle (.received d))).onRx .withdraw).endStream i.handle status
      read).Ledger P := by
  have hcursor := RxState.cursor_of_outstanding hout
  have hasks := hs.sound.asked i hcursor
  have hopen := hs.sound.isOpen (.inl hcursor)
  have hanswer := Entry.answer?_of_outstanding hout d
  let c := (a.noted (.socket i.handle (.received d))).onRx .withdraw
  have htable := table_endStream c hopen status read
  have hrx := rx_endStream c hopen status read
  obtain ⟨told, hjournal⟩ := journal_endStream c hopen status read
  intro k
  by_cases hk : i.handle = k
  · subst hk
    intro r' hr'
    rw [htable, SocketTable.get?_modify, if_pos rfl] at hr'
    obtain ⟨r, hr, rfl⟩ := Option.map_eq_some_iff.mp hr'
    have hb := ha i.handle r hr
    rw [SocketTable.incarnation_of_current hasks.current] at hb
    rw [RxState.held_eq] at hanswer
    have hstopped := hP.ended hb (SocketTable.live_of_awaits hasks.awaits hr) hd hanswer
    have htold : ∀ e ∈ [Entry.event (.readable i.handle read) told], e.Silent i :=
      List.forall_mem_singleton.mpr (Entry.silent_event ..)
    refine account_of_eq (hP.silent hstopped htold rfl rfl rfl) ?_ ?_ ?_
    · rw [htable, SocketTable.incarnation_modify]
      exact SocketTable.incarnation_of_current hasks.current
    · unfold Bus.history
      rw [hjournal, Entry.since_concat]
      exact congrArg (· ++ [_]) (Entry.since_concat ..)
    · rw [hrx]
      exact RxState.inFlight?_dropPartial ..
  · have hne : a.table.incarnation k ≠ i := by
      rintro rfl
      exact hk rfl
    refine (ha k).frame_modify hP _ hk htable ?_ (hjournal.trans (List.append_assoc ..))
      (List.forall_mem_cons.mpr ⟨?_, List.forall_mem_singleton.mpr ?_⟩)
    · rw [hrx, hs.sound.inFlight?_other hcursor hne]
      exact RxState.inFlight?_dropPartial ..
    · exact ⟨Entry.silent_answer hanswer hne, rfl⟩
    · exact ⟨Entry.silent_event .., rfl⟩

end Answers

/-! ### Every step -/

/-- Commands to the chip, and whatever they do to the state of receiving apart from the
bytes in flight. -/
theorem Ledger.commanded {a b : Adapter σ} (ha : a.Ledger P) {es : List Entry}
    (htable : b.table = a.table) (hflight : ∀ i, b.rx.inFlight? i = a.rx.inFlight? i)
    (hjournal : b.bus.journal = a.bus.journal ++ es)
    (hes : ∀ e ∈ es, ∃ c answer, e = .command c answer) : b.Ledger P := by
  intro k
  refine (ha k).frame hP es (by rw [htable])
    (fun r hr => ⟨r, by rwa [htable] at hr, rfl, rfl, rfl⟩) (hflight _) hjournal fun e he => ?_
  obtain ⟨c, answer, rfl⟩ := hes e he
  exact ⟨Entry.silent_command .., rfl⟩

theorem Ledger.of_quiet {a b : Adapter σ} (ha : a.Ledger P) (hq : a.Quiet b) : b.Ledger P :=
  fun h => (ha h).of_quiet hP hq

/-- A packet is leased while nobody has bytes in flight. -/
theorem Ledger.lease {a : Adapter σ} (hs : a.Steady) (ha : a.Ledger P) {packet : Packet}
    {pool : Pool} (hnone : a.rx.packet? = none) :
    ({ a with pool }.onRx fun x => { x with packet? := some packet }).Ledger P := by
  refine ha.commanded hP rfl (fun i => ?_) (List.append_nil _).symm nofun
  have howner : a.rx.owner? ≠ some i := fun ho => by
    obtain ⟨p, hp, -⟩ := (hs.sound.owned i ho).packet
    cases hnone.symm.trans hp
  rw [RxState.inFlight?_of_not_owner howner]
  exact RxState.inFlight?_of_not_owner howner

variable [Chip σ]

theorem ledger_close {a : Adapter σ} (ha : a.Ledger P) (h : Handle) : (a.close h).Ledger P := by
  cases hr : a.table.get? h with
  | none =>
    rw [close_none a h hr]
    exact ha
  | some r =>
    obtain ⟨answer, hjournal⟩ := journal_close a hr
    intro k
    by_cases hk : h = k
    · subst hk
      refine account_free ?_
      rw [table_close a hr, SocketTable.get?_release, if_pos rfl]
    · refine (ha k).frame hP _ ?_ (fun r' hr' => ⟨r', ?_, rfl, rfl, rfl⟩) ?_ hjournal
        (List.forall_mem_singleton.mpr ⟨Entry.silent_command .., rfl⟩)
      · rw [table_close a hr, SocketTable.generation_release]
      · rwa [table_close a hr, SocketTable.get?_release, if_neg hk] at hr'
      · rw [rx_close a hr]
        exact RxState.inFlight?_leave a.rx (Ne.symm hk)

theorem ledger_register {a : Adapter σ} (hs : a.Steady) (ha : a.Ledger P) (listener : Handle)
    {child : Handle} (kind : SocketKind) (peer : Endpoint) (hfree : a.table.isOpen child = false) :
    (a.register listener child (a.table.occupy child (.accepted kind peer))).2.Ledger P := by
  have htold : ((a.occupied child (.accepted kind peer)).announce
      (.newConnection listener child)).Ledger P :=
    (ledger_occupied hP hs ha hfree rfl rfl).of_quiet hP (quiet_announce _ fun _ => trivial)
  rw [register_eq]
  dsimp only
  split
  · exact htold
  · exact (ledger_release hP htold child).of_quiet hP (quiet_order _ fun _ => trivial)

theorem ledger_ask {a : Adapter σ} (ha : a.Ledger P) (h : Handle)
    (hpacket : a.rx.packet?.isSome = true) : (a.ask h).2.Ledger P := by
  rw [ask_eq a h hpacket]
  dsimp only
  split
  · exact ha.commanded hP rfl (fun _ => rfl) rfl (List.forall_mem_singleton.mpr ⟨_, _, rfl⟩)
  · exact ha.commanded hP rfl (fun _ => rfl) rfl (List.forall_mem_singleton.mpr ⟨_, _, rfl⟩)

theorem Ledger.resume {a : Adapter σ} (ha : a.Ledger P) : a.resumeFlow.Ledger P := by
  obtain ⟨bus, es, heq, hjournal, hes⟩ := resumeFlow_eq a
  rw [heq]
  exact ha.commanded hP rfl (fun _ => rfl) hjournal fun e he => ⟨_, hes e he⟩

theorem Ledger.pause {a : Adapter σ} (ha : a.Ledger P) : a.pauseFlow.Ledger P := by
  obtain ⟨bus, stats, es, heq, hjournal, hes⟩ := pauseFlow_eq a
  rw [heq]
  exact ha.commanded hP rfl (fun _ => rfl) hjournal fun e he => ⟨_, hes e he⟩

omit [Chip σ] in
theorem Answered.ledger {a b : Adapter σ} {i : Incarnation} {d : Delivery} (h : a.Answered i d b)
    (hs : a.Steady) (ha : a.Ledger P) (hout : a.rx.outstanding? = some i) : b.Ledger P := by
  cases h with
  | noData hd =>
    have hnoted : (a.noted (.socket i.handle (.received d))).Ledger P := by
      refine ha.of_quiet hP (quiet_enter a fun x d' hx => ?_)
      obtain ⟨-, -, rfl⟩ := Entry.answer?_eq_some_iff.mp hx
      exact hd
    exact hnoted.commanded hP rfl (fun _ => rfl) (List.append_nil _).symm nofun
  | keep hd hpacket hroom => exact ledger_keep hP hs ha hout hd hpacket
  | finish hd hpacket => exact ledger_finish hP hs ha hout hd hpacket
  | ended hd hread => exact ledger_ended hP hs ha hout (Delivery.ends_of_end hd) _ _

theorem Move.ledger {D : Deed → Prop} {a b : Adapter σ} (h : Move D a b) (hs : a.Steady)
    (ha : a.Ledger P) : b.Ledger P := by
  cases h with
  | chore h => exact ha.of_quiet hP h.quiet
  | @create kind h hbus hfree hd =>
    have hq := (Chore.opening (D := D) a kind hd).quiet
    exact ledger_occupied hP (hs.of_quiet hq) (ha.of_quiet hP hq) hfree rfl rfl
  | register _ _ peer _ hfree => exact ledger_register hP hs ha _ _ peer hfree
  | read h => exact ledger_read hP ha h
  | resume => exact ha.resume hP
  | lease hnone hpool => exact (Ledger.lease hP hs ha hnone).resume hP
  | pause _ _ => exact ha.pause hP
  | settle hcursor howner hpacket =>
    refine ledger_handOver hP ha (hs.sound.owned _ howner).current
      (fun r hr => hs.live _ r howner hr) ((RxState.inFlight?_of_owner howner).trans hpacket)
      fun j hj => ?_
    refine RxState.inFlight?_of_not_owner fun ho => hj ?_
    exact Option.some.inj (ho.symm.trans howner)
  | ask hcursor hpacket hawaits howner => exact ledger_ask hP ha _ hpacket
  | answer hout _ h => exact h.ledger hP hs ha hout

theorem Step.ledger {a b : Adapter σ} {D : Deed → Prop} {site? : Option Handle}
    (h : Step D site? a b) (hs : a.Steady) (ha : a.Ledger P) : b.Ledger P := by
  cases h with
  | move h => exact h.ledger hP hs ha
  | close hsite => exact ledger_close hP ha _
  | call hsite hcall => exact ha.of_quiet hP hcall.quiet

end Keeping

end Adapter

/-- A book that is kept is right for every socket after every history. -/
theorem Session.ledger_run {σ : Type} [Chip σ] {P : Book} (hP : Bookkeeping P) {s : Session σ}
    (hs : s.adapter.Steady) (ha : s.adapter.Ledger P) (actions : List (Action σ)) :
    (s.run actions).adapter.Ledger P :=
  (invariant_run (fun _ _ _ hs ha hab => hab.ledger hP hs ha) hs ha actions).1

end WifiAdapter
