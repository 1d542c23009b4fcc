import WifiAdapter.Proofs.OpenSockets

/-! The end of a stream is final.

A socket whose stream has ended may be told to poll again, by a connect or by the end of a bind, but
it never wants data: so receiving does not name it, and no step asks it or makes it readable. What
is left is that the application reads what was queued (`Adapter.Lingers`).

`Session.end_is_final`: from the delivery that ends a stream on, and until the socket is closed, its
record says so, its queue is used up from the front, and a stream refuses to send. -/
namespace WifiAdapter

/-- The socket is asked for data, or the application is told that it is readable. -/
def Entry.Rouses (h : Handle) : Entry → Prop
  | .command (.receive k _ _) _ => k = h
  | .event (.readable k _) _ => k = h
  | _ => False

/-- The packet that the application read from a socket. -/
def Entry.packet? (h : Handle) : Entry → Option Packet
  | .read i packet => if i.handle = h then some packet else none
  | _ => none

/-- The packets that were read from a socket, in order. -/
def packetsRead (h : Handle) (es : List Entry) : List Packet := es.filterMap (·.packet? h)

namespace Adapter
variable {σ : Type} {h : Handle} {a b c : Adapter σ}

/-- If the stream of a socket has ended, the socket stays and is left alone but for what is read. -/
def Lingers (h : Handle) (a b : Adapter σ) : Prop :=
  ∀ r, a.table.get? h = some r → r.peerClosed = true → ∃ r' es,
    b.table.get? h = some r' ∧ r'.peerClosed = true ∧
      b.table.generation h = a.table.generation h ∧ b.bus.journal = a.bus.journal ++ es ∧
      (∀ e ∈ es, ¬ e.Rouses h) ∧ packetsRead h es ++ r'.inbound = r.inbound

theorem Lingers.refl (a : Adapter σ) : Lingers h a a := fun r hr hclosed =>
  ⟨r, [], hr, hclosed, rfl, (List.append_nil _).symm, List.forall_mem_nil _, rfl⟩

theorem Lingers.trans (hab : Lingers h a b) (hbc : Lingers h b c) : Lingers h a c := by
  intro r hr hclosed
  obtain ⟨r', es, hr', hclosed', hgeneration, hjournal, hes, hinbound⟩ := hab r hr hclosed
  obtain ⟨r'', more, hr'', hclosed'', hgeneration', hjournal', hmore, hinbound'⟩ :=
    hbc r' hr' hclosed'
  refine ⟨r'', es ++ more, hr'', hclosed'', hgeneration'.trans hgeneration, ?_,
    List.forall_mem_append.mpr ⟨hes, hmore⟩, ?_⟩
  · rw [hjournal', hjournal, List.append_assoc]
  · rw [packetsRead, List.filterMap_append, List.append_assoc, ← packetsRead, ← packetsRead,
      hinbound', hinbound]

/-- Receiving does not name a socket whose stream has ended. -/
theorem Steady.not_named (ha : a.Steady) {r : SocketRecord} (hr : a.table.get? h = some r)
    (hclosed : r.peerClosed = true) : ¬ a.rx.Names h := by
  rintro ⟨i, howner | hcursor, rfl⟩
  · exact absurd ((ha.live i r howner hr).symm.trans hclosed) nofun
  · have hawaits := (ha.sound.asked i hcursor).awaits
    exact absurd ((SocketTable.live_of_awaits hawaits hr).symm.trans hclosed) nofun

/-- Reading takes the oldest packet. -/
theorem lingers_receive (a : Adapter σ) (k : Handle) : Lingers h a (a.receive k).2 := by
  rcases a.receive_cases k with ⟨_, heq⟩ | ⟨r, packet, rest, _, hr, hinbound, heq⟩
  · rw [heq]
    exact .refl a
  · rw [heq]
    intro r₀ hr₀ hclosed
    have hget : (a.table.modify k fun r => { r with inbound := rest }).get? h =
        if k = h then some { r₀ with inbound := rest } else some r₀ := by
      rw [SocketTable.get?_modify, hr₀]
      rfl
    by_cases hk : k = h
    · subst hk
      cases hr.symm.trans hr₀
      refine ⟨_, [.read _ packet], hget.trans (if_pos rfl), hclosed,
        SocketTable.generation_modify .., rfl, by simp [Entry.Rouses], ?_⟩
      simp [packetsRead, Entry.packet?, SocketTable.incarnation, hinbound]
    · refine ⟨_, [.read _ packet], hget.trans (if_neg hk), hclosed,
        SocketTable.generation_modify .., rfl, by simp [Entry.Rouses], ?_⟩
      simp [packetsRead, Entry.packet?, SocketTable.incarnation, hk]

/-- The delivery that ends a stream. -/
theorem Answered.ends {i : Incarnation} {d : Delivery} (hab : a.Answered i d b) (ha : a.Steady)
    (hout : a.rx.outstanding? = some i) (hends : d.ends = true) :
    ∃ r read told, a.table.get? i.handle = some r ∧
      b.table.get? i.handle = some { r with peerClosed := true, poll := false } ∧
      b.table.generation i.handle = a.table.generation i.handle ∧ read ≠ .data ∧
      b.bus.journal = a.bus.journal ++ [.handled (.socket i.handle (.received d)) a.rx.expecting?,
        .event (.readable i.handle read) told] := by
  have hnone {outcome : Delivery.Outcome} (hd : d.outcome = outcome) (h : outcome = .noData ∨
      ∃ remaining, outcome = .data remaining) : False := by
    rw [Delivery.ends, hd] at hends
    rcases h with rfl | ⟨_, rfl⟩ <;> cases hends
  cases hab with
  | noData hd => exact (hnone hd (.inl rfl)).elim
  | keep hd | finish hd => exact (hnone hd (.inr ⟨_, rfl⟩)).elim
  | @ended status read hd hread =>
    have hopen : ((a.noted (.socket i.handle (.received d))).onRx .withdraw).table.isOpen i.handle =
        true := ha.isOpen hout
    obtain ⟨r, hr⟩ := Option.isSome_iff_exists.mp (ha.isOpen hout)
    obtain ⟨told, hjournal⟩ := journal_endStream _ hopen status read
    refine ⟨r, read, told, hr, ?_, ?_, hread, hjournal.trans (List.append_assoc ..)⟩
    · rw [table_endStream _ hopen]
      refine (SocketTable.get?_modify ..).trans ((if_pos rfl).trans ?_)
      exact congrArg (Option.map _) hr
    · rw [table_endStream _ hopen]
      exact SocketTable.generation_modify ..

variable [Chip σ] {D : Deed → Prop} {site? : Option Handle}

theorem Step.lingers (hab : Step D site? a b) (ha : a.Steady) (hread : ¬ D (.read h))
    (hshut : ¬ D (.shut h)) : Lingers h a b := by
  intro r hr hclosed
  have hunnamed := ha.not_named hr hclosed
  have hidle : r.awaitingData ≠ true := fun hawaits => by
    simp [SocketRecord.awaitingData, hclosed] at hawaits
  obtain ⟨es, hjournal, hes⟩ := hab.enters ha
  have hrouses (e : Entry) (he : e ∈ es) : ¬ e.Rouses h := by
    intro hrouses
    have hmay := hes e he
    unfold Entry.Rouses at hrouses
    split at hrouses
    · subst hrouses
      have hawaits := hmay.2
      rw [SocketTable.awaits, hr] at hawaits
      exact hidle hawaits
    · subst hrouses
      exact hunnamed hmay
    · exact hrouses
  have hunread : packetsRead h es = [] := by
    refine List.filterMap_eq_nil_iff.mpr fun e he => ?_
    have hmay := hes e he
    unfold Entry.packet?
    split
    · refine if_neg ?_
      rintro rfl
      exact hread hmay
    · rfl
  have hsame {r' : SocketRecord} (hrevision : Revision D site? a h r r') :
      r'.peerClosed = true ∧ r'.inbound = r.inbound := by
    cases hrevision with
    | read hd => exact absurd hd hread
    | queue hnamed => exact absurd hnamed hunnamed
    | ended hawaits => exact absurd hawaits hidle
    | complete _ _ _ starts => cases starts <;> exact ⟨hclosed, rfl⟩
    | _ => exact ⟨hclosed, rfl⟩
  rcases hab.slot ha h with ⟨hfree, -⟩ | ⟨hfree, -, -⟩ | ⟨-, hd, -⟩ | ⟨ha, hb, hgeneration, hrevision⟩
  · cases hfree.symm.trans hr
  · cases hfree.symm.trans hr
  · exact absurd hd hshut
  · cases ha.symm.trans hr
    obtain ⟨hclosed', hinbound⟩ := hsame hrevision
    exact ⟨_, es, hb, hclosed', hgeneration, hjournal, hrouses, by rw [hunread, hinbound]; rfl⟩

theorem Steps.lingers (hab : Steps D site? a b) (ha : a.Steady) (hread : ¬ D (.read h))
    (hshut : ¬ D (.shut h)) : Lingers h a b := by
  induction hab with
  | refl => exact .refl a
  | tail hbefore hstep ih => exact ih.trans (hstep.lingers (Steps.steady hbefore ha) hread hshut)

/-- A stream that has ended takes no data. -/
theorem send_ended {r : SocketRecord} (hr : a.table.get? h = some r) (hkind : r.kind = .stream)
    (hphase : r.phase = .connected) (hclosed : r.peerClosed = true) (chain : Chain) :
    a.send h chain none = (.error ⟨.connectionAborted, chain⟩, a) := by
  have hrefusal : streamRefusal? r none = some .connectionAborted := by
    simp [streamRefusal?, hphase, hclosed]
  rw [send_of_stream hr hkind]
  unfold sendStream
  rw [hrefusal]

end Adapter

/-! ### Histories -/

namespace Session
variable {σ : Type} [Chip σ] {s : Session σ} {h : Handle}

/-- Neither is the socket read from nor is it closed. -/
def LeftAlone (h : Handle) (d : Deed) : Prop := d ≠ .read h ∧ d ≠ .shut h

theorem leftAlone_of_note (note : Notification) (d : Deed) (hd : d ∈ note.deed?) :
    LeftAlone h d := by
  constructor <;> rintro rfl <;> exact Notification.incoming hd

omit [Chip σ] in
theorem leftAlone_of_deeds {action : Action σ} (hreceive : action ≠ .receive h)
    (hclose : action ≠ .close h) (d : Deed) (hd : deeds action d) : LeftAlone h d := by
  constructor
  · rintro rfl
    exact hreceive (broughtBy_of_deeds hd)
  · rintro rfl
    exact hclose (broughtBy_of_deeds hd)

theorem lingers_perform (hs : s.adapter.Steady) {action : Action σ} (hclose : action ≠ .close h) :
    Adapter.Lingers h s.adapter (s.perform action).2.adapter := by
  by_cases hreceive : action = .receive h
  · subst hreceive
    have hread : Adapter.Lingers h s.adapter (s.adapter.receive h).2 := s.adapter.lingers_receive h
    show Adapter.Lingers h s.adapter (s.receive h).2.adapter
    unfold receive
    split
    · next heq =>
      rw [heq] at hread
      exact hread
    · next heq =>
      rw [heq] at hread
      exact hread
  · have hdeeds := leftAlone_of_deeds hreceive hclose
    have hsteps := (passes_perform s action hs).steps_of hdeeds leftAlone_of_note ⟨nofun, nofun⟩ hs
    exact hsteps.lingers hs (fun hd => hd.1 rfl) (fun hd => hd.2 rfl)

theorem lingers_run (hs : s.adapter.Steady) {actions : List (Action σ)}
    (hclose : .close h ∉ actions) : Adapter.Lingers h s.adapter (s.run actions).adapter := by
  induction actions generalizing s with
  | nil => exact .refl _
  | cons action rest ih =>
    have hfirst : action ≠ .close h := fun heq => hclose (heq ▸ List.mem_cons_self)
    have hrest := ih (steady_perform hs action) fun hmem =>
      hclose (List.mem_cons_of_mem _ hmem)
    exact (lingers_perform hs hfirst).trans hrest

/-- From where an action has handled a notification to its end. -/
theorem lingers_moment (hs : s.adapter.Steady) {action : Action σ} {m : Moment σ}
    (hm : m ∈ s.moments action) :
    Adapter.Lingers h (m.adapter.handle s.clock m.note) (s.perform action).2.adapter := by
  have hcourse := passes_perform s action hs
  have hsteady : (m.adapter.handle s.clock m.note).Steady :=
    (Adapter.leads_handle_deeds _ s.clock m.note (hcourse.reaches hs hm |>.steady hs)).steady
      ((hcourse.reaches hs hm).steady hs)
  have hreceive : action ≠ .receive h := by
    rintro rfl
    cases hm
  have hclose : action ≠ .close h := by
    rintro rfl
    cases hm
  have hdeeds := leftAlone_of_deeds hreceive hclose
  have hsteps := hcourse.goes_on_of hdeeds leftAlone_of_note ⟨nofun, nofun⟩ hs hm
  exact hsteps.lingers hsteady (fun hd => hd.1 rfl) (fun hd => hd.2 rfl)

/-- The answer to an outstanding receive ends the stream of a socket, in any history. The application
is told so at once. As long as the socket is not closed then, whatever happens, it stays the same
socket with its end on record: no receive is issued for it, whether the chip would take it or not,
and it does not become readable again. The packets that were queued are read from it in their order,
and none is added. A stream refuses every chain that has no destination, as aborted, hands it back
whole and changes nothing. -/
theorem end_is_final (chip : σ) (packets : Nat) (config : Config) {before after : List (Action σ)}
    {action : Action σ} {m : Moment σ} {i : Incarnation} {d : Delivery}
    (hm : m ∈ ((new chip packets config).run before).moments action)
    (hnote : m.note = .socket i.handle (.received d))
    (hasked : m.adapter.rx.outstanding? = some i) (hends : d.ends = true)
    (hclose : .close i.handle ∉ after) :
    let b := ((new chip packets config).run (before ++ action :: after)).adapter
    ∃ r r' read told since,
      m.adapter.table.get? i.handle = some r ∧ b.table.get? i.handle = some r' ∧
      b.table.isCurrent i = true ∧ r'.peerClosed = true ∧
      b.bus.journal = m.adapter.bus.journal ++ .handled m.note m.adapter.rx.expecting? ::
        .event (.readable i.handle read) told :: since ∧ read ≠ .data ∧
      (∀ e ∈ since, ¬ e.Rouses i.handle) ∧
      packetsRead i.handle since ++ r'.inbound = r.inbound ∧
      (∀ packet rest, r'.inbound = packet :: rest →
        ∃ sender, (b.receive i.handle).1 = .ok ⟨packet, sender⟩) ∧
      (r'.kind = .stream → ∀ chain,
        b.send i.handle chain none = (.error ⟨.connectionAborted, chain⟩, b)) := by
  intro b
  have hnew : (new chip packets config).adapter.Steady := Adapter.steady_new chip packets config
  have hs := steady_run hnew before
  have ha : m.adapter.Steady :=
    ((passes_perform _ action hs).reaches hs hm).steady hs
  -- The delivery ends the stream, and then other sockets are asked.
  obtain ⟨c, hanswered, hleads⟩ :=
    Adapter.answered_onDelivery (D := Deed.Asking) rfl ha hasked d
  obtain ⟨r, read, told, hr, hc, hgeneration, hread, hjournal⟩ := hanswered.ends ha hasked hends
  have hmove : Adapter.Move Deed.Any m.adapter c := .answer hasked trivial hanswered
  have hhandled : Adapter.Lingers i.handle c
      (m.adapter.handle ((new chip packets config).run before).clock m.note) := by
    rw [hnote]
    have hsteps : Adapter.Steps Deed.Asking none c _ := hleads.yields (hmove.steady ha)
    exact hsteps.lingers (hmove.steady ha) nofun nofun
  have hrun : Adapter.Lingers i.handle c b := by
    refine (hhandled.trans (lingers_moment hs hm)).trans ?_
    rw [show b = (Session.run (((new chip packets config).run before).perform action).2 after).adapter
      by rw [← run_snoc, ← run_append, List.append_assoc]; rfl]
    exact lingers_run ((yields_perform _ action hs).steady hs) hclose
  obtain ⟨r', since, hr', hclosed, hgeneration', hjournal', hrouses, hinbound⟩ := hrun _ hc rfl
  have hcurrent : b.table.isCurrent i = true := by
    have hasks := (ha.sound.asked i (RxState.cursor_of_outstanding hasked)).current
    rw [SocketTable.isCurrent_iff] at hasks ⊢
    exact ⟨by rw [SocketTable.isOpen, hr']; rfl,
      hgeneration'.trans (hgeneration.trans hasks.2)⟩
  refine ⟨r, r', read, told, since, hr, hr', hcurrent, hclosed, ?_, hread, hrouses, hinbound,
    fun packet rest hpackets => ?_, fun hkind chain => ?_⟩
  · rw [hjournal', hjournal, List.append_assoc, hnote]
    rfl
  · unfold Adapter.receive SocketTable.get
    rw [hr']
    dsimp only
    rw [hpackets]
    exact ⟨_, rfl⟩
  · have hregular := (kempt_run chip packets config (before ++ action :: after)).1.regular _ _ hr'
    exact Adapter.send_ended hr' hkind (hregular.heard hkind (.inr hclosed)) hclosed chain

/-- A stream that has received a packet and is asked for more. -/
def heardFrom (h : Handle) : List (Action ScriptedChip) :=
  [.create .inet .stream, .connect h (.v4 ⟨⟨10, 0, 0, 1⟩, 80⟩),
    .dispatch (.socket h (.connected .success)),
    .dispatch (.socket h (.received ⟨2, 0, default, [1, 2]⟩)), .tick]

/-- The other end hangs up. The next tick asks nobody, the packet is read, and nothing is sent. -/
theorem end_is_final_heardFrom :
    let hangup := .socket 0 (.received ⟨0, 0, default, []⟩)
    let b := ((new ScriptedChip.new 2 .defaults).run
      (heardFrom 0 ++ .dispatch hangup :: [.tick, .receive 0])).adapter
    (∃ r, b.table.get? 0 = some r ∧ r.peerClosed = true ∧ r.inbound = []) ∧
      b.send 0 ⟨[[3]]⟩ none = (.error ⟨.connectionAborted, ⟨[[3]]⟩⟩, b) := by
  intro hangup b
  let s := (new ScriptedChip.new 2 .defaults).run (heardFrom 0)
  let m : Moment ScriptedChip := ⟨s.adapter, hangup⟩
  let i : Incarnation := ⟨0, 1⟩
  have hm : m ∈ s.moments (.dispatch hangup) := List.mem_singleton_self _
  have hnote : m.note = .socket i.handle (.received ⟨0, 0, default, []⟩) := rfl
  have hasked : m.adapter.rx.outstanding? = some i := by decide +kernel
  have hclose : Action.close i.handle ∉ ([.tick, .receive 0] : List (Action ScriptedChip)) := by
    simp
  obtain ⟨r, r', read, told, since, hr, hr', -, hclosed, hjournal, -, -, hinbound, -, hsend⟩ :=
    end_is_final ScriptedChip.new 2 .defaults hm hnote hasked rfl hclose
  have hrecord : ∃ r, b.table.get? 0 = some r ∧ r.kind = .stream ∧ r.inbound = [] := by
    decide +kernel
  obtain ⟨_, hsame, hkind, hempty⟩ := hrecord
  cases hr'.symm.trans hsame
  exact ⟨⟨r', hr', hclosed, hempty⟩, hsend hkind _⟩

end Session

end WifiAdapter
