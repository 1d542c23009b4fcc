import WifiAdapter.Proofs.Records

/-! What holds of every record.

The parts of a record depend on its kind and its phase: a datagram socket is never further than
bound, only a connected stream has data waiting to go out, and a stream has heard from its other end
only if it is connected (`SocketRecord.Regular`). A step keeps this because receiving names no
stream that is not connected (`Adapter.Kempt`). -/
namespace WifiAdapter

/-! ### Records -/

/-- What the kind and the phase of an open socket say about its record. -/
structure SocketRecord.Regular (r : SocketRecord) : Prop where
  unclosed : r.phase ≠ .closed
  datagram : r.kind = .datagram →
    (r.phase = .unbound ∨ r.phase = .binding ∨ r.phase = .bound) ∧ r.pendingTx? = none
  pending : r.pendingTx?.isSome = true → r.kind = .stream ∧ r.phase = .connected
  peer : r.phase = .connecting ∨ r.phase = .connected → r.peer?.isSome = true
  heard : r.kind = .stream → r.inbound ≠ [] ∨ r.peerClosed = true → r.phase = .connected

/-- An operation begins, or it or a connect comes to its end. -/
def Phase.Request.Ordinary (q : Phase.Request) : Prop := q ≠ .close ∧ q ≠ .accepted ∧ q ≠ .connect

namespace Phase
variable {p : Phase} {q : Request}

theorem apply_ne_closed (hp : p ≠ .closed) (hq : q ≠ .close) : p.apply q ≠ .closed := by
  cases q with
  | close => exact absurd rfl hq
  | bindDone ok | listenDone ok | connectDone ok =>
    cases p <;> cases ok <;> first | decide | exact absurd rfl hp
  | _ => cases p <;> first | decide | exact absurd rfl hp

/-- Nothing but a close leads out of `connected`. -/
theorem apply_connected (hq : q ≠ .close) : connected.apply q = connected := by
  cases q <;> first | rfl | exact absurd rfl hq

/-- A connection is not made by the way. -/
theorem connects_of_apply (hq : q.Ordinary) (h : p.apply q = .connecting ∨ p.apply q = .connected) :
    p = .connecting ∨ p = .connected := by
  obtain ⟨hclose, haccepted, hconnect⟩ := hq
  cases q with
  | close => exact absurd rfl hclose
  | accepted => exact absurd rfl haccepted
  | connect => exact absurd rfl hconnect
  | bindDone ok | listenDone ok | connectDone ok => cases p <;> cases ok <;> revert h <;> decide
  | _ => cases p <;> revert h <;> decide

/-- A socket that does not listen and does not connect is at most bound. -/
theorem bindable_apply (hp : p = .unbound ∨ p = .binding ∨ p = .bound) (hq : q.Ordinary)
    (hlisten : q ≠ .listen) :
    p.apply q = .unbound ∨ p.apply q = .binding ∨ p.apply q = .bound := by
  obtain ⟨hclose, haccepted, hconnect⟩ := hq
  rcases hp with rfl | rfl | rfl <;> cases q with
  | close => exact absurd rfl hclose
  | accepted => exact absurd rfl haccepted
  | connect => exact absurd rfl hconnect
  | listen => exact absurd rfl hlisten
  | bindDone ok | listenDone ok | connectDone ok => cases ok <;> decide
  | bind => decide

end Phase

theorem Purpose.ordinary_request (p : Purpose) : p.request.Ordinary := by
  cases p <;> exact ⟨nofun, nofun, nofun⟩

theorem Purpose.ordinary_done (p : Purpose) (ok : Bool) : (p.done ok).Ordinary := by
  cases p <;> exact ⟨nofun, nofun, nofun⟩

namespace SocketRecord
variable {r : SocketRecord}

theorem Regular.new (kind : SocketKind) : (new kind).Regular where
  unclosed := nofun
  datagram _ := ⟨.inl rfl, rfl⟩
  pending := nofun
  peer h := by rcases h with h | h <;> cases h
  heard _ h := by
    rcases h with h | h
    · exact absurd rfl h
    · cases h

theorem Regular.accepted (peer : Endpoint) : (accepted .stream peer).Regular where
  unclosed := nofun
  datagram := nofun
  pending := nofun
  peer _ := rfl
  heard _ _ := rfl

/-- Outgoing data and bytes heard keep a stream connected. -/
theorem Regular.apply (h : r.Regular) {q : Phase.Request} (hq : q.Ordinary)
    (hlisten : q = .listen → r.kind = .stream) : (r.apply q).Regular where
  unclosed := Phase.apply_ne_closed h.unclosed hq.1
  datagram hkind := by
    obtain ⟨hphase, hpending⟩ := h.datagram hkind
    refine ⟨Phase.bindable_apply hphase hq ?_, hpending⟩
    rintro rfl
    cases hkind.symm.trans (hlisten rfl)
  pending hpending := by
    obtain ⟨hkind, hphase⟩ := h.pending hpending
    exact ⟨hkind, (congrArg (·.apply q) hphase).trans (Phase.apply_connected hq.1)⟩
  peer hphase := h.peer (Phase.connects_of_apply hq hphase)
  heard hkind hheard :=
    (congrArg (·.apply q) (h.heard hkind hheard)).trans (Phase.apply_connected hq.1)

theorem Regular.aimedAt (h : r.Regular) (peer : Endpoint) : (r.aimedAt peer).Regular :=
  ⟨h.unclosed, h.datagram, h.pending, fun _ => rfl, h.heard⟩

theorem Regular.connect (h : r.Regular) (hstream : r.kind = .stream) (peer : Endpoint) :
    ((r.apply .connect).aimedAt peer).Regular where
  unclosed := Phase.apply_ne_closed h.unclosed nofun
  datagram hkind := by cases hkind.symm.trans hstream
  pending hpending := by
    obtain ⟨-, hphase⟩ := h.pending hpending
    exact ⟨hstream, (congrArg (·.apply .connect) hphase).trans rfl⟩
  peer _ := rfl
  heard hkind hheard := (congrArg (·.apply .connect) (h.heard hkind hheard)).trans rfl

end SocketRecord

theorem Chain.LeftOf.trans {rest chain whole : Chain} (h : rest.LeftOf chain)
    (h' : chain.LeftOf whole) : rest.LeftOf whole :=
  ⟨h.some, h.solid ∘ h'.solid⟩

/-! ### Steps -/

namespace Adapter
variable {σ : Type} {D : Deed → Prop} {site? : Option Handle} {a b : Adapter σ} {h : Handle}
  {r r' : SocketRecord}

/-- The records of an adapter are regular, what waits was given, and receiving names no stream that
is not connected. -/
structure Kempt (D : Deed → Prop) (a : Adapter σ) : Prop where
  regular : ∀ h r, a.table.get? h = some r → r.Regular
  given : ∀ h r rest, a.table.get? h = some r → r.pendingTx? = some rest →
    ∃ chain, D (.give h chain) ∧ rest.LeftOf chain
  named : ∀ h r, a.rx.Names h → a.table.get? h = some r → r.kind = .stream → r.phase = .connected

theorem kempt_new (chip : σ) (packets : Nat) (config : Config) :
    (new chip packets config).Kempt D := by
  have hfree (k : Handle) : (new chip packets config).table.get? k = none := by
    simp [new, SocketTable.empty, SocketTable.get?, Slot.free]
  exact ⟨fun k r hr => absurd (hr.symm.trans (hfree k)) nofun,
    fun k r _ hr => absurd (hr.symm.trans (hfree k)) nofun,
    fun k r _ hr => absurd (hr.symm.trans (hfree k)) nofun⟩

theorem Revision.kind (hrevision : Revision D site? a h r r') : r'.kind = r.kind := by
  cases hrevision with
  | complete _ _ _ starts => cases starts <;> rfl
  | _ => rfl

theorem Revision.connected (hrevision : Revision D site? a h r r') (hphase : r.phase = .connected) :
    r'.phase = .connected := by
  have happly {q : Phase.Request} (hq : q ≠ .close) : r.phase.apply q = .connected := by
    rw [hphase]
    exact Phase.apply_connected hq
  cases hrevision with
  | begin _ purpose => exact happly purpose.ordinary_request.1
  | undo _ purpose => exact happly (purpose.ordinary_done false).1
  | complete _ purpose ok starts =>
    cases starts <;> exact happly (purpose.ordinary_done ok).1
  | connect | connectDone => exact happly nofun
  | _ => exact hphase

/-- What waits after a revision waited before it, or is left of what is given. -/
theorem Revision.given (hrevision : Revision D site? a h r r') (hr : a.table.get? h = some r)
    {rest : Chain} (hrest : r'.pendingTx? = some rest) :
    r.pendingTx? = some rest ∨ ∃ chain, rest.LeftOf chain ∧
      (r.pendingTx? = some chain ∨ r.kind = .stream ∧ r.phase = .connected ∧ D (.give h chain)) := by
  cases hrevision with
  | pending _ chain? hwait =>
    obtain ⟨r₀, chain, hr₀, hleft, hfrom⟩ := hwait rest hrest
    cases hr.symm.trans hr₀
    exact .inr ⟨chain, hleft, hfrom⟩
  | complete _ _ _ starts => cases starts <;> exact .inl hrest
  | _ => exact .inl hrest

theorem Revision.regular (hrevision : Revision D site? a h r r') (ha : a.Kempt D)
    (hr : a.table.get? h = some r) : r'.Regular := by
  have hregular := ha.regular h r hr
  cases hrevision with
  | same => exact hregular
  | begin _ purpose hlisten =>
    exact hregular.apply purpose.ordinary_request fun hq => hlisten (by cases purpose <;> trivial)
  | undo _ purpose =>
    exact hregular.apply (purpose.ordinary_done false) (by cases purpose <;> nofun)
  | complete _ purpose ok starts =>
    have hended := hregular.apply (purpose.ordinary_done ok) (by cases purpose <;> nofun)
    cases starts with
    | false => exact hended
    | true => exact ⟨hended.unclosed, hended.datagram, hended.pending, hended.peer, hended.heard⟩
  | mark =>
    exact ⟨hregular.unclosed, hregular.datagram, hregular.pending, hregular.peer, hregular.heard⟩
  | connect _ hstream peer => exact hregular.connect hstream peer
  | connectDone _ ok => exact hregular.apply ⟨nofun, nofun, nofun⟩ nofun
  | aim _ _ peer => exact hregular.aimedAt peer
  | pending hd chain? hwait =>
    -- Data waits at connected streams only.
    have hconnected (hsome : chain?.isSome = true) : r.kind = .stream ∧ r.phase = .connected := by
      obtain ⟨rest, hrest⟩ := Option.isSome_iff_exists.mp hsome
      obtain ⟨r₀, chain, hr₀, -, hfrom⟩ := hwait rest hrest
      cases hr.symm.trans hr₀
      rcases hfrom with hpending | ⟨hkind, hphase, -⟩
      · exact hregular.pending (by rw [hpending]; rfl)
      · exact ⟨hkind, hphase⟩
    refine ⟨hregular.unclosed, fun hkind => ⟨(hregular.datagram hkind).1, ?_⟩, hconnected,
      hregular.peer, hregular.heard⟩
    refine Option.not_isSome_iff_eq_none.mp fun hsome => ?_
    cases hkind.symm.trans (hconnected hsome).1
  | read _ hinbound =>
    refine ⟨hregular.unclosed, hregular.datagram, hregular.pending, hregular.peer,
      fun hkind hheard => hregular.heard hkind (hheard.imp_left fun _ => ?_)⟩
    rw [hinbound]
    exact List.cons_ne_nil _ _
  | queue hnamed =>
    exact ⟨hregular.unclosed, hregular.datagram, hregular.pending, hregular.peer,
      fun hkind _ => ha.named h r hnamed hr hkind⟩
  | ended hawaits =>
    refine ⟨hregular.unclosed, hregular.datagram, hregular.pending, hregular.peer,
      fun hkind _ => ?_⟩
    have hkind : r.kind = .stream := hkind
    simp only [SocketRecord.awaitingData, hkind, Bool.and_eq_true, beq_iff_eq] at hawaits
    exact hawaits.2

theorem Fresh.regular (hfresh : a.Fresh r) (ha : a.Kempt D) : r.Regular := by
  cases hfresh with
  | new kind => exact .new kind
  | @accepted listener r hr hlistens peer =>
    cases hkind : r.kind with
    | stream => exact .accepted peer
    | datagram =>
      -- A datagram socket does not listen.
      obtain ⟨hphase, -⟩ := (ha.regular listener r hr).datagram hkind
      rw [hlistens] at hphase
      rcases hphase with h | h | h <;> cases h

/-- A socket that receiving names is open. -/
theorem Steady.isOpen_of_named (ha : a.Steady) (hnamed : a.rx.Names h) :
    a.table.isOpen h = true := by
  obtain ⟨i, hi, rfl⟩ := hnamed
  exact ha.sound.isOpen hi.symm

theorem Answered.owner {i j : Incarnation} {d : Delivery} (hab : a.Answered i d b) (ha : a.Steady)
    (hout : a.rx.outstanding? = some i) (hj : b.rx.owner? = some j) : a.rx.Names j.handle := by
  cases hab with
  | noData => exact ⟨j, .inl hj, rfl⟩
  | keep =>
    cases hj
    exact ⟨i, .inr (RxState.cursor_of_outstanding hout), rfl⟩
  | finish =>
    rw [rx_handOver] at hj
    cases hj
  | ended =>
    have hopen : ((a.noted (.socket i.handle (.received d))).onRx .withdraw).table.isOpen i.handle =
        true := ha.isOpen hout
    rw [rx_endStream _ hopen] at hj
    cases hj

variable [Chip σ]

/-- Bytes in flight were in flight, or they are those of the socket that was asked. -/
theorem Move.owner (hab : Move D a b) (ha : a.Steady) {j : Incarnation}
    (hj : b.rx.owner? = some j) : a.rx.Names j.handle := by
  have hsame (h : b.rx.owner? = a.rx.owner?) : a.rx.Names j.handle :=
    ⟨j, .inl (h.symm.trans hj), rfl⟩
  have hresume (c : Adapter σ) : c.resumeFlow.rx.owner? = c.rx.owner? := by
    obtain ⟨_, _, heq, _⟩ := resumeFlow_eq c
    rw [heq]
  cases hab with
  | chore hab => exact hsame (by rw [hab.quiet.rx])
  | create => exact hsame rfl
  | register =>
    refine hsame ?_
    rw [register_eq]
    dsimp only
    split <;> exact congrArg RxState.owner? (rx_announce ..)
  | read h =>
    refine hsame ?_
    rcases a.receive_cases h with ⟨_, heq⟩ | ⟨_, _, _, _, _, _, heq⟩
    · rw [heq]
    · rw [heq]
      rfl
  | resume => exact hsame (hresume a)
  | lease => exact hsame (hresume _)
  | pause =>
    refine hsame ?_
    obtain ⟨_, _, _, heq, _⟩ := pauseFlow_eq a
    rw [heq]
  | settle =>
    rw [rx_handOver] at hj
    cases hj
  | ask _ hpacket =>
    refine hsame ?_
    rw [ask_eq a _ hpacket]
    dsimp only
    split <;> rfl
  | answer hout _ hab => exact hab.owner ha hout hj

theorem Step.owner (hab : Step D site? a b) (ha : a.Steady) {j : Incarnation}
    (hj : b.rx.owner? = some j) : a.rx.Names j.handle := by
  cases hab with
  | move hab => exact hab.owner ha hj
  | @close h _ _ =>
    refine ⟨j, .inl ?_, rfl⟩
    cases hr : a.table.get? h with
    | none => rwa [close_none a h hr] at hj
    | some r =>
      rw [rx_close a hr] at hj
      exact RxState.owner_of_leave hj
  | call _ hcall => exact ⟨j, .inl (hcall.quiet.rx ▸ hj), rfl⟩

theorem Step.kempt (hab : Step D site? a b) (ha : a.Steady) (h : a.Kempt D) : b.Kempt D where
  regular k r hr := by
    rcases hab.slot ha k with ⟨-, hb⟩ | ⟨-, hb, hfresh⟩ | ⟨-, -, hb⟩ | ⟨ha, hb, -, hrevision⟩
    · cases hr.symm.trans hb
    · cases hr.symm.trans hb
      exact hfresh.regular h
    · cases hr.symm.trans hb
    · cases hr.symm.trans hb
      exact hrevision.regular h ha
  given k r rest hr hrest := by
    rcases hab.slot ha k with ⟨-, hb⟩ | ⟨-, hb, hfresh⟩ | ⟨-, -, hb⟩ | ⟨ha, hb, -, hrevision⟩
    · cases hr.symm.trans hb
    · cases hr.symm.trans hb
      cases hfresh <;> cases hrest
    · cases hr.symm.trans hb
    · cases hr.symm.trans hb
      rcases hrevision.given ha hrest with hpending | ⟨chain, hleft, hpending | ⟨-, -, hd⟩⟩
      · exact h.given k _ rest ha hpending
      · obtain ⟨whole, hd, hleft'⟩ := h.given k _ chain ha hpending
        exact ⟨whole, hd, hleft.trans hleft'⟩
      · exact ⟨chain, hd, hleft⟩
  named k r hnamed hr hkind := by
    have hb := hab.steady ha
    obtain ⟨i, howner | hcursor, rfl⟩ := hnamed
    · have hbefore := hab.owner ha howner
      rcases hab.slot ha i.handle with ⟨-, hb⟩ | ⟨hfree, -, -⟩ | ⟨-, -, hb⟩ | ⟨hr₀, hb, -, hrevision⟩
      · cases hr.symm.trans hb
      · have hopen := ha.isOpen_of_named hbefore
        rw [SocketTable.isOpen, hfree] at hopen
        cases hopen
      · cases hr.symm.trans hb
      · cases hr.symm.trans hb
        exact hrevision.connected (h.named _ _ hbefore hr₀ (hrevision.kind ▸ hkind))
    · have hawaits := (hb.sound.asked i hcursor).awaits
      unfold SocketTable.awaits at hawaits
      rw [hr] at hawaits
      simp only [SocketRecord.awaitingData, hkind, Bool.and_eq_true, beq_iff_eq] at hawaits
      exact hawaits.2

end Adapter

end WifiAdapter
