import WifiAdapter.Proofs.Regular
import WifiAdapter.Proofs.Runs

/-! Whom a connection is with.

The journal names the other end of a connection: the chip was asked to connect to it, or introduced
it with the connection that was then taken into use (`Bus.partner?`). As long as a stream connects
or is connected, its record names the same end (`Adapter.Acquainted`): no step changes one without
the other (`Step.acquainted`), so this holds after every history (`Session.acquainted_run`). -/
namespace WifiAdapter

namespace Entry

/-- The other end of a connection that a notification introduces. -/
def introduces? (h : Handle) : Entry → Option Endpoint
  | .handled (.socket _ (.accepted (.accepted k) native)) _ =>
    if k = h then some native.endpoint else none
  | _ => none

/-- The other end of the connection in a slot, from the latest entry back: that of the last
connect, or else the one that was introduced as the slot was taken into use. -/
def partner? (h : Handle) : List Entry → Option Endpoint
  | [] => none
  | .command (.connect k address) _ :: before =>
    if k = h then some address.endpoint else partner? h before
  | .opened i :: before =>
    if i.handle = h then before.head?.bind (introduces? h) else partner? h before
  | _ :: before => partner? h before

/-- Entries that name nobody as the other end of a connection in a slot. -/
def Reserved (h : Handle) : Entry → Prop
  | .command (.connect k _) _ => k ≠ h
  | .opened i => i.handle ≠ h
  | _ => True

variable {h : Handle}

theorem partner?_cons {e : Entry} (he : e.Reserved h) (before : List Entry) :
    partner? h (e :: before) = partner? h before := by
  cases e with
  | command c answer =>
    cases c with
    | connect => exact if_neg he
    | _ => rfl
  | opened i => exact if_neg he
  | _ => rfl

theorem partner?_append {es : List Entry} (hes : ∀ e ∈ es, e.Reserved h) (before : List Entry) :
    partner? h (es ++ before) = partner? h before := by
  induction es with
  | nil => rfl
  | cons e rest ih =>
    obtain ⟨he, hrest⟩ := List.forall_mem_cons.mp hes
    rw [List.cons_append, partner?_cons he, ih hrest]

end Entry

/-- The other end of the connection in a slot, as the journal names it. -/
def Bus.partner? {σ : Type} (b : Bus σ) (h : Handle) : Option Endpoint :=
  Entry.partner? h b.journal.reverse

namespace Bus
variable {σ : Type} {a b : Bus σ} {h : Handle}

theorem partner?_of_reserved {es : List Entry} (hjournal : b.journal = a.journal ++ es)
    (hes : ∀ e ∈ es, e.Reserved h) : b.partner? h = a.partner? h := by
  unfold partner?
  rw [hjournal, List.reverse_append]
  exact Entry.partner?_append (fun e he => hes e (List.mem_reverse.mp he)) _

theorem partner?_connect {address : NativeAddr} {answer : Answer Unit}
    (hjournal : b.journal = a.journal ++ [.command (.connect h address) answer]) :
    b.partner? h = some address.endpoint := by
  unfold partner?
  rw [hjournal, List.reverse_concat]
  exact if_pos rfl

theorem partner?_opened {i : Incarnation}
    (hjournal : b.journal = a.journal ++ [.opened i]) :
    b.partner? i.handle = a.journal.getLast?.bind (Entry.introduces? i.handle) := by
  unfold partner?
  rw [hjournal, List.reverse_concat, ← List.head?_reverse]
  exact if_pos rfl

end Bus

/-- A stream that connects or is connected. -/
def SocketRecord.Connects (r : SocketRecord) : Prop :=
  r.kind = .stream ∧ (r.phase = .connecting ∨ r.phase = .connected)

/-- What is made of a record connects only if it did before, and then its other end is the same. -/
structure SocketRecord.KeepsPeer (r r' : SocketRecord) : Prop where
  connects : r'.Connects → r.Connects
  peer : r'.Connects → r'.peer? = r.peer?

namespace SocketRecord
variable {r r' r'' : SocketRecord}

theorem KeepsPeer.refl (r : SocketRecord) : r.KeepsPeer r := ⟨id, fun _ => rfl⟩

theorem KeepsPeer.trans (h : r.KeepsPeer r') (h' : r'.KeepsPeer r'') : r.KeepsPeer r'' :=
  ⟨h.connects ∘ h'.connects, fun hc => (h'.peer hc).trans (h.peer (h'.connects hc))⟩

theorem KeepsPeer.of_same (hkind : r'.kind = r.kind) (hphase : r'.phase = r.phase)
    (hpeer : r'.peer? = r.peer?) : r.KeepsPeer r' := by
  refine ⟨fun h => ?_, fun _ => hpeer⟩
  rwa [Connects, hkind, hphase] at h

/-- Beginning or ending an operation connects to nobody else. -/
theorem keepsPeer_apply (r : SocketRecord) {q : Phase.Request} (hq : q.Ordinary) :
    r.KeepsPeer (r.apply q) :=
  ⟨fun ⟨hkind, hphase⟩ => ⟨hkind, Phase.connects_of_apply hq hphase⟩, fun _ => rfl⟩

theorem keepsPeer_of_datagram (hkind : r'.kind = .datagram) : r.KeepsPeer r' :=
  ⟨fun h => absurd (hkind.symm.trans h.1) nofun, fun h => absurd (hkind.symm.trans h.1) nofun⟩

end SocketRecord

namespace Adapter
variable {σ : Type} {a b c : Adapter σ} {h k : Handle}

/-- The record of a stream that connects or is connected names its other end. -/
def Acquainted (a : Adapter σ) (h : Handle) : Prop :=
  ∀ r, a.table.get? h = some r → r.Connects → r.peer? = a.bus.partner? h

theorem acquainted_new (chip : σ) (packets : Nat) (config : Config) (h : Handle) :
    (new chip packets config).Acquainted h := by
  intro r hr
  simp [new, SocketTable.empty, SocketTable.get?, Slot.free] at hr

/-! ### What says nothing of the other end of a socket -/

/-- Neither the record of a slot nor the journal says anything new of the other end. -/
structure Discreet (h : Handle) (a b : Adapter σ) : Prop where
  record : ∀ r', b.table.get? h = some r' → ∃ r, a.table.get? h = some r ∧ r.KeepsPeer r'
  journal : ∃ es, b.bus.journal = a.bus.journal ++ es ∧ ∀ e ∈ es, e.Reserved h

theorem Discreet.acquainted (hab : Discreet h a b) (ha : a.Acquainted h) : b.Acquainted h := by
  obtain ⟨es, hjournal, hes⟩ := hab.journal
  intro r' hr' hconnects
  obtain ⟨r, hr, hkeeps⟩ := hab.record r' hr'
  rw [hkeeps.peer hconnects, Bus.partner?_of_reserved hjournal hes]
  exact ha r hr (hkeeps.connects hconnects)

theorem Discreet.trans (hab : Discreet h a b) (hbc : Discreet h b c) : Discreet h a c where
  record r'' hr'' := by
    obtain ⟨r', hr', hkeeps'⟩ := hbc.record r'' hr''
    obtain ⟨r, hr, hkeeps⟩ := hab.record r' hr'
    exact ⟨r, hr, hkeeps.trans hkeeps'⟩
  journal := Entry.appended_trans hab.journal hbc.journal

theorem Discreet.of_table (htable : b.table = a.table) (es : List Entry)
    (hjournal : b.bus.journal = a.bus.journal ++ es) (hes : ∀ e ∈ es, e.Reserved h) :
    Discreet h a b :=
  ⟨fun r' hr' => ⟨r', htable ▸ hr', .refl r'⟩, es, hjournal, hes⟩

theorem Discreet.of_parts (htable : b.table = a.table) (hjournal : b.bus.journal = a.bus.journal) :
    Discreet h a b :=
  .of_table htable [] (hjournal.trans (List.append_nil _).symm) nofun

theorem Discreet.of_modify {f : SocketRecord → SocketRecord} (htable : b.table = a.table.modify k f)
    (hf : ∀ r, a.table.get? k = some r → r.KeepsPeer (f r)) (es : List Entry)
    (hjournal : b.bus.journal = a.bus.journal ++ es) (hes : ∀ e ∈ es, e.Reserved h) :
    Discreet h a b := by
  refine ⟨fun r' hr' => ?_, es, hjournal, hes⟩
  rw [htable, SocketTable.get?_modify] at hr'
  split at hr'
  · next hk =>
    subst hk
    obtain ⟨r, hr, rfl⟩ := Option.map_eq_some_iff.mp hr'
    exact ⟨r, hr, hf r hr⟩
  · exact ⟨r', hr', .refl r'⟩

theorem discreet_modify (a : Adapter σ) (k : Handle) {f : SocketRecord → SocketRecord}
    (hf : ∀ r, a.table.get? k = some r → r.KeepsPeer (f r)) : Discreet h a (a.modify k f) :=
  .of_modify rfl hf [] (List.append_nil _).symm nofun

theorem discreet_enter (a : Adapter σ) {e : Entry} (he : e.Reserved h) : Discreet h a (a.enter e) :=
  .of_table rfl [e] rfl (List.forall_mem_singleton.mpr he)

theorem discreet_announce (a : Adapter σ) (e : Event) : Discreet h a (a.announce e) :=
  .of_table (table_announce a e) _ (journal_announce a e) (List.forall_mem_singleton.mpr trivial)

theorem discreet_occupied (a : Adapter σ) (hk : k ≠ h) (r : SocketRecord) :
    Discreet h a (a.occupied k r) where
  record r' hr' := ⟨r', ((a.table.get?_occupy k h r).trans (if_neg hk)).symm.trans hr', .refl r'⟩
  journal := ⟨[.opened _], rfl, List.forall_mem_singleton.mpr hk⟩

/-- Nothing is said of the other end of a socket that is closed. -/
theorem Discreet.of_release {pool : Pool} (htable : b.table = (a.table.release pool k).2.1)
    (es : List Entry) (hjournal : b.bus.journal = a.bus.journal ++ es)
    (hes : ∀ e ∈ es, e.Reserved h) : Discreet h a b := by
  refine ⟨fun r' hr' => ⟨r', ?_, .refl r'⟩, es, hjournal, hes⟩
  rw [htable, SocketTable.get?_release] at hr'
  split at hr'
  · cases hr'
  · exact hr'

theorem Answered.discreet {i : Incarnation} {d : Delivery} (hab : a.Answered i d b)
    (ha : a.Steady) (hout : a.rx.outstanding? = some i) : Discreet h a b := by
  have hnoted : Discreet h a (a.noted (.socket i.handle (.received d))) := discreet_enter a trivial
  cases hab with
  | noData | keep => exact hnoted.trans (.of_parts rfl rfl)
  | finish =>
    obtain ⟨told, hjournal⟩ := journal_handOver
      ((a.noted (.socket i.handle (.received d))).onRx (·.part.withdraw)) i.handle _
    refine hnoted.trans (.of_modify (table_handOver ..) (fun r _ => .of_same rfl rfl rfl) _
      hjournal ?_)
    exact List.forall_mem_singleton.mpr trivial
  | ended =>
    have hopen : ((a.noted (.socket i.handle (.received d))).onRx .withdraw).table.isOpen i.handle =
        true := ha.isOpen hout
    obtain ⟨told, hjournal⟩ := journal_endStream _ hopen _ _
    refine hnoted.trans (.of_modify (table_endStream _ hopen ..) (fun r _ => .of_same rfl rfl rfl) _
      hjournal ?_)
    exact List.forall_mem_singleton.mpr trivial

theorem CallStep.discreet (hab : CallStep k a b) : Discreet h a b := by
  cases hab with
  | request _ _ purpose =>
    exact discreet_modify a k fun r _ => r.keepsPeer_apply purpose.ordinary_request
  | revert _ _ purpose =>
    exact discreet_modify a k fun r _ => r.keepsPeer_apply (purpose.ordinary_done false)
  | mark => exact discreet_modify a k fun r _ => .of_same rfl rfl rfl
  | disarm => exact .of_parts rfl rfl
  | park | take => exact discreet_enter a trivial

variable [Chip σ]

theorem discreet_order (a : Adapter σ) {c : Command}
    (hc : ∀ answer, (Entry.command c answer).Reserved h) : Discreet h a (a.order c) :=
  .of_table rfl [.command c _] rfl (List.forall_mem_singleton.mpr (hc _))

theorem discreet_opening (a : Adapter σ) (kind : SocketKind) :
    Discreet h a { a with bus := (a.bus.openSocket kind).2 } :=
  .of_table rfl [.opening kind _] rfl (List.forall_mem_singleton.mpr trivial)

omit [Chip σ] in
/-- Whatever the chip is told about the flow. -/
theorem Discreet.of_flow {on : Bool} {es : List Entry} (htable : b.table = a.table)
    (hjournal : b.bus.journal = a.bus.journal ++ es)
    (hes : ∀ e ∈ es, ∃ answer, e = .command (.flow on) answer) : Discreet h a b := by
  refine .of_table htable es hjournal fun e he => ?_
  obtain ⟨answer, rfl⟩ := hes e he
  trivial

theorem discreet_resumeFlow (a : Adapter σ) : Discreet h a a.resumeFlow := by
  obtain ⟨bus, es, heq, hjournal, hes⟩ := resumeFlow_eq a
  rw [heq]
  exact .of_flow rfl hjournal hes

theorem discreet_pauseFlow (a : Adapter σ) : Discreet h a a.pauseFlow := by
  obtain ⟨bus, stats, es, heq, hjournal, hes⟩ := pauseFlow_eq a
  rw [heq]
  exact .of_flow rfl hjournal hes

/-! ### Every step -/

section Steps
variable {D : Deed → Prop} {site? : Option Handle}

/-- A connect on the socket names its other end, and no other chore does. -/
theorem Chore.discreet (hab : Chore D a b) (h : Handle) :
    Discreet h a b ∨ ∃ peer, b = (a.modify h fun r => (r.apply .connect).aimedAt peer).order
      (.connect h (.ofEndpoint peer)) := by
  cases hab with
  | connect k peer =>
    by_cases hk : k = h
    · subst hk
      exact .inr ⟨peer, rfl⟩
    · refine .inl (.trans ?_ (discreet_order _ fun _ => hk))
      refine ⟨fun r' hr' => ⟨r', ?_, .refl r'⟩, [], (List.append_nil _).symm, nofun⟩
      exact (SocketTable.get?_modify_of_ne hk).symm.trans hr'
  | chip | discard | link | scratch | queues | take | giveBack => exact .inl (.of_parts rfl rfl)
  | opening kind => exact .inl (discreet_opening a kind)
  | @command c hc =>
    refine .inl (discreet_order a fun answer => ?_)
    cases c with
    | connect => exact hc.elim
    | _ => trivial
  | turnAway | transmit => exact .inl (discreet_order a fun _ => trivial)
  | note => exact .inl (discreet_enter a (e := .handled _ _) trivial)
  | connectDone k ok =>
    refine .inl (discreet_modify a k fun r _ => ?_)
    exact r.keepsPeer_apply (q := .connectDone ok) ⟨nofun, nofun, nofun⟩
  | aim k peer hdatagram =>
    refine .inl (discreet_modify a k fun r hr => SocketRecord.keepsPeer_of_datagram ?_)
    rw [SocketTable.kind?, hr] at hdatagram
    exact Option.some.inj hdatagram
  | pending k => exact .inl (discreet_modify a k fun r _ => .of_same rfl rfl rfl)
  | @complete k r purpose status hr hp starts =>
    refine .inl (.of_modify (table_complete ..) (fun r _ => ?_) _ (journal_complete ..)
      (List.forall_mem_singleton.mpr trivial))
    have hended := r.keepsPeer_apply (purpose.ordinary_done status.isSuccess)
    cases starts with
    | false => exact hended
    | true => exact hended.trans (.of_same rfl rfl rfl)
  | writable | linkEvent => exact .inl (discreet_announce a _)

/-- A connect names the other end to the chip as the record has it. -/
theorem acquainted_connect (a : Adapter σ) (h : Handle) (peer : Endpoint) :
    ((a.modify h fun r => (r.apply .connect).aimedAt peer).order
      (.connect h (.ofEndpoint peer))).Acquainted h := by
  intro r' hr' _
  change (a.table.modify h _).get? h = some r' at hr'
  rw [SocketTable.get?_modify, if_pos rfl] at hr'
  obtain ⟨r, -, rfl⟩ := Option.map_eq_some_iff.mp hr'
  have hnamed : ((a.modify h fun r => (r.apply .connect).aimedAt peer).order
      (.connect h (.ofEndpoint peer))).bus.partner? h =
        some (NativeAddr.ofEndpoint peer).endpoint :=
    Bus.partner?_connect (a := a.bus) rfl
  rw [hnamed, NativeAddr.endpoint_ofEndpoint]
  rfl

omit [Chip σ] in
/-- A connection that is taken in was introduced with its other end. -/
theorem acquainted_register {listener child : Handle} {peer : Endpoint}
    (hpeer : a.Introduced listener child peer) (kind : SocketKind) :
    (a.occupied child (.accepted kind peer)).Acquainted child := by
  obtain ⟨native, expecting?, hlast, rfl⟩ := hpeer
  intro r' hr' _
  have hget := (a.table.get?_occupy child child (.accepted kind native.endpoint)).trans (if_pos rfl)
  cases hget.symm.trans hr'
  have hopened : (a.occupied child (.accepted kind native.endpoint)).bus.partner? child =
      a.bus.journal.getLast?.bind (Entry.introduces? child) :=
    Bus.partner?_opened (a := a.bus) (i := (a.table.occupy child _).incarnation child) rfl
  rw [hopened, hlast]
  exact (if_pos rfl).symm

theorem Move.acquainted (hab : Move D a b) (ha : a.Steady) (hpeer : a.Acquainted h) :
    b.Acquainted h := by
  cases hab with
  | chore hab =>
    rcases hab.discreet h with hdiscreet | ⟨peer, rfl⟩
    · exact hdiscreet.acquainted hpeer
    · exact acquainted_connect a h peer
  | @create kind k =>
    by_cases hk : k = h
    · subst hk
      intro r hr hconnects
      have hget := (a.table.get?_occupy k k (.new kind)).trans (if_pos rfl)
      cases hget.symm.trans hr
      rcases hconnects.2 with hphase | hphase <;> cases hphase
    · exact ((discreet_opening a kind).trans (discreet_occupied _ hk _)).acquainted hpeer
  | @register listener child r hr hlistens peer hintroduced =>
    have hopened : (a.occupied child (.accepted r.kind peer)).Acquainted h := by
      by_cases hk : child = h
      · subst hk
        exact acquainted_register hintroduced r.kind
      · exact (discreet_occupied a hk _).acquainted hpeer
    have htold := (discreet_announce _ (.newConnection listener child)).acquainted hopened
    rw [register_eq]
    dsimp only
    split
    · exact htold
    · refine Discreet.acquainted (.trans ?_ (discreet_order (c := .close child) _ ?_)) htold
      · exact .of_release (table_release ..) [] (List.append_nil _).symm nofun
      · exact fun _ => trivial
  | read k =>
    rcases a.receive_cases k with ⟨_, heq⟩ | ⟨r, packet, rest, _, hr, hinbound, heq⟩
    · rw [heq]
      exact hpeer
    · rw [heq]
      refine (Discreet.trans ?_ (discreet_enter (e := .read _ packet) _ trivial)).acquainted hpeer
      exact discreet_modify a k fun r _ => .of_same rfl rfl rfl
  | resume => exact (discreet_resumeFlow a).acquainted hpeer
  | lease => exact (Discreet.trans (.of_parts rfl rfl) (discreet_resumeFlow _)).acquainted hpeer
  | pause => exact (discreet_pauseFlow a).acquainted hpeer
  | @settle i packet =>
    obtain ⟨told, hjournal⟩ := journal_handOver (a.onRx .part) i.handle packet
    refine (Discreet.of_modify (table_handOver ..) (fun r _ => .of_same rfl rfl rfl) _ hjournal
      ?_).acquainted hpeer
    exact List.forall_mem_singleton.mpr trivial
  | @ask k hcursor hpacket =>
    have hasked : Discreet h a (a.order (.receive k a.rx.room a.config.recvTimeout)) :=
      discreet_order a fun _ => trivial
    rw [ask_eq a k hpacket]
    dsimp only
    split
    · exact (hasked.trans (.of_parts rfl rfl)).acquainted hpeer
    · exact hasked.acquainted hpeer
  | answer hout _ hab => exact (hab.discreet ha hout).acquainted hpeer

theorem Step.acquainted (hab : Step D site? a b) (ha : a.Steady) (hpeer : a.Acquainted h) :
    b.Acquainted h := by
  cases hab with
  | move hab => exact hab.acquainted ha hpeer
  | @close k =>
    cases hr : a.table.get? k with
    | none =>
      rw [close_none a k hr]
      exact hpeer
    | some r =>
      obtain ⟨answer, hjournal⟩ := journal_close a hr
      exact (Discreet.of_release (table_close a hr) _ hjournal
        (List.forall_mem_singleton.mpr trivial)).acquainted hpeer
  | call _ hcall => exact hcall.discreet.acquainted hpeer

end Steps

end Adapter

/-- After every history the record of every stream that connects or is connected names its other
end as the journal does. -/
theorem Session.acquainted_run {σ : Type} [Chip σ] (chip : σ) (packets : Nat) (config : Config)
    (actions : List (Action σ)) (h : Handle) :
    ((new chip packets config).run actions).adapter.Acquainted h :=
  (invariant_run (fun _ _ _ hs ha hab => hab.acquainted hs ha)
    (Adapter.steady_new chip packets config)
    (Adapter.acquainted_new chip packets config h) actions).1

end WifiAdapter
