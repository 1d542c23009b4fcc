import WifiAdapter.Proofs.Runs

/-! What happens to the other sockets.

All sockets share the packet in flight. So what is done for one of them may settle it: its bytes
then go to the socket they belong to, which becomes readable (`Adapter.Handed`). That is all:
otherwise the others keep their records, their generations and what is posted for them, and the
application is not told of them (`Adapter.Aloof`). It is shown for every step that does
not concern a socket, and a packet goes once, so it holds of steps in a row
(`Adapter.Steps.spares`). -/
namespace WifiAdapter

/-- Nothing but a certain socket is concerned. -/
def Deed.For (h : Handle) : Deed → Prop
  | .shut k | .answer k | .complete k | .connect k | .transmit k | .give k _ | .read k => k = h
  | .ask => True
  | .occupy | .drop | .link | .queue | .take => False

/-- Other sockets may be concerned. -/
def Deed.Off (k : Handle) : Deed → Prop
  | .shut h | .answer h | .complete h | .connect h | .transmit h | .give h _ | .read h => h ≠ k
  | .ask => True
  | .occupy | .drop | .link | .queue | .take => False

theorem Deed.For.off {h k : Handle} {d : Deed} (hd : d.For h) (hne : h ≠ k) : d.Off k := by
  cases d with
  | ask => trivial
  | occupy | drop | link | queue | take => exact hd.elim
  | _ => exact fun heq => hne (hd.symm.trans heq)

/-- The application is told that a socket is readable. -/
def Entry.Readies (k : Handle) : Entry → Prop
  | .event (.readable h _) _ => h = k
  | _ => False

namespace Adapter
variable {σ : Type}

/-- A socket is left alone: its slot, what is posted for it, and its bytes in flight. -/
structure Aloof (k : Handle) (a b : Adapter σ) : Prop where
  record : b.table.get? k = a.table.get? k
  generation : b.table.generation k = a.table.generation k
  posted : b.completions.get k = a.completions.get k
  silent : ∃ es, b.bus.journal = a.bus.journal ++ es ∧ ∀ e ∈ es, ¬ e.Readies k
  owned : ∀ i, b.rx.owner? = some i → i.handle = k →
    a.rx.owner? = some i ∧ b.rx.packet? = a.rx.packet?

/-- A socket gets the packet in flight, which has bytes of it, and the application is told once. -/
structure Handed (k : Handle) (a b : Adapter σ) : Prop where
  record : ∃ r packet, a.table.get? k = some r ∧ a.rx.owner? = some (a.table.incarnation k) ∧
    a.rx.packet? = some packet ∧
    b.table.get? k = some { r with inbound := r.inbound ++ [packet] }
  generation : b.table.generation k = a.table.generation k
  posted : b.completions.get k = a.completions.get k
  told : ∃ before after queued,
    b.bus.journal = a.bus.journal ++ before ++ .event (.readable k .data) queued :: after ∧
    ∀ e ∈ before ++ after, ¬ e.Readies k
  gone : ∀ i, b.rx.owner? = some i → i.handle ≠ k

/-- Nothing happens to a socket, but that it may get the packet in flight. -/
def Spares (k : Handle) (a b : Adapter σ) : Prop := Aloof k a b ∨ Handed k a b

section Spares
variable {k h : Handle} {a b c : Adapter σ}

/-! ### One after another -/

theorem Aloof.trans (hab : Aloof k a b) (hbc : Aloof k b c) : Aloof k a c where
  record := hbc.record.trans hab.record
  generation := hbc.generation.trans hab.generation
  posted := hbc.posted.trans hab.posted
  silent := Entry.appended_trans hab.silent hbc.silent
  owned i hi hk := by
    obtain ⟨hb, hpacket⟩ := hbc.owned i hi hk
    obtain ⟨ha, hpacket'⟩ := hab.owned i hb hk
    exact ⟨ha, hpacket.trans hpacket'⟩

theorem Aloof.trans_handed (hab : Aloof k a b) (hbc : Handed k b c) : Handed k a c where
  record := by
    obtain ⟨r, packet, hr, howner, hpacket, hrecord⟩ := hbc.record
    obtain ⟨howner', hpacket'⟩ := hab.owned _ howner rfl
    have hsame : b.table.incarnation k = a.table.incarnation k :=
      congrArg (Incarnation.mk k) hab.generation
    exact ⟨r, packet, hab.record.symm.trans hr, howner'.trans (congrArg some hsame),
      hpacket'.symm.trans hpacket, hrecord⟩
  generation := hbc.generation.trans hab.generation
  posted := hbc.posted.trans hab.posted
  told := by
    obtain ⟨es, hjournal, hes⟩ := hab.silent
    obtain ⟨before, after, queued, hjournal', hothers⟩ := hbc.told
    refine ⟨es ++ before, after, queued, ?_, ?_⟩
    · rw [hjournal', hjournal, List.append_assoc a.bus.journal]
    · rw [List.append_assoc]
      exact List.forall_mem_append.mpr ⟨hes, hothers⟩
  gone := hbc.gone

theorem Handed.trans_aloof (hab : Handed k a b) (hbc : Aloof k b c) : Handed k a c where
  record := by
    obtain ⟨r, packet, hr, howner, hpacket, hrecord⟩ := hab.record
    exact ⟨r, packet, hr, howner, hpacket, hbc.record.trans hrecord⟩
  generation := hbc.generation.trans hab.generation
  posted := hbc.posted.trans hab.posted
  told := by
    obtain ⟨before, after, queued, hjournal, hothers⟩ := hab.told
    obtain ⟨es, hjournal', hes⟩ := hbc.silent
    refine ⟨before, after ++ es, queued, ?_, ?_⟩
    · rw [hjournal', hjournal, List.append_assoc, List.cons_append]
    · rw [← List.append_assoc]
      exact List.forall_mem_append.mpr ⟨hothers, hes⟩
  gone i hi hk := hab.gone i (hbc.owned i hi hk).1 hk

/-- The packet in flight goes once: then it is no longer there. -/
theorem Spares.trans (hab : Spares k a b) (hbc : Spares k b c) : Spares k a c := by
  rcases hab with hab | hab <;> rcases hbc with hbc | hbc
  · exact .inl (hab.trans hbc)
  · exact .inr (hab.trans_handed hbc)
  · exact .inr (hab.trans_aloof hbc)
  · obtain ⟨_, _, _, howner, -⟩ := hbc.record
    exact absurd rfl (hab.gone _ howner)

/-! ### Parts of a step -/

/-- The slot and what is posted for it are as they were, and receiving too. -/
theorem Aloof.of_slot (hrecord : b.table.get? k = a.table.get? k)
    (hgeneration : b.table.generation k = a.table.generation k)
    (hposted : b.completions.get k = a.completions.get k) (hrx : b.rx = a.rx) (es : List Entry)
    (hjournal : b.bus.journal = a.bus.journal ++ es) (hes : ∀ e ∈ es, ¬ e.Readies k) :
    Aloof k a b where
  record := hrecord
  generation := hgeneration
  posted := hposted
  silent := ⟨es, hjournal, hes⟩
  owned i hi _ := by rw [← hrx]; exact ⟨hi, rfl⟩

theorem Aloof.of_table (htable : b.table = a.table) (hcompletions : b.completions = a.completions)
    (hrx : b.rx = a.rx) (es : List Entry) (hjournal : b.bus.journal = a.bus.journal ++ es)
    (hes : ∀ e ∈ es, ¬ e.Readies k) : Aloof k a b :=
  .of_slot (by rw [htable]) (by rw [htable]) (by rw [hcompletions]) hrx es hjournal hes

/-- A change of parts that have nothing to do with sockets. -/
theorem Aloof.of_parts (htable : b.table = a.table) (hcompletions : b.completions = a.completions)
    (hrx : b.rx = a.rx) (hjournal : b.bus.journal = a.bus.journal) : Aloof k a b :=
  .of_table htable hcompletions hrx [] (by rw [hjournal, List.append_nil]) nofun

theorem aloof_enter (a : Adapter σ) {e : Entry} (he : ¬ e.Readies k) : Aloof k a (a.enter e) :=
  .of_table rfl rfl rfl [e] rfl (List.forall_mem_singleton.mpr he)

theorem aloof_announce (a : Adapter σ) {e : Event} (he : ∀ told, ¬ (Entry.event e told).Readies k) :
    Aloof k a (a.announce e) :=
  .of_table (table_announce ..) (completions_announce ..) (rx_announce ..) _ (journal_announce ..)
    (List.forall_mem_singleton.mpr (he _))

theorem aloof_modify (a : Adapter σ) (hne : h ≠ k) (f : SocketRecord → SocketRecord) :
    Aloof k a (a.modify h f) :=
  .of_slot (SocketTable.get?_modify_of_ne hne) (SocketTable.generation_modify ..) rfl
    rfl [] (List.append_nil _).symm nofun

/-- Receiving changes, but bytes in flight for the socket stay as they are. -/
theorem aloof_onRx (a : Adapter σ) {f : RxState → RxState}
    (howned : ∀ i, (f a.rx).owner? = some i → i.handle = k →
      a.rx.owner? = some i ∧ (f a.rx).packet? = a.rx.packet?) : Aloof k a (a.onRx f) where
  record := rfl
  generation := rfl
  posted := rfl
  silent := ⟨[], (List.append_nil _).symm, nofun⟩
  owned := howned

theorem aloof_disarm (a : Adapter σ) (hne : h ≠ k) : Aloof k a (a.disarm h) :=
  .of_slot rfl rfl (Slots.get_set_of_ne _ _ hne) rfl [] (List.append_nil _).symm nofun

theorem aloof_wake (a : Adapter σ) (hne : h ≠ k) (status : Status) :
    Aloof k a (a.wake h status) := by
  rw [wake_eq]
  exact .of_slot rfl rfl (Slots.get_ite_set_of_ne _ _ _ hne) rfl [] (List.append_nil _).symm nofun

theorem aloof_occupied (a : Adapter σ) (hne : h ≠ k) (r : SocketRecord) :
    Aloof k a (a.occupied h r) :=
  .of_slot ((SocketTable.get?_occupy ..).trans (if_neg hne))
    ((SocketTable.generation_occupy ..).trans (if_neg hne)) rfl rfl [_] rfl
    (List.forall_mem_singleton.mpr id)

theorem aloof_release (a : Adapter σ) (hne : h ≠ k) : Aloof k a (a.release h).2 :=
  .of_slot ((SocketTable.get?_release ..).trans (if_neg hne)) (SocketTable.generation_release ..)
    rfl rfl [] (List.append_nil _).symm nofun

theorem aloof_handOver (a : Adapter σ) (hne : h ≠ k) (packet : Packet) :
    Aloof k a (a.handOver h packet) := by
  refine (aloof_modify a hne fun r => { r with inbound := r.inbound ++ [packet] }).trans ?_
  refine Aloof.trans ?_ (aloof_announce _ (e := .readable h .data) fun _ => hne)
  exact .of_parts rfl rfl rfl rfl

theorem aloof_endStream (a : Adapter σ) (hne : h ≠ k) (hopen : a.table.isOpen h = true)
    (status : Status) (read : ReadStatus) : Aloof k a (a.endStream h status read) := by
  have hdropped : Aloof k a (a.onRx .dropPartial) := aloof_onRx a nofun
  rw [endStream_eq a hopen]
  exact ((hdropped.trans (aloof_modify _ hne _)).trans (aloof_wake _ hne status)).trans
    (aloof_announce _ fun _ => hne)

theorem aloof_complete (a : Adapter σ) (hne : h ≠ k) (purpose : Purpose) (status : Status)
    (starts : Bool) : Aloof k a (a.complete h purpose status starts) :=
  ((aloof_modify a hne _).trans (aloof_enter _ id)).trans (aloof_wake _ hne status)

theorem aloof_receive (a : Adapter σ) (hne : h ≠ k) : Aloof k a (a.receive h).2 := by
  rcases a.receive_cases h with ⟨_, heq⟩ | ⟨_, packet, rest, _, _, _, heq⟩
  · rw [heq]
    exact .of_parts rfl rfl rfl rfl
  · rw [heq]
    exact (aloof_modify a hne fun r => { r with inbound := rest }).trans (aloof_enter _ id)

/-- The packet in flight goes to the socket its bytes belong to. -/
theorem handed_settle (ha : a.Steady) {i : Incarnation} {packet : Packet}
    (howner : a.rx.owner? = some i) (hpacket : a.rx.packet? = some packet) :
    Handed i.handle a ((a.onRx .part).handOver i.handle packet) where
  record := by
    have hcurrent := (ha.sound.owned i howner).current
    obtain ⟨r, hr⟩ := Option.isSome_iff_exists.mp (SocketTable.isCurrent_iff.mp hcurrent).1
    refine ⟨r, packet, hr, ?_, hpacket, ?_⟩
    · rw [SocketTable.incarnation_of_current hcurrent]
      exact howner
    · rw [table_handOver]
      exact SocketTable.get?_modify_self hr
  generation := by
    rw [table_handOver]
    exact SocketTable.generation_modify ..
  posted := by
    unfold handOver
    rw [completions_announce]
    rfl
  told := by
    obtain ⟨queued, hjournal⟩ := journal_handOver (a.onRx .part) i.handle packet
    exact ⟨[], [], queued, by rw [hjournal, List.append_nil]; rfl, nofun⟩
  gone j hj := by
    rw [rx_handOver] at hj
    cases hj

section Commands
variable [Chip σ]

theorem aloof_order (a : Adapter σ) (c : Command) : Aloof k a (a.order c) :=
  .of_table rfl rfl rfl [_] rfl (List.forall_mem_singleton.mpr id)

omit [Chip σ] in
/-- Whatever the chip is told about the flow. -/
theorem aloof_flow {es : List Entry} {paused : Bool} (htable : b.table = a.table)
    (hcompletions : b.completions = a.completions) (howner : b.rx.owner? = a.rx.owner?)
    (hpacket : b.rx.packet? = a.rx.packet?) (hjournal : b.bus.journal = a.bus.journal ++ es)
    (hes : ∀ e ∈ es, ∃ answer, e = .command (.flow paused) answer) : Aloof k a b where
  record := by rw [htable]
  generation := by rw [htable]
  posted := by rw [hcompletions]
  silent := by
    refine ⟨es, hjournal, fun e he => ?_⟩
    obtain ⟨answer, rfl⟩ := hes e he
    exact id
  owned i hi _ := ⟨howner.symm.trans hi, hpacket⟩

theorem aloof_resumeFlow (a : Adapter σ) : Aloof k a a.resumeFlow := by
  obtain ⟨bus, es, heq, hjournal, hes⟩ := resumeFlow_eq a
  rw [heq]
  exact aloof_flow rfl rfl rfl rfl hjournal hes

theorem aloof_pauseFlow (a : Adapter σ) : Aloof k a a.pauseFlow := by
  obtain ⟨bus, stats, es, heq, hjournal, hes⟩ := pauseFlow_eq a
  rw [heq]
  exact aloof_flow rfl rfl rfl rfl hjournal hes

theorem aloof_ask (a : Adapter σ) (h : Handle) (hpacket : a.rx.packet?.isSome = true) :
    Aloof k a (a.ask h).2 := by
  have hordered : Aloof k a (a.order (.receive h a.rx.room a.config.recvTimeout)) :=
    aloof_order a _
  rw [ask_eq a h hpacket]
  dsimp only
  split
  · have houtstanding (b : Adapter σ) (i : Incarnation) :
        Aloof k b (b.onRx fun x => { x with cursor? := some i, polling := true }) :=
      aloof_onRx b fun _ hi _ => ⟨hi, rfl⟩
    exact hordered.trans (houtstanding _ _)
  · exact hordered

theorem aloof_close (a : Adapter σ) (hne : h ≠ k) : Aloof k a (a.close h) := by
  cases hr : a.table.get? h with
  | none =>
    rw [close_none a h hr]
    exact .of_parts rfl rfl rfl rfl
  | some r =>
    obtain ⟨answer, hjournal⟩ := journal_close a hr
    refine ⟨?_, ?_, ?_, ⟨_, hjournal, List.forall_mem_singleton.mpr id⟩, fun i hi hk => ?_⟩
    · rw [table_close a hr, SocketTable.get?_release, if_neg hne]
    · rw [table_close a hr, SocketTable.generation_release]
    · rw [completions_close a hr, Slots.get_ite_set_of_ne _ _ _ hne]
    · -- What the socket that is closed had in flight is forgotten, and nothing else.
      rw [rx_close a hr] at hi ⊢
      have howner := RxState.owner_of_leave hi
      refine ⟨howner, ?_⟩
      rw [RxState.packet_leave, if_neg]
      simpa [howner, hk] using Ne.symm hne

end Commands

/-! ### Steps -/

section Steps
variable [Chip σ] {D : Deed → Prop} {site? : Option Handle} (hD : ∀ d, D d → d.Off k)
include hD

theorem Chore.aloof (hab : Chore D a b) : Aloof k a b := by
  cases hab with
  | chip | discard | link | scratch | queues => exact .of_parts rfl rfl rfl rfl
  | opening _ hd | turnAway _ hd | linkEvent _ hd | take _ hd | giveBack _ hd => exact (hD _ hd).elim
  | command | transmit => exact aloof_order a _
  | note => exact aloof_enter a id
  | connect _ _ _ hd => exact (aloof_modify a (hD _ hd) _).trans (aloof_order _ _)
  | connectDone _ _ hd | aim _ _ _ hd | pending _ _ hd => exact aloof_modify a (hD _ hd) _
  | complete _ _ _ hd => exact aloof_complete a (hD _ hd) _ _ _
  | writable => exact aloof_announce a fun _ => id

omit [Chip σ] in
theorem Answered.aloof {i : Incarnation} {d : Delivery} (hab : a.Answered i d b) (ha : a.Steady)
    (hout : a.rx.outstanding? = some i) (hi : D (.answer i.handle)) : Aloof k a b := by
  have hother : i.handle ≠ k := hD _ hi
  have hnoted : Aloof k a (a.noted (.socket i.handle (.received d))) := aloof_enter a id
  refine hnoted.trans ?_
  cases hab with
  | noData => exact aloof_onRx _ fun j hj _ => ⟨hj, rfl⟩
  | keep =>
    refine aloof_onRx _ fun j hj hk => ?_
    cases hj
    exact absurd hk hother
  | finish =>
    have hparted : Aloof k (a.noted (.socket i.handle (.received d)))
        ((a.noted (.socket i.handle (.received d))).onRx (·.part.withdraw)) := aloof_onRx _ nofun
    exact hparted.trans (aloof_handOver _ hother _)
  | @ended status read hd hread =>
    have hopen : ((a.noted (.socket i.handle (.received d))).onRx .withdraw).table.isOpen i.handle =
        true := ha.isOpen hout
    have hwithdrawn : Aloof k (a.noted (.socket i.handle (.received d)))
        ((a.noted (.socket i.handle (.received d))).onRx .withdraw) :=
      aloof_onRx _ fun j hj _ => ⟨hj, rfl⟩
    exact hwithdrawn.trans (aloof_endStream _ hother hopen status read)

theorem Move.spares (hab : Move D a b) (ha : a.Steady) : Spares k a b := by
  cases hab with
  | chore hab => exact .inl (hab.aloof hD)
  | create _ _ hd | register _ _ _ _ _ hd => exact (hD _ hd).elim
  | read _ hd => exact .inl (aloof_receive a (hD _ hd))
  | resume => exact .inl (aloof_resumeFlow a)
  | @lease packet pool hnone hpool =>
    -- Without a packet nobody has bytes in flight.
    have hleased : Aloof k a (({ a with pool } : Adapter σ).onRx fun x =>
        { x with packet? := some packet }) := by
      refine Aloof.trans (b := { a with pool }) (.of_parts rfl rfl rfl rfl)
        (aloof_onRx _ fun i hi _ => ?_)
      obtain ⟨_, hpacket, -⟩ := (ha.sound.owned i hi).packet
      cases hnone.symm.trans hpacket
    exact .inl (hleased.trans (aloof_resumeFlow _))
  | pause => exact .inl (aloof_pauseFlow a)
  | @settle i packet hcursor howner hpacket =>
    by_cases hi : i.handle = k
    · subst hi
      exact .inr (handed_settle ha howner hpacket)
    · have hparted : Aloof k a (a.onRx .part) := aloof_onRx a nofun
      exact .inl (hparted.trans (aloof_handOver _ hi packet))
  | ask _ hpacket => exact .inl (aloof_ask a _ hpacket)
  | answer hout hd hab => exact .inl (hab.aloof hD ha hout hd)

theorem Step.spares (hab : Step D site? a b) (ha : a.Steady) (hsite : site? ≠ some k) :
    Spares k a b := by
  cases hab with
  | move hab => exact hab.spares hD ha
  | close hk => exact .inl (aloof_close a fun heq => hsite (hk.trans (congrArg some heq)))
  | call hk hcall =>
    have hother := fun heq => hsite (hk.trans (congrArg some heq))
    cases hcall with
    | request | revert | mark => exact .inl (aloof_modify a hother _)
    | disarm => exact .inl (aloof_disarm a hother)
    | park | take => exact .inl (aloof_enter a id)

/-- Steps that do not concern a socket spare it. -/
theorem Steps.spares (hab : Steps D site? a b) (ha : a.Steady) (hsite : site? ≠ some k) :
    Spares k a b := by
  induction hab with
  | refl => exact .inl (.of_parts rfl rfl rfl rfl)
  | tail hsteps hlast ih => exact ih.trans (hlast.spares hD (Steps.steady hsteps ha) hsite)

end Steps

end Spares

end Adapter

end WifiAdapter
