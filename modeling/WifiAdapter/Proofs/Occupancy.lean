import WifiAdapter.Proofs.Courses

/-! What steps do to a slot.

Every step leaves the occupant of a slot alone as far as its kind and its outgoing data go
(`Adapter.Touch.still`), or it moves outgoing data, or it takes the slot into use
(`Adapter.Step.touches`). Freeing a slot is of the first kind: nothing is said of a slot
without occupant. What becomes of a slot over a run is shown from these three cases. -/
namespace WifiAdapter

/-- The data of a piece of a stream that the chip took. -/
def Entry.shipment (h : Handle) : Entry → Bytes
  | .command (.send k data) (.accepted _) => if k = h then data else []
  | _ => []

/-- No slot is taken into use, and no data goes out. -/
structure Entry.Inert (h : Handle) (e : Entry) : Prop where
  opens : e.opens h = false
  shipment : e.shipment h = []

namespace Entry

theorem inert_event (h : Handle) (event : Event) (told : Bool) :
    (Entry.event event told).Inert h := ⟨rfl, rfl⟩

theorem inert_handled (h : Handle) (note : Notification) (expecting? : Option Expectation) :
    (Entry.handled note expecting?).Inert h := ⟨rfl, rfl⟩

/-- A command that sends nothing, or sends for another socket. -/
theorem inert_command {h : Handle} {c : Command} (answer : Answer Unit)
    (hc : ∀ k data, c = .send k data → k ≠ h) : (Entry.command c answer).Inert h := by
  refine ⟨rfl, ?_⟩
  unfold Entry.shipment
  split
  · next heq =>
    cases heq
    exact if_neg (hc _ _ rfl)
  · rfl

end Entry

namespace Adapter
variable {σ : Type}

/-- What a step does to a slot. -/
inductive Touch (D : Deed → Prop) (h : Handle) (a b : Adapter σ) : Prop where
  /-- Whoever is in the slot was there, with the same data waiting. -/
  | still (hgeneration : b.table.generation h = a.table.generation h)
      (hrecord : ∀ r', b.table.get? h = some r' → ∃ r, a.table.get? h = some r ∧ r'.kind = r.kind ∧
        r'.pendingTx? = r.pendingTx?)
      (hjournal : ∃ es, b.bus.journal = a.bus.journal ++ es ∧ ∀ e ∈ es, e.Inert h)
  /-- Whoever is in the slot was there, and data goes to the chip or is put aside. -/
  | transmit (hd : D (.transmit h)) (hgeneration : b.table.generation h = a.table.generation h)
      (hrecord : ∀ r', b.table.get? h = some r' → ∃ r, a.table.get? h = some r ∧ r'.kind = r.kind)
      (hjournal : ∃ es, b.bus.journal = a.bus.journal ++ es ∧ ∀ e ∈ es, e.opens h = false)
  /-- The slot is taken into use, with no data waiting. -/
  | opened {r : SocketRecord} (hgeneration : b.table.generation h = a.table.generation h + 1)
      (hrecord : b.table.get? h = some r) (hpending : r.pendingTx? = none)
      (hjournal : ∃ e, b.bus.journal = a.bus.journal ++ [e] ∧ e.opens h = true)

def Touches (D : Deed → Prop) (h : Handle) : Adapter σ → Adapter σ → Prop :=
  Relation.ReflTransGen (Touch D h)

section Touches
variable {D : Deed → Prop} {h k : Handle} {a b c : Adapter σ}

theorem Touches.trans (hab : Touches D h a b) (hbc : Touches D h b c) : Touches D h a c :=
  Relation.ReflTransGen.trans hab hbc

/-- Records change, but neither their kind nor the data that waits. -/
theorem Touch.of_modify {f : SocketRecord → SocketRecord} (es : List Entry)
    (htable : b.table = a.table.modify k f)
    (hf : ∀ r, (f r).kind = r.kind ∧ (f r).pendingTx? = r.pendingTx?)
    (hjournal : b.bus.journal = a.bus.journal ++ es) (hes : ∀ e ∈ es, e.Inert h) :
    Touch D h a b := by
  refine .still (by rw [htable, SocketTable.generation_modify]) (fun r' hr' => ?_)
    ⟨es, hjournal, hes⟩
  rw [htable, SocketTable.get?_modify] at hr'
  split at hr'
  · obtain ⟨r, hr, rfl⟩ := Option.map_eq_some_iff.mp hr'
    exact ⟨r, hr, hf r⟩
  · exact ⟨r', hr', rfl, rfl⟩

theorem Touch.of_table (es : List Entry) (htable : b.table = a.table)
    (hjournal : b.bus.journal = a.bus.journal ++ es) (hes : ∀ e ∈ es, e.Inert h) :
    Touch D h a b :=
  .still (by rw [htable]) (fun r' hr' => ⟨r', htable ▸ hr', rfl, rfl⟩) ⟨es, hjournal, hes⟩

/-- A change of parts that no slot belongs to. -/
theorem Touch.of_parts (htable : b.table = a.table) (hjournal : b.bus.journal = a.bus.journal) :
    Touch D h a b :=
  .of_table [] htable (by rw [hjournal, List.append_nil]) (by simp)

theorem touch_enter (a : Adapter σ) {e : Entry} (he : e.Inert h) : Touch D h a (a.enter e) :=
  .of_table [e] rfl rfl (by simpa using he)

theorem touch_modify (a : Adapter σ) (k : Handle) {f : SocketRecord → SocketRecord}
    (hf : ∀ r, (f r).kind = r.kind ∧ (f r).pendingTx? = r.pendingTx?) :
    Touch D h a (a.modify k f) :=
  .of_modify [] rfl hf (List.append_nil _).symm (by simp)

theorem touch_announce (a : Adapter σ) (e : Event) : Touch D h a (a.announce e) :=
  .of_table _ (table_announce a e) (journal_announce a e) (by simpa using Entry.inert_event h e _)

/-- A slot is freed. -/
theorem touch_release {es : List Entry} (htable : b.table = (a.table.release a.pool k).2.1)
    (hjournal : b.bus.journal = a.bus.journal ++ es) (hes : ∀ e ∈ es, e.Inert h) :
    Touch D h a b := by
  refine .still (by rw [htable, SocketTable.generation_release]) (fun r' hr' => ?_)
    ⟨es, hjournal, hes⟩
  rw [htable, SocketTable.get?_release] at hr'
  split at hr'
  · cases hr'
  · exact ⟨r', hr', rfl, rfl⟩

theorem touch_occupied (a : Adapter σ) (k : Handle) {r : SocketRecord} (hr : r.pendingTx? = none) :
    Touch D h a (a.occupied k r) := by
  have hgeneration := a.table.generation_occupy k h r
  have hget := a.table.get?_occupy k h r
  have hopens (i : Handle) : (Entry.opened ((a.table.occupy k r).incarnation k)).opens i =
      (k == i) := rfl
  by_cases hk : k = h
  · subst hk
    rw [if_pos rfl] at hgeneration hget
    exact .opened hgeneration hget hr ⟨_, rfl, by rw [hopens]; simp⟩
  · rw [if_neg hk] at hgeneration hget
    refine .still hgeneration (fun r' hr' => ⟨r', hget.symm.trans hr', rfl, rfl⟩)
      ⟨_, rfl, by simpa using ⟨by rw [hopens]; simpa using hk, rfl⟩⟩

theorem touch_handOver (a : Adapter σ) (k : Handle) (packet : Packet) :
    Touch D h a (a.handOver k packet) := by
  obtain ⟨told, hjournal⟩ := journal_handOver a k packet
  exact .of_modify _ (table_handOver a k packet) (fun _ => ⟨rfl, rfl⟩) hjournal
    (by simpa using Entry.inert_event h _ told)

theorem touch_receive (a : Adapter σ) (k : Handle) : Touch D h a (a.receive k).2 := by
  rcases a.receive_cases k with ⟨_, heq⟩ | ⟨_, packet, rest, _, _, _, heq⟩
  · rw [heq]
    exact .of_parts rfl rfl
  · rw [heq]
    exact .of_modify [.read _ packet] rfl (fun _ => ⟨rfl, rfl⟩) rfl (by simpa using ⟨rfl, rfl⟩)

theorem touch_complete (a : Adapter σ) (k : Handle) (purpose : Purpose) (status : Status)
    (starts : Bool) : Touch D h a (a.complete k purpose status starts) :=
  .of_modify _ (table_complete a k purpose status starts) (fun _ => by cases starts <;> exact ⟨rfl, rfl⟩)
    (journal_complete a k purpose status starts) (by simpa using ⟨rfl, rfl⟩)

/-- The stream of a socket ends. -/
theorem touch_endStream (a : Adapter σ) (hopen : a.table.isOpen k = true) (status : Status)
    (read : ReadStatus) : Touch D h a (a.endStream k status read) := by
  obtain ⟨told, hjournal⟩ := journal_endStream a hopen status read
  exact .of_modify _ (table_endStream a hopen status read) (fun _ => ⟨rfl, rfl⟩) hjournal
    (by simpa using Entry.inert_event h _ told)

/-- Whatever the chip is told about the flow. -/
theorem touch_flow {es : List Entry} {paused : Bool} (htable : b.table = a.table)
    (hjournal : b.bus.journal = a.bus.journal ++ es)
    (hes : ∀ e ∈ es, ∃ answer, e = .command (.flow paused) answer) : Touch D h a b := by
  refine .of_table es htable hjournal fun e he => ?_
  obtain ⟨answer, rfl⟩ := hes e he
  exact ⟨rfl, rfl⟩

variable [Chip σ]

theorem touch_order (a : Adapter σ) {c : Command} (hc : ∀ k data, c = .send k data → k ≠ h) :
    Touch D h a (a.order c) :=
  .of_table [.command c _] rfl rfl (by simpa using Entry.inert_command _ hc)

theorem touch_resumeFlow (a : Adapter σ) : Touch D h a a.resumeFlow := by
  obtain ⟨bus, es, heq, hjournal, hes⟩ := resumeFlow_eq a
  rw [heq]
  exact touch_flow rfl hjournal hes

theorem touch_pauseFlow (a : Adapter σ) : Touch D h a a.pauseFlow := by
  obtain ⟨bus, stats, es, heq, hjournal, hes⟩ := pauseFlow_eq a
  rw [heq]
  exact touch_flow rfl hjournal hes

theorem touch_ask (a : Adapter σ) (hpacket : a.rx.packet?.isSome = true) :
    Touch D h a (a.ask k).2 := by
  have hinert (answer : Answer Unit) : (Entry.command (.receive k a.rx.room a.config.recvTimeout)
      answer).Inert h := Entry.inert_command answer nofun
  rw [ask_eq a k hpacket]
  dsimp only
  split
  · exact .of_table [_] rfl rfl (by simpa using hinert _)
  · exact .of_table [_] rfl rfl (by simpa using hinert _)

theorem touch_close (a : Adapter σ) (k : Handle) : Touch D h a (a.close k) := by
  cases hr : a.table.get? k with
  | none =>
    rw [close_none a k hr]
    exact .of_parts rfl rfl
  | some r =>
    obtain ⟨answer, hjournal⟩ := journal_close a hr
    have hinert : (Entry.command (.close k) answer).Inert h := Entry.inert_command answer nofun
    exact touch_release (table_close a hr) hjournal (by simpa using hinert)

theorem Chore.touch (hab : Chore D a b) : Touch D h a b := by
  cases hab with
  | chip | discard | link | scratch | queues | take | giveBack => exact .of_parts rfl rfl
  | opening kind => exact .of_table [.opening kind _] rfl rfl (by simpa using ⟨rfl, rfl⟩)
  | @command c hc =>
    refine touch_order a ?_
    rintro k data rfl
    exact hc.elim
  | turnAway child => exact touch_order a nofun
  | note hn => exact touch_enter a (Entry.inert_handled ..)
  | connect k peer =>
    exact .of_modify [.command (.connect k _) _] rfl (fun _ => ⟨rfl, rfl⟩) rfl
      (List.forall_mem_singleton.mpr (Entry.inert_command _ nofun))
  | connectDone | aim => exact touch_modify a _ fun _ => ⟨rfl, rfl⟩
  | transmit k data hd =>
    by_cases hk : k = h
    · subst hk
      exact .transmit hd rfl (fun r' hr' => ⟨r', hr', rfl⟩)
        ⟨[.command (.send k data) _], rfl, by simp [Entry.opens]⟩
    · refine touch_order a ?_
      rintro _ _ ⟨⟩
      exact hk
  | pending k chain? hd =>
    by_cases hk : k = h
    · subst hk
      refine .transmit hd (SocketTable.generation_modify ..) (fun r' hr' => ?_)
        ⟨[], (List.append_nil _).symm, by simp⟩
      obtain ⟨r, hr, rfl⟩ := Option.map_eq_some_iff.mp
        ((if_pos rfl).symm.trans ((a.table.get?_modify k k _).symm.trans hr'))
      exact ⟨r, hr, rfl⟩
    · refine .still (SocketTable.generation_modify ..) (fun r' hr' => ⟨r', ?_, rfl, rfl⟩)
        ⟨[], (List.append_nil _).symm, by simp⟩
      exact (SocketTable.get?_modify_of_ne hk).symm.trans hr'
  | complete hr hp starts hd => exact touch_complete a ..
  | writable | linkEvent => exact touch_announce a _

omit [Chip σ] in
theorem CallStep.touch (hab : CallStep k a b) : Touch D h a b := by
  cases hab with
  | request | revert | mark => exact touch_modify a k fun _ => ⟨rfl, rfl⟩
  | disarm => exact .of_parts rfl rfl
  | park i | take i => exact touch_enter a ⟨rfl, rfl⟩

omit [Chip σ] in
theorem Answered.touches {i : Incarnation} {d : Delivery} (hab : a.Answered i d b) (ha : a.Steady)
    (hout : a.rx.outstanding? = some i) : Touches D h a b := by
  have hnoted (note : Notification) (f : RxState → RxState) : Touch D h a ((a.noted note).onRx f) :=
    .of_table [.handled note _] rfl rfl (by simpa using Entry.inert_handled ..)
  cases hab with
  | noData | keep => exact .single (hnoted _ _)
  | finish hd hpacket => exact .tail (.single (hnoted _ _)) (touch_handOver _ _ _)
  | @ended status read hd hread =>
    have hopen : ((a.noted (.socket i.handle (.received d))).onRx .withdraw).table.isOpen i.handle =
        true := ha.isOpen hout
    exact .tail (.single (hnoted _ _)) (touch_endStream _ hopen status read)

theorem Move.touches (hab : Move D a b) (ha : a.Steady) : Touches D h a b := by
  cases hab with
  | chore hab => exact .single hab.touch
  | @create kind k hbus hfree hd =>
    exact .tail (.single (Chore.opening a kind hd).touch) (touch_occupied _ k rfl)
  | @register listener child r _ _ peer _ hfree =>
    have htold : Touches D h a ((a.occupied child (.accepted r.kind peer)).announce
        (.newConnection listener child)) :=
      .tail (.single (touch_occupied a child rfl)) (touch_announce _ _)
    rw [register_eq]
    dsimp only
    split
    · exact htold
    · refine (htold.tail ?_).tail (touch_order _ nofun)
      exact touch_release rfl (List.append_nil _).symm (by simp)
  | read k => exact .single (touch_receive a k)
  | resume => exact .single (touch_resumeFlow a)
  | lease hnone hpool =>
    refine .tail (.single ?_) (touch_resumeFlow _)
    exact .of_parts rfl rfl
  | pause hnone hpool => exact .single (touch_pauseFlow a)
  | settle hcursor howner hpacket =>
    refine .tail (.single ?_) (touch_handOver _ _ _)
    exact .of_parts rfl rfl
  | ask hcursor hpacket hawaits howner => exact .single (touch_ask a hpacket)
  | answer hout _ h => exact h.touches ha hout

theorem Step.touches {site? : Option Handle} (hab : Step D site? a b) (ha : a.Steady) :
    Touches D h a b := by
  cases hab with
  | move hab => exact hab.touches ha
  | close hsite => exact .single (touch_close a _)
  | call hsite hcall => exact .single hcall.touch

theorem Leads.touches (hab : Leads D a b) (ha : a.Steady) : Touches D h a b := by
  have hmoves := hab ha
  clear hab
  induction hmoves with
  | refl => exact .refl
  | tail hmoves hmove ih => exact ih.trans (hmove.touches (Moves.steady hmoves ha))

end Touches

end Adapter

end WifiAdapter
