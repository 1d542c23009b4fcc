import WifiAdapter.Proofs.Hearing
import WifiAdapter.Proofs.Steady

/-! What does not concern whoever waits on a socket.

A caller depends on the generation and the mark of its slot, on what is posted for it, and
on the phase as far as its operation goes. Whatever is done to other sockets, and most of
what is done to its own, leaves these alone (`Adapter.Elsewhere`). The moves that do concern
it are the end of an operation and the end of the stream (`Adapter.Concerns`). -/
namespace WifiAdapter

/-! ### Phases -/

/-- The phase is the same, or no operation is under way and none came to its goal. -/
def Phase.Wanders (q q' : Phase) : Prop :=
  q' = q ∨ ∀ p : Purpose, q ≠ p.pending ∧ q' ≠ p.pending ∧ q' ≠ p.goal

namespace Phase

theorem Wanders.refl (q : Phase) : q.Wanders q := .inl rfl

theorem Wanders.trans {q q' q'' : Phase} (h : q.Wanders q') (h' : q'.Wanders q'') :
    q.Wanders q'' := by
  rcases h with rfl | h
  · exact h'
  · rcases h' with rfl | h'
    · exact .inr h
    · exact .inr fun p => ⟨(h p).1, (h' p).2⟩

theorem wanders_connect (q : Phase) : q.Wanders (q.apply .connect) := by
  cases q with
  | unbound | bound => exact .inr fun p => by cases p <;> decide
  | _ => exact .inl rfl

theorem wanders_connectDone (q : Phase) (ok : Bool) : q.Wanders (q.apply (.connectDone ok)) := by
  cases q with
  | connecting => exact .inr fun p => by cases p <;> cases ok <;> decide
  | _ => exact .inl rfl

end Phase

namespace Adapter
variable {σ : Type}

/-- Nothing happens that concerns whoever waits on a socket. -/
structure Elsewhere (i : Incarnation) (a b : Adapter σ) : Prop where
  generation : b.table.generation i.handle = a.table.generation i.handle
  record : ∀ r, a.table.get? i.handle = some r →
    ∃ r', b.table.get? i.handle = some r' ∧ r'.waiting = r.waiting ∧ r.phase.Wanders r'.phase
  posted : b.completions.get i.handle = a.completions.get i.handle
  journal : ∃ es, b.bus.journal = a.bus.journal ++ es ∧ ∀ e ∈ es, e.Mute i

section Elsewhere
variable {i : Incarnation} {a b c : Adapter σ}

/-- The slot is as it was, and so is what is posted for it. -/
theorem Elsewhere.of_slot (es : List Entry)
    (hgeneration : b.table.generation i.handle = a.table.generation i.handle)
    (hrecord : b.table.get? i.handle = a.table.get? i.handle)
    (hposted : b.completions.get i.handle = a.completions.get i.handle)
    (hjournal : b.bus.journal = a.bus.journal ++ es) (hes : ∀ e ∈ es, e.Mute i) :
    Elsewhere i a b where
  generation := hgeneration
  record r hr := ⟨r, hrecord.trans hr, rfl, .refl _⟩
  posted := hposted
  journal := ⟨es, hjournal, hes⟩

theorem Elsewhere.of_eq (es : List Entry) (htable : b.table = a.table)
    (hposted : b.completions = a.completions) (hjournal : b.bus.journal = a.bus.journal ++ es)
    (hes : ∀ e ∈ es, e.Mute i) : Elsewhere i a b :=
  .of_slot es (by rw [htable]) (by rw [htable]) (by rw [hposted]) hjournal hes

/-- A change of parts that no caller looks at. -/
theorem Elsewhere.of_parts (htable : b.table = a.table) (hposted : b.completions = a.completions)
    (hjournal : b.bus.journal = a.bus.journal) : Elsewhere i a b :=
  .of_eq [] htable hposted (by rw [hjournal, List.append_nil]) (by simp)

theorem Elsewhere.trans (h : Elsewhere i a b) (h' : Elsewhere i b c) : Elsewhere i a c where
  generation := h'.generation.trans h.generation
  record r hr := by
    obtain ⟨r', hr', hwaiting, hphase⟩ := h.record r hr
    obtain ⟨r'', hr'', hwaiting', hphase'⟩ := h'.record r' hr'
    exact ⟨r'', hr'', hwaiting'.trans hwaiting, hphase.trans hphase'⟩
  posted := h'.posted.trans h.posted
  journal := Entry.appended_trans h.journal h'.journal

theorem elsewhere_enter (a : Adapter σ) {e : Entry} (he : e.Mute i) : Elsewhere i a (a.enter e) :=
  .of_eq [e] rfl rfl rfl he.singleton

/-- A delivery of bytes. -/
theorem elsewhere_noted (a : Adapter σ) {j : Incarnation} (hout : a.rx.outstanding? = some j)
    {d : Delivery} (hd : d.verdict? = none) :
    Elsewhere i a (a.noted (.socket j.handle (.received d))) := by
  refine elsewhere_enter a (Entry.mute_handled fun x d' hx _ => ?_)
  cases (Entry.answer?_of_outstanding hout d).symm.trans hx
  exact hd

theorem elsewhere_announce (a : Adapter σ) (e : Event) : Elsewhere i a (a.announce e) :=
  .of_eq _ (table_announce a e) (completions_announce a e) (journal_announce a e)
    (Entry.mute_event i e _).singleton

theorem elsewhere_modify (a : Adapter σ) (h : Handle) {f : SocketRecord → SocketRecord}
    (hf : h = i.handle → ∀ r, (f r).waiting = r.waiting ∧ r.phase.Wanders (f r).phase) :
    Elsewhere i a (a.modify h f) where
  generation := SocketTable.generation_modify ..
  record r hr := by
    show ∃ r', (a.table.modify h f).get? i.handle = some r' ∧ _
    rw [SocketTable.get?_modify]
    by_cases hh : h = i.handle
    · rw [if_pos hh, hr]
      exact ⟨f r, rfl, hf hh r⟩
    · rw [if_neg hh]
      exact ⟨r, hr, rfl, .refl _⟩
  posted := rfl
  journal := ⟨[], (List.append_nil _).symm, by simp⟩

theorem elsewhere_disarm (a : Adapter σ) {h : Handle} (hne : h ≠ i.handle) :
    Elsewhere i a (a.disarm h) :=
  .of_slot [] rfl rfl (Slots.get_set_of_ne _ _ hne) (List.append_nil _).symm (by simp)

theorem elsewhere_occupied (a : Adapter σ) {h : Handle} (hne : h ≠ i.handle) (r : SocketRecord) :
    Elsewhere i a (a.occupied h r) := by
  refine .of_slot [_] ?_ ?_ rfl rfl (Entry.Mute.singleton ⟨rfl, rfl, rfl, rfl⟩)
  · show (a.table.occupy h r).generation i.handle = _
    rw [SocketTable.generation_occupy, if_neg hne]
  · show (a.table.occupy h r).get? i.handle = _
    rw [SocketTable.get?_occupy, if_neg hne]

theorem elsewhere_release (a : Adapter σ) {h : Handle} (hne : h ≠ i.handle) :
    Elsewhere i a (a.release h).2 := by
  refine .of_slot [] (SocketTable.generation_release ..) ?_ rfl (List.append_nil _).symm (by simp)
  rw [table_release, SocketTable.get?_release, if_neg hne]

theorem elsewhere_receive (a : Adapter σ) (h : Handle) : Elsewhere i a (a.receive h).2 := by
  rcases a.receive_cases h with ⟨_, heq⟩ | ⟨_, packet, rest, _, _, _, heq⟩
  · rw [heq]
    exact .of_parts rfl rfl rfl
  · rw [heq]
    refine Elsewhere.trans ?_ (elsewhere_enter _ ⟨rfl, rfl, rfl, rfl⟩)
    exact elsewhere_modify a h fun _ r => ⟨rfl, .refl _⟩

theorem elsewhere_handOver (a : Adapter σ) (h : Handle) (packet : Packet) :
    Elsewhere i a (a.handOver h packet) := by
  have hqueued : Elsewhere i a (a.modify h fun r => { r with inbound := r.inbound ++ [packet] }) :=
    elsewhere_modify a h fun _ r => ⟨rfl, .refl _⟩
  unfold handOver
  refine Elsewhere.trans ?_ (elsewhere_announce _ _)
  exact hqueued.trans (.of_parts rfl rfl rfl)

theorem elsewhere_complete (a : Adapter σ) {h : Handle} (hne : h ≠ i.handle) (purpose : Purpose)
    (status : Status) (starts : Bool) : Elsewhere i a (a.complete h purpose status starts) := by
  have hi : a.table.incarnation h ≠ i := fun heq => hne (congrArg Incarnation.handle heq)
  refine .of_slot _ ?_ ?_ ?_ (journal_complete a h purpose status starts)
    (Entry.Mute.singleton ⟨if_neg hi, if_neg hi, rfl, rfl⟩)
  · rw [table_complete, SocketTable.generation_modify]
  · rw [table_complete, SocketTable.get?_modify_of_ne hne]
  · rw [completions_complete, Slots.get_ite_set_of_ne _ _ _ hne]

theorem elsewhere_endStream {a : Adapter σ} {h : Handle} (hopen : a.table.isOpen h = true)
    (hne : h ≠ i.handle) (status : Status) (read : ReadStatus) :
    Elsewhere i a (a.endStream h status read) := by
  obtain ⟨told, hjournal⟩ := journal_endStream a hopen status read
  refine .of_slot _ ?_ ?_ ?_ hjournal (Entry.mute_event ..).singleton
  · rw [table_endStream a hopen, SocketTable.generation_modify]
  · rw [table_endStream a hopen, SocketTable.get?_modify_of_ne hne]
  · rw [completions_endStream a hopen, Slots.get_ite_set_of_ne _ _ _ hne]

/-- The stream of another socket ends. -/
theorem elsewhere_ended (ha : a.Steady) {j : Incarnation} (hj : j.handle ≠ i.handle)
    (hout : a.rx.outstanding? = some j) (d : Delivery) (status : Status) (read : ReadStatus) :
    Elsewhere i a (((a.noted (.socket j.handle (.received d))).onRx .withdraw).endStream j.handle
      status read) := by
  have hcursor := RxState.cursor_of_outstanding hout
  have hopen : ((a.noted (.socket j.handle (.received d))).onRx .withdraw).table.isOpen j.handle =
      true := ha.sound.isOpen (.inl hcursor)
  have hmute : (Entry.handled (.socket j.handle (.received d)) a.rx.expecting?).Mute i := by
    refine Entry.mute_handled fun x d' hx hsocket => ?_
    cases (Entry.answer?_of_outstanding hout d).symm.trans hx
    exact absurd (congrArg Incarnation.handle hsocket) hj
  refine (elsewhere_enter a hmute).trans (Elsewhere.trans ?_
    (elsewhere_endStream hopen hj status read))
  exact .of_parts rfl rfl rfl

section Commands
variable [Chip σ]

theorem elsewhere_order (a : Adapter σ) (c : Command) : Elsewhere i a (a.order c) :=
  .of_eq [_] rfl rfl rfl (Entry.mute_command ..).singleton

theorem elsewhere_resumeFlow (a : Adapter σ) : Elsewhere i a a.resumeFlow := by
  obtain ⟨bus, es, heq, hjournal, hes⟩ := resumeFlow_eq a
  rw [heq]
  refine .of_eq es rfl rfl hjournal fun e he => ?_
  obtain ⟨answer, rfl⟩ := hes e he
  exact Entry.mute_command ..

theorem elsewhere_pauseFlow (a : Adapter σ) : Elsewhere i a a.pauseFlow := by
  obtain ⟨bus, stats, es, heq, hjournal, hes⟩ := pauseFlow_eq a
  rw [heq]
  refine .of_eq es rfl rfl hjournal fun e he => ?_
  obtain ⟨answer, rfl⟩ := hes e he
  exact Entry.mute_command ..

theorem elsewhere_ask (a : Adapter σ) {h : Handle} (hpacket : a.rx.packet?.isSome = true) :
    Elsewhere i a (a.ask h).2 := by
  rw [ask_eq a h hpacket]
  dsimp only
  split
  · exact (elsewhere_order a _).trans (.of_parts rfl rfl rfl)
  · exact elsewhere_order a _

theorem elsewhere_close (a : Adapter σ) {h : Handle} (hne : h ≠ i.handle) :
    Elsewhere i a (a.close h) := by
  cases hr : a.table.get? h with
  | none =>
    rw [close_none a h hr]
    exact .of_parts rfl rfl rfl
  | some r =>
    obtain ⟨answer, hjournal⟩ := journal_close a hr
    refine .of_slot _ ?_ ?_ ?_ hjournal (Entry.mute_command ..).singleton
    · rw [table_close a hr, SocketTable.generation_release]
    · rw [table_close a hr, SocketTable.get?_release, if_neg hne]
    · rw [completions_close a hr, Slots.get_ite_set_of_ne _ _ _ hne]

end Commands

/-- What a call does concerns its own socket only. -/
theorem CallStep.elsewhere {h : Handle} (hab : CallStep h a b) (hne : h ≠ i.handle) :
    Elsewhere i a b := by
  cases hab with
  | request | revert | mark => exact elsewhere_modify a h fun heq => absurd heq hne
  | disarm => exact elsewhere_disarm a hne
  | park _ j =>
    have hj : j ≠ i := fun heq => hne (congrArg Incarnation.handle heq)
    exact elsewhere_enter a ⟨rfl, rfl, rfl, by simpa [Entry.parks] using hj⟩
  | take _ j status =>
    have hj : j ≠ i := fun heq => hne (congrArg Incarnation.handle heq)
    exact elsewhere_enter a ⟨rfl, rfl, by simpa [Entry.takes] using hj, rfl⟩

/-! ### Moves and steps -/

section Moves
variable [Chip σ] {D : Deed → Prop}

/-- The moves that concern whoever waits on a socket. -/
inductive Concerns (D : Deed → Prop) (h : Handle) : Adapter σ → Adapter σ → Prop where
  /-- An operation comes to its end. -/
  | complete (a : Adapter σ) {r : SocketRecord} {purpose : Purpose} {status : Status}
      (hr : a.table.get? h = some r)
      (hp : (r.phase.transition (purpose.done status.isSuccess)).rejected = false) (starts : Bool)
      (hd : D (.complete h)) : Concerns D h a (a.complete h purpose status starts)
  /-- The stream ends. -/
  | ended (a : Adapter σ) {j : Incarnation} {d : Delivery} {status : Status} (read : ReadStatus)
      (hj : j.handle = h) (hout : a.rx.outstanding? = some j)
      (hd : d.outcome = .closed ∧ status = .connectionAborted ∨ d.outcome = .failed status) :
      Concerns D h a (((a.noted (.socket j.handle (.received d))).onRx .withdraw).endStream j.handle
        status read)

theorem Chore.elsewhere (hab : Chore D a b) : Elsewhere i a b ∨ Concerns D i.handle a b := by
  cases hab with
  | chip | discard | link | scratch | queues | take | giveBack => exact .inl (.of_parts rfl rfl rfl)
  | opening kind =>
    exact .inl (.of_eq [_] rfl rfl rfl (Entry.Mute.singleton ⟨rfl, rfl, rfl, rfl⟩))
  | command | turnAway | transmit => exact .inl (elsewhere_order a _)
  | note hn =>
    refine .inl (elsewhere_enter a (Entry.mute_handled fun x d hx _ => ?_))
    rw [hn] at hx
    cases hx
  | connect h peer =>
    refine .inl (Elsewhere.trans ?_ (elsewhere_order _ _))
    exact elsewhere_modify a h fun _ r => ⟨rfl, r.phase.wanders_connect⟩
  | connectDone h ok =>
    exact .inl (elsewhere_modify a h fun _ r => ⟨rfl, r.phase.wanders_connectDone ok⟩)
  | aim h | pending h => exact .inl (elsewhere_modify a h fun _ r => ⟨rfl, .refl _⟩)
  | @complete h r purpose status hr hp starts hd =>
    by_cases hh : h = i.handle
    · subst hh
      exact .inr (.complete a hr hp starts hd)
    · exact .inl (elsewhere_complete a hh purpose status starts)
  | writable | linkEvent => exact .inl (elsewhere_announce a _)

omit [Chip σ] in
theorem Answered.elsewhere {j : Incarnation} {d : Delivery} (h : a.Answered j d b) (ha : a.Steady)
    (hout : a.rx.outstanding? = some j) : Elsewhere i a b ∨ Concerns D i.handle a b := by
  cases h with
  | noData hd =>
    exact .inl ((elsewhere_noted a hout (Delivery.Void.verdict? hd)).trans (.of_parts rfl rfl rfl))
  | keep hd hpacket hroom =>
    exact .inl ((elsewhere_noted a hout (Delivery.verdict?_of_data hd)).trans
      (.of_parts rfl rfl rfl))
  | finish hd hpacket =>
    refine .inl ((elsewhere_noted a hout (Delivery.verdict?_of_data hd)).trans
      (Elsewhere.trans ?_ (elsewhere_handOver _ _ _)))
    exact .of_parts rfl rfl rfl
  | @ended status read hd hread =>
    by_cases hj : j.handle = i.handle
    · exact .inr (.ended a read hj hout hd)
    · exact .inl (elsewhere_ended ha hj hout d status read)

theorem Move.elsewhere (hab : Move D a b) (ha : a.Steady) (hopen : a.table.isOpen i.handle = true) :
    Elsewhere i a b ∨ Concerns D i.handle a b := by
  -- A slot that is taken into use is another one.
  have hne {h : Handle} (hfree : a.table.isOpen h = false) : h ≠ i.handle := by
    rintro rfl
    rw [hfree] at hopen
    cases hopen
  cases hab with
  | chore hab => exact hab.elsewhere
  | @create kind h hbus hfree =>
    refine .inl (Elsewhere.trans ?_ (elsewhere_occupied _ (hne hfree) _))
    exact .of_eq [.opening kind _] rfl rfl rfl (Entry.Mute.singleton ⟨rfl, rfl, rfl, rfl⟩)
  | @register listener child r _ _ peer _ hfree =>
    have htold := (elsewhere_occupied a (hne hfree) (.accepted r.kind peer)).trans
      (elsewhere_announce _ (.newConnection listener child))
    rw [register_eq]
    dsimp only
    split
    · exact .inl htold
    · exact .inl ((htold.trans (elsewhere_release _ (hne hfree))).trans (elsewhere_order _ _))
  | read h => exact .inl (elsewhere_receive a h)
  | resume => exact .inl (elsewhere_resumeFlow a)
  | lease hnone hpool =>
    refine .inl (Elsewhere.trans ?_ (elsewhere_resumeFlow _))
    exact .of_parts rfl rfl rfl
  | pause hnone hpool => exact .inl (elsewhere_pauseFlow a)
  | settle hcursor howner hpacket =>
    refine .inl (Elsewhere.trans ?_ (elsewhere_handOver _ _ _))
    exact .of_parts rfl rfl rfl
  | ask hcursor hpacket hawaits howner => exact .inl (elsewhere_ask a hpacket)
  | answer hout _ h => exact h.elsewhere ha hout

/-- What does not happen to the socket itself is a close or a call of another one. -/
theorem Step.elsewhere {site? : Option Handle} (hab : Step D site? a b) (ha : a.Steady)
    (hopen : a.table.isOpen i.handle = true) (hsite : site? ≠ some i.handle) :
    Elsewhere i a b ∨ Concerns D i.handle a b := by
  cases hab with
  | move hab => exact hab.elsewhere ha hopen
  | close hk => exact .inl (elsewhere_close a fun hne => hsite (hne ▸ hk))
  | call hk hcall => exact .inl (hcall.elsewhere fun hne => hsite (hne ▸ hk))

end Moves

end Elsewhere

end Adapter

end WifiAdapter
