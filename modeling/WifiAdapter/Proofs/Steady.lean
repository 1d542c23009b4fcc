import WifiAdapter.Proofs.Effects
import WifiAdapter.Proofs.Move

/-! What every step keeps.

`Adapter.Steady` is the invariant of receiving: its state is sound, bytes in flight
belong to a socket whose stream has not ended, and no case came up that was not
expected. Every step keeps it (`Step.steady`). -/
namespace WifiAdapter.Adapter
variable {σ : Type}

structure Steady (a : Adapter σ) : Prop where
  sound : a.rx.Sound a.table
  /-- Nobody has bytes in flight after the end of its stream. -/
  live : ∀ i r, a.rx.owner? = some i → a.table.get? i.handle = some r → r.peerClosed = false
  expected : ∀ g, .unexpected g ∉ a.bus.journal

theorem steady_new (chip : σ) (packets : Nat) (config : Config) :
    (new chip packets config).Steady where
  sound := RxState.sound_idle _
  live i r hi _ := by cases hi
  expected g := List.not_mem_nil

/-- The socket that is asked is open. -/
theorem Steady.isOpen {a : Adapter σ} (ha : a.Steady) {i : Incarnation}
    (hout : a.rx.outstanding? = some i) : a.table.isOpen i.handle = true :=
  ha.sound.isOpen (.inl (RxState.cursor_of_outstanding hout))

/-- What does not concern receiving keeps it steady. -/
theorem Steady.of_quiet {a b : Adapter σ} (ha : a.Steady) (hq : a.Quiet b) : b.Steady where
  sound := by
    rw [hq.rx]
    exact ha.sound.of_keeps hq.table
  live i r hi hr := by
    rw [hq.rx] at hi
    cases hget : a.table.get? i.handle with
    | none =>
      rw [hq.table.free i.handle hget] at hr
      cases hr
    | some r₀ =>
      obtain ⟨r', hr', hkeep⟩ := hq.table.record i.handle r₀ hget
      rw [hr'] at hr
      cases hr
      rw [hkeep.peerClosed]
      exact ha.live i r₀ hi hget
  expected g hg := by
    obtain ⟨es, hjournal, hes⟩ := hq.journal
    rw [hjournal] at hg
    rcases List.mem_append.mp hg with hg | hg
    · exact ha.expected g hg
    · exact hes _ hg

/-! ### Moves that concern receiving -/

theorem Steady.expected_append {a : Adapter σ} (ha : a.Steady) {es : List Entry}
    (hes : ∀ g, .unexpected g ∉ es) (g : Guard) : .unexpected g ∉ a.bus.journal ++ es := by
  intro hg
  rcases List.mem_append.mp hg with hg | hg
  · exact ha.expected g hg
  · exact hes g hg

/-- With no bytes in flight nobody has any after the end of its stream. -/
theorem live_of_unowned {x : RxState} {t : SocketTable} (ho : x.owner? = none) (i : Incarnation)
    (r : SocketRecord) (hi : x.owner? = some i) (_ : t.get? i.handle = some r) :
    r.peerClosed = false := by
  rw [ho] at hi
  cases hi

/-- Steadiness after a move, from what the move does to each part. -/
theorem Steady.of_parts {a b : Adapter σ} (ha : a.Steady) (es : List Entry)
    (hsound : b.rx.Sound b.table)
    (hlive : ∀ i r, b.rx.owner? = some i → b.table.get? i.handle = some r → r.peerClosed = false)
    (hjournal : b.bus.journal = a.bus.journal ++ es) (hes : ∀ g, .unexpected g ∉ es) :
    b.Steady where
  sound := hsound
  live := hlive
  expected g := by
    rw [hjournal]
    exact ha.expected_append hes g

theorem steady_occupied {a : Adapter σ} (ha : a.Steady) {h : Handle} (hfree : a.table.isOpen h = false)
    (r : SocketRecord) : (a.occupied h r).Steady := by
  refine ha.of_parts [.opened ((a.table.occupy h r).incarnation h)]
    (ha.sound.occupy hfree r) (fun i r' hi hr => ?_) rfl (by simp)
  have hne : h ≠ i.handle := by
    rintro rfl
    rw [ha.sound.isOpen (.inr hi)] at hfree
    cases hfree
  change (a.table.occupy h r).get? i.handle = some r' at hr
  rw [SocketTable.get?_occupy, if_neg hne] at hr
  exact ha.live i r' hi hr

theorem steady_release {a : Adapter σ} (ha : a.Steady) {h : Handle}
    (hh : ∀ i, a.rx.cursor? = some i ∨ a.rx.owner? = some i → i.handle ≠ h) :
    (a.release h).2.Steady := by
  refine ha.of_parts [] (ha.sound.release a.pool hh) (fun i r hi hr => ?_)
    (List.append_nil _).symm (by simp)
  rw [table_release, SocketTable.get?_release, if_neg (hh i (.inr hi)).symm] at hr
  exact ha.live i r hi hr

theorem steady_enter {a : Adapter σ} (ha : a.Steady) {e : Entry} (he : ∀ g, e ≠ .unexpected g) :
    (a.enter e).Steady :=
  ha.of_parts [e] ha.sound ha.live rfl fun g hg => he g (List.mem_singleton.mp hg).symm

/-- What a socket has queued does not matter to receiving. -/
theorem steady_requeue {a : Adapter σ} (ha : a.Steady) (h : Handle)
    (f : List Packet → List Packet) :
    (a.modify h fun r => { r with inbound := f r.inbound }).Steady := by
  refine ha.of_parts [] (ha.sound.modify h (fun _ => rfl) fun _ => rfl) (fun i r hi hr => ?_)
    (List.append_nil _).symm (by simp)
  change (a.table.modify h _).get? i.handle = some r at hr
  rw [SocketTable.get?_modify] at hr
  split at hr
  · obtain ⟨r₀, hr₀, rfl⟩ := Option.map_eq_some_iff.mp hr
    exact ha.live i r₀ hi hr₀
  · exact ha.live i r hi hr

theorem steady_read {a : Adapter σ} (ha : a.Steady) (h : Handle) : (a.receive h).2.Steady := by
  rcases a.receive_cases h with ⟨_, heq⟩ | ⟨_, packet, rest, _, _, _, heq⟩
  · rw [heq]
    exact ha
  · rw [heq]
    exact steady_enter (steady_requeue ha h fun _ => rest) (by simp)

theorem steady_handOver {a : Adapter σ} (ha : a.Steady) (h : Handle) (packet : Packet) :
    (a.handOver h packet).Steady := by
  have hb := steady_requeue ha h (· ++ [packet])
  obtain ⟨told, hjournal⟩ := journal_handOver a h packet
  refine ha.of_parts _ ?_ ?_ hjournal (by simp)
  · rw [rx_handOver, table_handOver]
    exact hb.sound
  · rw [rx_handOver, table_handOver]
    exact hb.live

theorem steady_withdraw {a : Adapter σ} (ha : a.Steady) : (a.onRx .withdraw).Steady :=
  ⟨ha.sound.withdraw, ha.live, ha.expected⟩

theorem steady_part {a : Adapter σ} (ha : a.Steady) (hcursor : a.rx.cursor? = none) :
    (a.onRx .part).Steady where
  sound := RxState.sound_of_unowned hcursor (ha.sound.polling_eq_false hcursor) rfl nofun fun _ => rfl
  live := live_of_unowned rfl
  expected := ha.expected

/-- The end of a stream, as soon as nothing is outstanding any more. -/
theorem steady_endStream {a : Adapter σ} (ha : a.Steady) (hcursor : a.rx.cursor? = none) {h : Handle}
    (hopen : a.table.isOpen h = true) (status : Status) (read : ReadStatus) :
    (a.endStream h status read).Steady := by
  obtain ⟨told, hjournal⟩ := journal_endStream a hopen status read
  refine ha.of_parts _ ?_ ?_ hjournal (by simp)
  · rw [rx_endStream a hopen, table_endStream a hopen]
    exact ha.sound.dropPartial hcursor _
  · rw [rx_endStream a hopen]
    exact live_of_unowned rfl

/-- Bytes that are kept in flight: more fit, and they name their sender just if they should. -/
theorem steady_keep {a : Adapter σ} (ha : a.Steady) {i : Incarnation}
    (hout : a.rx.outstanding? = some i) {before : Packet} (hpacket : a.rx.packet? = some before)
    (d : Delivery) (hroom : 0 < (a.fill i.handle d before).room) :
    (a.onRx fun x =>
      { x with
        packet? := some (a.fill i.handle d before)
        owner? := some i
        cursor? := none
        polling := false }).Steady where
  sound := by
    have hcursor := RxState.cursor_of_outstanding hout
    refine ha.sound.keep hcursor hroom ((source_fill a i.handle d before).trans ?_)
    rcases (ha.sound.asked i hcursor).owner with ho | ho
    · -- The packet was blank: these are its first bytes.
      obtain ⟨hdata, hsource⟩ := ha.sound.blank ho before hpacket
      simp [hdata, hsource]
    · obtain ⟨p, hp, _, hsource⟩ := (ha.sound.owned i ho).packet
      rw [hpacket] at hp
      cases hp
      rw [hsource]
      exact ⟨fun h => h.elim (·.2) id, .inr⟩
  live j r hj hr := by
    cases hj
    have hawaits := (ha.sound.asked i (RxState.cursor_of_outstanding hout)).awaits
    exact SocketTable.live_of_awaits hawaits hr
  expected := ha.expected

variable [Chip σ]

theorem steady_register {a : Adapter σ} (ha : a.Steady) (listener : Handle) {child : Handle}
    (kind : SocketKind) (peer : Endpoint) (hfree : a.table.isOpen child = false) :
    (a.register listener child (a.table.occupy child (.accepted kind peer))).2.Steady := by
  have htold : ((a.occupied child (.accepted kind peer)).announce
      (.newConnection listener child)).Steady :=
    (steady_occupied ha hfree _).of_quiet (quiet_announce _ fun _ => trivial)
  rw [register_eq]
  dsimp only
  split
  · exact htold
  · -- The connection is undone; receiving does not name it, for its slot was free.
    refine (steady_release htold fun i hi => ?_).of_quiet (quiet_order _ fun _ => trivial)
    rw [rx_announce] at hi
    rintro rfl
    have hopen := ha.sound.isOpen hi
    rw [hfree] at hopen
    cases hopen

theorem steady_close {a : Adapter σ} (ha : a.Steady) (h : Handle) : (a.close h).Steady := by
  cases hr : a.table.get? h with
  | none =>
    rw [close_none a h hr]
    exact ha
  | some r =>
    obtain ⟨answer, hjournal⟩ := journal_close a hr
    refine ha.of_parts _ ?_ (fun i r' hi hr' => ?_) hjournal (by simp)
    · rw [rx_close a hr, table_close a hr]
      exact ha.sound.leave a.pool h
    · rw [rx_close a hr] at hi
      rw [table_close a hr, SocketTable.get?_release] at hr'
      split at hr'
      · cases hr'
      · exact ha.live i r' (RxState.owner_of_leave hi) hr'

theorem steady_resume {a : Adapter σ} (ha : a.Steady) : a.resumeFlow.Steady := by
  obtain ⟨bus, es, heq, hjournal, hes⟩ := resumeFlow_eq a
  rw [heq]
  refine ha.of_parts es (ha.sound.hold nofun) ha.live hjournal fun g hg => ?_
  obtain ⟨_, h⟩ := hes _ hg
  cases h

theorem steady_pause {a : Adapter σ} (ha : a.Steady) (hnone : a.rx.packet? = none) :
    a.pauseFlow.Steady := by
  obtain ⟨bus, stats, es, heq, hjournal, hes⟩ := pauseFlow_eq a
  rw [heq]
  refine ha.of_parts es (ha.sound.hold fun _ => ⟨hnone, ha.sound.without_packet hnone⟩) ha.live
    hjournal fun g hg => ?_
  obtain ⟨_, h⟩ := hes _ hg
  cases h

theorem steady_lease {a : Adapter σ} (ha : a.Steady) {packet : Packet} {pool : Pool}
    (hnone : a.rx.packet? = none)
    (hpool : a.pool.lease? a.config.rxPacketSize = some (packet, pool)) :
    ({ a with pool }.onRx fun x => { x with packet? := some packet }).resumeFlow.Steady := by
  obtain ⟨rfl, _⟩ := Pool.available_lease? hpool
  obtain ⟨bus, es, heq, hjournal, hes⟩ := resumeFlow_eq ({ a with pool }.onRx fun x =>
    { x with packet? := some (.new a.config.rxPacketSize) })
  rw [heq]
  refine ha.of_parts es (ha.sound.lease hnone _) ha.live hjournal fun g hg => ?_
  obtain ⟨_, h⟩ := hes _ hg
  cases h

theorem steady_ask {a : Adapter σ} (ha : a.Steady) {h : Handle}
    (hpacket : a.rx.packet?.isSome = true) (hawaits : a.table.awaits h = true)
    (howner : a.rx.owner? = none ∨ a.rx.owner? = some (a.table.incarnation h)) :
    (a.ask h).2.Steady := by
  have horder (c : Command) : (a.order c).Steady :=
    ha.of_parts [.command c _] ha.sound ha.live rfl (by simp)
  rw [ask_eq a h hpacket]
  dsimp only
  split
  · exact (horder _).of_parts [] (ha.sound.ask hpacket hawaits howner) ha.live
      (List.append_nil _).symm (by simp)
  · exact horder _

/-! ### Every step -/

omit [Chip σ] in
theorem Answered.steady {a b : Adapter σ} {i : Incarnation} {d : Delivery} (h : a.Answered i d b)
    (ha : a.Steady) (hout : a.rx.outstanding? = some i) : b.Steady := by
  have hnoted : (a.noted (.socket i.handle (.received d))).Steady := steady_enter ha (by simp)
  cases h with
  | noData hd => exact steady_withdraw hnoted
  | keep hd hpacket hroom => exact steady_keep hnoted hout hpacket _ hroom
  | finish hd hpacket => exact steady_handOver (steady_part (steady_withdraw hnoted) rfl) _ _
  | ended hd hread =>
    exact steady_endStream (steady_withdraw hnoted) rfl (ha.isOpen hout) _ _

theorem Move.steady {D : Deed → Prop} {a b : Adapter σ} (h : Move D a b) (ha : a.Steady) :
    b.Steady := by
  cases h with
  | chore h => exact ha.of_quiet h.quiet
  | create hbus hfree hd =>
    exact steady_occupied (ha.of_quiet (Chore.opening (D := D) a _ hd).quiet) hfree _
  | register _ _ peer _ hfree => exact steady_register ha _ _ peer hfree
  | read h => exact steady_read ha h
  | resume => exact steady_resume ha
  | lease hnone hpool => exact steady_lease ha hnone hpool
  | pause hnone _ => exact steady_pause ha hnone
  | settle hcursor _ _ => exact steady_handOver (steady_part ha hcursor) _ _
  | ask hcursor hpacket hawaits howner => exact steady_ask ha hpacket hawaits howner
  | answer hout _ h => exact h.steady ha hout

theorem Step.steady {D : Deed → Prop} {a b : Adapter σ} {site? : Option Handle} (h : Step D site? a b)
    (ha : a.Steady) : b.Steady := by
  cases h with
  | move h => exact h.steady ha
  | close hsite => exact steady_close ha _
  | call hsite hcall => exact ha.of_quiet hcall.quiet

end WifiAdapter.Adapter
