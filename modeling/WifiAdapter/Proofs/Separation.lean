import WifiAdapter.Proofs.Apart
import WifiAdapter.Proofs.Custody
import WifiAdapter.Proofs.Entering
import WifiAdapter.Proofs.Neighbours

/-! What the parts of an adapter have to do with each other.

The sockets and the link share a chip, a lock and a queue of events, and nothing else: what is done
for the one leaves the other alone and sends it no command (`Adapter.LeavesSockets`,
`Adapter.LeavesLink`). The sockets share the packet in flight besides, so what is done for one of
them may bring another one its bytes, and a connection that is accepted takes a slot into use
(`Session.parts_separate`). -/
namespace WifiAdapter

namespace Entry

/-- A command to the radio. -/
def ToRadio : Entry → Prop
  | .command c _ => c.Radio
  | _ => False

/-- A command that has to do with sockets. -/
def ToSockets : Entry → Prop
  | .opening .. => True
  | .command c _ => ¬ c.Radio
  | _ => False

end Entry

/-- The link commands nothing but its radio. -/
theorem Station.Acts.commands {σ : Type} [Chip σ] {s t : Station σ} (h : s.Acts t) :
    ∃ es, t.bus.journal = s.bus.journal ++ es ∧ ∀ e ∈ es, ¬ e.ToSockets := by
  induction h with
  | refl => exact ⟨[], (List.append_nil _).symm, nofun⟩
  | tail _ hact ih =>
    refine Entry.appended_trans ih ?_
    cases hact with
    | link => exact ⟨[], (List.append_nil _).symm, nofun⟩
    | command hc =>
      exact ⟨[_], Bus.journal_issue .., List.forall_mem_singleton.mpr fun h => h hc⟩

namespace Adapter
variable {σ : Type}

/-- The link is left alone. -/
structure LeavesLink (a b : Adapter σ) : Prop where
  link : b.link = a.link
  commands : ∃ es, b.bus.journal = a.bus.journal ++ es ∧ ∀ e ∈ es, ¬ e.ToRadio

/-- The sockets are left alone, with the packets and what is posted. -/
structure LeavesSockets (a b : Adapter σ) : Prop where
  table : b.table = a.table
  rx : b.rx = a.rx
  pool : b.pool = a.pool
  completions : b.completions = a.completions
  commands : ∃ es, b.bus.journal = a.bus.journal ++ es ∧ ∀ e ∈ es, ¬ e.ToSockets

/-- A connection to a listener takes the slot of another socket into use. The slot is free again if
the application has no room to be told. -/
structure Opens (listener child : Handle) (peer : Endpoint) (a b : Adapter σ) : Prop where
  free : a.table.get? child = none
  generation : b.table.generation child = a.table.generation child + 1
  record : ∃ r, a.table.get? listener = some r ∧ r.phase = .listening ∧
    b.table.get? child =
      if a.events.items.length = eventCapacity then none else some (.accepted r.kind peer)
  posted : b.completions.get child = a.completions.get child
  silent : ∃ es, b.bus.journal = a.bus.journal ++ es ∧ ∀ e ∈ es, ¬ e.Readies child

/-! ### What leaves the link alone -/

section Link
variable {a b c : Adapter σ}

theorem MayEnter.radio {D : Deed → Prop} {e : Entry} (he : a.MayEnter D e) (hradio : e.ToRadio) :
    D .link := by
  unfold Entry.ToRadio at hradio
  split at hradio
  · next command answer =>
    cases command with
    | receive | send => cases hradio
    | _ => exact he hradio
  · cases hradio

variable [Chip σ] {D : Deed → Prop} {site? : Option Handle}

/-- Steps that do not concern the link leave it alone. -/
theorem Steps.leavesLink (hab : Steps D site? a b) (ha : a.Steady) (hD : ¬ D .link) :
    a.LeavesLink b := by
  induction hab with
  | refl => exact ⟨rfl, [], (List.append_nil _).symm, nofun⟩
  | tail hsteps hlast ih =>
    refine ⟨(hlast.link_eq hD).trans ih.link, Entry.appended_trans ih.commands ?_⟩
    obtain ⟨es, hjournal, hes⟩ := hlast.enters (Steps.steady hsteps ha)
    exact ⟨es, hjournal, fun e he hradio => hD ((hes e he).radio hradio)⟩

end Link

/-! ### What leaves the sockets alone -/

section Sockets
variable {a b c : Adapter σ}

theorem LeavesSockets.trans (hab : a.LeavesSockets b) (hbc : b.LeavesSockets c) :
    a.LeavesSockets c where
  table := hbc.table.trans hab.table
  rx := hbc.rx.trans hab.rx
  pool := hbc.pool.trans hab.pool
  completions := hbc.completions.trans hab.completions
  commands := Entry.appended_trans hab.commands hbc.commands

theorem leavesSockets_announce (a : Adapter σ) (e : Event) : a.LeavesSockets (a.announce e) := by
  obtain ⟨_, _, heq⟩ := announce_eq a e
  rw [heq]
  exact ⟨rfl, rfl, rfl, rfl, [_], rfl, List.forall_mem_singleton.mpr id⟩

theorem leavesSockets_flushLinkEvents (a : Adapter σ) : a.LeavesSockets a.flushLinkEvents := by
  have hfold (events : List LinkEvent) (b : Adapter σ) (hb : a.LeavesSockets b) :
      a.LeavesSockets (events.foldl (fun b e => b.announce (.link e)) b) := by
    induction events generalizing b with
    | nil => exact hb
    | cons e rest ih => exact ih _ (hb.trans (leavesSockets_announce b _))
  exact hfold _ _ ⟨rfl, rfl, rfl, rfl, [], (List.append_nil _).symm, nofun⟩

variable [Chip σ]

theorem leavesSockets_withStation {α : Type} (a : Adapter σ) {f : Station σ → α × Station σ}
    (hf : ∀ s : Station σ, s.Acts (f s).2) : a.LeavesSockets (a.withStation f).2 := by
  have hvisited : a.LeavesSockets (a.seat (f ⟨a.link, a.bus⟩).2) :=
    ⟨rfl, rfl, rfl, rfl, (hf _).commands⟩
  exact hvisited.trans (leavesSockets_flushLinkEvents _)

theorem leavesSockets_request (a : Adapter σ)
    {f : Station σ → Except LinkError Unit × Station σ} (hf : ∀ s : Station σ, s.Acts (f s).2) :
    a.LeavesSockets (a.request f).2 := by
  have hvisited := leavesSockets_withStation a hf
  exact ⟨hvisited.table, hvisited.rx, hvisited.pool, hvisited.completions, hvisited.commands⟩

theorem leavesSockets_radio (a : Adapter σ) (now : Nat) (m : RadioMessage) :
    a.LeavesSockets (a.handle now (.radio m)) := by
  have hnoted : a.LeavesSockets (a.noted (.radio m)) :=
    ⟨rfl, rfl, rfl, rfl, [_], rfl, List.forall_mem_singleton.mpr id⟩
  exact hnoted.trans (leavesSockets_withStation _ (f := fun s => ((), s.onRadio now m)) fun s =>
    s.acts_onRadio now m)

end Sockets

/-! ### A connection is accepted -/

section Accept
variable [Chip σ] {a b : Adapter σ} {k : Handle}

/-- A poll spares every socket. -/
theorem spares_pollIdle (ha : a.Steady) : a.Spares k a.pollIdle := by
  have hsteps : Steps (Deed.Off k) none a a.pollIdle := (leads_pollIdle trivial a).yields ha
  exact hsteps.spares (fun _ hd => hd) ha nofun

/-- What becomes of a free slot while a connection is registered in another one. -/
theorem aloof_register (a : Adapter σ) (listener : Handle) {child : Handle} (hne : child ≠ k)
    (r : SocketRecord) : a.Aloof k (a.register listener child (a.table.occupy child r)).2 := by
  have htold : a.Aloof k ((a.occupied child r).announce (.newConnection listener child)) :=
    (aloof_occupied a hne r).trans (aloof_announce _ fun _ => id)
  rw [register_cases]
  split
  · exact (htold.trans (aloof_release _ hne)).trans (aloof_order _ _)
  · exact htold

/-- What becomes of the slot of the connection. -/
theorem opens_register {listener child : Handle} {r : SocketRecord}
    (hr : a.table.get? listener = some r) (hlistens : r.phase = .listening)
    (hfree : a.table.isOpen child = false) (peer : Endpoint) :
    a.Opens listener child peer
      (a.register listener child (a.table.occupy child (.accepted r.kind peer))).2 := by
  let told := (a.occupied child (.accepted r.kind peer)).announce (.newConnection listener child)
  have htable : told.table = a.table.occupy child (.accepted r.kind peer) := table_announce ..
  have hgeneration : told.table.generation child = a.table.generation child + 1 := by
    rw [htable, SocketTable.generation_occupy, if_pos rfl]
  have hposted : told.completions.get child = a.completions.get child :=
    congrArg (·.get child) (completions_announce ..)
  have hsilent : ∃ es, told.bus.journal = a.bus.journal ++ es ∧ ∀ e ∈ es, ¬ e.Readies child := by
    refine Entry.appended_trans ⟨[_], rfl, List.forall_mem_singleton.mpr id⟩
      ⟨[_], journal_announce .., List.forall_mem_singleton.mpr id⟩
  have hfree : a.table.get? child = none := Option.not_isSome_iff_eq_none.mp (Bool.eq_false_iff.mp hfree)
  rw [register_cases]
  by_cases hfull : a.events.items.length = eventCapacity
  · rw [if_pos hfull]
    refine ⟨hfree, ?_, ⟨r, hr, hlistens, ?_⟩, hposted, ?_⟩
    · exact (SocketTable.generation_release ..).trans hgeneration
    · rw [if_pos hfull]
      exact (SocketTable.get?_release ..).trans (if_pos rfl)
    · exact Entry.appended_trans hsilent ⟨[_], rfl, List.forall_mem_singleton.mpr id⟩
  · rw [if_neg hfull]
    refine ⟨hfree, hgeneration, ⟨r, hr, hlistens, ?_⟩, hposted, hsilent⟩
    rw [if_neg hfull]
    show told.table.get? child = _
    rw [htable, SocketTable.get?_occupy, if_pos rfl]

theorem rx_register (a : Adapter σ) (listener child : Handle) (r : SocketRecord) :
    (a.register listener child (a.table.occupy child r)).2.rx = a.rx := by
  rw [register_cases]
  split <;> exact rx_announce ..

omit [Chip σ] in
/-- Nobody has bytes in flight in a slot that is taken into use, so a poll does nothing to it. -/
theorem Opens.trans_spares {listener child : Handle} {peer : Endpoint} {c : Adapter σ}
    (hab : a.Opens listener child peer b) (ha : a.Steady) (hrx : b.rx = a.rx)
    (hbc : b.Spares child c) : a.Opens listener child peer c := by
  rcases hbc with hbc | hbc
  · obtain ⟨r, hr, hlistens, hrecord⟩ := hab.record
    exact ⟨hab.free, hbc.generation.trans hab.generation,
      ⟨r, hr, hlistens, hbc.record.trans hrecord⟩, hbc.posted.trans hab.posted,
      Entry.appended_trans hab.silent hbc.silent⟩
  · obtain ⟨_, _, _, howner, -⟩ := hbc.record
    have hopen := ha.sound.isOpen (.inr (hrx ▸ howner))
    rw [SocketTable.isOpen, show a.table.get? (b.table.incarnation child).handle = none from hab.free]
      at hopen
    cases hopen

theorem spares_onAccept (ha : a.Steady) (listener : Handle) (child : Answer Handle)
    (peer : NativeAddr) :
    a.Spares k (a.onAccept listener child peer) ∨
      child = .accepted k ∧ a.Opens listener k peer.endpoint (a.onAccept listener child peer) := by
  cases child with
  | refused status => exact .inl (.inl (.of_parts rfl rfl rfl rfl))
  | accepted child =>
    cases hopen : a.table.isOpen child with
    | true =>
      rw [onAccept_occupied a listener child peer hopen]
      exact .inl (.inl (aloof_order a _))
    | false =>
      cases hlistens : a.table.listens listener with
      | false =>
        rw [onAccept_unlistened a listener child peer hlistens]
        exact .inl (.inl (aloof_order a _))
      | true =>
        obtain ⟨r, hr, hphase, heq⟩ := onAccept_registers a listener child peer hopen hlistens
        let registered := a.register listener child
          (a.table.occupy child (.accepted r.kind peer.endpoint))
        have hsteady : registered.2.Steady :=
          steady_register ha listener r.kind peer.endpoint hopen
        have hpoll : registered.2.Spares k
            (if registered.1 then registered.2.pollIdle else registered.2) := by
          split
          · exact spares_pollIdle hsteady
          · exact .inl (.of_parts rfl rfl rfl rfl)
        rw [heq]
        by_cases hne : child = k
        · subst hne
          have hopens := opens_register hr hphase hopen peer.endpoint
          exact .inr ⟨rfl, hopens.trans_spares ha (rx_register ..) hpoll⟩
        · exact .inl (Spares.trans (.inl (aloof_register a listener hne _)) hpoll)

end Accept

/-! ### Notifications -/

section Notifications
variable [Chip σ] {a : Adapter σ} {h : Handle}

/-- A notification for a socket leaves the link alone. -/
theorem leavesLink_socket (ha : a.Steady) (now : Nat) (h : Handle) (m : SocketMessage) :
    a.LeavesLink (a.handle now (.socket h m)) := by
  have hsteps : Steps (· ≠ .link) none a (a.handle now (.socket h m)) := by
    refine (leads_handle a now _ (fun d hd heq => ?_) nofun).yields ha
    subst heq
    cases m <;> cases hd
  exact hsteps.leavesLink ha fun hlink => hlink rfl

/-- It concerns other sockets only as it brings one its bytes or accepts a connection for it. -/
theorem spares_socket (ha : a.Steady) (now : Nat) {k : Handle} (hne : h ≠ k) (m : SocketMessage) :
    a.Spares k (a.handle now (.socket h m)) ∨
      ∃ peer, m = .accepted (.accepted k) peer ∧
        a.Opens h k peer.endpoint (a.handle now (.socket h m)) := by
  have hother (hd : ∀ d ∈ (Notification.socket h m).deed?, d.Off k) :
      a.Spares k (a.handle now (.socket h m)) :=
    have hsteps : Steps (Deed.Off k) none a (a.handle now (.socket h m)) :=
      (leads_handle a now _ hd trivial).yields ha
    hsteps.spares (fun _ hd => hd) ha nofun
  cases m with
  | accepted child peer =>
    let n := a.noted (.socket h (.accepted child peer))
    have hn : n.Steady := steady_enter ha (by simp)
    have hnoted : a.Aloof k n := aloof_enter a id
    rcases spares_onAccept (k := k) hn h child peer with hspares | ⟨rfl, hopens⟩
    · exact .inl (Spares.trans (.inl hnoted) hspares)
    · exact .inr ⟨peer, rfl, hopens.free, hopens.generation, hopens.record, hopens.posted,
        Entry.appended_trans hnoted.silent hopens.silent⟩
  | _ =>
    refine .inl (hother fun d hd => ?_)
    cases hd <;> exact hne

end Notifications

/-- Opening a socket has nothing to do with the others. -/
theorem aloof_create [Chip σ] (a : Adapter σ) {k : Handle} (domain : Domain) (type : SocketType)
    (hk : (a.create domain type).1 ≠ .ok k) : a.Aloof k (a.create domain type).2 := by
  have hopening (kind : SocketKind) : a.Aloof k { a with bus := (a.bus.openSocket kind).2 } :=
    .of_table rfl rfl rfl [_] rfl (List.forall_mem_singleton.mpr id)
  revert hk
  unfold create SocketTable.allocate
  cases SocketKind.of? domain type with
  | error error => exact fun _ => .of_parts rfl rfl rfl rfl
  | ok kind =>
    have hopened := hopening kind
    revert hopened
    dsimp only
    generalize a.bus.openSocket kind = opened
    obtain ⟨answer, bus⟩ := opened
    intro hopened
    cases answer with
    | refused status => exact fun _ => hopened
    | accepted h =>
      dsimp only
      cases a.table.isOpen h with
      | true => exact fun _ => hopened
      | false =>
        intro hk
        have hne : h ≠ k := fun heq => hk (congrArg Except.ok heq)
        exact hopened.trans (aloof_occupied _ hne (.new kind))

end Adapter

/-! ### Sessions -/

/-- A request on the link. -/
def Action.OfLink {σ : Type} : Action σ → Prop
  | .start | .stop | .join .. | .scan => True
  | _ => False

namespace Session
variable {σ : Type}

/-- The socket that a call of the application is for. -/
def callee? (s : Session σ) : Action σ → Option Handle
  | .close h | .bind h _ | .listen h _ | .connect h _ | .send h _ _ | .receive h | .setOption h _ =>
    some h
  | .poll id | .contend id => (s.find? id).bind Task.site?
  | _ => none

variable [Chip σ]

/-- The adapters that a history comes by: those about to handle a notification, and the last. -/
def reached (s : Session σ) (actions : List (Action σ)) : List (Adapter σ) :=
  (s.trail actions).map (·.adapter) ++ [(s.run actions).adapter]

theorem steady_reached {s : Session σ} (hs : s.adapter.Steady) (actions : List (Action σ)) :
    ∀ a ∈ s.reached actions, a.Steady := by
  obtain ⟨-, htrail⟩ := invariant_run (P := fun _ => True) (fun _ _ _ _ _ _ => trivial) hs trivial
    actions
  intro a ha
  rcases List.mem_append.mp ha with ha | ha
  · obtain ⟨m, hm, rfl⟩ := List.mem_map.mp ha
    exact (htrail m hm).1
  · rw [List.mem_singleton.mp ha]
    exact steady_run hs actions

section Calls
variable {s : Session σ} {action : Action σ} {h k : Handle}

/-- A call concerns its own socket. -/
theorem steps_call (hs : s.adapter.Steady) (hcall : s.callee? action = some h) :
    Adapter.Steps (Deed.For h) (some h) s.adapter (s.perform action).2.adapter := by
  have hbegin {f : Nat → Adapter σ → Task.Outcome × Adapter σ}
      (hf : Adapter.Yields (Deed.For h) (some h) s.adapter (f s.clock s.adapter).2) :
      Adapter.Steps (Deed.For h) (some h) s.adapter (Reply.ofBegun (s.begin f)).2.adapter := by
    rw [adapter_ofBegun]
    exact hf hs
  -- Polling a task that waits on the socket.
  have hpoll {f : Task → Nat → Adapter σ → Task.Outcome × Adapter σ} {id : Nat}
      (hsite : (s.find? id).bind Task.site? = some h)
      (hf : ∀ c : Call, c.socket.handle = h →
        Adapter.Yields (Deed.For h) (some h) s.adapter (f (.call c) s.clock s.adapter).2) :
      Adapter.Steps (Deed.For h) (some h) s.adapter
        (Reply.ofPolled (s.pollWith f id)).2.adapter := by
    obtain ⟨t, ht, hsite⟩ := Option.bind_eq_some_iff.mp hsite
    rw [adapter_ofPolled, ht]
    cases t with
    | call c => exact hf c (Option.some.inj hsite) hs
    | _ => cases hsite
  cases action with
  | close =>
    cases hcall
    exact .single (.close _ rfl rfl)
  | bind h' address =>
    cases hcall
    refine hbegin ?_
    exact Call.yields_bind h address s.clock s.adapter
  | listen h' backlog =>
    cases hcall
    refine hbegin ?_
    exact Call.yields_listen h backlog s.clock s.adapter
  | connect h' remote =>
    cases hcall
    have hd : Deed.For h (.connect h) := rfl
    exact (Adapter.leads_connect s.adapter h remote hd).yields hs
  | send h' chain dest? =>
    cases hcall
    have hd : Deed.For h (.transmit h) := rfl
    have hgive : Deed.For h (.give h chain) := rfl
    exact (Adapter.leads_send s.adapter h chain dest? hd hgive).yields hs
  | receive =>
    cases hcall
    have hd : Deed.For h (.read h) := rfl
    exact (leads_receive s h hd).yields hs
  | setOption h' option =>
    cases hcall
    exact (Adapter.leads_setOption s.adapter h option).yields hs
  | poll id =>
    refine hpoll hcall fun c hc => ?_
    subst hc
    exact c.yields_poll s.clock s.adapter
  | contend id =>
    refine hpoll hcall fun c hc => ?_
    subst hc
    exact c.yields_look s.clock s.adapter
  | _ => cases hcall

end Calls

/-- **The parts of an adapter keep apart.** A request on the link and a message of the radio leave
the sockets alone; a call and a notification for a socket leave the link alone. They leave the other
sockets alone as well, but that the packet in flight may go to the one it has bytes of, and that an
accepted connection takes its slot into use. -/
theorem parts_separate (chip : σ) (packets : Nat) (config : Config) (actions : List (Action σ)) :
    let start := new chip packets config
    let s := start.run actions
    (∀ action : Action σ, action.OfLink →
        s.adapter.LeavesSockets (s.perform action).2.adapter) ∧
      (∀ (action : Action σ) (h : Handle), s.callee? action = some h →
        s.adapter.LeavesLink (s.perform action).2.adapter ∧
          ∀ k ≠ h, s.adapter.Spares k (s.perform action).2.adapter) ∧
      (∀ (domain : Domain) (type : SocketType),
        let (reply, opened) := s.perform (.create domain type)
        s.adapter.LeavesLink opened.adapter ∧
          ∀ k, reply ≠ .opened (.ok k) → s.adapter.Spares k opened.adapter) ∧
      ∀ a ∈ start.reached actions, ∀ now,
        (∀ m, a.LeavesSockets (a.handle now (.radio m))) ∧
          ∀ h m, a.LeavesLink (a.handle now (.socket h m)) ∧
            ∀ k ≠ h, a.Spares k (a.handle now (.socket h m)) ∨
              ∃ peer, m = .accepted (.accepted k) peer ∧
                a.Opens h k peer.endpoint (a.handle now (.socket h m)) := by
  intro start s
  have hnew : start.adapter.Steady := Adapter.steady_new chip packets config
  have hs : s.adapter.Steady := steady_run hnew actions
  refine ⟨fun action hlink => ?_, fun action h hcall => ?_, fun domain type => ?_,
    fun a ha now => ⟨fun m => Adapter.leavesSockets_radio a now m, fun h m => ?_⟩⟩
  · cases action with
    | start => exact Adapter.leavesSockets_request _ fun t => t.acts_start s.clock
    | stop =>
      exact Adapter.leavesSockets_withStation _ (f := fun t => ((), t.stop s.clock)) fun t =>
        t.acts_stop s.clock
    | join ssid key => exact Adapter.leavesSockets_request _ fun t => t.acts_join s.clock ssid key
    | scan => exact Adapter.leavesSockets_request _ fun t => t.acts_scan s.clock
    | _ => exact hlink.elim
  · have hsteps := steps_call hs hcall
    refine ⟨hsteps.leavesLink hs id, fun k hne => ?_⟩
    exact hsteps.spares (fun d hd => hd.off hne.symm) hs fun heq => hne (Option.some.inj heq).symm
  · have hsteps : Adapter.Steps (· ≠ .link) none s.adapter (s.adapter.create domain type).2 :=
      (Adapter.leads_create s.adapter domain type nofun).yields hs
    refine ⟨hsteps.leavesLink hs fun hlink => hlink rfl, fun k hk => .inl ?_⟩
    exact Adapter.aloof_create s.adapter domain type fun heq => hk (congrArg Reply.opened heq)
  · have hsteady := steady_reached hnew actions a ha
    exact ⟨Adapter.leavesLink_socket hsteady now h m, fun k hne =>
      Adapter.spares_socket hsteady now hne.symm m⟩

/-- The chip does not take another receive for the stream that has bytes in flight. So these are
settled when the other stream is connected, and there is a packet to be read. -/
theorem parts_separate_settled :
    let start := new ScriptedChip.new 4 .defaults
    let a := (start.run [.create .inet .stream, .create .inet .stream,
      .connect 0 (.v4 ⟨⟨10, 0, 0, 1⟩, 80⟩), .connect 1 (.v4 ⟨⟨10, 0, 0, 2⟩, 80⟩),
      .dispatch (.socket 0 (.connected .success)),
      .chip (ScriptedChip.new.script (.receiveOn 0) (some .bufferFull)),
      .dispatch (.socket 0 (.received ⟨3, 2, default, [1, 2, 3]⟩))]).adapter
    let b := a.handle 0 (.socket 1 (.connected .success))
    (0 : Handle) ≠ 1 ∧ a.LeavesLink b ∧ a.Spares 0 b ∧
      (a.table.get? 0).map (·.inbound.length) = some 0 ∧
      (b.table.get? 0).map (·.inbound.length) = some 1 := by
  intro start a b
  obtain ⟨-, -, -, hnotes⟩ := parts_separate ScriptedChip.new 4 .defaults
    [.create .inet .stream, .create .inet .stream, .connect 0 (.v4 ⟨⟨10, 0, 0, 1⟩, 80⟩),
      .connect 1 (.v4 ⟨⟨10, 0, 0, 2⟩, 80⟩), .dispatch (.socket 0 (.connected .success)),
      .chip (ScriptedChip.new.script (.receiveOn 0) (some .bufferFull)),
      .dispatch (.socket 0 (.received ⟨3, 2, default, [1, 2, 3]⟩))]
  have ha : a ∈ start.reached _ := List.mem_append_right _ (List.mem_singleton_self _)
  obtain ⟨hlink, hothers⟩ := (hnotes a ha 0).2 1 (.connected .success)
  have hspares : a.Spares 0 b := by
    rcases hothers 0 (by decide) with hspares | ⟨_, hm, -⟩
    · exact hspares
    · cases hm
  exact ⟨by decide, hlink, hspares, by decide +kernel, by decide +kernel⟩

end Session

end WifiAdapter
