import WifiAdapter.Proofs.Runs
import WifiAdapter.ScriptedChip

/-! Who has the sockets of the chip.

The chip opens a socket when it is asked for one and when it accepts a connection, and it closes
one when it is told to; the journal has both (`turns`). An adapter has accounted for them if the
open slots of its table are the handles whose last turn is an opening (`Adapter.Accounted`). Most
steps neither open nor close anything (`Adapter.Calm`); a request for a socket, a close and the
acceptance of a connection do, and for each of them it is said exactly when the chip is told to
close (`Dismissal`).

`sockets_accounted`: as long as the chip hands out handles of free slots only, no socket is lost
and none is closed twice. `closed_in_use_iff`: otherwise the chip can be told to close a socket
that the application still has. -/
namespace WifiAdapter

/-! ### Openings and closings -/

/-- The socket that the chip has opened (`true`) or is told to close (`false`). -/
def Entry.turn? : Entry → Option (Handle × Bool)
  | .opening _ (.accepted h) => some (h, true)
  | .handled note _ => note.announced?.map (·, true)
  | .command (.close h) _ => some (h, false)
  | _ => none

/-- All openings and closings, in order. -/
def turns (es : List Entry) : List (Handle × Bool) := es.filterMap (·.turn?)

/-- The openings and closings of one socket. -/
def turnsOf (h : Handle) (ts : List (Handle × Bool)) : List Bool :=
  ts.filterMap fun t => if t.1 = h then some t.2 else none

/-- The sockets that are closed. -/
def closings (ts : List (Handle × Bool)) : List Handle :=
  ts.filterMap fun t => if t.2 then none else some t.1

theorem turns_append (es more : List Entry) : turns (es ++ more) = turns es ++ turns more :=
  List.filterMap_append ..

theorem turns_eq_nil {es : List Entry} (h : ∀ e ∈ es, e.turn? = none) : turns es = [] :=
  List.filterMap_eq_nil_iff.mpr h

theorem closings_append (ts more : List (Handle × Bool)) :
    closings (ts ++ more) = closings ts ++ closings more :=
  List.filterMap_append ..

theorem turnsOf_concat (h k : Handle) (ts : List (Handle × Bool)) (opened : Bool) :
    turnsOf h (ts ++ [(k, opened)]) =
      if k = h then turnsOf h ts ++ [opened] else turnsOf h ts := by
  unfold turnsOf
  rw [List.filterMap_append, List.filterMap_cons, List.filterMap_nil]
  by_cases hk : k = h
  · rw [if_pos hk, if_pos hk]
  · rw [if_neg hk, if_neg hk, List.append_nil]

/-- Every socket is opened and closed in turn, and those are open that were opened last. -/
structure Tallies (isOpen : Handle → Bool) (ts : List (Handle × Bool)) : Prop where
  alternate : ∀ h, Alternates (turnsOf h ts)
  isOpen : ∀ h, isOpen h = (turnsOf h ts).getLastD false

section Tallies
variable {isOpen : Handle → Bool} {ts : List (Handle × Bool)} {h : Handle}

/-- A closed socket is opened, or an open one closed. -/
theorem Tallies.turn (ht : Tallies isOpen ts) {o : Bool} (hopen : isOpen h = !o) :
    Tallies (fun k => if h = k then o else isOpen k) (ts ++ [(h, o)]) := by
  refine ⟨fun k => ?_, fun k => ?_⟩
  · rw [turnsOf_concat]
    by_cases hk : h = k
    · rw [if_pos hk]
      subst hk
      exact (ht.alternate h).concat ((ht.isOpen h).symm.trans hopen)
    · rw [if_neg hk]
      exact ht.alternate k
  · rw [turnsOf_concat]
    by_cases hk : h = k
    · rw [if_pos hk, if_pos hk, List.getLastD_concat]
    · rw [if_neg hk, if_neg hk]
      exact ht.isOpen k

/-- A socket is opened and closed at once. -/
theorem Tallies.turnAway (ht : Tallies isOpen ts) (hfree : isOpen h = false) :
    Tallies isOpen (ts ++ [(h, true), (h, false)]) := by
  have htwice := (ht.turn (o := true) hfree).turn (h := h) (o := false) (if_pos rfl)
  have hsame : (fun k => if h = k then false else if h = k then true else isOpen k) = isOpen := by
    funext k
    by_cases hk : h = k
    · rw [if_pos hk, ← hk, hfree]
    · rw [if_neg hk, if_neg hk]
  rwa [hsame, List.append_assoc] at htwice

end Tallies

/-- Whether somebody listens at a slot. -/
def SocketTable.listens (t : SocketTable) (h : Handle) : Bool :=
  (t.get? h).any (·.phase == .listening)

namespace Adapter
variable {σ : Type}

/-- The open slots are those of the sockets that the chip has open. -/
def Accounted (a : Adapter σ) : Prop := Tallies a.table.isOpen (turns a.bus.journal)

theorem accounted_new (chip : σ) (packets : Nat) (config : Config) :
    (new chip packets config).Accounted where
  alternate _ := alternates_nil
  isOpen h := by
    show (Option.isSome ((SocketTable.empty.slots.get h).record?)) = false
    simp [SocketTable.empty, Slot.free]

/-! ### What neither opens nor closes -/

/-- No socket is opened and none is closed, neither by the chip nor in the table. -/
structure Calm (a b : Adapter σ) : Prop where
  isOpen : ∀ h, b.table.isOpen h = a.table.isOpen h
  turns : turns b.bus.journal = turns a.bus.journal

section Calm
variable {a b c : Adapter σ}

theorem Calm.refl (a : Adapter σ) : a.Calm a := ⟨fun _ => rfl, rfl⟩

theorem Calm.trans (h : a.Calm b) (h' : b.Calm c) : a.Calm c :=
  ⟨fun k => (h'.isOpen k).trans (h.isOpen k), h'.turns.trans h.turns⟩

theorem Calm.of_entries (hopen : ∀ h, b.table.isOpen h = a.table.isOpen h) (es : List Entry)
    (hjournal : b.bus.journal = a.bus.journal ++ es) (hes : ∀ e ∈ es, e.turn? = none) : a.Calm b where
  isOpen := hopen
  turns := by rw [hjournal, turns_append, turns_eq_nil hes, List.append_nil]

/-- The records of open sockets change, whichever they are. -/
theorem Calm.of_modify (h : Handle) (f : SocketRecord → SocketRecord)
    (htable : b.table = a.table.modify h f) (es : List Entry)
    (hjournal : b.bus.journal = a.bus.journal ++ es) (hes : ∀ e ∈ es, e.turn? = none) : a.Calm b :=
  .of_entries (fun k => by rw [htable, SocketTable.isOpen_modify]) es hjournal hes

theorem Calm.accounted (h : a.Calm b) (ha : a.Accounted) : b.Accounted := by
  unfold Accounted
  rw [h.turns, funext h.isOpen]
  exact ha

theorem calm_handOver (a : Adapter σ) (h : Handle) (packet : Packet) : a.Calm (a.handOver h packet) := by
  obtain ⟨told, hjournal⟩ := journal_handOver a h packet
  exact .of_modify h _ (table_handOver a h packet) _ hjournal (by simp [Entry.turn?])

theorem calm_endStream (a : Adapter σ) {h : Handle} (hopen : a.table.isOpen h = true) (status : Status)
    (read : ReadStatus) : a.Calm (a.endStream h status read) := by
  obtain ⟨told, hjournal⟩ := journal_endStream a hopen status read
  exact .of_modify h _ (table_endStream a hopen status read) _ hjournal (by simp [Entry.turn?])

/-- Whatever the chip is told about the flow. -/
theorem calm_flow {es : List Entry} {paused : Bool} (htable : b.table = a.table)
    (hjournal : b.bus.journal = a.bus.journal ++ es)
    (hes : ∀ e ∈ es, ∃ answer, e = .command (.flow paused) answer) : a.Calm b := by
  refine .of_entries (fun _ => by rw [htable]) es hjournal fun e he => ?_
  obtain ⟨answer, rfl⟩ := hes e he
  rfl

variable [Chip σ] {D : Deed → Prop} {site? : Option Handle}

theorem calm_order (a : Adapter σ) {c : Command} (hc : ∀ h, c ≠ .close h) : a.Calm (a.order c) := by
  refine .of_entries (fun _ => rfl) [_] rfl ?_
  cases c with
  | close h => exact absurd rfl (hc h)
  | _ => simp [Entry.turn?]

theorem calm_ask (a : Adapter σ) (h : Handle) (hpacket : a.rx.packet?.isSome = true) :
    a.Calm (a.ask h).2 := by
  have hasked := calm_order a (c := .receive h a.rx.room a.config.recvTimeout) nofun
  rw [ask_eq a h hpacket]
  dsimp only
  split
  · exact ⟨hasked.isOpen, hasked.turns⟩
  · exact hasked

theorem Chore.calm (h : Chore D a b) (hoccupy : ¬ D .occupy) : a.Calm b := by
  have hopen := h.quiet.table.isOpen
  cases h with
  | opening _ hd | turnAway _ hd => exact absurd hd hoccupy
  | chip | connectDone | aim | pending | discard | link | scratch | queues | take | giveBack =>
    exact ⟨hopen, rfl⟩
  | connect h =>
    exact Calm.of_modify h _ rfl [.command (.connect h _) _] rfl (List.forall_mem_singleton.mpr rfl)
  | command hc =>
    refine calm_order a ?_
    rintro h rfl
    exact hc
  | transmit => exact calm_order a nofun
  | @note note _ hd =>
    refine .of_entries hopen [_] rfl ?_
    cases hchild : note.announced? with
    | none => simp [Entry.turn?, hchild]
    | some child => exact absurd (hd child hchild) hoccupy
  | complete => exact .of_entries hopen _ (journal_complete ..) (by simp [Entry.turn?])
  | writable | linkEvent => exact .of_entries hopen _ (journal_announce ..) (by simp [Entry.turn?])

omit [Chip σ] in
theorem CallStep.calm {h : Handle} (hcall : CallStep h a b) : a.Calm b := by
  have hopen := hcall.quiet.table.isOpen
  cases hcall with
  | request | revert | disarm | mark => exact ⟨hopen, rfl⟩
  | park | take => exact .of_entries hopen [_] rfl (by simp [Entry.turn?])

omit [Chip σ] in
theorem Answered.calm {i : Incarnation} {d : Delivery} (h : a.Answered i d b) (ha : a.Steady)
    (hout : a.rx.outstanding? = some i) : a.Calm b := by
  have hnoted (f : RxState → RxState) :
      a.Calm ((a.noted (.socket i.handle (.received d))).onRx f) :=
    .of_entries (fun _ => rfl) [_] rfl (by simp [Entry.turn?, Notification.announced?])
  cases h with
  | noData | keep => exact hnoted _
  | finish => exact (hnoted _).trans (calm_handOver _ _ _)
  | @ended status read =>
    exact (hnoted _).trans (calm_endStream ((a.noted (.socket i.handle (.received d))).onRx .withdraw)
      (ha.isOpen hout) status read)

theorem Move.calm (h : Move D a b) (ha : a.Steady) (hoccupy : ¬ D .occupy) : a.Calm b := by
  cases h with
  | chore h => exact h.calm hoccupy
  | create _ _ hd | register _ _ _ _ _ hd => exact absurd hd hoccupy
  | read h =>
    rcases a.receive_cases h with ⟨_, heq⟩ | ⟨_, packet, rest, _, _, _, heq⟩
    · rw [heq]
      exact .refl a
    · rw [heq]
      exact .of_modify h _ rfl [_] rfl (by simp [Entry.turn?])
  | resume =>
    obtain ⟨bus, es, heq, hjournal, hes⟩ := resumeFlow_eq a
    rw [heq]
    exact calm_flow rfl hjournal hes
  | @lease packet pool =>
    obtain ⟨bus, es, heq, hjournal, hes⟩ := resumeFlow_eq
      ({ a with pool }.onRx fun x => { x with packet? := some packet })
    rw [heq]
    exact calm_flow rfl hjournal hes
  | pause =>
    obtain ⟨bus, stats, es, heq, hjournal, hes⟩ := pauseFlow_eq a
    rw [heq]
    exact calm_flow rfl hjournal hes
  | settle =>
    have hparted : a.Calm (a.onRx .part) := ⟨fun _ => rfl, rfl⟩
    exact hparted.trans (calm_handOver _ _ _)
  | ask _ hpacket => exact calm_ask a _ hpacket
  | answer hout _ h => exact h.calm ha hout

theorem Step.calm (h : Step D site? a b) (ha : a.Steady) (hoccupy : ¬ D .occupy)
    (hshut : ∀ h, ¬ D (.shut h)) : a.Calm b := by
  cases h with
  | move h => exact h.calm ha hoccupy
  | close _ hd => exact absurd hd (hshut _)
  | call _ hcall => exact hcall.calm

theorem Leads.calm (h : Leads D a b) (ha : a.Steady) (hoccupy : ¬ D .occupy) : a.Calm b := by
  have hmoves := h ha
  clear h
  induction hmoves with
  | refl => exact .refl a
  | tail hbefore hlast ih => exact ih.trans (hlast.calm (Moves.steady hbefore ha) hoccupy)

end Calm

end Adapter

/-! ### What opens and closes -/

/-- Why the chip is told to close a socket. -/
inductive Cause where
  /-- The application closes it. -/
  | request
  /-- The slot of an accepted connection is in use. -/
  | occupied
  /-- Nobody listens where a connection was accepted. -/
  | unlistened
  /-- The application has no room to be told of an accepted connection. -/
  | untold
deriving DecidableEq, Repr

/-- A socket that the chip is told to close. -/
structure Dismissal (σ : Type) where
  handle : Handle
  cause : Cause
  /-- The adapter at the end of the operation that does so. -/
  after : Adapter σ

/-- A handle that the chip gives out, and the adapter that is given it. -/
structure Offer (σ : Type) where
  adapter : Adapter σ
  handle : Handle

namespace Adapter
variable {σ : Type}

/-- Why an accepted connection does not become a socket, if it does not. -/
def refusal? (a : Adapter σ) (listener child : Handle) : Option Cause :=
  if a.table.isOpen child then some .occupied
  else if ¬ a.table.listens listener then some .unlistened
  else if a.events.items.length = eventCapacity then some .untold
  else none

section Refusals
variable {a : Adapter σ} {listener child : Handle} {cause : Cause}

theorem refusal?_some (h : a.refusal? listener child = some cause) :
    cause = .occupied ∧ a.table.isOpen child = true ∨
    cause = .unlistened ∧ a.table.isOpen child = false ∧ a.table.listens listener = false ∨
    cause = .untold ∧ a.table.isOpen child = false ∧ a.table.listens listener = true ∧
      a.events.items.length = eventCapacity := by
  unfold refusal? at h
  split at h
  · next hopen => exact .inl ⟨(Option.some.inj h).symm, hopen⟩
  · next hfree =>
    have hfree := Bool.eq_false_iff.mpr hfree
    split at h
    · next hlistens =>
      exact .inr (.inl ⟨(Option.some.inj h).symm, hfree, Bool.eq_false_iff.mpr hlistens⟩)
    · next hlistens =>
      split at h
      · next hfull =>
        exact .inr (.inr ⟨(Option.some.inj h).symm, hfree, Decidable.not_not.mp hlistens, hfull⟩)
      · cases h

theorem refusal?_none (h : a.refusal? listener child = none) :
    a.table.isOpen child = false ∧ a.table.listens listener = true ∧
      a.events.items.length ≠ eventCapacity := by
  unfold refusal? at h
  split at h
  · cases h
  · next hfree =>
    split at h
    · cases h
    · next hlistens =>
      split at h
      · cases h
      · next hroom => exact ⟨Bool.eq_false_iff.mpr hfree, Decidable.not_not.mp hlistens, hroom⟩

theorem refusal?_occupied (h : a.refusal? listener child = some cause) :
    cause = .occupied ↔ a.table.isOpen child = true := by
  obtain ⟨rfl, hopen⟩ | ⟨rfl, hfree, -⟩ | ⟨rfl, hfree, -⟩ := refusal?_some h
  · exact iff_of_true rfl hopen
  · exact iff_of_false nofun (Bool.eq_false_iff.mp hfree)
  · exact iff_of_false nofun (Bool.eq_false_iff.mp hfree)

end Refusals

variable [Chip σ]

/-- The handle that the chip gives out when it is asked for a socket. -/
def obtained? (a : Adapter σ) (domain : Domain) (type : SocketType) : Option Handle :=
  match SocketKind.of? domain type with
  | .error _ => none
  | .ok kind =>
    match (a.bus.openSocket kind).1 with
    | .refused _ => none
    | .accepted h => some h

end Adapter

namespace Moment
variable {σ : Type}

/-- The handle that the chip gives out by a notification. -/
def offer? (m : Moment σ) : Option (Offer σ) :=
  m.note.announced?.map fun child => ⟨m.adapter, child⟩

/-- The socket that is closed when a notification is handled. -/
def dismissal? [Chip σ] (m : Moment σ) (now : Nat) : Option (Dismissal σ) :=
  match m.note with
  | .socket listener (.accepted (.accepted child) _) =>
    (m.adapter.refusal? listener child).map fun cause =>
      ⟨child, cause, m.adapter.handle now m.note⟩
  | _ => none

end Moment

namespace Adapter
variable {σ : Type}

/-- Between two adapters the chip gives out certain handles and is told to close certain sockets;
if all those handles were free, the adapter has accounted for them. -/
structure Exchanges (a b : Adapter σ) (os : List (Offer σ)) (ds : List (Dismissal σ)) : Prop where
  closings : closings (turns b.bus.journal) = closings (turns a.bus.journal) ++ ds.map (·.handle)
  accounted : (∀ o ∈ os, o.adapter.table.isOpen o.handle = false) → a.Accounted → b.Accounted

section Exchanges
variable {a b c : Adapter σ} {os os' : List (Offer σ)} {ds ds' : List (Dismissal σ)}

theorem Calm.exchanges (h : a.Calm b) : Exchanges a b [] [] :=
  ⟨by rw [h.turns, List.map_nil, List.append_nil], fun _ => h.accounted⟩

/-- What is to show of sockets that are opened and closed. -/
theorem Exchanges.of_turns {ts : List (Handle × Bool)} {isOpen : Handle → Bool}
    (hturns : turns b.bus.journal = turns a.bus.journal ++ ts)
    (hclosings : WifiAdapter.closings ts = ds.map (·.handle))
    (hopen : ∀ h, b.table.isOpen h = isOpen h)
    (htallies : (∀ o ∈ os, o.adapter.table.isOpen o.handle = false) → a.Accounted →
      Tallies isOpen (turns a.bus.journal ++ ts)) : Exchanges a b os ds where
  closings := by rw [hturns, closings_append, hclosings]
  accounted hfree ha := by
    unfold Accounted
    rw [hturns, funext hopen]
    exact htallies hfree ha

theorem Exchanges.trans (h : Exchanges a b os ds) (h' : Exchanges b c os' ds') :
    Exchanges a c (os ++ os') (ds ++ ds') where
  closings := by rw [h'.closings, h.closings, List.map_append, List.append_assoc]
  accounted hfree ha := h'.accounted (fun o ho => hfree o (List.mem_append_right _ ho))
    (h.accounted (fun o ho => hfree o (List.mem_append_left _ ho)) ha)

variable (a)

theorem isOpen_release (h k : Handle) :
    (a.release h).2.table.isOpen k = if h = k then false else a.table.isOpen k :=
  a.table.isOpen_release a.pool h k

theorem isOpen_occupied (h k : Handle) (r : SocketRecord) :
    (a.occupied h r).table.isOpen k = if h = k then true else a.table.isOpen k :=
  a.table.isOpen_occupy h k r

variable [Chip σ]

/-! ### Accepting a connection -/

section Accept
variable (listener child : Handle) (peer : NativeAddr)

theorem onAccept_occupied (hopen : a.table.isOpen child = true) :
    a.onAccept listener (.accepted child) peer = a.order (.close child) := by
  unfold onAccept SocketTable.adopt
  dsimp only
  split
  · rfl
  · split
    · rfl
    · rfl

theorem onAccept_unlistened (hlistens : a.table.listens listener = false) :
    a.onAccept listener (.accepted child) peer = a.order (.close child) := by
  unfold SocketTable.listens at hlistens
  unfold onAccept
  dsimp only
  split
  · rfl
  · next r hr =>
    rw [hr, Option.any_some, beq_eq_false_iff_ne] at hlistens
    rw [if_pos hlistens]

/-- A connection to a listener is registered in its free slot. -/
theorem onAccept_registers (hfree : a.table.isOpen child = false)
    (hlistens : a.table.listens listener = true) :
    ∃ r, a.table.get? listener = some r ∧ r.phase = .listening ∧
      a.onAccept listener (.accepted child) peer =
        let registered := a.register listener child
          (a.table.occupy child (.accepted r.kind peer.endpoint))
        if registered.1 then registered.2.pollIdle else registered.2 := by
  unfold SocketTable.listens at hlistens
  cases hr : a.table.get? listener with
  | none =>
    rw [hr] at hlistens
    cases hlistens
  | some r =>
    rw [hr, Option.any_some, beq_iff_eq] at hlistens
    refine ⟨r, rfl, hlistens, ?_⟩
    unfold onAccept SocketTable.adopt
    dsimp only
    rw [hr]
    dsimp only
    rw [if_neg (not_not_intro hlistens), hfree, if_neg Bool.false_ne_true]
    dsimp only
    generalize a.register listener child (a.table.occupy child (.accepted r.kind peer.endpoint)) =
      registered
    obtain ⟨_ | _, b⟩ := registered <;> rfl

/-- The application is told of a connection, or the connection is undone. -/
theorem register_cases (r : SocketRecord) :
    let registered := a.occupied child r
    a.register listener child (a.table.occupy child r) =
      if a.events.items.length = eventCapacity then
        (false, ((registered.announce (.newConnection listener child)).release child).2.order
          (.close child))
      else (true, registered.announce (.newConnection listener child)) := by
  have htold := emit_told (a.occupied child r) (.newConnection listener child)
  change _ ↔ a.events.items.length ≠ eventCapacity at htold
  dsimp only
  rw [register_eq]
  by_cases hfull : a.events.items.length = eventCapacity
  · rw [if_pos hfull]
    exact if_neg fun h => htold.mp h hfull
  · rw [if_neg hfull]
    exact if_pos (htold.mpr hfull)

/-- A connection of which the application cannot be told leaves its slot free again. -/
theorem onAccept_untold (hfree : a.table.isOpen child = false)
    (hlistens : a.table.listens listener = true) (hfull : a.events.items.length = eventCapacity) :
    let b := a.onAccept listener (.accepted child) peer
    turns b.bus.journal = turns a.bus.journal ++ [(child, false)] ∧
      ∀ h, b.table.isOpen h = a.table.isOpen h := by
  obtain ⟨r, -, -, heq⟩ := onAccept_registers a listener child peer hfree hlistens
  dsimp only
  rw [heq, register_cases, if_pos hfull]
  refine ⟨?_, fun h => ?_⟩
  · show turns (((a.occupied child _).announce _).bus.journal ++ [_]) = _
    rw [journal_announce]
    show turns (a.bus.journal ++ [_] ++ [_] ++ [_]) = _
    rw [List.append_assoc, List.append_assoc, turns_append]
    rfl
  · show (((a.occupied child _).announce _).release child).2.table.isOpen h = _
    rw [isOpen_release, table_announce, isOpen_occupied]
    by_cases hh : child = h
    · rw [if_pos hh, ← hh, hfree]
    · rw [if_neg hh, if_neg hh]

/-- A connection of which the application is told becomes a socket in its free slot. -/
theorem onAccept_told (ha : a.Steady) (hfree : a.table.isOpen child = false)
    (hlistens : a.table.listens listener = true) (hroom : a.events.items.length ≠ eventCapacity) :
    let b := a.onAccept listener (.accepted child) peer
    turns b.bus.journal = turns a.bus.journal ∧
      ∀ h, b.table.isOpen h = if child = h then true else a.table.isOpen h := by
  obtain ⟨r, -, -, heq⟩ := onAccept_registers a listener child peer hfree hlistens
  let told := (a.occupied child (.accepted r.kind peer.endpoint)).announce
    (.newConnection listener child)
  have htold : told.Steady :=
    (steady_occupied ha hfree _).of_quiet (quiet_announce _ fun _ => trivial)
  have hcalm : told.Calm told.pollIdle := (leads_pollIdle (D := Deed.Asking) rfl told).calm htold nofun
  dsimp only
  rw [heq, register_cases, if_neg hroom]
  refine ⟨hcalm.turns.trans ?_, fun h => (hcalm.isOpen h).trans ?_⟩
  · rw [journal_announce]
    show turns (a.bus.journal ++ [_] ++ [_]) = _
    rw [List.append_assoc, turns_append]
    exact List.append_nil _
  · rw [table_announce, isOpen_occupied]

variable {a listener child}

/-- The chip opens a connection and is told to close it; the table is as before. -/
theorem refused_accept {cause : Cause} (hrefusal : a.refusal? listener child = some cause)
    (now : Nat) :
    let b := a.handle now (.socket listener (.accepted (.accepted child) peer))
    turns b.bus.journal = turns a.bus.journal ++ [(child, true), (child, false)] ∧
      ∀ h, b.table.isOpen h = a.table.isOpen h := by
  let n := a.noted (.socket listener (.accepted (.accepted child) peer))
  show turns (n.onAccept listener (.accepted child) peer).bus.journal = _ ∧
    ∀ h, (n.onAccept listener (.accepted child) peer).table.isOpen h = _
  have hnoted : turns n.bus.journal = turns a.bus.journal ++ [(child, true)] := turns_append _ [_]
  have hclosed : turns (n.order (.close child)).bus.journal =
      turns n.bus.journal ++ [(child, false)] := turns_append _ [_]
  have htwice : turns n.bus.journal ++ [(child, false)] =
      turns a.bus.journal ++ [(child, true), (child, false)] := by
    rw [hnoted, List.append_assoc]
    rfl
  rw [← htwice]
  obtain ⟨-, hopen⟩ | ⟨-, -, hlistens⟩ | ⟨-, hfree, hlistens, hfull⟩ := refusal?_some hrefusal
  · rw [onAccept_occupied n listener child peer hopen]
    exact ⟨hclosed, fun _ => rfl⟩
  · rw [onAccept_unlistened n listener child peer hlistens]
    exact ⟨hclosed, fun _ => rfl⟩
  · exact onAccept_untold n listener child peer hfree hlistens hfull

/-- The chip opens a connection, which becomes a socket in its free slot. -/
theorem taken_accept (ha : a.Steady) (hrefusal : a.refusal? listener child = none)
    (now : Nat) :
    let b := a.handle now (.socket listener (.accepted (.accepted child) peer))
    a.table.isOpen child = false ∧ turns b.bus.journal = turns a.bus.journal ++ [(child, true)] ∧
      ∀ h, b.table.isOpen h = if child = h then true else a.table.isOpen h := by
  let n := a.noted (.socket listener (.accepted (.accepted child) peer))
  obtain ⟨hfree, hlistens, hroom⟩ := refusal?_none hrefusal
  have hnoted : turns n.bus.journal = turns a.bus.journal ++ [(child, true)] := turns_append _ [_]
  have hn : n.Steady := steady_enter ha (by simp)
  obtain ⟨hturns, hopen⟩ := onAccept_told n listener child peer hn hfree hlistens hroom
  exact ⟨hfree, hturns.trans hnoted, hopen⟩

end Accept

/-! ### Every unit of work -/

variable {a} {D : Deed → Prop} {site? : Option Handle}

theorem exchanges_accept (ha : a.Steady) (listener child : Handle) (peer : NativeAddr) (now : Nat) :
    let m : Moment σ := ⟨a, .socket listener (.accepted (.accepted child) peer)⟩
    Exchanges a (a.handle now m.note) ([m].filterMap (·.offer?))
      ([m].filterMap (·.dismissal? now)) := by
  intro m
  have hdismissal : m.dismissal? now =
      (a.refusal? listener child).map (⟨child, ·, a.handle now m.note⟩) := rfl
  cases hrefusal : a.refusal? listener child with
  | none =>
    obtain ⟨hfree, hturns, hopen⟩ := taken_accept peer ha hrefusal now
    rw [hrefusal] at hdismissal
    rw [show [m].filterMap (·.dismissal? now) = [] from List.filterMap_cons_none hdismissal]
    exact .of_turns hturns rfl hopen fun _ hold => hold.turn hfree
  | some cause =>
    obtain ⟨hturns, hopen⟩ := refused_accept peer hrefusal now
    rw [hrefusal] at hdismissal
    rw [show [m].filterMap (·.dismissal? now) = [⟨child, cause, a.handle now m.note⟩] from
      List.filterMap_cons_some hdismissal]
    exact .of_turns hturns rfl hopen fun hfree hold =>
      hold.turnAway (hfree ⟨a, child⟩ (List.mem_singleton_self _))

theorem exchanges_handle (ha : a.Steady) (now : Nat) (note : Notification) :
    let m : Moment σ := ⟨a, note⟩
    Exchanges a (a.handle now note) ([m].filterMap (·.offer?))
      ([m].filterMap (·.dismissal? now)) := by
  have hcalm (hoccupy : note.deed? ≠ some .occupy) : a.Calm (a.handle now note) :=
    (leads_handle_deeds a now note).calm ha fun hd => hoccupy (hd.resolve_left nofun)
  cases note with
  | radio m => exact (hcalm nofun).exchanges
  | socket h m =>
    cases m with
    | accepted child peer =>
      cases child with
      | refused status =>
        have hnoted : a.Calm (a.noted (.socket h (.accepted (.refused status) peer))) :=
          .of_entries (fun _ => rfl) [_] rfl (by simp [Entry.turn?, Notification.announced?])
        exact hnoted.exchanges
      | accepted child => exact exchanges_accept ha h child peer now
    | _ => exact (hcalm nofun).exchanges

theorem exchanges_close (a : Adapter σ) (h : Handle) :
    Exchanges a (a.close h) []
      (if a.table.isOpen h then [⟨h, .request, a.close h⟩] else []) := by
  cases hr : a.table.get? h with
  | none =>
    have hfree : a.table.isOpen h = false := by
      unfold SocketTable.isOpen
      rw [hr]
      rfl
    rw [hfree, if_neg Bool.false_ne_true, close_none a h hr]
    exact (Calm.refl a).exchanges
  | some r =>
    have hopen : a.table.isOpen h = true := by
      unfold SocketTable.isOpen
      rw [hr]
      rfl
    obtain ⟨answer, hjournal⟩ := journal_close a hr
    have hturns : turns (a.close h).bus.journal = turns a.bus.journal ++ [(h, false)] := by
      rw [hjournal, turns_append]
      rfl
    have hrelease (k : Handle) : (a.close h).table.isOpen k =
        if h = k then false else a.table.isOpen k := by
      rw [table_close a hr]
      exact isOpen_release a h k
    rw [hopen, if_pos rfl]
    exact .of_turns hturns rfl hrelease fun _ hold => hold.turn hopen

theorem exchanges_create (a : Adapter σ) (domain : Domain) (type : SocketType) :
    Exchanges a (a.create domain type).2 ((a.obtained? domain type).toList.map fun h => ⟨a, h⟩) [] := by
  unfold create obtained?
  cases SocketKind.of? domain type with
  | error error => exact (Calm.refl a).exchanges
  | ok kind =>
    have hjournal := a.bus.journal_openSocket kind
    unfold SocketTable.allocate
    revert hjournal
    dsimp only
    generalize a.bus.openSocket kind = opened
    obtain ⟨answer, bus⟩ := opened
    intro hjournal
    cases answer with
    | refused status =>
      have hcalm : a.Calm { a with bus } :=
        .of_entries (fun _ => rfl) _ hjournal (by simp [Entry.turn?])
      exact hcalm.exchanges
    | accepted h =>
      have hturns : turns bus.journal = turns a.bus.journal ++ [(h, true)] := by
        rw [hjournal, turns_append]
        rfl
      dsimp only
      cases hfree : a.table.isOpen h with
      | true =>
        refine .of_turns hturns rfl (fun _ => rfl) fun hoffers => ?_
        cases hfree.symm.trans (hoffers ⟨a, h⟩ (List.mem_singleton_self _))
      | false =>
        have hentered : turns ({ a with bus }.occupied h (.new kind)).bus.journal =
            turns bus.journal :=
          (turns_append bus.journal [_]).trans (List.append_nil _)
        exact .of_turns (hentered.trans hturns) rfl (fun k => isOpen_occupied { a with bus } h k _)
          fun _ hold => hold.turn hfree

/-- The notifications of a course are all that matters if nothing else opens or closes. -/
theorem Course.exchanges {now : Nat} {ms : List (Moment σ)} (h : Course D site? now a ms b)
    (ha : a.Steady) (hoccupy : ¬ D .occupy) (hshut : ∀ h, ¬ D (.shut h)) :
    Exchanges a b (ms.filterMap (·.offer?)) (ms.filterMap (·.dismissal? now)) := by
  induction h with
  | refl => exact (Calm.refl a).exchanges
  | step hcourse hstep ih =>
    have hexchanges := ih.trans (hstep.calm (hcourse.steady ha) hoccupy hshut).exchanges
    rwa [List.append_nil, List.append_nil] at hexchanges
  | handle hcourse note ih =>
    have hexchanges := ih.trans (exchanges_handle (hcourse.steady ha) now note)
    rwa [← List.filterMap_append, ← List.filterMap_append] at hexchanges
  | poll hcourse ih =>
    have hpoll := (leads_pollIdle (D := Deed.Asking) rfl _).calm (hcourse.steady ha) nofun
    have hexchanges := ih.trans hpoll.exchanges
    rwa [List.append_nil, List.append_nil] at hexchanges

end Exchanges

end Adapter

/-- A socket that is closed when a notification is handled is still open afterwards just if its
slot was in use, and then the notification gave it out. -/
theorem Moment.occupied_dismissal {σ : Type} [Chip σ] {m : Moment σ} {now : Nat} {x : Dismissal σ}
    (h : m.dismissal? now = some x) :
    (x.after.table.isOpen x.handle = true ↔ x.cause = .occupied) ∧
      (x.cause = .occupied → ∃ o, m.offer? = some o ∧ o.adapter.table.isOpen o.handle = true) := by
  obtain ⟨a, note⟩ := m
  unfold dismissal? at h
  split at h
  · next listener child peer heq =>
    obtain ⟨cause, hrefusal, rfl⟩ := Option.map_eq_some_iff.mp h
    obtain rfl : note = _ := heq
    have hoccupied := Adapter.refusal?_occupied hrefusal
    have hopen := (Adapter.refused_accept peer hrefusal now).2 child
    refine ⟨?_, fun hcause => ⟨⟨a, child⟩, rfl, hoccupied.mp hcause⟩⟩
    rw [hoccupied]
    exact (congrArg (· = true) hopen).to_iff
  · cases h

/-! ### Histories -/

namespace Session
variable {σ : Type} [Chip σ]

/-- The handles that the chip gives out during an action. -/
def offered (s : Session σ) : Action σ → List (Offer σ)
  | .create domain type => (s.adapter.obtained? domain type).toList.map fun h => ⟨s.adapter, h⟩
  | action => (s.moments action).filterMap (·.offer?)

/-- The sockets that the chip is told to close during an action. -/
def dismissed (s : Session σ) : Action σ → List (Dismissal σ)
  | .close h => if s.adapter.table.isOpen h then [⟨h, .request, s.adapter.close h⟩] else []
  | action => (s.moments action).filterMap (·.dismissal? s.clock)

/-- The handles that the chip gives out during a history. -/
def offers (s : Session σ) : List (Action σ) → List (Offer σ)
  | [] => []
  | action :: rest => s.offered action ++ offers (s.perform action).2 rest

/-- The sockets that the chip is told to close during a history. -/
def dismissals (s : Session σ) : List (Action σ) → List (Dismissal σ)
  | [] => []
  | action :: rest => s.dismissed action ++ dismissals (s.perform action).2 rest

/-- The chip gives out handles of free slots only. -/
def Fresh (s : Session σ) (actions : List (Action σ)) : Prop :=
  ∀ o ∈ s.offers actions, o.adapter.table.isOpen o.handle = false

theorem exchanges_perform {s : Session σ} (hs : s.adapter.Steady) (action : Action σ) :
    Adapter.Exchanges s.adapter (s.perform action).2.adapter (s.offered action)
      (s.dismissed action) := by
  cases action with
  | create domain type => exact Adapter.exchanges_create s.adapter domain type
  | close h => exact Adapter.exchanges_close s.adapter h
  | _ => exact (passes_perform s _ hs).exchanges hs nofun fun _ => nofun

theorem exchanges_run {s : Session σ} (hs : s.adapter.Steady) (actions : List (Action σ)) :
    Adapter.Exchanges s.adapter (s.run actions).adapter (s.offers actions)
      (s.dismissals actions) := by
  induction actions generalizing s with
  | nil => exact (Adapter.Calm.refl s.adapter).exchanges
  | cons action rest ih =>
    exact (exchanges_perform hs action).trans (ih (steady_perform hs action))

/-- A socket that is closed is still open afterwards just if its slot was in use when the chip
gave its handle out. -/
theorem occupied_dismissed {s : Session σ} {action : Action σ} {x : Dismissal σ}
    (hx : x ∈ s.dismissed action) :
    (x.after.table.isOpen x.handle = true ↔ x.cause = .occupied) ∧
      (x.cause = .occupied → ∃ o ∈ s.offered action, o.adapter.table.isOpen o.handle = true) := by
  have hmoments (hx : x ∈ (s.moments action).filterMap (·.dismissal? s.clock)) :
      (x.after.table.isOpen x.handle = true ↔ x.cause = .occupied) ∧
        (x.cause = .occupied →
          ∃ o ∈ (s.moments action).filterMap (·.offer?), o.adapter.table.isOpen o.handle = true) := by
    obtain ⟨m, hm, hdismissal⟩ := List.mem_filterMap.mp hx
    obtain ⟨hopen, hoffer⟩ := m.occupied_dismissal hdismissal
    refine ⟨hopen, fun hcause => ?_⟩
    obtain ⟨o, ho, hin⟩ := hoffer hcause
    exact ⟨o, List.mem_filterMap.mpr ⟨m, hm, ho⟩, hin⟩
  cases action with
  | create => cases hx
  | close h =>
    change x ∈ ite _ _ _ at hx
    split at hx
    · obtain rfl := List.mem_singleton.mp hx
      exact ⟨iff_of_false (by rw [Adapter.isOpen_close]; exact Bool.false_ne_true) nofun, nofun⟩
    · cases hx
  | _ => exact hmoments hx

theorem occupied_dismissals {s : Session σ} {actions : List (Action σ)} {x : Dismissal σ}
    (hx : x ∈ s.dismissals actions) :
    (x.after.table.isOpen x.handle = true ↔ x.cause = .occupied) ∧
      (x.cause = .occupied → ∃ o ∈ s.offers actions, o.adapter.table.isOpen o.handle = true) := by
  induction actions generalizing s with
  | nil => cases hx
  | cons action rest ih =>
    rcases List.mem_append.mp hx with hx | hx
    · obtain ⟨hopen, hoffer⟩ := occupied_dismissed hx
      refine ⟨hopen, fun hcause => ?_⟩
      obtain ⟨o, ho, hin⟩ := hoffer hcause
      exact ⟨o, List.mem_append_left _ ho, hin⟩
    · obtain ⟨hopen, hoffer⟩ := ih hx
      refine ⟨hopen, fun hcause => ?_⟩
      obtain ⟨o, ho, hin⟩ := hoffer hcause
      exact ⟨o, List.mem_append_right _ ho, hin⟩

/-- As long as the chip gives out handles of free slots only, it opens and closes every socket in
turn, and the open slots are those of the sockets that it has opened and was not told to close
since. It is told to close a socket by the application, or when it has accepted a connection where
nobody listens or of which the application cannot be told, and by nothing else. -/
theorem sockets_accounted (chip : σ) (packets : Nat) (config : Config) (actions : List (Action σ))
    (hfresh : (new chip packets config).Fresh actions) :
    let s := new chip packets config
    let a := (s.run actions).adapter
    let ts := turns a.bus.journal
    (∀ h, Alternates (turnsOf h ts) ∧ a.table.isOpen h = (turnsOf h ts).getLastD false) ∧
      closings ts = (s.dismissals actions).map (·.handle) ∧
      ∀ x ∈ s.dismissals actions, x.cause = .request ∨ x.cause = .unlistened ∨ x.cause = .untold := by
  intro s a ts
  have hexchanges := exchanges_run (s := s) (Adapter.steady_new chip packets config) actions
  have haccounted := hexchanges.accounted hfresh (Adapter.accounted_new chip packets config)
  refine ⟨fun h => ⟨haccounted.alternate h, haccounted.isOpen h⟩, hexchanges.closings,
    fun x hx => ?_⟩
  cases hcause : x.cause with
  | request => exact .inl rfl
  | unlistened => exact .inr (.inl rfl)
  | untold => exact .inr (.inr rfl)
  | occupied =>
    obtain ⟨o, ho, hopen⟩ := (occupied_dismissals hx).2 hcause
    rw [hfresh o ho] at hopen
    cases hopen

/-- A listener takes in a connection, both are closed, and the handle of the listener is given out
again. -/
theorem sockets_accounted_again :
    let actions : List (Action ScriptedChip) := [.create .inet .stream,
      .bind 0 (.v4 ⟨⟨0, 0, 0, 0⟩, 80⟩), .dispatch (.socket 0 (.bound .success)), .poll 0,
      .listen 0 4, .dispatch (.socket 0 (.listening .success)), .poll 1,
      .dispatch (.socket 0 (.accepted (.accepted 1) default)), .close 0, .close 1,
      .create .inet .stream]
    let a := ((new ScriptedChip.new 4 .defaults).run actions).adapter
    (new ScriptedChip.new 4 .defaults).Fresh actions ∧
      turnsOf 0 (turns a.bus.journal) = [true, false, true] ∧
      turnsOf 1 (turns a.bus.journal) = [true, false] ∧
      a.table.isOpen 0 = true ∧ a.table.isOpen 1 = false := by
  intro actions a
  have hfresh : (new ScriptedChip.new 4 .defaults).Fresh actions := by
    show ∀ o ∈ (new ScriptedChip.new 4 .defaults).offers actions, _
    decide +kernel
  have hlistener : turnsOf 0 (turns a.bus.journal) = [true, false, true] := by decide +kernel
  have hchild : turnsOf 1 (turns a.bus.journal) = [true, false] := by decide +kernel
  obtain ⟨haccounted, -, -⟩ := sockets_accounted ScriptedChip.new 4 .defaults actions hfresh
  have hopen (h : Handle) : a.table.isOpen h = (turnsOf h (turns a.bus.journal)).getLastD false :=
    (haccounted h).2
  refine ⟨hfresh, hlistener, hchild, ?_, ?_⟩
  · rw [hopen, hlistener]
    rfl
  · rw [hopen, hchild]
    rfl

/-- The chip is told to close a socket that stays open in the table just if it gave out, with a
connection, the handle of a slot in use; every other socket that it is told to close is closed in
the table as well. -/
theorem closed_in_use_iff (chip : σ) (packets : Nat) (config : Config) (actions : List (Action σ)) :
    let s := new chip packets config
    closings (turns (s.run actions).adapter.bus.journal) = (s.dismissals actions).map (·.handle) ∧
      ∀ x ∈ s.dismissals actions, x.after.table.isOpen x.handle = true ↔ x.cause = .occupied := by
  intro s
  have hexchanges := exchanges_run (s := s) (Adapter.steady_new chip packets config) actions
  exact ⟨hexchanges.closings, fun x hx => (occupied_dismissals hx).1⟩

/-- A connection is announced under the handle of the listener itself. -/
theorem closed_in_use_listener :
    let s := new ScriptedChip.new 4 .defaults
    let actions : List (Action ScriptedChip) := [.create .inet .stream,
      .bind 0 (.v4 ⟨⟨0, 0, 0, 0⟩, 80⟩), .dispatch (.socket 0 (.bound .success)), .poll 0,
      .listen 0 4, .dispatch (.socket 0 (.listening .success)), .poll 1,
      .dispatch (.socket 0 (.accepted (.accepted 0) default))]
    (s.dismissals actions).map (·.cause) = [.occupied] ∧
      closings (turns (s.run actions).adapter.bus.journal) = [0] ∧
      ∃ x ∈ s.dismissals actions, x.after.table.isOpen x.handle = true := by
  intro s actions
  obtain ⟨hclosings, hopen⟩ := closed_in_use_iff ScriptedChip.new 4 .defaults actions
  have hcauses : (s.dismissals actions).map (·.cause) = [.occupied] := by decide +kernel
  have hhandles : (s.dismissals actions).map (·.handle) = [0] := by decide +kernel
  have hmem : Cause.occupied ∈ (s.dismissals actions).map (·.cause) := by
    rw [hcauses]
    exact List.mem_singleton_self _
  obtain ⟨x, hx, hcause⟩ := List.mem_map.mp hmem
  refine ⟨hcauses, ?_, x, hx, (hopen x hx).mpr hcause⟩
  rw [hclosings, hhandles]

/-- The handle of a connection is announced for a second connection: the chip is told to close it,
and the application still has it, connected. -/
theorem closed_in_use :
    let s := new ScriptedChip.new 4 .defaults
    let actions : List (Action ScriptedChip) := [.create .inet .stream,
      .bind 0 (.v4 ⟨⟨0, 0, 0, 0⟩, 80⟩), .dispatch (.socket 0 (.bound .success)), .poll 0,
      .listen 0 4, .dispatch (.socket 0 (.listening .success)), .poll 1,
      .dispatch (.socket 0 (.accepted (.accepted 1) default)),
      .dispatch (.socket 0 (.accepted (.accepted 1) default))]
    let a := (s.run actions).adapter
    a.bus.journal.getLast? = some (.command (.close 1) (.accepted ())) ∧
      (a.table.get? 1).map (·.phase) = some .connected := by
  decide +kernel

end Session

end WifiAdapter
