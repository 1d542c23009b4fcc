import WifiAdapter.Proofs.LinkEvents
import WifiAdapter.Proofs.Patience
import WifiAdapter.Proofs.Streams

/-! Calls that are refused at once.

A call can fail at any of its checks, or because the chip does not take its command, and by then
it may have taken its first steps. `Adapter.Unmoved` is what such a call leaves behind: the sockets,
what they received, the pool, the events and the link are as they were; what may differ is what was
asked of the chip, what is posted, the buffer in which datagrams are put together, and the kick of
the worker. One lemma for each call says that it leaves no more behind if it fails, and
`refused_calls_leave_no_trace` says it of every call after every history. A connect is no such call:
the other end of a datagram socket is remembered although an error is reported. -/
namespace WifiAdapter

/-! ### Requests on the link -/

namespace Network
variable {ssid key : String}

theorem of?_eq_none_iff :
    of? ssid key = none ↔ ssid = "" ∨ maxSsid < ssid.utf8ByteSize ∨ maxKey < key.utf8ByteSize := by
  unfold of?
  rw [← String.isEmpty_iff]
  split
  · next h => exact iff_of_true rfl h
  · next h => exact iff_of_false nofun h

end Network

namespace Station
variable {σ : Type} [Chip σ] {s : Station σ} {error : LinkError}

theorem start_error {now : Nat} (h : (s.start now).1 = .error error) : (s.start now).2 = s := by
  unfold start at h ⊢
  split at h
  · cases h
  · next hup => rw [if_neg hup]

theorem scan_error {now : Nat} (h : (s.scan now).1 = .error error) : (s.scan now).2 = s := by
  unfold scan at h ⊢
  split at h
  · cases h
  · next hbusy => rw [if_neg hbusy]

theorem join_error_iff (s : Station σ) (now : Nat) (ssid key : String) :
    (∃ error, (s.join now ssid key).1 = .error error) ↔ Network.of? ssid key = none := by
  unfold join
  cases Network.of? ssid key <;> simp

theorem join_error {now : Nat} {ssid key : String} (h : (s.join now ssid key).1 = .error error) :
    (s.join now ssid key).2 = s := by
  have hnone := (s.join_error_iff now ssid key).mp ⟨error, h⟩
  unfold join
  rw [hnone]

end Station

/-! ### Sends -/

/-- A drain that hands over nothing hands back the chain it was given. -/
theorem Bus.untaken_drain {σ : Type} [Chip σ] (bus : Bus σ) (h : Handle) (chain : Chain) :
    ∃ es, (bus.drain h chain).2.2.journal = bus.journal ++ es ∧
      ((bus.drain h chain).2.1 = chain ∨
        ∃ piece, .command (.send h piece) (.accepted ()) ∈ es) := by
  fun_induction Bus.drain bus h chain with
  | case1 bus chain hpiece => exact ⟨[], (List.append_nil _).symm, .inl rfl⟩
  | case2 bus chain piece hpiece _ bus' hissue ih =>
    obtain ⟨es, hjournal, -⟩ := ih
    refine ⟨.command (.send h piece) (.accepted ()) :: es, ?_, .inr ⟨piece, List.mem_cons_self⟩⟩
    rw [hjournal, Bus.journal_of_issue hissue, List.append_assoc]
    rfl
  | case3 bus chain piece hpiece bus' hissue => exact ⟨_, Bus.journal_of_issue hissue, .inl rfl⟩
  | case4 bus chain piece hpiece status bus' hissue hfull =>
    exact ⟨_, Bus.journal_of_issue hissue, .inl rfl⟩

namespace Adapter
variable {σ : Type}

/-! ### What a refused call leaves behind -/

/-- No more differs than what was asked of the chip, what is posted, the buffer of datagrams and the
kick of the worker. -/
def Unmoved (a b : Adapter σ) : Prop :=
  b = { a with bus := b.bus, completions := b.completions, scratch := b.scratch, kicked := b.kicked }

theorem Unmoved.refl (a : Adapter σ) : a.Unmoved a := rfl

theorem Unmoved.table {a b : Adapter σ} (h : a.Unmoved b) : b.table = a.table :=
  (congrArg Adapter.table h :)

theorem unmoved_receive {a : Adapter σ} {h : Handle} {error : SocketError}
    (hresult : (a.receive h).1 = .error error) : a.Unmoved (a.receive h).2 := by
  unfold receive SocketTable.get at hresult ⊢
  cases hr : a.table.get? h with
  | none => exact .refl a
  | some r =>
    rw [hr] at hresult
    dsimp only at hresult ⊢
    cases hinbound : r.inbound with
    | nil => exact .refl a
    | cons packet rest =>
      rw [hinbound] at hresult
      cases hresult

variable [Chip σ] {a : Adapter σ} {h : Handle}

theorem unmoved_issue (a : Adapter σ) (c : Command) : a.Unmoved (a.issue c).2 := rfl

theorem unmoved_create {domain : Domain} {type : SocketType} {error : SocketError}
    (hresult : (a.create domain type).1 = .error error) : a.Unmoved (a.create domain type).2 := by
  unfold create SocketTable.allocate at hresult ⊢
  cases hkind : SocketKind.of? domain type with
  | error => exact .refl a
  | ok kind =>
    rw [hkind] at hresult
    dsimp only at hresult ⊢
    revert hresult
    generalize a.bus.openSocket kind = opened
    obtain ⟨answer, bus⟩ := opened
    cases answer with
    | refused status => exact fun _ => rfl
    | accepted child =>
      dsimp only
      cases a.table.isOpen child with
      | true => exact fun _ => rfl
      | false => exact nofun

theorem unmoved_setMembership (a : Adapter σ) (h : Handle) (group : IpAddr) (join : Bool) :
    a.Unmoved (a.setMembership h group join).2 := by
  unfold setMembership
  cases group with
  | v6 => exact .refl a
  | v4 group =>
    dsimp only
    split
    · exact .refl a
    · split
      · next hissue =>
        obtain rfl := congrArg Prod.snd hissue
        exact a.unmoved_issue _
      · next hissue =>
        obtain rfl := congrArg Prod.snd hissue
        exact a.unmoved_issue _

theorem unmoved_setOption (a : Adapter σ) (h : Handle) (option : SocketOption) :
    a.Unmoved (a.setOption h option).2 := by
  cases option with
  | joinGroup group => exact a.unmoved_setMembership h group true
  | leaveGroup group => exact a.unmoved_setMembership h group false
  | multicastInterface => exact .refl a
  | other => exact .refl a

/-- A send on a stream that fails hands back its chain, unless the chip took a piece of it. -/
theorem unmoved_sendStream {r : SocketRecord} {chain : Chain} {dest? : Option SocketAddr}
    {rejected : Rejected} (hresult : (a.sendStream h r chain dest?).1 = .error rejected) :
    a.Unmoved (a.sendStream h r chain dest?).2 ∧
      (rejected.chain = chain ∨
        ∃ es piece, (a.sendStream h r chain dest?).2.bus.journal = a.bus.journal ++ es ∧
          .command (.send h piece) (.accepted ()) ∈ es) := by
  unfold sendStream at hresult ⊢
  cases hrefusal : streamRefusal? r dest? with
  | some error =>
    rw [hrefusal] at hresult
    cases hresult
    exact ⟨.refl a, .inl rfl⟩
  | none =>
    rw [hrefusal] at hresult
    dsimp only at hresult ⊢
    by_cases hempty : chain.isEmpty = true
    · rw [if_pos hempty] at hresult
      cases hresult
    · rw [if_neg hempty] at hresult ⊢
      obtain ⟨es, hjournal, htaken⟩ := a.bus.untaken_drain h chain
      revert hresult hjournal htaken
      generalize a.bus.drain h chain = drained
      obtain ⟨_ | _ | error, rest, bus⟩ := drained <;> intro hresult hjournal htaken
      · cases hresult
      · cases hresult
      · cases hresult
        exact ⟨rfl, htaken.imp_right fun ⟨piece, hpiece⟩ => ⟨es, piece, hjournal, hpiece⟩⟩

/-- What a send that fails leaves behind, and what it hands back. -/
theorem unmoved_send {chain : Chain} {dest? : Option SocketAddr} {rejected : Rejected}
    (hresult : (a.send h chain dest?).1 = .error rejected) :
    a.Unmoved (a.send h chain dest?).2 ∧
      (rejected.chain = chain ∨ a.table.kind? h = some .stream ∧
        ∃ es piece, (a.send h chain dest?).2.bus.journal = a.bus.journal ++ es ∧
          .command (.send h piece) (.accepted ()) ∈ es) := by
  unfold send SocketTable.get at hresult ⊢
  cases hr : a.table.get? h with
  | none =>
    rw [hr] at hresult
    cases hresult
    exact ⟨.refl a, .inl rfl⟩
  | some r =>
    rw [hr] at hresult
    dsimp only at hresult ⊢
    have hopen : a.table.kind? h = some r.kind := congrArg (Option.map SocketRecord.kind) hr
    cases hkind : r.kind with
    | datagram =>
      rw [hkind] at hresult
      obtain ⟨es, -, -, ⟨bus, scratch, heq⟩, hback⟩ := a.sendDatagram_parts h chain dest?
      refine ⟨?_, .inl (hback rejected hresult)⟩
      dsimp only
      rw [heq]
      rfl
    | stream =>
      rw [hkind] at hresult
      obtain ⟨hunmoved, hback⟩ := unmoved_sendStream hresult
      exact ⟨hunmoved, hback.imp_right fun htaken => ⟨hopen.trans (congrArg some hkind), htaken⟩⟩

omit [Chip σ] in
/-- With nothing to pass on, the events of the link stay as they are. -/
theorem flushLinkEvents_of_passed (hpassed : a.link.events = .empty) : a.flushLinkEvents = a := by
  have hlink : ({ a.link with events := .empty } : Link) = a.link := by rw [← hpassed]
  unfold flushLinkEvents
  rw [hpassed, hlink]
  rfl

omit [Chip σ] in
/-- A request that leaves the station alone does no more than to kick the worker. -/
theorem request_error {f : Station σ → Except LinkError Unit × Station σ} {error : LinkError}
    (hpassed : a.link.events = .empty)
    (hf : (f a.station).1 = .error error → (f a.station).2 = a.station)
    (hresult : (a.request f).1 = .error error) : (a.request f).2 = a.kick := by
  have hstation : (f a.station).2 = a.station := hf hresult
  have hflushed : (a.withStation f).2 = a := by
    have hsame : ({ a with link := (f a.station).2.link, bus := (f a.station).2.bus } : Adapter σ) =
        a := by rw [hstation]; rfl
    exact (congrArg flushLinkEvents hsame).trans (flushLinkEvents_of_passed hpassed)
  exact congrArg kick hflushed

end Adapter

/-! ### Binds and listens -/

namespace Call
variable {σ : Type}

/-- What is finished at its first poll changed nothing. -/
def Abstains (a : Adapter σ) (x : Outcome × Adapter σ) : Prop :=
  ∀ result, x.1 = .finished result → a.Unmoved x.2

theorem abstains_refused (a : Adapter σ) (error : SocketError) :
    Abstains a (.finished (.error error), a) := fun _ _ => .refl a

variable [Chip σ]

/-- An operation that is finished at once did not begin. -/
theorem abstains_beginCall (a : Adapter σ) (h : Handle) (p : Purpose) (command : Command)
    (deadline : Adapter σ → Nat) :
    Abstains a
      (match a.beginCall h p command with
      | (.error error, a) => (.finished (.error error), a)
      | (.ok _, a) => start (some p) h (deadline a) a) := by
  intro result hfinished
  cases hbegin : a.beginCall h p command with
  | mk began b =>
    rw [hbegin] at hfinished
    cases began with
    | error error =>
      show a.Unmoved b
      rw [Adapter.beginCall_error hbegin]
      rfl
    | ok value =>
      obtain ⟨c, hwaits, -⟩ := waits_start hbegin (deadline b)
      cases hwaits.symm.trans hfinished

theorem abstains_bind (h : Handle) (address : SocketAddr) (now : Nat) (a : Adapter σ) :
    Abstains a (bind h address now a) := by
  unfold bind
  split
  · exact abstains_refused a _
  · exact abstains_beginCall a h .bind _ fun a => now + a.config.bindTimeout

theorem abstains_listen (h : Handle) (backlog : UInt8) (now : Nat) (a : Adapter σ) :
    Abstains a (listen h backlog now a) := by
  unfold listen
  split
  · exact abstains_refused a _
  · split
    · exact abstains_refused a _
    · exact abstains_beginCall a h .listen _ fun a => now + a.config.listenTimeout

end Call

/-! ### Calls of the application -/

/-- The reply says that a call failed. -/
def Reply.Refuses : Reply → Prop
  | .opened r => r.isOk = false
  | .result r => r.isOk = false
  | .sent r => r.isOk = false
  | .received r => r.isOk = false
  | .link r => r.isOk = false
  | .finished (.call r) => r.isOk = false
  | _ => False

theorem isOk_eq_false_iff {ε α : Type} {r : Except ε α} :
    r.isOk = false ↔ ∃ error, r = .error error := by
  cases r with
  | error error => exact iff_of_true rfl ⟨error, rfl⟩
  | ok value => exact iff_of_false nofun nofun

namespace Action
variable {σ : Type}

/-- The calls on sockets that leave no trace if they fail at once. -/
def Undivided : Action σ → Prop
  | .create .. | .bind .. | .listen .. | .send .. | .receive _ | .setOption .. => True
  | _ => False

/-- The requests on the link. -/
def OnLink : Action σ → Prop
  | .start | .join .. | .scan => True
  | _ => False

end Action

namespace Session
variable {σ : Type} {s : Session σ}

/-- An operation that is refused at its first poll parks nothing. -/
theorem refused_begin {f : Nat → Adapter σ → Call.Outcome × Adapter σ}
    (habstains : Call.Abstains s.adapter (f s.clock s.adapter))
    (hrefused : (Reply.ofBegun
      (s.begin fun now a => (Task.ofCall (f now a).1, (f now a).2))).1.Refuses) :
    ∃ b, s.adapter.Unmoved b ∧
      (Reply.ofBegun (s.begin fun now a => (Task.ofCall (f now a).1, (f now a).2))).2 =
        { s with adapter := b } := by
  unfold begin at hrefused ⊢
  revert habstains hrefused
  dsimp only
  generalize f s.clock s.adapter = first
  obtain ⟨outcome, b⟩ := first
  intro habstains hrefused
  cases outcome with
  | waiting c => exact hrefused.elim
  | finished result => exact ⟨b, habstains result rfl, rfl⟩

/-- A packet that is not read is not held. -/
theorem refused_receive {h : Handle} (hrefused : (s.receive h).1.isOk = false) :
    ∃ b, s.adapter.Unmoved b ∧ (s.receive h).2 = { s with adapter := b } := by
  have hunmoved (error : SocketError) (herror : (s.adapter.receive h).1 = .error error) :=
    Adapter.unmoved_receive herror
  unfold receive at hrefused ⊢
  revert hrefused hunmoved
  generalize s.adapter.receive h = received
  obtain ⟨result, b⟩ := received
  intro hrefused hunmoved
  cases result with
  | error error => exact ⟨b, hunmoved error rfl, rfl⟩
  | ok => cases hrefused

variable [Chip σ] {action : Action σ}

theorem unmoved_perform (hwhole : action.Undivided) (hrefused : (s.perform action).1.Refuses) :
    ∃ b, s.adapter.Unmoved b ∧ (s.perform action).2 = { s with adapter := b } := by
  cases action with
  | create domain type =>
    obtain ⟨error, herror⟩ := isOk_eq_false_iff.mp
      (show (s.adapter.create domain type).1.isOk = false from hrefused)
    exact ⟨_, Adapter.unmoved_create herror, rfl⟩
  | bind h address =>
    exact refused_begin (f := Call.bind h address) (Call.abstains_bind h address _ _) hrefused
  | listen h backlog =>
    exact refused_begin (f := Call.listen h backlog) (Call.abstains_listen h backlog _ _) hrefused
  | send h chain dest? =>
    obtain ⟨rejected, herror⟩ := isOk_eq_false_iff.mp
      (show (s.adapter.send h chain dest?).1.isOk = false from hrefused)
    exact ⟨_, (Adapter.unmoved_send herror).1, rfl⟩
  | receive h => exact refused_receive hrefused
  | setOption h option => exact ⟨_, s.adapter.unmoved_setOption h option, rfl⟩
  | _ => exact hwhole.elim

/-- A request on the link that is turned down does no more than to kick the worker. -/
theorem kick_perform (hpassed : s.adapter.link.events = .empty) (hlink : action.OnLink)
    (hrefused : (s.perform action).1.Refuses) :
    (s.perform action).2 = { s with adapter := s.adapter.kick } := by
  have hrequest {f : Station σ → Except LinkError Unit × Station σ}
      (hf : ∀ error, (f s.adapter.station).1 = .error error →
        (f s.adapter.station).2 = s.adapter.station)
      (hresult : (s.adapter.request f).1.isOk = false) :
      ({ s with adapter := (s.adapter.request f).2 } : Session σ) =
        { s with adapter := s.adapter.kick } := by
    obtain ⟨error, herror⟩ := isOk_eq_false_iff.mp hresult
    rw [Adapter.request_error hpassed (hf error) herror]
  cases action with
  | start => exact hrequest (fun _ => Station.start_error) hrefused
  | join ssid key => exact hrequest (fun _ => Station.join_error) hrefused
  | scan => exact hrequest (fun _ => Station.scan_error) hrefused
  | _ => exact hlink.elim

/-- After every history: a call to create or bind a socket, to listen, to send, to read or to set an
option that fails at once leaves the sockets, what they received, the pool, the events and the link
as they were, and no task is parked. A send that fails hands back the chain it was given, unless it
is for a stream and the chip took a piece of it. A request on the link that fails leaves all as it
was, without a command to the chip, but for the kick of the worker; and a request to join fails just
if the name is empty or too long or the key is too long. -/
theorem refused_calls_leave_no_trace (chip : σ) (packets : Nat) (config : Config)
    (before : List (Action σ)) (action : Action σ) :
    let s := (new chip packets config).run before
    let x := s.perform action
    (action.Undivided → x.1.Refuses →
      ∃ b, s.adapter.Unmoved b ∧ x.2 = { s with adapter := b }) ∧
    (∀ h chain dest? rejected, action = .send h chain dest? → x.1 = .sent (.error rejected) →
      rejected.chain = chain ∨ s.adapter.table.kind? h = some .stream ∧
        ∃ es piece, x.2.adapter.bus.journal = s.adapter.bus.journal ++ es ∧
          .command (.send h piece) (.accepted ()) ∈ es) ∧
    (action.OnLink → x.1.Refuses → x.2 = { s with adapter := s.adapter.kick }) ∧
    ∀ ssid key, action = .join ssid key →
      (x.1.Refuses ↔ ssid = "" ∨ 32 < ssid.utf8ByteSize ∨ 64 < key.utf8ByteSize) := by
  intro s x
  obtain ⟨-, -, -, -, hpassed, -⟩ := link_events_told chip packets config before
  refine ⟨unmoved_perform, fun h chain dest? rejected haction hreply => ?_, kick_perform hpassed,
    fun ssid key haction => ?_⟩
  · subst haction
    exact (Adapter.unmoved_send (Reply.sent.inj hreply)).2
  · subst haction
    exact isOk_eq_false_iff.trans
      ((s.adapter.station.join_error_iff s.clock ssid key).trans Network.of?_eq_none_iff)

/-- The chip refuses to bind a socket: the socket is unbound as before. -/
theorem refused_calls_leave_no_trace_bind :
    let s := (new ScriptedChip.new 4 .defaults).run
      [.create .inet .stream, .chip { ScriptedChip.new with refusals := [(.bind, ⟨-9⟩)] }]
    let x := s.perform (.bind 0 (.v4 ⟨⟨10, 0, 0, 1⟩, 80⟩))
    x.1 = .finished (.call (.error .invalidArgument)) ∧
      x.2.adapter.bus.journal = s.adapter.bus.journal ++
        [.command (.bind 0 ⟨2, 0, 80, ⟨10, 0, 0, 1⟩⟩) (.refused ⟨-9⟩)] ∧
      x.2.adapter.table = s.adapter.table ∧ x.2.tasks = s.tasks := by
  intro s x
  obtain ⟨hunmoved, -⟩ := refused_calls_leave_no_trace ScriptedChip.new 4 .defaults
    [.create .inet .stream, .chip { ScriptedChip.new with refusals := [(.bind, ⟨-9⟩)] }]
    (.bind 0 (.v4 ⟨⟨10, 0, 0, 1⟩, 80⟩))
  obtain ⟨b, hb, hx⟩ := hunmoved trivial rfl
  have htable : x.2.adapter.table = s.adapter.table :=
    (congrArg (·.adapter.table) hx).trans hb.table
  exact ⟨rfl, by decide +kernel, htable, congrArg (·.tasks) hx⟩

end Session

end WifiAdapter
