import WifiAdapter.Proofs.Phases

/-! What a failed bind, listen or connect leaves of the phase.

Such an operation fails in one of three ways (`Session.Fails`): it is refused at once, its caller
is told of an error later on, or the end of a connect is reported and went badly. Wherever an
operation was under way and came to nothing, a socket goes back to the phase in which the operation
begins; and a bind or a listen begins in one phase only, so that this is the phase it was in. But
a connect begins in two phases and goes back to one of them. `failed_restores_iff`: a failed
operation leaves the phase as it was, unless it is a connect of a socket that was bound, which is
unbound afterwards, or the chip had reported that it went well. -/
namespace WifiAdapter

namespace Purpose

/-- The phase in which an operation begins. -/
def origin : Purpose → Phase
  | .bind => .unbound
  | .listen => .bound

variable {p : Purpose} {q : Phase}

/-- An operation begins in one phase only. -/
theorem eq_origin (h : (q.transition p.request).rejected = false) : q = p.origin := by
  rw [Phase.rejected_transition] at h
  cases p <;> cases q <;> first | rfl | cases h

/-- An operation that its caller takes back leads to where it began, unless it had gone well. -/
theorem restores_iff (p : Purpose) (answer? : Option Bool) :
    ((answer?.map (p.pending.afterEnd ·)).getD p.pending).apply (p.done false) = p.origin ↔
      answer? ≠ some true := by
  rcases answer? with _ | _ | _ <;> cases p <;> decide

end Purpose

/-! ### Binds and listens -/

namespace Call
variable {σ : Type} {a : Adapter σ} {h : Handle} {p : Purpose}

/-- The first poll of a bind or a listen, as far as the phase is concerned. -/
structure Enters (h : Handle) (p : Purpose) (a : Adapter σ) (x : Outcome × Adapter σ) : Prop where
  /-- One that is finished at once leaves it alone. -/
  refused : ∀ result, x.1 = .finished result → x.2.table.phase? h = a.table.phase? h
  /-- One that goes on is under way. -/
  waits : ∀ c, x.1 = .waiting c → c.purpose? = some p ∧ c.socket.handle = h ∧
    a.table.phase? h = some p.origin ∧ x.2.table.phase? h = some p.pending

theorem enters_refused (h : Handle) (p : Purpose) (a : Adapter σ) (error : SocketError) :
    Enters h p a (.finished (.error error), a) where
  refused _ _ := rfl
  waits _ hc := by cases hc

theorem start_waiting {p? : Option Purpose} {deadline : Nat} {c : Call}
    (hc : (start p? h deadline a).1 = .waiting c) :
    c.purpose? = p? ∧ c.socket.handle = h ∧
      (start p? h deadline a).2.table.phase? h = a.table.phase? h := by
  unfold start at hc ⊢
  split at hc
  · next hopen =>
    rw [if_pos hopen]
    dsimp only at hc ⊢
    generalize hmarked : (a.modify h fun r => { r with waiting := true }).enter _ = b at hc ⊢
    generalize hfresh : (⟨p?, a.table.incarnation h, deadline, none⟩ : Call) = d at hc ⊢
    obtain ⟨hsocket, hpurpose, htable⟩ := b.takeCompletion_keeps d
    cases hseen : (b.takeCompletion d).1.seen? with
    | some outcome =>
      rw [conclude_seen hseen] at hc
      cases hc
    | none =>
      rw [conclude_unseen hseen] at hc ⊢
      cases hc
      subst hfresh hmarked
      refine ⟨hpurpose, congrArg Incarnation.handle hsocket, ?_⟩
      rw [htable]
      exact SocketTable.phase?_modify (f := fun r => { r with waiting := true }) a.table h h
        fun _ => rfl
  · cases hc

variable [Chip σ]

theorem enters_beginCall (a : Adapter σ) (h : Handle) (p : Purpose) (command : Command)
    (deadline : Adapter σ → Nat) :
    Enters h p a
      (match a.beginCall h p command with
      | (.error error, a) => (.finished (.error error), a)
      | (.ok _, a) => start (some p) h (deadline a) a) := by
  cases hbegin : a.beginCall h p command with
  | mk result b =>
    cases result with
    | error error =>
      exact ⟨fun _ _ => congrArg (Option.map _) (Adapter.get?_beginCall_error hbegin),
        fun _ hc => by cases hc⟩
    | ok value =>
      obtain ⟨c, hc, -⟩ := waits_start hbegin (deadline b)
      refine ⟨fun result hr => (by cases hc.symm.trans hr), fun d hd => ?_⟩
      obtain ⟨hpurpose, hhandle, hphase⟩ := start_waiting hd
      obtain ⟨r, hr, hadmits, hb⟩ := Adapter.beginCall_ok hbegin
      refine ⟨hpurpose, hhandle, ?_, hphase.trans ?_⟩
      · unfold SocketTable.phase?
        rw [hr, ← Purpose.eq_origin hadmits]
        rfl
      · refine Option.map_eq_some_iff.mpr ⟨r.apply p.request, ?_, Purpose.apply_request hadmits⟩
        rw [hb]
        exact SocketTable.get?_modify_self hr

theorem enters_bind (h : Handle) (address : SocketAddr) (now : Nat) (a : Adapter σ) :
    Enters h .bind a (bind h address now a) := by
  unfold bind
  split
  · exact enters_refused h _ a _
  · exact enters_beginCall a h .bind _ fun a => now + a.config.bindTimeout

theorem enters_listen (h : Handle) (backlog : UInt8) (now : Nat) (a : Adapter σ) :
    Enters h .listen a (listen h backlog now a) := by
  unfold listen
  split
  · exact enters_refused h _ a _
  · split
    · exact enters_refused h _ a _
    · exact enters_beginCall a h .listen _ fun a => now + a.config.listenTimeout

end Call

/-! ### Connects -/

/-- A connect begins in two phases. -/
theorem Phase.admits_connect_iff (q : Phase) :
    (q.transition .connect).rejected = false ↔ q = .unbound ∨ q = .bound := by
  cases q <;> decide

/-- Where a connect leads that comes to nothing. -/
theorem Phase.undo_connect {q : Phase} (h : (q.transition .connect).rejected = false) :
    (q.apply .connect).apply (.connectDone false) = .unbound := by
  rcases (admits_connect_iff q).mp h with rfl | rfl <;> rfl

namespace Adapter
variable {σ : Type} [Chip σ] {a : Adapter σ} {h : Handle} {r : SocketRecord}

/-- What a connect of a stream socket does to the phase: it is turned down and changes nothing, or
it is under way, or the chip does not take it. -/
inductive Connects (q : Phase) : Except SocketError Unit → Phase → Prop where
  | turnedDown {error : SocketError} (hrejected : (q.transition .connect).rejected = true) :
      Connects q (.error error) q
  | underWay (hadmits : (q.transition .connect).rejected = false) : Connects q (.ok ()) .connecting
  | notTaken {error : SocketError} (hadmits : (q.transition .connect).rejected = false) :
      Connects q (.error error) .unbound

theorem connects_stream (hr : a.table.get? h = some r) (hstream : r.kind = .stream)
    (peer : Endpoint) : ∃ q, (a.connect h (.v4 peer)).2.table.phase? h = some q ∧
      Connects r.phase (a.connect h (.v4 peer)).1 q := by
  have hnotDatagram : r.kind ≠ .datagram := by rw [hstream]; nofun
  unfold connect SocketTable.get
  rw [hr]
  dsimp only
  rw [if_neg hnotDatagram]
  by_cases hrejected : (r.phase.transition .connect).rejected = true
  · rw [if_pos hrejected]
    exact ⟨r.phase, congrArg (Option.map _) hr, .turnedDown hrejected⟩
  · rw [if_neg hrejected]
    have hadmits := Bool.eq_false_iff.mpr hrejected
    have hbegun : (a.table.modify h fun r => (r.apply .connect).aimedAt peer).get? h =
        some ((r.apply .connect).aimedAt peer) := SocketTable.get?_modify_self hr
    split
    · next b hissue =>
      have htable := congrArg (fun x : Answer Unit × Adapter σ => x.2.table) hissue
      refine ⟨r.phase.apply .connect,
        Option.map_eq_some_iff.mpr ⟨(r.apply .connect).aimedAt peer, ?_, rfl⟩, ?_⟩
      · exact (congrArg (·.get? h) htable).symm.trans hbegun
      · rcases (Phase.admits_connect_iff _).mp hadmits with hphase | hphase
        all_goals
          rw [hphase]
          exact .underWay rfl
    · next status b hissue =>
      have htable := congrArg (fun x : Answer Unit × Adapter σ => x.2.table) hissue
      refine ⟨.unbound, Option.map_eq_some_iff.mpr
        ⟨((r.apply .connect).aimedAt peer).apply (.connectDone false), ?_,
          Phase.undo_connect hadmits⟩, .notTaken hadmits⟩
      show (b.table.modify h _).get? h = _
      rw [← show _ = b.table from htable]
      exact SocketTable.get?_modify_self hbegun

end Adapter

/-! ### Operations that fail -/

/-- The error with which an operation is refused at once. -/
def Reply.error? : Reply → Option SocketError
  | .finished (.call (.error error)) => some error
  | .result (.error error) => some error
  | _ => none

namespace Session
variable {σ : Type} {s : Session σ} {h : Handle} {p : Purpose}

/-- A bind or a listen, or a connect of a stream socket. -/
def Attempts (s : Session σ) (h : Handle) : Action σ → Prop
  | .bind k _ | .listen k _ => k = h
  | .connect k _ => k = h ∧ s.adapter.table.kind? h = some .stream
  | _ => False

/-- How the operation that is under way on a socket ends first in a history: well or not. -/
def answer? [Chip σ] (s : Session σ) (h : Handle) (actions : List (Action σ)) : Option Bool :=
  (s.adapter.table.phase? h).bind fun q => (s.endings h actions).findSome? q.answer?

/-- How a bind, a listen or a connect of a stream fails, while nothing else is begun on the socket:
how its end was answered in the meantime, and the session that it leaves. -/
inductive Fails [Chip σ] (s : Session σ) (h : Handle) :
    Action σ → Option Bool → Session σ → Prop where
  /-- The adapter or the chip refuses it. -/
  | refused {action : Action σ} (hattempt : s.Attempts h action)
      (hreply : (s.perform action).1.error?.isSome = true) :
      Fails s h action none (s.perform action).2
  /-- The caller of a bind or a listen is told of an error: the status of the completion, or that
  its time has run out. -/
  | told {action : Action σ} {rest : List (Action σ)} {id : Nat} {error : SocketError}
      (hattempt : s.Attempts h action) (hparked : (s.perform action).1 = .parked id)
      (hfree : ∀ next ∈ rest, ¬ next.OperatesOn h)
      (htold : (((s.perform action).2.run rest).perform (.poll id)).1 =
        .finished (.call (.error error))) :
      Fails s h action ((s.perform action).2.answer? h rest)
        (((s.perform action).2.run rest).perform (.poll id)).2
  /-- The end of a connect is reported, and it went badly. -/
  | reported {remote : SocketAddr} {rest : List (Action σ)}
      (hattempt : s.Attempts h (.connect h remote))
      (haccepted : (s.perform (.connect h remote)).1 = .result (.ok ()))
      (hfree : ∀ next ∈ rest, ¬ next.OperatesOn h)
      (hanswer : (s.perform (.connect h remote)).2.answer? h rest = some false) :
      Fails s h (.connect h remote) (some false) ((s.perform (.connect h remote)).2.run rest)

/-- The task of an operation that was parked. -/
theorem parked_of_begin {f : Nat → Adapter σ → Task.Outcome × Adapter σ} {id : Nat}
    (hnumbered : s.Numbered) (h : (Reply.ofBegun (s.begin f)).1 = .parked id) :
    ∃ t, (f s.clock s.adapter).1 = .waiting t ∧
      (Reply.ofBegun (s.begin f)).2.find? id = some t ∧
      id < (Reply.ofBegun (s.begin f)).2.nextTask := by
  have hfree : s.find? s.nextTask = none := by
    cases hfind : s.find? s.nextTask with
    | none => rfl
    | some t => exact absurd (hnumbered _ t hfind) (Nat.lt_irrefl _)
  unfold begin at h ⊢
  cases hfirst : f s.clock s.adapter with
  | mk outcome b =>
    rw [hfirst] at h
    cases outcome with
    | finished result => cases h
    | waiting t =>
      cases h
      refine ⟨t, rfl, ?_, Nat.lt_succ_self _⟩
      refine (find?_park { s with adapter := b } t s.nextTask).trans ?_
      rw [show ({ s with adapter := b } : Session σ).find? s.nextTask = none from hfree, if_pos rfl]
      rfl

/-- A bind or a listen that begins, as far as the phase is concerned. -/
structure Enters (s : Session σ) (h : Handle) (p : Purpose) (x : Reply × Session σ) : Prop where
  refused : x.1.error?.isSome = true → x.2.adapter.table.phase? h = s.adapter.table.phase? h
  parked : ∀ id, x.1 = .parked id → s.adapter.table.phase? h = some p.origin ∧
    x.2.adapter.table.phase? h = some p.pending ∧ id < x.2.nextTask ∧
    ∃ c, x.2.find? id = some (.call c) ∧ c.purpose? = some p ∧ c.socket.handle = h

theorem enters_begin {f : Nat → Adapter σ → Call.Outcome × Adapter σ} (hnumbered : s.Numbered)
    (henters : Call.Enters h p s.adapter (f s.clock s.adapter)) :
    s.Enters h p (Reply.ofBegun (s.begin fun now a => (Task.ofCall (f now a).1, (f now a).2))) := by
  have hadapter := adapter_ofBegun s fun now a => (Task.ofCall (f now a).1, (f now a).2)
  constructor
  · intro herror
    rw [hadapter]
    cases houtcome : (f s.clock s.adapter).1 with
    | finished value => exact henters.refused value houtcome
    | waiting c =>
      unfold begin at herror
      dsimp only at herror
      rw [houtcome] at herror
      cases herror
  · intro id hparked
    obtain ⟨t, hfirst, hfind, hnext⟩ := parked_of_begin hnumbered hparked
    rw [hadapter]
    dsimp only at hfirst
    cases houtcome : (f s.clock s.adapter).1 with
    | finished value =>
      rw [houtcome] at hfirst
      cases hfirst
    | waiting c =>
      rw [houtcome] at hfirst
      cases hfirst
      obtain ⟨hpurpose, hhandle, hbefore, hafter⟩ := henters.waits c houtcome
      exact ⟨hbefore, hafter, hnext, c, hfind, hpurpose, hhandle⟩

variable [Chip σ] {action : Action σ}

theorem enters_bind (hnumbered : s.Numbered) (address : SocketAddr) :
    s.Enters h .bind (s.perform (.bind h address)) :=
  enters_begin (f := Call.bind h address) hnumbered (Call.enters_bind ..)

theorem enters_listen (hnumbered : s.Numbered) (backlog : UInt8) :
    s.Enters h .listen (s.perform (.listen h backlog)) :=
  enters_begin (f := Call.listen h backlog) hnumbered (Call.enters_listen ..)

theorem reply_connect (s : Session σ) (h : Handle) (remote : SocketAddr) :
    (s.perform (.connect h remote)).1 = .result (s.adapter.connect h remote).1 := rfl

/-- A connect of a bound socket, to an address that the chip can be given. -/
def ConnectsBound (s : Session σ) (h : Handle) (action : Action σ) : Prop :=
  (∃ peer, action = .connect h (.v4 peer)) ∧ s.adapter.table.phase? h = some .bound

/-- What a failed operation leaves of the phase: what it was, or, after a connect of a bound socket,
the other phase in which connects begin; or where the operation leads, if it was reported to have
gone well. -/
inductive Leaves (s : Session σ) (h : Handle) (action : Action σ) :
    Option Bool → Option Phase → Prop where
  | restored {answer? : Option Bool} (hanswer : answer? ≠ some true)
      (hplain : ¬ s.ConnectsBound h action) :
      Leaves s h action answer? (s.adapter.table.phase? h)
  | unbound {answer? : Option Bool} (hanswer : answer? ≠ some true)
      (hbound : s.ConnectsBound h action) : Leaves s h action answer? (some .unbound)
  | reached {q : Phase} (hplain : ¬ s.ConnectsBound h action)
      (hq : s.adapter.table.phase? h ≠ some q) : Leaves s h action (some true) (some q)

omit [Chip σ] in
/-- A connect that began and came to nothing. -/
theorem leaves_unbound {q : Phase} {answer? : Option Bool} (hanswer : answer? ≠ some true)
    (hbefore : s.adapter.table.phase? h = some q)
    (hadmits : (q.transition .connect).rejected = false) (peer : Endpoint) :
    s.Leaves h (.connect h (.v4 peer)) answer? (some .unbound) := by
  rcases (Phase.admits_connect_iff q).mp hadmits with rfl | rfl
  · rw [← hbefore]
    refine .restored hanswer fun hbound => ?_
    cases hbefore.symm.trans hbound.2
  · exact .unbound hanswer ⟨⟨peer, rfl⟩, hbefore⟩

/-- A connect of a stream that fails at once. -/
theorem leaves_connect (hstream : s.adapter.table.kind? h = some .stream) (remote : SocketAddr)
    (hreply : (s.perform (.connect h remote)).1.error?.isSome = true) :
    s.Leaves h (.connect h remote) none
      ((s.perform (.connect h remote)).2.adapter.table.phase? h) := by
  obtain ⟨r, hr, hkind⟩ := Option.map_eq_some_iff.mp hstream
  have hbefore : s.adapter.table.phase? h = some r.phase := congrArg (Option.map _) hr
  cases remote with
  | v6 =>
    refine .restored nofun fun hbound => ?_
    obtain ⟨⟨peer, hpeer⟩, -⟩ := hbound
    cases hpeer
  | v4 peer =>
    obtain ⟨q, hafter, hconnects⟩ := Adapter.connects_stream hr hkind peer
    show s.Leaves h _ none ((s.adapter.connect h (.v4 peer)).2.table.phase? h)
    rw [reply_connect] at hreply
    rw [hafter]
    cases hresult : (s.adapter.connect h (.v4 peer)).1 with
    | ok value =>
      rw [hresult] at hreply
      cases hreply
    | error error =>
      rw [hresult] at hconnects
      cases hconnects with
      | turnedDown hrejected =>
        rw [← hbefore]
        refine .restored nofun fun hbound => ?_
        have hphase := Option.some.inj (hbefore.symm.trans hbound.2)
        rw [hphase] at hrejected
        cases hrejected
      | notTaken hadmits => exact leaves_unbound (by nofun) hbefore hadmits peer

/-- An operation that is refused at once. -/
theorem leaves_refused (hnumbered : s.Numbered) (hattempt : s.Attempts h action)
    (hreply : (s.perform action).1.error?.isSome = true) :
    s.Leaves h action none ((s.perform action).2.adapter.table.phase? h) := by
  have hcall {p : Purpose} (henters : s.Enters h p (s.perform action))
      (hplain : ∀ peer, action ≠ .connect h (.v4 peer)) :
      s.Leaves h action none ((s.perform action).2.adapter.table.phase? h) := by
    rw [henters.refused hreply]
    exact .restored nofun fun hbound => hbound.1.elim hplain
  cases action with
  | bind k address =>
    cases hattempt
    exact hcall (enters_bind hnumbered address) nofun
  | listen k backlog =>
    cases hattempt
    exact hcall (enters_listen hnumbered backlog) nofun
  | connect k remote =>
    obtain ⟨rfl, hstream⟩ := hattempt
    exact leaves_connect hstream remote hreply
  | _ => exact hattempt.elim

/-- A caller that is told of an error takes back what it began. -/
theorem phase?_told {id : Nat} {d : Call} {error : SocketError} {q : Phase}
    (hd : s.find? id = some (.call d))
    (hresult : (d.poll s.clock s.adapter).1 = .finished (.error error))
    (hpurpose : d.purpose? = some p) (hq : s.adapter.table.phase? d.socket.handle = some q) :
    (s.perform (.poll id)).2.adapter.table.phase? d.socket.handle =
      some (q.apply (p.done false)) := by
  rw [adapter_poll_call hd, d.phase?_poll s.clock hq, hresult]
  unfold Call.ending?
  rw [hpurpose]
  rfl

/-- A bind or a listen whose caller is told of an error later on. -/
theorem leaves_told {x : Reply × Session σ} (hx : x.2.adapter.Steady) (henters : s.Enters h p x)
    {rest : List (Action σ)} {id : Nat} {error : SocketError} (hparked : x.1 = .parked id)
    (hfree : ∀ next ∈ rest, ¬ next.OperatesOn h)
    (htold : ((x.2.run rest).perform (.poll id)).1 = .finished (.call (.error error)))
    (hplain : ¬ s.ConnectsBound h action) :
    s.Leaves h action (x.2.answer? h rest)
      (((x.2.run rest).perform (.poll id)).2.adapter.table.phase? h) := by
  obtain ⟨hbefore, hpending, hnext, c, hc, hpurpose, rfl⟩ := henters.parked id hparked
  -- The call that is polled is the one that was parked.
  obtain ⟨d, hd, hresult⟩ := call_of_result htold
  obtain ⟨e, he, hsocket, hsame⟩ := same_call_before hnext hd
  cases hc.symm.trans he
  rw [hsame] at hpurpose
  rw [hsocket] at hbefore hpending hfree hplain ⊢
  have hafter := phase?_told hd hresult hpurpose (phase?_run hx hfree hpending)
  have hanswer : x.2.answer? d.socket.handle rest =
      (x.2.endings d.socket.handle rest).findSome? p.pending.answer? := by
    unfold answer?
    rw [hpending]
    rfl
  rw [Phase.foldl_endings (ends_of_endings x.2 _ rest), ← hanswer] at hafter
  have hrestores := p.restores_iff (x.2.answer? d.socket.handle rest)
  rw [hafter]
  by_cases hwell : x.2.answer? d.socket.handle rest = some true
  · rw [hwell] at hrestores ⊢
    refine .reached hplain fun hq => ?_
    exact hrestores.mp (Option.some.inj (hq.symm.trans hbefore)) rfl
  · rw [hrestores.mpr hwell, ← hbefore]
    exact .restored hwell hplain

/-- A connect that is reported to have failed. -/
theorem leaves_reported (hs : s.adapter.Steady) {remote : SocketAddr} {rest : List (Action σ)}
    (hattempt : s.Attempts h (.connect h remote))
    (haccepted : (s.perform (.connect h remote)).1 = .result (.ok ()))
    (hfree : ∀ next ∈ rest, ¬ next.OperatesOn h)
    (hanswer : (s.perform (.connect h remote)).2.answer? h rest = some false) :
    s.Leaves h (.connect h remote) (some false)
      (((s.perform (.connect h remote)).2.run rest).adapter.table.phase? h) := by
  obtain ⟨r, hr, hkind⟩ := Option.map_eq_some_iff.mp hattempt.2
  have hnext : (s.perform (.connect h remote)).2.adapter.Steady :=
    steady_perform hs _
  cases remote with
  | v6 => cases haccepted
  | v4 peer =>
    obtain ⟨q, hafter, hconnects⟩ := Adapter.connects_stream hr hkind peer
    rw [reply_connect] at haccepted
    rw [Reply.result.inj haccepted] at hconnects
    cases hconnects with
    | underWay hadmits =>
      change (s.perform (.connect h (.v4 peer))).2.adapter.table.phase? h = some .connecting
        at hafter
      unfold answer? at hanswer
      rw [hafter] at hanswer
      rw [phase?_run hnext hfree hafter, Phase.foldl_endings (ends_of_endings _ h rest),
        show List.findSome? _ _ = some false from hanswer]
      exact leaves_unbound (by nofun) (congrArg (Option.map _) hr) hadmits peer

/-- What a failed operation leaves of the phase. -/
theorem Fails.leaves (hs : s.adapter.Steady) (hnumbered : s.Numbered) {answer? : Option Bool}
    {t : Session σ} (hfails : s.Fails h action answer? t) :
    s.Leaves h action answer? (t.adapter.table.phase? h) := by
  cases hfails with
  | refused hattempt hreply => exact leaves_refused hnumbered hattempt hreply
  | reported hattempt haccepted hfree hanswer =>
    exact leaves_reported hs hattempt haccepted hfree hanswer
  | told hattempt hparked hfree htold =>
    have hnext := steady_perform hs action
    cases action with
    | bind k address =>
      cases hattempt
      exact leaves_told hnext (enters_bind hnumbered address) hparked hfree htold nofun
    | listen k backlog =>
      cases hattempt
      exact leaves_told hnext (enters_listen hnumbered backlog) hparked hfree htold nofun
    | connect => cases hparked
    | _ => exact hattempt.elim

/-- After every history, a bind, a listen or a connect of a stream that fails leaves the socket in
the phase it was in, if and only if its end was not reported as a success in the meantime and it is
no connect of a bound socket. A bound socket whose connect fails is unbound. -/
theorem failed_restores_iff (chip : σ) (packets : Nat) (config : Config)
    (before : List (Action σ)) {h : Handle} {action : Action σ} {answer? : Option Bool}
    {t : Session σ} (hfails : ((new chip packets config).run before).Fails h action answer? t) :
    let s := (new chip packets config).run before
    (t.adapter.table.phase? h = s.adapter.table.phase? h ↔
      answer? ≠ some true ∧ ¬ s.ConnectsBound h action) ∧
    (s.ConnectsBound h action → t.adapter.table.phase? h = some .unbound) := by
  intro s
  have hleaves := hfails.leaves (steady_run (Adapter.steady_new chip packets config) before)
    (numbered_run (numbered_new chip packets config) before)
  generalize t.adapter.table.phase? h = after at hleaves
  cases hleaves with
  | restored hanswer hplain =>
    exact ⟨iff_of_true rfl ⟨hanswer, hplain⟩, fun hbound => absurd hbound hplain⟩
  | unbound hanswer hbound =>
    refine ⟨iff_of_false (fun hsame => ?_) fun hplain => hplain.2 hbound, fun _ => rfl⟩
    cases hsame.trans hbound.2
  | reached hplain hq =>
    exact ⟨iff_of_false (fun hsame => hq hsame.symm) fun hnot => hnot.1 rfl,
      fun hbound => absurd hbound hplain⟩

/-- A bound socket is to listen, and the time for it runs out: it is bound as before. -/
theorem failed_restores_timed_out :
    let before := [.create .inet .stream, .bind 0 (.v4 ⟨⟨10, 0, 0, 1⟩, 80⟩),
      .dispatch (.socket 0 (.bound .success)), .poll 0]
    let s := (new ScriptedChip.new 4 .defaults).run before
    let t := ((s.perform (.listen 0 4)).2.run [.advance 1000]).perform (.poll 1)
    t.1 = .finished (.call (.error .timedOut)) ∧ s.adapter.table.phase? 0 = some .bound ∧
      t.2.adapter.table.phase? 0 = s.adapter.table.phase? 0 := by
  intro before s t
  have hfree : ∀ next ∈ [Action.advance 1000], ¬ (next : Action ScriptedChip).OperatesOn 0 :=
    List.forall_mem_singleton.mpr id
  have hparked : (s.perform (.listen 0 4)).1 = .parked 1 := rfl
  let c : Call := ⟨some .listen, ⟨0, 1⟩, 1000, none⟩
  have htold : t.1 = .finished (.call (.error .timedOut)) :=
    reply_of_result (c := c) (by decide +kernel) (by decide +kernel)
  have hanswer : (s.perform (.listen 0 4)).2.answer? 0 [.advance 1000] = none := by decide +kernel
  have hfails : s.Fails 0 (.listen 0 4) none t.2 := hanswer ▸ .told rfl hparked hfree htold
  obtain ⟨hrestored, -⟩ := failed_restores_iff ScriptedChip.new 4 .defaults before hfails
  exact ⟨htold, rfl, hrestored.mpr ⟨nofun, nofun⟩⟩

/-- A bound socket is to be connected, and the chip reports that it could not be: the socket is
unbound. -/
theorem failed_connect_unbinds :
    ¬ ∀ (before : List (Action ScriptedChip)) (h : Handle) (action : Action ScriptedChip)
      (answer? : Option Bool) (t : Session ScriptedChip),
      let s := (new ScriptedChip.new 4 .defaults).run before
      s.Fails h action answer? t → answer? ≠ some true →
      t.adapter.table.phase? h = s.adapter.table.phase? h := by
  intro halways
  let before : List (Action ScriptedChip) := [.create .inet .stream,
    .bind 0 (.v4 ⟨⟨10, 0, 0, 1⟩, 80⟩), .dispatch (.socket 0 (.bound .success)), .poll 0]
  let remote : SocketAddr := .v4 ⟨⟨93, 184, 216, 34⟩, 80⟩
  let rest : List (Action ScriptedChip) := [.dispatch (.socket 0 (.connected ⟨-12⟩))]
  let s := (new ScriptedChip.new 4 .defaults).run before
  have hfree : ∀ next ∈ rest, ¬ next.OperatesOn 0 := List.forall_mem_singleton.mpr id
  let t := (s.perform (.connect 0 remote)).2.run rest
  have hanswer : (s.perform (.connect 0 remote)).2.answer? 0 rest = some false := by decide +kernel
  have hstream : s.adapter.table.kind? 0 = some .stream := by decide +kernel
  have haccepted : (s.adapter.connect 0 remote).1 = .ok () := by decide +kernel
  have hfails : s.Fails 0 (.connect 0 remote) (some false) t :=
    .reported ⟨rfl, hstream⟩ ((reply_connect ..).trans (congrArg Reply.result haccepted)) hfree hanswer
  have hsame := halways before 0 (.connect 0 remote) (some false) t hfails nofun
  have hbefore : s.adapter.table.phase? 0 = some .bound := by decide +kernel
  have hafter : t.adapter.table.phase? 0 = some .unbound := by decide +kernel
  rw [hafter, hbefore] at hsame
  cases hsame

end Session

end WifiAdapter
