import WifiAdapter.Proofs.Waiting
import WifiAdapter.ScriptedChip

/-! What a parked caller is told when its socket is not closed under it.

While no socket is closed that a call waits on, every parked call waits on a socket of its
own (`Session.Orderly`), and a call that is polled is told what was posted last. That is
the status with which its operation came to its end, unless an end of the stream was
posted in its place. -/
namespace WifiAdapter

/-! ### Beginning to wait -/

/-- An operation that a phase admits is under way afterwards. -/
theorem Purpose.apply_request {p : Purpose} {q : Phase}
    (h : (q.transition p.request).rejected = false) : q.apply p.request = p.pending := by
  rw [Phase.rejected_transition] at h
  cases p <;> cases q <;> first | rfl | cases h

/-- Taking back an operation that was just begun leads to where it began. -/
theorem Purpose.undo_request {p : Purpose} {q : Phase}
    (h : (q.transition p.request).rejected = false) :
    (q.apply p.request).apply (p.done false) = q := by
  rw [Phase.rejected_transition] at h
  cases p <;> cases q <;> first | rfl | cases h

namespace Adapter
variable {σ : Type} [Chip σ] {a b : Adapter σ} {h : Handle} {purpose : Purpose} {command : Command}

/-- Nobody begins to wait where somebody waits already. -/
theorem beginCall_marked (purpose : Purpose) (command : Command)
    (hmarked : (a.table.get? h).any (·.waiting) = true) :
    a.beginCall h purpose command = (.error .again, a) := by
  unfold beginCall SocketTable.get
  cases hr : a.table.get? h with
  | none =>
    rw [hr] at hmarked
    cases hmarked
  | some r =>
    rw [hr] at hmarked
    exact if_pos hmarked

/-- An operation that begins was admitted, and nothing is posted for it yet. -/
theorem beginCall_ok (hbegin : a.beginCall h purpose command = (.ok (), b)) :
    ∃ r, a.table.get? h = some r ∧ (r.phase.transition purpose.request).rejected = false ∧
      b = ((a.modify h (·.apply purpose.request)).disarm h).order command := by
  unfold beginCall SocketTable.get at hbegin
  cases hr : a.table.get? h with
  | none =>
    rw [hr] at hbegin
    cases hbegin
  | some r =>
    rw [hr] at hbegin
    dsimp only at hbegin
    by_cases hwaiting : r.waiting = true
    · rw [if_pos hwaiting] at hbegin
      cases hbegin
    · rw [if_neg hwaiting] at hbegin
      by_cases hrejected : (r.phase.transition purpose.request).rejected = true
      · rw [if_pos hrejected] at hbegin
        cases hbegin
      · rw [if_neg hrejected] at hbegin
        refine ⟨r, rfl, Bool.eq_false_iff.mpr hrejected, ?_⟩
        split at hbegin
        · next hissue =>
          cases hbegin
          exact (congrArg Prod.snd hissue).symm
        · cases hbegin

/-- An operation that does not begin, or that the chip does not take, changes no more than what was
asked of the chip and what is posted. -/
theorem beginCall_error {error : SocketError}
    (hbegin : a.beginCall h purpose command = (.error error, b)) :
    b = { a with bus := b.bus, completions := b.completions } := by
  unfold beginCall SocketTable.get at hbegin
  cases hr : a.table.get? h with
  | none =>
    rw [hr] at hbegin
    cases hbegin
    rfl
  | some r =>
    rw [hr] at hbegin
    dsimp only at hbegin
    split at hbegin
    · cases hbegin
      rfl
    · split at hbegin
      · cases hbegin
        rfl
      · next hadmits =>
        split at hbegin
        · cases hbegin
        · next c hissue =>
          cases hbegin
          obtain rfl : (((a.modify h (·.apply purpose.request)).disarm h).order command) = c :=
            congrArg Prod.snd hissue
          have htable : (a.table.modify h (·.apply purpose.request)).modify h
              (·.apply (purpose.done false)) = a.table := by
            refine SocketTable.modify_undone fun r' hr' => ?_
            cases hr.symm.trans hr'
            have hphase := Purpose.undo_request (Bool.eq_false_iff.mpr hadmits)
            unfold SocketRecord.apply
            dsimp only
            rw [hphase]
          exact congrArg (fun table => ({ a with
            bus := (((a.modify h (·.apply purpose.request)).disarm h).order command).bus
            completions := a.completions.set h none
            table } : Adapter σ)) htable

theorem get?_beginCall_error {error : SocketError}
    (hbegin : a.beginCall h purpose command = (.error error, b)) :
    b.table.get? h = a.table.get? h := by
  rw [beginCall_error hbegin]

end Adapter

/-- A call that is parked while its operation is under way and nothing is posted. -/
theorem Adapter.waits_parked {σ : Type} {a : Adapter σ} {h : Handle} {r : SocketRecord} {p : Purpose}
    (hr : a.table.get? h = some r) (hphase : r.phase = p.pending)
    (hnone : a.completions.get h = none) (deadline : Nat) :
    ((a.modify h fun r => { r with waiting := true }).enter (.parked (a.table.incarnation h))).Waits
      { purpose? := some p, socket := a.table.incarnation h, deadline, seen? := none } := by
  have hvigil : ((a.modify h fun r => { r with waiting := true }).enter
      (.parked (a.table.incarnation h))).bus.vigil (a.table.incarnation h) = [] := by
    unfold Bus.vigil
    refine (Entry.since_concat a.bus.journal _).trans (if_pos ?_)
    simp [Entry.parks]
  refine ⟨?_, ⟨p, { r with waiting := true }, rfl, ?_, rfl, ?_⟩, ?_⟩
  · show (a.table.modify h _).isCurrent (a.table.incarnation h) = true
    rw [SocketTable.isCurrent_modify, SocketTable.isCurrent_incarnation]
    unfold SocketTable.isOpen
    rw [hr]
    rfl
  · exact SocketTable.get?_modify_self hr
  · rw [hvigil, hphase]
    exact .pending
  · rw [hvigil]
    exact (Call.hears_of_untaken rfl).mpr ⟨by simp, hnone⟩

namespace Call
variable {σ : Type} [Chip σ] {a b : Adapter σ} {h : Handle}

/-- A call whose operation began waits. -/
theorem waits_start {p : Purpose} {command : Command}
    (hbegin : a.beginCall h p command = (.ok (), b)) (deadline : Nat) :
    ∃ c, (start (some p) h deadline b).1 = .waiting c ∧ c.socket.handle = h ∧
      (start (some p) h deadline b).2.Waits c ∧ c.seen? = none ∧
      (start (some p) h deadline b).2.completions.get h = none := by
  obtain ⟨r, hr, hadmits, hb⟩ := Adapter.beginCall_ok hbegin
  have hnone : b.completions.get h = none := by
    rw [hb]
    exact Slots.get_set_self ..
  have hget : b.table.get? h = some (r.apply p.request) := by
    rw [hb]
    exact SocketTable.get?_modify_self hr
  have hopen : b.table.isOpen h = true := by
    unfold SocketTable.isOpen
    rw [hget]
    rfl
  have hwaits := Adapter.waits_parked hget (Purpose.apply_request hadmits) hnone deadline
  unfold start
  rw [if_pos hopen]
  dsimp only
  rw [Adapter.takeCompletion_none _ hnone, conclude_unseen rfl]
  exact ⟨_, rfl, rfl, hwaits, rfl, hnone⟩

/-- The first poll of a bind or a listen. -/
structure Begun (h : Handle) (a : Adapter σ) (x : Outcome × Adapter σ) : Prop where
  /-- Where somebody waits already nothing is done. -/
  busy : (a.table.get? h).any (·.waiting) = true → x.2 = a ∧ ∃ result, x.1 = .finished result
  /-- A call that is finished at once has failed. -/
  failed : ∀ result, x.1 = .finished result → ∃ error, result = .error error
  /-- A call that is not finished waits on the socket. -/
  waits : ∀ c, x.1 = .waiting c → c.socket.handle = h ∧ x.2.Waits c
  /-- It has seen nothing, and nothing is posted for it. -/
  fresh : ∀ c, x.1 = .waiting c → c.seen? = none ∧ x.2.completions.get h = none

omit [Chip σ] in
theorem begun_failed (h : Handle) (a : Adapter σ) (error : SocketError) :
    Begun h a (.finished (.error error), a) where
  busy _ := ⟨rfl, _, rfl⟩
  failed _ hr := ⟨error, (Polled.finished.inj hr).symm⟩
  waits _ hc := by cases hc
  fresh _ hc := by cases hc

theorem begun_beginCall (a : Adapter σ) (h : Handle) (p : Purpose) (command : Command)
    (deadline : Adapter σ → Nat) :
    Begun h a
      (match a.beginCall h p command with
      | (.error error, a) => (.finished (.error error), a)
      | (.ok _, a) => start (some p) h (deadline a) a) := by
  cases hbegin : a.beginCall h p command with
  | mk result b =>
    have hmarked := Adapter.beginCall_marked (a := a) (h := h) p command
    rw [hbegin] at hmarked
    cases result with
    | error error =>
      refine { begun_failed h b error with busy := fun hbusy => ?_ }
      exact ⟨congrArg Prod.snd (hmarked hbusy), _, rfl⟩
    | ok value =>
      obtain ⟨c, hc, hhandle, hwaits, hseen, hnone⟩ := waits_start hbegin (deadline b)
      refine ⟨fun hbusy => (by cases hmarked hbusy), fun result hr => ?_, fun d hd => ?_,
        fun d hd => ?_⟩
      · cases hc.symm.trans hr
      · cases hc.symm.trans hd
        exact ⟨hhandle, hwaits⟩
      · cases hc.symm.trans hd
        exact ⟨hseen, hnone⟩

theorem begun_bind (h : Handle) (address : SocketAddr) (now : Nat) (a : Adapter σ) :
    Begun h a (bind h address now a) := by
  unfold bind
  split
  · exact begun_failed h a _
  · exact begun_beginCall a h .bind _ fun a => now + a.config.bindTimeout

theorem begun_listen (h : Handle) (backlog : UInt8) (now : Nat) (a : Adapter σ) :
    Begun h a (listen h backlog now a) := by
  unfold listen
  split
  · exact begun_failed h a _
  · split
    · exact begun_failed h a _
    · exact begun_beginCall a h .listen _ fun a => now + a.config.listenTimeout

end Call

/-! ### Parked calls -/

namespace Session
variable {σ : Type} {s s' : Session σ} {id k : Nat} {c : Call} {t : Task}

/-- A call is parked under a number. -/
def Parks (s : Session σ) (id : Nat) (c : Call) : Prop := ⟨id, .call c⟩ ∈ s.tasks

theorem parks_of_find? (h : s.find? id = some (.call c)) : s.Parks id c := by
  obtain ⟨⟨k, task⟩, hfind, htask⟩ := Option.map_eq_some_iff.mp h
  have hk : k = id := by simpa using List.find?_some hfind
  change task = .call c at htask
  subst hk htask
  exact List.mem_of_find?_eq_some hfind

theorem parks_remove : (s.remove id).Parks k c ↔ s.Parks k c ∧ k ≠ id := by
  simp [Parks, remove]

theorem parks_park (h : (s.park t).2.Parks k c) :
    s.Parks k c ∨ (k = s.nextTask ∧ t = .call c) := by
  rcases List.mem_append.mp h with h | h
  · exact .inl h
  · cases List.mem_singleton.mp h
    exact .inr ⟨rfl, rfl⟩

theorem parks_replace (h : (s.replace id t).Parks k c) :
    (s.remove id).Parks k c ∨ (k = id ∧ t = .call c) := by
  obtain ⟨p, hp, heq⟩ := List.mem_map.mp h
  by_cases hid : p.id = id
  · rw [if_pos hid] at heq
    cases heq
    exact .inr ⟨hid, rfl⟩
  · rw [if_neg hid] at heq
    subst heq
    exact .inl (parks_remove.mpr ⟨hp, hid⟩)

/-- Every parked call waits, each on a socket of its own. -/
structure Orderly (s : Session σ) : Prop where
  steady : s.adapter.Steady
  waits : ∀ id c, s.Parks id c → s.adapter.Waits c
  apart : ∀ id k c d, s.Parks id c → s.Parks k d → c.socket.handle = d.socket.handle → id = k

theorem orderly_new (chip : σ) (packets : Nat) (config : Config) :
    (new chip packets config).Orderly where
  steady := Adapter.steady_new chip packets config
  waits id c h := by cases h
  apart id k c d h := by cases h

/-- A task is parked: if it is a call, it waits on a socket that no other call waits on. -/
theorem Orderly.admit (hs : s.Orderly) (hadapter : s'.adapter = s.adapter)
    (htasks : ∀ k c, s'.Parks k c → s.Parks k c ∨ (k = id ∧ t = .call c))
    (hnew : ∀ c, t = .call c → s.adapter.Waits c ∧
      ∀ k d, s.Parks k d → d.socket.handle ≠ c.socket.handle) : s'.Orderly where
  steady := hadapter ▸ hs.steady
  waits k c hc := by
    rw [hadapter]
    rcases htasks k c hc with hc | ⟨_, ht⟩
    · exact hs.waits k c hc
    · exact (hnew c ht).1
  apart k l c d hc hd hhandle := by
    rcases htasks k c hc with hc | ⟨hk, ht⟩
    · rcases htasks l d hd with hd | ⟨hl, ht⟩
      · exact hs.apart k l c d hc hd hhandle
      · exact absurd hhandle ((hnew d ht).2 k c hc)
    · rcases htasks l d hd with hd | ⟨hl, ht'⟩
      · exact absurd hhandle.symm ((hnew c ht).2 l d hd)
      · rw [hk, hl]

variable [Chip σ]

/-- Something is done to the adapter: the calls that stay parked go on waiting if it is not
their sockets that are closed or called on. -/
theorem Orderly.advance (hs : s.Orderly) {D : Deed → Prop} {site? : Option Handle}
    (hyields : Adapter.Yields D site? s.adapter s'.adapter)
    (htasks : ∀ k d, s'.Parks k d → s.Parks k d ∧ site? ≠ some d.socket.handle) :
    s'.Orderly where
  steady := (hyields hs.steady).steady hs.steady
  waits k d hd := (hyields hs.steady).waits hs.steady (htasks k d hd).2
    (hs.waits k d (htasks k d hd).1)
  apart k l c d hc hd := hs.apart k l c d (htasks k c hc).1 (htasks l d hd).1

/-- An operation begins where no call waits; if it goes on as a call, the call waits there. -/
theorem orderly_begin (hs : s.Orderly) {f : Nat → Adapter σ → Task.Outcome × Adapter σ}
    (site? : Option Handle) (hyields : Adapter.Yields Deed.Any site? s.adapter (f s.clock s.adapter).2)
    (hsite : ∀ k d, s.Parks k d → site? ≠ some d.socket.handle)
    (hcall : ∀ c, (f s.clock s.adapter).1 = .waiting (.call c) →
      site? = some c.socket.handle ∧ (f s.clock s.adapter).2.Waits c) :
    (Reply.ofBegun (s.begin f)).2.Orderly := by
  rw [Reply.ofBegun_snd]
  unfold begin
  revert hyields hcall
  generalize f s.clock s.adapter = first
  obtain ⟨outcome, b⟩ := first
  intro hyields hcall
  have hb : ({ s with adapter := b } : Session σ).Orderly :=
    hs.advance hyields fun k d hd => ⟨hd, hsite k d hd⟩
  cases outcome with
  | finished result => exact hb
  | waiting t =>
    refine hb.admit rfl (fun k c hc => parks_park hc) fun c ht => ?_
    subst ht
    obtain ⟨hc, hwaits⟩ := hcall c rfl
    exact ⟨hwaits, fun k d hd heq => hsite k d hd (heq ▸ hc)⟩

/-- A bind or a listen begins. -/
theorem orderly_call (hs : s.Orderly) {h : Handle} {f : Nat → Adapter σ → Call.Outcome × Adapter σ}
    (hyields : ∀ now a, Adapter.Yields Deed.Any (some h) a (f now a).2)
    (hbegun : ∀ now a, Call.Begun h a (f now a)) :
    (Reply.ofBegun (s.begin fun now a => (Task.ofCall (f now a).1, (f now a).2))).2.Orderly := by
  have hfirst := hbegun s.clock s.adapter
  by_cases hmarked : (s.adapter.table.get? h).any (·.waiting) = true
  · obtain ⟨hsame, result, hfinished⟩ := hfirst.busy hmarked
    refine orderly_begin hs none ?_ (fun _ _ _ => nofun) fun c hc => ?_
    · dsimp only
      rw [hsame]
      exact .refl _
    · dsimp only at hc
      rw [hfinished] at hc
      cases hc
  · refine orderly_begin hs (some h) (hyields _ _) (fun k d hd heq => hmarked ?_) fun c hc => ?_
    · cases heq
      exact (hs.waits k d hd).marked
    · have hwaiting : (f s.clock s.adapter).1 = .waiting c := by
        revert hc
        dsimp only
        cases (f s.clock s.adapter).1 with
        | waiting d => exact fun hc => by cases hc; rfl
        | finished result => exact fun hc => by cases hc
      obtain ⟨hhandle, hwaits⟩ := hfirst.waits c hwaiting
      exact ⟨congrArg some hhandle.symm, hwaits⟩

/-- A parked task is polled; if it goes on as a call, it was a call on the same socket. -/
theorem orderly_pollWith (hs : s.Orderly) {f : Task → Nat → Adapter σ → Task.Outcome × Adapter σ}
    (hyields : ∀ (t : Task) now a, Adapter.Yields Deed.Any t.site? a (f t now a).2)
    (hnext : ∀ t c now a, (∀ d, t = .call d → a.Waits d) → (f t now a).1 = .waiting (.call c) →
      t.site? = some c.socket.handle ∧ (f t now a).2.Waits c) (id : Nat) :
    (Reply.ofPolled (s.pollWith f id)).2.Orderly := by
  rw [Reply.ofPolled_snd]
  unfold pollWith
  cases hfind : s.find? id with
  | none => exact hs
  | some t =>
    have hpolled (d : Call) (ht : t = .call d) : s.Parks id d := parks_of_find? (ht ▸ hfind)
    have hy := hyields t s.clock s.adapter
    have hn (c : Call) := hnext t c s.clock s.adapter fun d ht => hs.waits id d (hpolled d ht)
    -- No other call waits on the socket of the task.
    have hsite (k : Nat) (d : Call) (hd : s.Parks k d) (hk : k ≠ id) :
        t.site? ≠ some d.socket.handle := by
      cases t with
      | call c => exact fun heq => hk (hs.apart k id d c hd (hpolled c rfl) (Option.some.inj heq).symm)
      | _ => exact nofun
    revert hy hn
    dsimp only
    generalize f t s.clock s.adapter = polled
    obtain ⟨outcome, b⟩ := polled
    intro hy hn
    have hb : (({ s with adapter := b } : Session σ).remove id).Orderly :=
      hs.advance hy fun k d hd =>
        have hd := parks_remove.mp hd
        ⟨hd.1, hsite k d hd.1 hd.2⟩
    cases outcome with
    | finished result => exact hb
    | waiting t' =>
      refine hb.admit rfl (fun k c hc => parks_replace hc) fun c ht => ?_
      subst ht
      obtain ⟨hc, hwaits⟩ := hn c rfl
      refine ⟨hwaits, fun k d hd heq => ?_⟩
      have hd := parks_remove.mp hd
      exact hsite k d hd.1 hd.2 (heq ▸ hc)

end Session

namespace Task
variable {σ : Type} [Chip σ]

omit [Chip σ] in
theorem pollPost_ne_call (note : Notification) (a : Adapter σ) (c : Call) :
    (pollPost note a).1 ≠ .waiting (.call c) := by
  unfold pollPost
  split <;> nofun

omit [Chip σ] in
theorem pollEvent_ne_call (a : Adapter σ) (c : Call) : (pollEvent a).1 ≠ .waiting (.call c) := by
  unfold pollEvent
  split <;> nofun

/-- A task that goes on as a call was that call. -/
theorem waits_poll (t : Task) (c : Call) (now : Nat) (a : Adapter σ)
    (h : ∀ d, t = .call d → a.Waits d) (hc : (t.poll now a).1 = .waiting (.call c)) :
    t.site? = some c.socket.handle ∧ (t.poll now a).2.Waits c := by
  cases t with
  | call d =>
    have hwaits := h d rfl
    obtain ⟨p, r, hp, hr, _⟩ := hwaits.stage
    change ofCall (d.poll now a).1 = _ at hc
    rcases hwaits.poll now hp hr with ⟨_, heq⟩ | ⟨heq, _⟩
    · rw [heq] at hc
      cases hc
      refine ⟨rfl, ?_⟩
      show (c.poll now a).2.Waits c
      rw [heq]
      exact hwaits
    · rw [heq] at hc
      cases hc
  | post note => exact absurd hc (pollPost_ne_call note a c)
  | nextEvent => exact absurd hc (pollEvent_ne_call a c)
  | work w => cases hc

omit [Chip σ] in
theorem waits_contend (t : Task) (c : Call) (now : Nat) (a : Adapter σ)
    (h : ∀ d, t = .call d → a.Waits d) (hc : (t.contend now a).1 = .waiting (.call c)) :
    t.site? = some c.socket.handle ∧ (t.contend now a).2.Waits c := by
  cases t with
  | call d =>
    have hd : (d.look now a).1 = c := Task.call.inj (Polled.waiting.inj hc)
    subst hd
    obtain ⟨hsocket, _⟩ := d.look_keeps now (a := a)
    exact ⟨congrArg (fun i : Incarnation => some i.handle) hsocket.symm, ((h d rfl).look now).1⟩
  | post note => exact absurd hc (pollPost_ne_call note a c)
  | nextEvent => exact absurd hc (pollEvent_ne_call a c)
  | work w => cases hc

end Task

/-! ### Histories -/

namespace Session
variable {σ : Type} [Chip σ] {s : Session σ}

/-- No socket is closed that a call waits on. -/
def Spares (s : Session σ) : Action σ → Prop
  | .close h => ∀ id c, s.Parks id c → c.socket.handle ≠ h
  | _ => True

/-- A history in which no socket is closed while a call waits on it. -/
def Patient (s : Session σ) : List (Action σ) → Prop
  | [] => True
  | action :: rest => s.Spares action ∧ Patient (s.perform action).2 rest

theorem orderly_perform (hs : s.Orderly) (action : Action σ) (hspares : s.Spares action) :
    (s.perform action).2.Orderly := by
  have hidle (hsite : s.site? action = none) (htasks : (s.perform action).2.tasks = s.tasks) :
      (s.perform action).2.Orderly := by
    refine hs.advance (yields_perform s action) fun k d hd => ⟨?_, by rw [hsite]; nofun⟩
    unfold Parks at hd ⊢
    rwa [htasks] at hd
  cases action with
  | close h =>
    exact hs.advance (yields_perform s (.close h)) fun k d hd =>
      ⟨hd, fun heq => hspares k d hd (Option.some.inj heq).symm⟩
  | bind h address =>
    exact orderly_call hs (Call.yields_bind h address) (Call.begun_bind h address)
  | listen h backlog =>
    exact orderly_call hs (Call.yields_listen h backlog) (Call.begun_listen h backlog)
  | post note =>
    exact orderly_begin hs none (Task.leads_pollPost note _ trivial).yields (fun _ _ _ => nofun)
      fun c hc => absurd hc (Task.pollPost_ne_call note _ c)
  | nextEvent =>
    exact orderly_begin hs none (Task.leads_pollEvent _ trivial).yields (fun _ _ _ => nofun)
      fun c hc => absurd hc (Task.pollEvent_ne_call _ c)
  | work =>
    exact orderly_begin hs none (Task.yields_poll (.work .fresh) _ _) (fun _ _ _ => nofun)
      fun c hc => by cases hc
  | poll id =>
    exact orderly_pollWith hs Task.yields_poll Task.waits_poll id
  | contend id =>
    exact orderly_pollWith hs (fun t now a => t.yields_contend now a trivial trivial) Task.waits_contend id
  | cancel id =>
    exact hs.advance (yields_perform s (.cancel id)) fun k d hd => ⟨(parks_remove.mp hd).1, nofun⟩
  | receive h =>
    refine hidle rfl ?_
    show (s.receive h).2.tasks = s.tasks
    unfold receive
    split <;> rfl
  | drop place =>
    refine hidle rfl ?_
    show (s.drop place).2.tasks = s.tasks
    unfold drop
    split <;> rfl
  | _ => exact hidle rfl rfl

theorem orderly_run (hs : s.Orderly) {actions : List (Action σ)} (hpatient : s.Patient actions) :
    (s.run actions).Orderly := by
  induction actions generalizing s with
  | nil => exact hs
  | cons action rest ih => exact ih (orderly_perform hs action hpatient.1) hpatient.2

end Session

/-! ### What a call is told -/

namespace Session
variable {σ : Type} [Chip σ]

/-- What the poll of a call answers. -/
theorem poll_call_fst {s : Session σ} {id : Nat} {c : Call} (hc : s.find? id = some (.call c)) :
    (s.poll id).1 =
      match (c.poll s.clock s.adapter).1 with
      | .waiting _ => none
      | .finished result => some (.call result) := by
  have htask : (Task.call c).poll s.clock s.adapter =
      (Task.ofCall (c.poll s.clock s.adapter).1, (c.poll s.clock s.adapter).2) := rfl
  unfold poll pollWith
  rw [hc]
  dsimp only
  rw [htask]
  cases (c.poll s.clock s.adapter).1 <;> rfl

/-- The poll of a call does to the adapter what the poll of the task does, and answers
once the call is finished. -/
theorem poll_call {s : Session σ} {id : Nat} {c : Call} (hc : s.find? id = some (.call c)) :
    (s.poll id).2.adapter = (c.poll s.clock s.adapter).2 ∧
      ∀ result, (s.poll id).1 = some (.call result) ↔
        (c.poll s.clock s.adapter).1 = .finished result := by
  refine ⟨?_, fun result => ?_⟩
  · rw [poll, adapter_pollWith, hc]
    rfl
  · rw [poll_call_fst hc]
    cases (c.poll s.clock s.adapter).1 with
    | waiting d => exact ⟨nofun, nofun⟩
    | finished value =>
      exact ⟨fun h => by cases h; rfl, fun h => by cases h; rfl⟩

theorem adapter_poll_call {s : Session σ} {id : Nat} {c : Call}
    (hc : s.find? id = some (.call c)) :
    (s.perform (.poll id)).2.adapter = (c.poll s.clock s.adapter).2 :=
  (congrArg Session.adapter (Reply.ofPolled_snd _)).trans (poll_call hc).1

/-- While the adapter is busy a call only looks. -/
theorem table_contend_call {s : Session σ} {id : Nat} {c : Call}
    (hc : s.find? id = some (.call c)) :
    (s.perform (.contend id)).2.adapter.table = s.adapter.table := by
  rw [show (s.perform (.contend id)).2.adapter = _ from adapter_ofPolled _ s id, hc]
  exact (c.look_keeps s.clock (a := s.adapter)).2.2

/-- A parked call whose operation came to its end finishes. It is told the status of that
end just if this is what it hears, and so it is if the stream has not ended meanwhile. A
call that fails leaves its socket where success leads to just if the socket was there: then
the operation went well, and the call was told of the end of a stream in its place. -/
theorem told_status_iff (chip : σ) (packets : Nat) (config : Config) (actions : List (Action σ))
    (hpatient : (new chip packets config).Patient actions) {id : Nat} {c : Call}
    (hc : ((new chip packets config).run actions).find? id = some (.call c)) :
    let s := (new chip packets config).run actions
    let journal := s.adapter.bus.vigil c.socket
    let phase (a : Adapter σ) := (a.table.get? c.socket.handle).map (·.phase)
    (∀ p status, .completed c.socket p status ∈ journal →
      c.purpose? = some p ∧ (∃ result, (s.poll id).1 = some (.call result)) ∧
      ((s.poll id).1 = some (.call status.result) ↔
        (heard c.socket journal).map (·.result) = some status.result) ∧
      ((∀ e ∈ journal, e.ending? c.socket = none) →
        (s.poll id).1 = some (.call status.result))) ∧
    (∀ p error, c.purpose? = some p → (s.poll id).1 = some (.call (.error error)) →
      (phase (s.poll id).2.adapter = some p.goal ↔ phase s.adapter = some p.goal) ∧
      (phase s.adapter = some p.goal →
        (∃ status, .completed c.socket p status ∈ journal ∧ status.isSuccess = true) ∧
        ∃ e ∈ journal, (e.ending? c.socket).isSome = true)) := by
  intro s journal phase
  have hwaits : s.adapter.Waits c :=
    (orderly_run (orderly_new chip packets config) hpatient).waits id c (parks_of_find? hc)
  obtain ⟨hadapter, hresult⟩ := poll_call hc
  obtain ⟨q, r, hq, hr, _, hstage⟩ := hwaits.stage
  have hpoll := hwaits.poll s.clock hq hr
  refine ⟨fun p status hmem => ?_, fun p error hp hfailed => ?_⟩
  · obtain ⟨hp, x, hx, hcause⟩ := hwaits.hearing_of_completed hmem
    have hfinished : (c.poll s.clock s.adapter).1 = .finished x.result := by
      rcases hpoll with ⟨hnone, _⟩ | ⟨hfinished, _⟩
      · rw [hx] at hnone
        cases hnone
      · rw [hfinished, hx]
        rfl
    have hheard : heard c.socket journal = some x := hx
    refine ⟨hp, ⟨x.result, (hresult _).mpr hfinished⟩, ?_, fun hquiet => ?_⟩
    · rw [hresult, hfinished, hheard]
      simp
    · rcases hcause with rfl | ⟨e, he, hending⟩
      · exact (hresult _).mpr hfinished
      · rw [hquiet e he] at hending
        cases hending
  · have hpq : p = q := Option.some.inj (hp.symm.trans hq)
    subst hpq
    have hcall := (hresult _).mp hfailed
    rcases hpoll with ⟨_, hwaiting⟩ | ⟨hfinished, hafter⟩
    · rw [hwaiting] at hcall
      cases hcall
    · rw [hfinished] at hcall
      have herror := Polled.finished.inj hcall
      rw [herror] at hafter
      have hbefore : phase s.adapter = some r.phase := congrArg (Option.map _) hr
      have hleft : phase (s.poll id).2.adapter = some (r.phase.apply (p.done false)) :=
        hadapter ▸ hafter
      rw [hleft, hbefore]
      refine ⟨?_, fun hgoal => hwaits.goal_of_error hp hr (Option.some.inj hgoal) herror⟩
      simpa using hstage.undo_eq_goal_iff

/-- A bind that is told of its success. -/
theorem told_status_success :
    let actions := [.create .inet .datagram, .bind 7 (.v4 ⟨⟨0, 0, 0, 0⟩, 68⟩),
      .dispatch (.socket 7 (.bound .success))]
    let s := (new ScriptedChip.new 4 .defaults).run actions
    (new ScriptedChip.new 4 .defaults).Patient actions ∧
      s.find? 0 = some (.call ⟨some .bind, ⟨7, 1⟩, 1000, none⟩) ∧
      (s.poll 0).1 = some (.call (.ok ())) := by
  have hpatient : (new ScriptedChip.new 4 .defaults).Patient
      [.create .inet .datagram, .bind 7 (.v4 ⟨⟨0, 0, 0, 0⟩, 68⟩),
        .dispatch (.socket 7 (.bound .success))] := ⟨trivial, trivial, trivial, trivial⟩
  refine ⟨hpatient, rfl, ?_⟩
  exact ((told_status_iff ScriptedChip.new 4 .defaults _ hpatient (c := ⟨some .bind, ⟨7, 1⟩, 1000, none⟩)
    rfl).1 .bind .success (by decide)).2.2.2 (by decide)

/-- The chip reports that a bind went well and then that the stream ended, before the caller
is polled: the bind fails, and its socket stays bound. -/
theorem told_end_of_stream :
    let actions := [.create .inet .datagram, .bind 7 (.v4 ⟨⟨0, 0, 0, 0⟩, 68⟩),
      .dispatch (.socket 7 (.bound .success)), .dispatch (.socket 7 (.received ⟨0, 0, default, []⟩))]
    let s := (new ScriptedChip.new 4 .defaults).run actions
    (new ScriptedChip.new 4 .defaults).Patient actions ∧
      s.find? 0 = some (.call ⟨some .bind, ⟨7, 1⟩, 1000, none⟩) ∧
      .completed ⟨7, 1⟩ .bind .success ∈ s.adapter.bus.vigil ⟨7, 1⟩ ∧
      (s.poll 0).1 = some (.call (.error .connectionAborted)) ∧
      ((s.poll 0).2.adapter.table.get? 7).map (·.phase) = some .bound :=
  ⟨⟨trivial, trivial, trivial, trivial, trivial⟩, rfl, by decide, rfl, rfl⟩

end Session

end WifiAdapter
