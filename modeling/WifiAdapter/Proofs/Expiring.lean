import WifiAdapter.Proofs.Restoring
import WifiAdapter.Proofs.Visits
import WifiAdapter.Proofs.Waking

/-! When the time of a bind or a listen runs out.

A call is parked with a deadline, which stays what it was (`Session.deadline_before`), and a call
notices that its time has run out only when it has (`Session.Timely`). What is posted for the call
counts more than the clock, also if it is posted between the look at the clock and the poll that
concludes. So a call of which nothing was heard times out with the first poll at or after its
deadline, and every other poll tells it what was posted.

`Session.timed_out_iff`: for every history in which no socket is closed while a call waits on it,
what a poll of a bind or a listen answers, by the clock and by what was reported while it was
parked. The chip may report that a command timed out; a completion with that status is told as such,
whatever the clock says. -/
namespace WifiAdapter

/-! ### Deadlines -/

/-- How long an operation may take. -/
def Config.timeout (config : Config) : Purpose → Nat
  | .bind => config.bindTimeout
  | .listen => config.listenTimeout

/-- The operation that an action begins, and the socket it is for. -/
def Action.begins? {σ : Type} : Action σ → Option (Handle × Purpose)
  | .bind h _ => some (h, .bind)
  | .listen h _ => some (h, .listen)
  | _ => none

namespace Call
variable {σ : Type} {a : Adapter σ} {c : Call} {h : Handle} {p : Purpose}

/-- A look leaves the deadline, and the time has run out only if it has. -/
theorem look_deadline (c : Call) (now : Nat) (a : Adapter σ) :
    (c.look now a).1.deadline = c.deadline ∧
      ((c.look now a).1.seen? = some none → c.seen? = some none ∨ c.deadline ≤ now) := by
  cases hseen : c.seen? with
  | some outcome =>
    rw [look_seen now (by rw [hseen]; rfl)]
    exact ⟨rfl, fun h => .inl (hseen.symm.trans h)⟩
  | none =>
    cases hposted : a.completions.get c.socket.handle with
    | some status =>
      rw [look_posted now hseen hposted]
      exact ⟨rfl, nofun⟩
    | none =>
      rw [look_none now hseen hposted]
      by_cases hclock : c.deadline ≤ now
      · rw [if_pos hclock]
        exact ⟨rfl, fun _ => .inr hclock⟩
      · rw [if_neg hclock]
        exact ⟨rfl, fun h => by cases hseen.symm.trans h⟩

theorem deadline_of_start {p? : Option Purpose} {deadline : Nat}
    (hc : (start p? h deadline a).1 = .waiting c) :
    c.socket = a.table.incarnation h ∧ c.deadline = deadline := by
  unfold start at hc
  split at hc
  · dsimp only at hc
    generalize (a.modify h fun r => { r with waiting := true }).enter _ = b at hc
    generalize hfresh : (⟨p?, a.table.incarnation h, deadline, none⟩ : Call) = d at hc
    cases hposted : b.completions.get d.socket.handle with
    | some status =>
      rw [b.takeCompletion_posted (by rw [← hfresh]) hposted, conclude_seen rfl] at hc
      cases hc
    | none =>
      rw [b.takeCompletion_none hposted, conclude_unseen (by rw [← hfresh])] at hc
      cases hc
      subst hfresh
      exact ⟨rfl, rfl⟩
  · cases hc

variable [Chip σ]

theorem deadline_of_beginCall {command : Command} {now : Nat} {timeout : Config → Nat}
    {x : Outcome × Adapter σ}
    (hx : x = match a.beginCall h p command with
      | (.error error, a) => (.finished (.error error), a)
      | (.ok _, a) => start (some p) h (now + timeout a.config) a)
    (hc : x.1 = .waiting c) :
    c.socket = a.table.incarnation h ∧ c.deadline = now + timeout a.config := by
  subst hx
  cases hbegin : a.beginCall h p command with
  | mk result b =>
    rw [hbegin] at hc
    cases result with
    | error error => cases hc
    | ok value =>
      obtain ⟨r, -, -, rfl⟩ := Adapter.beginCall_ok hbegin
      obtain ⟨hsocket, hdeadline⟩ := deadline_of_start hc
      refine ⟨hsocket.trans ?_, hdeadline⟩
      exact congrArg (Incarnation.mk h) (SocketTable.generation_modify ..)

theorem deadline_of_bind {address : SocketAddr} {now : Nat}
    (hc : (bind h address now a).1 = .waiting c) :
    c.socket = a.table.incarnation h ∧ c.deadline = now + a.config.timeout .bind := by
  unfold bind at hc
  split at hc
  · cases hc
  · exact deadline_of_beginCall rfl hc

theorem deadline_of_listen {backlog : UInt8} {now : Nat}
    (hc : (listen h backlog now a).1 = .waiting c) :
    c.socket = a.table.incarnation h ∧ c.deadline = now + a.config.timeout .listen := by
  unfold listen at hc
  split at hc
  · cases hc
  · split at hc
    · cases hc
    · exact deadline_of_beginCall rfl hc

end Call

namespace Session
variable {σ : Type} [Chip σ] {s : Session σ} {id : Nat} {c : Call}

/-- A call that is parked after an action was parked before it, and at most had a look, or it has
seen nothing. -/
theorem call_before {action : Action σ} (h : (s.perform action).2.find? id = some (.call c)) :
    (∃ d, s.find? id = some (.call d) ∧ (c = d ∨ c = (d.look s.clock s.adapter).1)) ∨
      id = s.nextTask ∧ c.seen? = none := by
  cases origin_perform action h with
  | kept hold => exact .inl ⟨c, hold, .inl rfl⟩
  | polled _ hold hrest =>
    obtain ⟨rfl, -⟩ := Task.call_of_poll hrest
    exact .inl ⟨c, hold, .inl rfl⟩
  | contended _ hold hrest =>
    obtain ⟨d, rfl, -, -, hlook, -⟩ := Task.call_of_contend hrest
    exact .inl ⟨d, hold, .inr hlook⟩
  | begun hid _ hcall =>
    obtain ⟨_, hbegun⟩ := hcall c rfl
    exact .inr ⟨hid, (hbegun.fresh c rfl).1⟩

/-- A call whose number was given out before had the same deadline then. -/
theorem deadline_before {actions : List (Action σ)} (hid : id < s.nextTask)
    (h : (s.run actions).find? id = some (.call c)) :
    ∃ d, s.find? id = some (.call d) ∧ d.deadline = c.deadline := by
  induction actions generalizing s with
  | nil => exact ⟨c, h, rfl⟩
  | cons action rest ih =>
    obtain ⟨d, hd, hdeadline⟩ := ih (Nat.lt_of_lt_of_le hid (nextTask_perform s action)) h
    rcases call_before hd with ⟨e, he, rfl | rfl⟩ | ⟨hnew, -⟩
    · exact ⟨d, he, hdeadline⟩
    · exact ⟨e, he, (e.look_deadline s.clock s.adapter).1.symm.trans hdeadline⟩
    · omega

/-- The time of a call has run out only if its deadline has passed. -/
def Timely (s : Session σ) : Prop :=
  ∀ id c, s.find? id = some (.call c) → c.seen? = some none → c.deadline ≤ s.clock

theorem timely_perform (hs : s.Timely) (action : Action σ) : (s.perform action).2.Timely := by
  intro id c hc hseen
  refine Nat.le_trans ?_ (clock_perform s action)
  rcases call_before hc with ⟨d, hd, rfl | rfl⟩ | ⟨-, hunseen⟩
  · exact hs id c hd hseen
  · obtain ⟨hdeadline, hout⟩ := d.look_deadline s.clock s.adapter
    rw [hdeadline]
    rcases hout hseen with hold | hclock
    · exact hs id d hd hold
    · exact hclock
  · cases hunseen.symm.trans hseen

theorem timely_run (hs : s.Timely) (actions : List (Action σ)) : (s.run actions).Timely := by
  induction actions generalizing s with
  | nil => exact hs
  | cons action rest ih => exact ih (timely_perform hs action)

omit [Chip σ] in
theorem timely_new (chip : σ) (packets : Nat) (config : Config) :
    (new chip packets config).Timely := fun id c h => by cases h

/-- A call is parked that waits for an operation on a socket from the time of `s` on. -/
def ParksFor (s t : Session σ) (id : Nat) (h : Handle) (p : Purpose) : Prop :=
  s.adapter.table.phase? h = some p.origin ∧ id < t.nextTask ∧
    ∃ c, t.find? id = some (.call c) ∧ c.purpose? = some p ∧
      c.socket = s.adapter.table.incarnation h ∧
      c.deadline = s.clock + s.adapter.config.timeout p

omit [Chip σ] in
theorem parksFor_begin {f : Nat → Adapter σ → Call.Outcome × Adapter σ} {h : Handle} {p : Purpose}
    (hnumbered : s.Numbered)
    (henters : s.Enters h p
      (Reply.ofBegun (s.begin fun now a => (Task.ofCall (f now a).1, (f now a).2))))
    (hparked : (Reply.ofBegun
      (s.begin fun now a => (Task.ofCall (f now a).1, (f now a).2))).1 = .parked id)
    (hdeadline : ∀ c, (f s.clock s.adapter).1 = .waiting c →
      c.socket = s.adapter.table.incarnation h ∧
        c.deadline = s.clock + s.adapter.config.timeout p) :
    s.ParksFor (Reply.ofBegun (s.begin fun now a => (Task.ofCall (f now a).1, (f now a).2))).2
      id h p := by
  obtain ⟨hbefore, -, hnext, c, hc, hpurpose, -⟩ := henters.parked id hparked
  refine ⟨hbefore, hnext, c, hc, hpurpose, hdeadline c ?_⟩
  obtain ⟨t, hfirst, hfind, -⟩ := parked_of_begin hnumbered hparked
  cases hfind.symm.trans hc
  dsimp only at hfirst
  cases houtcome : (f s.clock s.adapter).1 with
  | finished result =>
    rw [houtcome] at hfirst
    cases hfirst
  | waiting d =>
    rw [houtcome] at hfirst
    cases hfirst
    rfl

/-- The call that is parked when a bind or a listen begins. -/
theorem parked_of_begins {action : Action σ} {h : Handle} {p : Purpose} (hnumbered : s.Numbered)
    (hbegins : action.begins? = some (h, p)) (hparked : (s.perform action).1 = .parked id) :
    s.ParksFor (s.perform action).2 id h p := by
  cases action with
  | bind k address =>
    cases hbegins
    exact parksFor_begin (f := Call.bind h address) hnumbered (enters_bind hnumbered address) hparked
      fun c hc => Call.deadline_of_bind hc
  | listen k backlog =>
    cases hbegins
    exact parksFor_begin (f := Call.listen h backlog) hnumbered (enters_listen hnumbered backlog)
      hparked fun c hc => Call.deadline_of_listen hc
  | _ => cases hbegins

end Session

/-! ### What is reported while a call waits -/

/-- An end is posted with a status. -/
theorem Delivery.verdict?_of_ends {d : Delivery} (h : d.ends = true) : d.verdict?.isSome = true := by
  unfold Delivery.ends at h
  unfold Delivery.verdict?
  cases ho : d.outcome with
  | closed | failed => rfl
  | _ =>
    rw [ho] at h
    cases h

theorem Status.error?_timedOut_iff {status : Status} :
    status.error? = some .timedOut ↔ status.code = Status.timeout.code := by
  unfold Status.error? Status.timeout
  split <;> simp_all

/-- A receive that timed out is no end of a stream. -/
theorem Delivery.verdict?_ne_timedOut {d : Delivery} {status : Status}
    (h : d.verdict? = some status) : status.error? ≠ some .timedOut := by
  intro htimedOut
  have hcode := Status.error?_timedOut_iff.mp htimedOut
  unfold Delivery.verdict? Delivery.outcome at h
  by_cases htimeout : d.length = Status.timeout.code
  · rw [if_pos htimeout] at h
    cases h
  · rw [if_neg htimeout] at h
    by_cases hpositive : 0 < d.length
    · rw [if_pos hpositive] at h
      cases h
    · rw [if_neg hpositive] at h
      by_cases hzero : d.length = 0
      · rw [if_pos hzero] at h
        cases h
        cases hcode
      · rw [if_neg hzero] at h
        cases h
        exact htimeout hcode

/-- Nothing was reported for whoever waits on a socket: neither the end of an operation nor that of
the stream. -/
def Unheard (i : Incarnation) (es : List Entry) : Prop :=
  ∀ e ∈ es, (∀ p status, e ≠ .completed i p status) ∧ e.ending? i = none

namespace Entry
variable {i : Incarnation} {e : Entry}

theorem posted?_isSome_of_ending (h : (e.ending? i).isSome = true) : (e.posted? i).isSome = true := by
  cases e with
  | handled note expecting? =>
    unfold ending? at h
    cases hanswer : (Entry.handled note expecting?).answer? with
    | none =>
      rw [hanswer] at h
      cases h
    | some answer =>
      obtain ⟨⟨j, room, held⟩, d⟩ := answer
      rw [hanswer] at h
      dsimp only at h
      by_cases hends : j = i ∧ d.ends = true
      · obtain ⟨rfl, hends⟩ := hends
        rw [posted?_handled hanswer]
        exact Delivery.verdict?_of_ends hends
      · rw [if_neg hends] at h
        cases h
  | _ => cases h

theorem posted?_eq_none_iff :
    e.posted? i = none ↔ (∀ p status, e ≠ .completed i p status) ∧ e.ending? i = none := by
  constructor
  · intro hnone
    refine ⟨?_, Option.not_isSome_iff_eq_none.mp fun hends => ?_⟩
    · rintro p status rfl
      cases hnone.symm.trans (posted?_completed i p status)
    · have hposted := posted?_isSome_of_ending hends
      rw [hnone] at hposted
      cases hposted
  · rintro ⟨hcompleted, hending⟩
    cases hposted : e.posted? i with
    | none => rfl
    | some status =>
      rcases posted?_cases hposted with ⟨p, rfl⟩ | hends
      · exact absurd rfl (hcompleted p status)
      · rw [hending] at hends
        cases hends

/-- Only the end of an operation tells whoever waits that something timed out. -/
theorem completed_of_timedOut {status : Status} (h : e.posted? i = some status)
    (htimedOut : status.error? = some .timedOut) : ∃ p, e = .completed i p status := by
  rcases source_of_posted? h with hcompleted | ⟨_, _, -, -, hverdict⟩
  · exact hcompleted
  · exact absurd htimedOut (Delivery.verdict?_ne_timedOut hverdict)

end Entry

namespace Adapter
variable {σ : Type} {a : Adapter σ} {c : Call} {p : Purpose} {r : SocketRecord}

/-- A call that hears nothing has seen no status, and none is posted for it. -/
theorem Waits.untold (h : a.Waits c) (hnone : c.hearing a = none) :
    c.seen?.join = none ∧ a.completions.get c.socket.handle = none :=
  Option.or_eq_none_iff.mp (h.hears.outcome.trans hnone)

/-- A call hears nothing just if nothing was reported. -/
theorem Waits.hearing_eq_none_iff (h : a.Waits c) :
    c.hearing a = none ↔ Unheard c.socket (a.bus.vigil c.socket) := by
  constructor
  · intro hnone e he
    refine Entry.posted?_eq_none_iff.mp (Option.not_isSome_iff_eq_none.mp fun hposted => ?_)
    obtain ⟨status, hposted⟩ := Option.isSome_iff_exists.mp hposted
    have hlast := lastPosted_isSome he hposted
    obtain ⟨hunseen, hcell⟩ := h.untold hnone
    rw [← ((Call.hears_of_untaken hunseen).mp h.hears).2, hcell] at hlast
    cases hlast
  · intro hunheard
    refine Option.not_isSome_iff_eq_none.mp fun hheard => ?_
    obtain ⟨status, hheard⟩ := Option.isSome_iff_exists.mp hheard
    obtain ⟨e, he, hposted⟩ := exists_posted_of_heard hheard
    cases hposted.symm.trans (Entry.posted?_eq_none_iff.mpr (hunheard e he))

/-- A call of which nothing was heard is still under way. -/
theorem Waits.pending_of_unheard (h : a.Waits c) (hp : c.purpose? = some p)
    (hr : a.table.get? c.socket.handle = some r)
    (hunheard : Unheard c.socket (a.bus.vigil c.socket)) :
    r.phase = p.pending ∧ r.waiting = true := by
  obtain ⟨q, r', hq, hr', hwaiting, hstage⟩ := h.stage
  cases hp.symm.trans hq
  cases hr.symm.trans hr'
  have hnone : outcomes c.socket (a.bus.vigil c.socket) = [] := by
    refine List.filterMap_eq_nil_iff.mpr fun e he => ?_
    refine Option.not_isSome_iff_eq_none.mp fun houtcome => ?_
    obtain ⟨⟨q, status⟩, houtcome⟩ := Option.isSome_iff_exists.mp houtcome
    exact (hunheard e he).1 q status (Entry.mem_of_outcome? houtcome)
  rw [hnone] at hstage
  generalize r.phase = phase at hstage
  cases hstage
  exact ⟨rfl, hwaiting⟩

end Adapter

namespace Call
variable {σ : Type} {a : Adapter σ} {c : Call} {p : Purpose} {r : SocketRecord} {now : Nat}

/-- A call whose time is up and of which nothing was heard takes back what it began. -/
theorem poll_of_expired (h : a.Waits c) (hp : c.purpose? = some p)
    (hr : a.table.get? c.socket.handle = some r) (hnone : c.hearing a = none)
    (hdue : c.deadline ≤ now) :
    (c.poll now a).1 = .finished (.error .timedOut) ∧
      (c.poll now a).2.table.get? c.socket.handle =
        some { r with waiting := false, phase := r.phase.apply (p.done false) } := by
  obtain ⟨hunseen, hcell⟩ := h.untold hnone
  -- Whether it had a look before or not, its time is up and nothing was done.
  have hlook : c.look now a = ({ c with seen? := some none }, a) := by
    rcases Option.join_eq_none_iff.mp hunseen with hseen | hseen
    · rw [look_none now hseen hcell, if_pos hdue]
    · rw [look_seen now (by rw [hseen]; rfl), ← hseen]
  have hresult : (a.finishCall { c with seen? := some none } none).1 = .error .timedOut := by
    unfold Adapter.finishCall
    dsimp only
    rw [h.current, hcell]
    rfl
  rw [poll_eq, hlook]
  dsimp only
  rw [conclude_seen rfl]
  refine ⟨congrArg Polled.finished hresult, ?_⟩
  unfold Adapter.finishCall at hresult ⊢
  dsimp only at hresult ⊢
  rw [hresult, if_pos h.current]
  unfold Adapter.settleCall
  dsimp only
  rw [hp]
  show ((a.table.modify c.socket.handle _).modify c.socket.handle _).get? c.socket.handle = _
  rw [SocketTable.get?_modify, if_pos rfl, SocketTable.get?_modify, if_pos rfl, hr]
  rfl

/-- A call whose time is not up and of which nothing was heard goes on. -/
theorem poll_of_unheard (h : a.Waits c) (hnone : c.hearing a = none)
    (htimely : c.seen? = some none → c.deadline ≤ now) (hearly : now < c.deadline) :
    ¬ c.Due now a := by
  obtain ⟨hunseen, hcell⟩ := h.untold hnone
  rintro (hseen | hposted | hdue)
  · rcases Option.join_eq_none_iff.mp hunseen with hnever | hout
    · rw [hnever] at hseen
      cases hseen
    · exact Nat.not_le_of_lt hearly (htimely hout)
  · rw [hcell] at hposted
    cases hposted
  · exact Nat.not_le_of_lt hearly hdue

end Call

/-! ### Late completions -/

/-- A completion that a socket does not expect has no effect. -/
theorem Adapter.handle_report {σ : Type} [Chip σ] {a : Adapter σ} {h : Handle} {p : Purpose}
    (hphase : a.table.phase? h ≠ some p.pending) (now : Nat) (status : Status) :
    let n := a.noted (.socket h (p.report status))
    a.handle now (.socket h (p.report status)) = if a.table.isOpen h then n else n.discard := by
  intro n
  have hcompletion : a.handle now (.socket h (p.report status)) = n.onCompletion h p status := by
    cases p <;> rfl
  rw [hcompletion]
  cases hr : a.table.get? h with
  | none =>
    rw [if_neg (by simp [SocketTable.isOpen, hr])]
    unfold onCompletion
    rw [show n.table.get? h = none from hr]
  | some r =>
    rw [if_pos (by simp [SocketTable.isOpen, hr])]
    rcases onCompletion_eq (a := n) (show n.table.get? h = some r from hr) p status with
      ⟨-, heq⟩ | ⟨hadmits, -⟩
    · exact heq
    · refine absurd ?_ hphase
      unfold SocketTable.phase?
      rw [hr, ← Purpose.pending_of_admits hadmits]
      rfl

/-! ### Histories -/

namespace Session
variable {σ : Type} [Chip σ]

/-- How a parked bind or listen is polled that waits on a socket since its phase was `q?`, and whose
time is up when the clock says `due`. -/
structure KeepsTime (s : Session σ) (id : Nat) (p : Purpose) (i : Incarnation) (q? : Option Phase)
    (due : Nat) : Prop where
  /-- Unless the chip says so, it times out just if its time is up and nothing was reported. -/
  timesOut : (∀ status, .completed i p status ∈ s.adapter.bus.vigil i → status ≠ .timeout) →
    ((s.perform (.poll id)).1 = .finished (.call (.error .timedOut)) ↔
      Unheard i (s.adapter.bus.vigil i) ∧ due ≤ s.clock)
  /-- The end of the operation counts more than the clock. -/
  told : ∀ q status, .completed i q status ∈ s.adapter.bus.vigil i →
    (∀ e ∈ s.adapter.bus.vigil i, e.ending? i = none) →
    q = p ∧ (s.perform (.poll id)).1 = .finished (.call status.result)
  /-- Before its time is up it stays parked. -/
  early : Unheard i (s.adapter.bus.vigil i) → s.clock < due →
    (s.perform (.poll id)).1 = .nothing ∧ (s.perform (.poll id)).2.adapter = s.adapter ∧
      (s.perform (.poll id)).2.find? id = s.find? id
  /-- When its time is up, the mark goes and the phase is what it was. -/
  expired : Unheard i (s.adapter.bus.vigil i) → due ≤ s.clock →
    (s.perform (.poll id)).1 = .finished (.call (.error .timedOut)) ∧
      ∃ r q, s.adapter.table.get? i.handle = some r ∧ q? = some q ∧
        (s.perform (.poll id)).2.adapter.table.get? i.handle =
          some { r with waiting := false, phase := q }
  /-- While the adapter is busy it stays parked, whatever the time. -/
  contended : (s.perform (.contend id)).1 = .nothing ∧
    ((s.perform (.contend id)).2.find? id).isSome = true ∧
    (s.perform (.contend id)).2.adapter.table = s.adapter.table
  /-- A completion that comes later has no effect, unless the operation is under way again. -/
  late : ∀ (rest : List (Action σ)) (now : Nat) (status : Status),
    let a := ((s.perform (.poll id)).2.run rest).adapter
    let n := a.noted (.socket i.handle (p.report status))
    a.table.phase? i.handle ≠ some p.pending →
      a.handle now (.socket i.handle (p.report status)) =
        if a.table.isOpen i.handle then n else n.discard

/-- A call whose time has run out leaves the phase as it was before the call. -/
theorem KeepsTime.phase?_expired {s : Session σ} {id : Nat} {p : Purpose} {i : Incarnation}
    {q? : Option Phase} {due : Nat} (hkeeps : s.KeepsTime id p i q? due)
    (hunheard : Unheard i (s.adapter.bus.vigil i)) (hdue : due ≤ s.clock) :
    (s.perform (.poll id)).2.adapter.table.phase? i.handle = q? := by
  obtain ⟨-, r, q, -, hq, hrecord⟩ := hkeeps.expired hunheard hdue
  rw [SocketTable.phase?, hrecord, hq]
  rfl

section Parked
variable {s : Session σ} {id : Nat} {c : Call} {p : Purpose}

/-- A look concludes nothing. -/
theorem perform_contend_call (hc : s.find? id = some (.call c)) :
    (s.perform (.contend id)).1 = .nothing ∧
      (s.perform (.contend id)).2.find? id = some (.call (c.look s.clock s.adapter).1) := by
  have heq : s.contend id = (none,
      ({ s with adapter := (c.look s.clock s.adapter).2 } : Session σ).replace id
        (.call (c.look s.clock s.adapter).1)) := by
    unfold contend pollWith
    rw [hc]
    rfl
  constructor
  · show (Reply.ofPolled (s.contend id)).1 = _
    rw [heq]
    rfl
  · show (Reply.ofPolled (s.contend id)).2.find? id = _
    rw [heq]
    refine (find?_replace _ id _ id).trans ((congrArg (Option.map _) hc).trans ?_)
    rw [Option.map_some, if_pos rfl]

/-- A call that times out, and was not told so by the chip. -/
theorem timesOut_iff (hc : s.find? id = some (.call c)) (hwaits : s.adapter.Waits c)
    (hp : c.purpose? = some p) (htimely : c.seen? = some none → c.deadline ≤ s.clock)
    (hchip : ∀ status, .completed c.socket p status ∈ s.adapter.bus.vigil c.socket →
      status ≠ .timeout) :
    (s.perform (.poll id)).1 = .finished (.call (.error .timedOut)) ↔
      Unheard c.socket (s.adapter.bus.vigil c.socket) ∧ c.deadline ≤ s.clock := by
  obtain ⟨q, r, hq, hr, -⟩ := hwaits.stage
  rw [← hwaits.hearing_eq_none_iff]
  constructor
  · intro htimedOut
    obtain ⟨d, hd, hresult⟩ := call_of_result htimedOut
    cases hc.symm.trans hd
    rcases hwaits.poll s.clock hq hr with ⟨-, hwaiting⟩ | ⟨hfinished, -⟩
    · rw [hwaiting] at hresult
      cases hresult
    · cases hheard : c.hearing s.adapter with
      | none =>
        refine ⟨rfl, Nat.le_of_not_lt fun hearly => ?_⟩
        rw [Call.poll_of_not_due (Call.poll_of_unheard hwaits hheard htimely hearly)] at hresult
        cases hresult
      | some status =>
        -- What it heard is a timeout, and only the end of the operation is reported as one.
        rw [hfinished, hheard] at hresult
        have herror : status.error? = some .timedOut := by
          have hresult : status.result = .error .timedOut := Polled.finished.inj hresult
          unfold Status.result at hresult
          split at hresult
          · cases hresult
          · next error herror =>
            rw [herror, Except.error.inj hresult]
        obtain ⟨e, he, hposted⟩ := exists_posted_of_heard hheard
        obtain ⟨q', rfl⟩ := Entry.completed_of_timedOut hposted herror
        cases hp.symm.trans (hwaits.hearing_of_completed he).1
        refine absurd ?_ (hchip status he)
        exact congrArg Status.mk (Status.error?_timedOut_iff.mp herror)
  · rintro ⟨hnone, hdue⟩
    exact reply_of_result hc (Call.poll_of_expired hwaits hq hr hnone hdue).1

/-- What a call that waits is polled like. -/
theorem keepsTime (hc : s.find? id = some (.call c)) (hwaits : s.adapter.Waits c)
    (hp : c.purpose? = some p) (htimely : c.seen? = some none → c.deadline ≤ s.clock) :
    s.KeepsTime id p c.socket (some p.origin) c.deadline := by
  obtain ⟨q, r, hq, hr, -⟩ := hwaits.stage
  cases hp.symm.trans hq
  obtain ⟨hreply, hparked⟩ := perform_contend_call hc
  refine ⟨timesOut_iff hc hwaits hp htimely, fun q status hmem hquiet => ?_,
    fun hunheard hearly => ?_, fun hunheard hdue => ?_,
    ⟨hreply, by rw [hparked]; rfl, table_contend_call hc⟩,
    fun rest now status hphase => Adapter.handle_report hphase now status⟩
  · obtain ⟨hq, x, hx, hcause⟩ := hwaits.hearing_of_completed hmem
    cases hp.symm.trans hq
    refine ⟨rfl, reply_of_result hc ?_⟩
    rcases hcause with rfl | ⟨e, he, hending⟩
    · rcases hwaits.poll s.clock hp hr with ⟨hnone, -⟩ | ⟨hfinished, -⟩
      · cases hnone.symm.trans hx
      · rw [hfinished, hx]
        rfl
    · rw [hquiet e he] at hending
      cases hending
  · have hnone := hwaits.hearing_eq_none_iff.mpr hunheard
    have hpoll := perform_poll_of_not_due hc (Call.poll_of_unheard hwaits hnone htimely hearly)
    exact ⟨hpoll.1, hpoll.2.1, hpoll.2.2.trans hc.symm⟩
  · have hnone := hwaits.hearing_eq_none_iff.mpr hunheard
    obtain ⟨hresult, hrecord⟩ := Call.poll_of_expired hwaits hp hr hnone hdue
    refine ⟨reply_of_result hc hresult, r, p.origin, hr, rfl, ?_⟩
    have hundone : r.phase.apply (p.done false) = p.origin := by
      rw [(hwaits.pending_of_unheard hp hr hunheard).1]
      cases p <;> rfl
    rw [adapter_poll_call hc, hrecord, hundone]

end Parked

/-- A bind or a listen is parked, no socket is closed while a call waits on it, and it is parked
still. Its time ends with a timeout after it began. Unless the chip reports a timeout as the end of
the operation, a poll says that it timed out just if its time is up and nothing was reported for it
since. The end of the operation counts more than the clock. If nothing was reported, the polls before
the time is up change nothing, and the first one after that takes the mark away, goes back to the
phase that there was before the call, and changes nothing else of the record. A completion that comes
later has no effect, unless the operation is under way again. -/
theorem timed_out_iff (chip : σ) (packets : Nat) (config : Config)
    {before later : List (Action σ)} {action : Action σ} {h : Handle} {p : Purpose} {id : Nat}
    {c : Call} (hbegins : action.begins? = some (h, p))
    (hparked : (((new chip packets config).run before).perform action).1 = .parked id)
    (hpatient : (new chip packets config).Patient (before ++ action :: later))
    (hstill : ((new chip packets config).run (before ++ action :: later)).find? id =
      some (.call c)) :
    let s := (new chip packets config).run before
    ((new chip packets config).run (before ++ action :: later)).KeepsTime id p
      (s.adapter.table.incarnation h) (s.adapter.table.phase? h)
      (s.clock + s.adapter.config.timeout p) := by
  intro s
  have hnumbered := numbered_run (numbered_new chip packets config) before
  obtain ⟨hphase, hnext, d, hd, hpurpose, hsocket, hdeadline⟩ :=
    parked_of_begins hnumbered hbegins hparked
  have hwaits := (orderly_run (orderly_new chip packets config) hpatient).waits id c
    (parks_of_find? hstill)
  have htimely := timely_run (timely_new chip packets config) _ id c hstill
  have hkeeps (hp : c.purpose? = some p) := keepsTime hstill hwaits hp htimely
  -- The call is the one that was parked.
  rw [run_append] at hstill
  obtain ⟨e, he, hsame, hfor⟩ := same_call_before hnext hstill
  cases hd.symm.trans he
  obtain ⟨e, he, hlate⟩ := deadline_before hnext hstill
  cases hd.symm.trans he
  rw [hphase, ← hsocket, ← hdeadline, hsame, hlate]
  exact hkeeps (hfor.symm.trans hpurpose)

/-- The time for a bind runs out with nothing reported. -/
theorem timed_out_bind :
    let before : List (Action ScriptedChip) := [.create .inet .datagram]
    let bind : Action ScriptedChip := .bind 7 (.v4 ⟨⟨0, 0, 0, 0⟩, 68⟩)
    let start := new ScriptedChip.new 4 .defaults
    let t := start.run (before ++ bind :: [.advance 1000])
    ((start.run before).perform bind).1 = .parked 0 ∧
      start.Patient (before ++ bind :: [.advance 1000]) ∧
      t.find? 0 = some (.call ⟨some .bind, ⟨7, 1⟩, 1000, none⟩) ∧
      (t.perform (.poll 0)).1 = .finished (.call (.error .timedOut)) ∧
      (t.perform (.poll 0)).2.adapter.table.phase? 7 = some .unbound := by
  intro before bind start t
  have hpatient : start.Patient (before ++ bind :: [.advance 1000]) :=
    ⟨trivial, trivial, trivial, trivial⟩
  have hstill : t.find? 0 = some (.call ⟨some .bind, ⟨7, 1⟩, 1000, none⟩) := rfl
  have hbegins : bind.begins? = some (7, .bind) := rfl
  have hparked : ((start.run before).perform bind).1 = .parked 0 := rfl
  have hkeeps : t.KeepsTime 0 .bind ((start.run before).adapter.table.incarnation 7)
      ((start.run before).adapter.table.phase? 7) 1000 :=
    timed_out_iff ScriptedChip.new 4 .defaults hbegins hparked hpatient hstill
  have hsocket : (start.run before).adapter.table.incarnation 7 = ⟨7, 1⟩ := by decide
  have hbefore : (start.run before).adapter.table.phase? 7 = some .unbound := by decide
  rw [hsocket, hbefore] at hkeeps
  have hunheard : Unheard ⟨7, 1⟩ (t.adapter.bus.vigil ⟨7, 1⟩) := by
    have hquiet : t.adapter.bus.vigil ⟨7, 1⟩ = [] := by decide
    rw [hquiet]
    exact List.forall_mem_nil _
  have hdue : 1000 ≤ t.clock := by decide
  exact ⟨hparked, hpatient, hstill, (hkeeps.expired hunheard hdue).1,
    hkeeps.phase?_expired hunheard hdue⟩

/-- The chip reports that a bind timed out. The call is told so at once, long before its own time is
up. -/
theorem timed_out_by_chip :
    ¬ ∀ (before later : List (Action ScriptedChip)) (action : Action ScriptedChip) (h : Handle)
      (p : Purpose) (id : Nat) (c : Call),
      let start := new ScriptedChip.new 4 .defaults
      let s := start.run before
      let t := start.run (before ++ action :: later)
      action.begins? = some (h, p) → (s.perform action).1 = .parked id →
      start.Patient (before ++ action :: later) → t.find? id = some (.call c) →
      (t.perform (.poll id)).1 = .finished (.call (.error .timedOut)) →
      s.clock + s.adapter.config.timeout p ≤ t.clock := by
  intro hlate
  let bind : Action ScriptedChip := .bind 7 (.v4 ⟨⟨0, 0, 0, 0⟩, 68⟩)
  have hdue := hlate [.create .inet .datagram] [.dispatch (.socket 7 (.bound .timeout))] bind 7 .bind 0
    ⟨some .bind, ⟨7, 1⟩, 1000, none⟩ rfl rfl ⟨trivial, trivial, trivial, trivial⟩ rfl rfl
  exact absurd hdue (by decide)

end Session

end WifiAdapter
