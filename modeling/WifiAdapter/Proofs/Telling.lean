import WifiAdapter.Proofs.Resumption
import WifiAdapter.Proofs.Waiting

/-! How a parked caller comes to be told of a success.

The cell for completions belongs to a slot, and whoever is at the slot can clear it. But a
success gets there in one way only: a notification reports the end of the operation that is
under way (`Moment.Fulfils`). While a caller is attended to this is its own operation,
whatever else happens to the adapter (`Adapter.Course.carries`) and whoever else is polled
(`Adapter.carries_poll_stale`). -/
namespace WifiAdapter

theorem Status.eq_success {s : Status} (h : s.isSuccess = true) : s = .success := by
  obtain ⟨code⟩ := s
  exact congrArg Status.mk (beq_iff_eq.mp h)

theorem Status.eq_success_of_result {s : Status} (h : s.result = .ok ()) : s = .success := by
  refine Status.eq_success ((Status.isSuccess_iff s).mpr ?_)
  unfold Status.result at h
  split at h
  · next hnone => exact hnone
  · cases h

/-- A delivery that ends the stream reports no success. -/
theorem Delivery.ne_success_of_end {d : Delivery} {status : Status}
    (h : d.outcome = .closed ∧ status = .connectionAborted ∨ d.outcome = .failed status) :
    status ≠ .success := by
  rintro rfl
  rcases h with ⟨_, h⟩ | h
  · exact absurd h (by decide)
  · unfold Delivery.outcome at h
    split at h
    · cases h
    · split at h
      · cases h
      · split at h
        · cases h
        · next hne => exact hne (congrArg Status.code (Outcome.failed.inj h))

/-- The phase of a socket, if it is open. -/
def SocketTable.phase? (t : SocketTable) (h : Handle) : Option Phase := (t.get? h).map (·.phase)

theorem SocketTable.phase?_modify (t : SocketTable) (h k : Handle)
    {f : SocketRecord → SocketRecord} (hf : ∀ r, (f r).phase = r.phase) :
    (t.modify h f).phase? k = t.phase? k := by
  unfold SocketTable.phase?
  rw [get?_modify]
  split
  · rw [Option.map_map]
    exact congrArg (fun g => (t.get? k).map g) (funext hf)
  · rfl

/-- A request that a phase does not admit leaves it alone. -/
theorem Phase.apply_of_rejected {q : Phase} {request : Phase.Request}
    (h : (q.transition request).rejected = true) : q.apply request = q := by
  rw [rejected_transition, Option.isNone_iff_eq_none] at h
  rw [apply_eq, h]
  rfl

/-- Taking back an operation leaves no other one under way. -/
theorem Purpose.pending_of_undo {p q : Purpose} {phase : Phase}
    (h : phase.apply (p.done false) = q.pending) : phase = q.pending := by
  cases phase <;> cases p <;> cases q <;> first | rfl | cases h

/-- The message that reports the end of an operation. -/
def Purpose.report (status : Status) : Purpose → SocketMessage
  | .bind => .bound status
  | .listen => .listening status

/-- Only a report ends an operation. -/
theorem Notification.eq_report {note : Notification} {h : Handle}
    (hd : note.deed? = some (.complete h)) :
    ∃ (p : Purpose) (status : Status), note = .socket h (p.report status) := by
  unfold Notification.deed? at hd
  split at hd
  case h_3 =>
    cases hd
    exact ⟨.bind, _, rfl⟩
  case h_4 =>
    cases hd
    exact ⟨.listen, _, rfl⟩
  all_goals cases hd

namespace Adapter
variable {σ : Type}

/-! ### Asking for data -/

section Phases
variable [Chip σ] (h : Handle)

omit [Chip σ] in
theorem phase?_settlePartial (a : Adapter σ) :
    a.settlePartial.table.phase? h = a.table.phase? h := by
  unfold settlePartial
  split
  · rfl
  · split
    · unfold finishPacket
      split
      · rfl
      · dsimp only
        split
        · rw [table_handOver]
          exact SocketTable.phase?_modify _ _ _ fun _ => rfl
        · rfl
    · rfl

theorem phase?_clearFor (a : Adapter σ) (k : Handle) :
    (a.clearFor k).2.table.phase? h = a.table.phase? h := by
  unfold clearFor
  split
  · rfl
  · split
    · rfl
    · rw [(ensurePacket_spec a.settlePartial).1, phase?_settlePartial]

theorem table_ask (a : Adapter σ) (k : Handle) : (a.ask k).2.table = a.table := by
  have hexpect : a.expectPacket.table = a.table := by
    unfold expectPacket
    split <;> rfl
  unfold ask
  split
  · next heq =>
    exact (congrArg (fun x => x.2.table) heq).symm.trans hexpect
  · next heq =>
    exact (congrArg (fun x => x.2.table) heq).symm.trans hexpect

theorem phase?_pollEach (l : List Handle) (a : Adapter σ) :
    (pollEach l a).table.phase? h = a.table.phase? h := by
  induction l generalizing a with
  | nil => rfl
  | cons k rest ih =>
    have hcleared := phase?_clearFor h a k
    unfold pollEach
    split
    · split
      · next heq =>
        rwa [heq] at hcleared
      · next b heq =>
        rw [heq] at hcleared
        have hasked := table_ask b k
        split
        · next heq =>
          rw [heq] at hasked
          rw [← hcleared]
          exact congrArg (·.phase? h) hasked
        · next heq =>
          rw [heq] at hasked
          rw [ih, ← hcleared]
          exact congrArg (·.phase? h) hasked
    · exact ih a

/-- Asking for data leaves every socket in its phase. -/
theorem phase?_pollIdle (a : Adapter σ) : a.pollIdle.table.phase? h = a.table.phase? h := by
  unfold pollIdle
  split
  · rfl
  · have hready := congrArg (·.phase? h) (ensurePacket_spec (a.onRx .withdraw)).1
    unfold pollFrom
    dsimp only
    split
    · next heq => rwa [heq] at hready
    · next heq =>
      rw [heq] at hready
      exact (phase?_pollEach h _ _).trans hready

end Phases

end Adapter

/-! ### Callers that are attended to -/

/-- A success is at hand for a call: it saw one, or one is posted. -/
def Call.Assured {σ : Type} (c : Call) (a : Adapter σ) : Prop :=
  c.seen? = some (some .success) ∨ a.completions.get c.socket.handle = some .success

/-- Somebody waits on a socket for the end of an operation. No other operation is under way there,
and this one is not once a success is at hand. -/
structure Adapter.Attends {σ : Type} (a : Adapter σ) (c : Call) (p : Purpose) : Prop where
  current : a.table.isCurrent c.socket = true
  record : ∃ r, a.table.get? c.socket.handle = some r ∧ r.waiting = true ∧
    ∀ q : Purpose, r.phase = q.pending → q = p ∧ ¬ c.Assured a

/-- A call that waits and has no success at hand is attended to. -/
theorem Adapter.Waits.attends {σ : Type} {a : Adapter σ} {c : Call} (h : a.Waits c)
    (hnone : ¬ c.Assured a) : ∃ p, c.purpose? = some p ∧ a.Attends c p := by
  obtain ⟨p, r, hp, hr, hwaiting, hstage⟩ := h.stage
  exact ⟨p, hp, h.current, r, hr, hwaiting, fun q hq => ⟨hstage.own hq, hnone⟩⟩

/-- Whatever the caller has seen of what is at hand. -/
theorem Adapter.Attends.of_assured {σ : Type} {a : Adapter σ} {c d : Call} {p : Purpose}
    (h : a.Attends d p) (hsocket : d.socket = c.socket) (hback : c.Assured a → d.Assured a) :
    a.Attends c p := by
  obtain ⟨r, hr, hwaiting, hpending⟩ := h.record
  rw [hsocket] at hr
  exact ⟨hsocket ▸ h.current, r, hr, hwaiting, fun q hq => ⟨(hpending q hq).1,
    fun hassured => (hpending q hq).2 (hback hassured)⟩⟩

/-- The notification about to be handled reports that an operation went well, and takes the
socket from where it is under way to where it leads. -/
structure Moment.Fulfils {σ : Type} [Chip σ] (m : Moment σ) (now : Nat) (i : Incarnation)
    (p : Purpose) : Prop where
  note : m.note = .socket i.handle (p.report .success)
  current : m.adapter.table.isCurrent i = true
  before : m.adapter.table.phase? i.handle = some p.pending
  after : (m.adapter.handle now m.note).table.phase? i.handle = some p.goal

namespace Adapter
variable {σ : Type} {a b d : Adapter σ} {c : Call} {p : Purpose} {told told' : Prop}

/-- A call that is attended to still is, and a success is at hand for it only if one was, or
if it was told so. -/
def Carries (c : Call) (p : Purpose) (told : Prop) (a b : Adapter σ) : Prop :=
  a.Attends c p → b.Attends c p ∧ (c.Assured b → c.Assured a ∨ told)

section Carries

theorem Carries.refl (a : Adapter σ) : Carries c p told a a := fun h => ⟨h, .inl⟩

theorem Carries.trans (h : Carries c p told a b) (h' : Carries c p told b d) :
    Carries c p told a d := fun ha => by
  obtain ⟨hb, hback⟩ := h ha
  obtain ⟨hd, hback'⟩ := h' hb
  exact ⟨hd, fun hassured => (hback' hassured).elim hback .inr⟩

theorem Carries.mono (h : Carries c p told a b) (himp : told → told') : Carries c p told' a b :=
  fun ha => ⟨(h ha).1, fun hassured => ((h ha).2 hassured).imp_right himp⟩

/-- The record of the socket changes, but not its mark, and no operation begins; what is
posted is the same, or it is not a success. -/
theorem Carries.of_record (hgeneration : b.table.generation c.socket.handle =
      a.table.generation c.socket.handle)
    (hrecord : ∀ r, a.table.get? c.socket.handle = some r →
      ∃ r', b.table.get? c.socket.handle = some r' ∧ r'.waiting = r.waiting ∧
        ∀ q : Purpose, r'.phase = q.pending → r.phase = r'.phase)
    (hposted : b.completions.get c.socket.handle = a.completions.get c.socket.handle ∨
      b.completions.get c.socket.handle ≠ some .success) : Carries c p told a b := by
  intro ha
  obtain ⟨r, hr, hwaiting, hpending⟩ := ha.record
  obtain ⟨r', hr', hwaiting', hphase⟩ := hrecord r hr
  have hback (hassured : c.Assured b) : c.Assured a := by
    rcases hassured with hseen | hb
    · exact .inl hseen
    · rcases hposted with hsame | hnot
      · exact .inr (hsame ▸ hb)
      · exact absurd hb hnot
  refine ⟨⟨?_, r', hr', hwaiting'.trans hwaiting, fun q hq => ?_⟩, fun hassured => .inl (hback hassured)⟩
  · have hcurrent := ha.current
    rw [SocketTable.isCurrent_iff] at hcurrent ⊢
    exact ⟨by unfold SocketTable.isOpen; rw [hr']; rfl, hgeneration.trans hcurrent.2⟩
  · obtain ⟨hown, hnone⟩ := hpending q ((hphase q hq).trans hq)
    exact ⟨hown, hnone ∘ hback⟩

theorem Elsewhere.carries (h : Elsewhere c.socket a b) : Carries c p told a b := by
  refine .of_record h.generation (fun r hr => ?_) (.inl h.posted)
  obtain ⟨r', hr', hwaiting, hphase⟩ := h.record r hr
  refine ⟨r', hr', hwaiting, fun q hq => ?_⟩
  rcases hphase with hsame | hsettled
  · exact hsame.symm
  · exact absurd hq (hsettled q).2.1

/-- The end of the stream. -/
theorem Concerns.carries {D : Deed → Prop} (h : Concerns D c.socket.handle a b) (ha : a.Steady)
    (hD : ¬ D (.complete c.socket.handle)) : Carries c p told a b := by
  cases h with
  | complete _ _ _ hd => exact absurd hd hD
  | @ended j d status read hj hout hd =>
    have hopen : ((a.noted (.socket j.handle (.received d))).onRx .withdraw).table.isOpen j.handle =
        true := ha.isOpen hout
    refine .of_record ?_ (fun r hr => ?_) ?_
    · rw [table_endStream _ hopen]
      exact SocketTable.generation_modify ..
    · refine ⟨{ r with peerClosed := true, poll := false }, ?_, rfl, fun _ _ => rfl⟩
      rw [table_endStream _ hopen, SocketTable.get?_modify, if_pos hj]
      exact congrArg (Option.map _) hr
    · rw [completions_endStream _ hopen, hj]
      split
      · rw [Slots.get_set_self]
        exact .inr fun h => Delivery.ne_success_of_end hd (Option.some.inj h)
      · exact .inl rfl

/-- The end of the operation that the call waits for. -/
theorem carries_complete {purpose : Purpose} {status : Status} {r : SocketRecord}
    (hr : a.table.get? c.socket.handle = some r)
    (hadmits : (r.phase.transition (purpose.done status.isSuccess)).rejected = false)
    (starts : Bool) :
    Carries c p (status = .success) a (a.complete c.socket.handle purpose status starts) := by
  intro hattends
  obtain ⟨r', hr', hwaiting, hpending⟩ := hattends.record
  cases hr.symm.trans hr'
  have hphase := Purpose.pending_of_admits hadmits
  have hsettled := (Purpose.past_done purpose status).settled
  refine ⟨⟨?_, ?_⟩, fun hassured => ?_⟩
  · rw [table_complete, SocketTable.isCurrent_modify]
    exact hattends.current
  · rw [table_complete, SocketTable.get?_modify_self hr]
    refine ⟨_, rfl, by cases starts <;> exact hwaiting, fun q hq => absurd ?_ (hsettled q)⟩
    rw [← hphase, ← hq]
    cases starts <;> rfl
  · rcases hassured with hseen | hposted
    · exact .inl (.inl hseen)
    · rw [completions_complete, hr, if_pos (by exact hwaiting), Slots.get_set_self] at hposted
      exact .inr (Option.some.inj hposted)

section Courses
variable [Chip σ] {D : Deed → Prop} {site? : Option Handle}

theorem Step.carries (h : Step D site? a b) (ha : a.Steady)
    (hsite : site? ≠ some c.socket.handle) (hD : ¬ D (.complete c.socket.handle)) :
    Carries c p told a b := fun hattends => by
  rcases h.elsewhere ha (SocketTable.isCurrent_iff.mp hattends.current).1 hsite with h | h
  · exact h.carries hattends
  · exact h.carries ha hD hattends

theorem Leads.carries (h : Leads D a b) (ha : a.Steady)
    (hD : ¬ D (.complete c.socket.handle)) : Carries c p told a b := by
  have hmoves := h ha
  clear h
  induction hmoves with
  | refl => exact .refl a
  | tail hmoves hmove ih =>
    exact ih.trans ((Step.move hmove : Step D none _ _).carries (Moves.steady hmoves ha) nofun hD)

/-- A report that the phase does not admit has no effect; any other ends the operation. -/
theorem onCompletion_eq {h : Handle} {r : SocketRecord} (hr : a.table.get? h = some r)
    (purpose : Purpose) (status : Status) :
    ((r.phase.transition (purpose.done status.isSuccess)).rejected = true ∧
        a.onCompletion h purpose status = a) ∨
      (r.phase.transition (purpose.done status.isSuccess)).rejected = false ∧
        ∃ starts : Bool, a.onCompletion h purpose status =
          if starts = true then (a.complete h purpose status starts).pollIdle
          else a.complete h purpose status starts := by
  unfold onCompletion
  rw [hr]
  dsimp only
  by_cases hrejected : (r.phase.transition (purpose.done status.isSuccess)).rejected = true
  · exact .inl ⟨hrejected, if_pos hrejected⟩
  · rw [if_neg hrejected]
    exact .inr ⟨Bool.eq_false_iff.mpr hrejected, _, rfl⟩

/-- What the end of an operation makes of the phase. -/
theorem phase?_onCompletion {h : Handle} {q : Phase} (hq : a.table.phase? h = some q)
    (purpose : Purpose) (status : Status) :
    (a.onCompletion h purpose status).table.phase? h =
      some (q.apply (purpose.done status.isSuccess)) := by
  obtain ⟨r, hr, rfl⟩ := Option.map_eq_some_iff.mp hq
  rcases onCompletion_eq hr purpose status with ⟨hrejected, heq⟩ | ⟨-, starts, heq⟩
  · rw [heq, hq, Phase.apply_of_rejected hrejected]
  · have hended : (a.complete h purpose status starts).table.phase? h =
        some (r.phase.apply (purpose.done status.isSuccess)) := by
      unfold SocketTable.phase?
      rw [table_complete, SocketTable.get?_modify_self hr]
      cases starts <;> rfl
    rw [heq]
    split
    · rw [phase?_pollIdle, hended]
    · exact hended

theorem carries_onCompletion (ha : a.Steady) (q : Purpose) (status : Status) :
    Carries c p (q = p ∧ status = .success ∧ a.table.phase? c.socket.handle = some p.pending ∧
        (a.onCompletion c.socket.handle q status).table.phase? c.socket.handle = some p.goal)
      a (a.onCompletion c.socket.handle q status) := by
  intro hattends
  obtain ⟨r, hr, _, hpending⟩ := hattends.record
  rcases onCompletion_eq hr q status with ⟨-, heq⟩ | ⟨hadmits, starts, heq⟩
  · rw [heq]
    exact ⟨hattends, .inl⟩
  · have hphase := Purpose.pending_of_admits hadmits
    obtain rfl := (hpending q hphase).1
    have hcomplete := carries_complete (c := c) (p := q) hr hadmits starts
    have hbefore : a.table.phase? c.socket.handle = some q.pending := by
      unfold SocketTable.phase?
      rw [hr, ← hphase]
      rfl
    have hafter := phase?_onCompletion hbefore q status
    have hfinal : Carries c q (status = .success) a (a.onCompletion c.socket.handle q status) := by
      rw [heq]
      split
      · have hsteady : (a.complete c.socket.handle q status starts).Steady :=
          ha.of_quiet (quiet_complete a _ q status starts)
        exact hcomplete.trans ((leads_pollIdle (D := Deed.Asking) rfl _).carries hsteady nofun)
      · exact hcomplete
    refine hfinal.mono (fun hsuccess => ⟨rfl, hsuccess, hbefore, ?_⟩) hattends
    rw [hafter, hsuccess]
    cases q <;> rfl

/-- Reports are the only notifications that can tell a call of a success. -/
theorem carries_handle (ha : a.Steady) (now : Nat) (note : Notification) :
    Carries c p (Moment.Fulfils ⟨a, note⟩ now c.socket p) a (a.handle now note) := by
  intro hattends
  by_cases hd : note.deed? = some (.complete c.socket.handle)
  · obtain ⟨q, status, rfl⟩ := Notification.eq_report hd
    have hnoted : Leads (fun _ => False) a (a.noted (.socket c.socket.handle (q.report status))) :=
      leads_noted a (fun e => by cases q <;> rfl) (by cases q <;> nofun) (by cases q <;> nofun)
    have hhandle : a.handle now (.socket c.socket.handle (q.report status)) =
        (a.noted (.socket c.socket.handle (q.report status))).onCompletion c.socket.handle q
          status := by
      cases q <;> rfl
    have hended := carries_onCompletion (c := c) (p := p) ((hnoted ha).steady ha) q status
    rw [← hhandle] at hended
    refine (hnoted.carries ha id).trans (hended.mono ?_) hattends
    rintro ⟨rfl, rfl, hbefore, hafter⟩
    exact ⟨rfl, hattends.current, hbefore, hafter⟩
  · exact (leads_handle_deeds a now note).carries ha (fun h => hd (h.resolve_left nofun)) hattends

/-- What happens to the adapter otherwise keeps a call attended to, and if it is told of a
success this is by a notification handled on the way. -/
theorem Course.carries {now : Nat} {ms : List (Moment σ)} (h : Course D site? now a ms b)
    (ha : a.Steady) (hsite : site? ≠ some c.socket.handle)
    (hD : ¬ D (.complete c.socket.handle)) :
    Carries c p (∃ m ∈ ms, m.Fulfils now c.socket p) a b := by
  induction h with
  | refl => exact .refl a
  | step hcourse hstep ih => exact ih.trans (hstep.carries (hcourse.steady ha) hsite hD)
  | @handle ms b hcourse note ih =>
    refine Carries.trans (ih.mono ?_) ((carries_handle (hcourse.steady ha) now note).mono ?_)
    · rintro ⟨m, hm, hfulfils⟩
      exact ⟨m, List.mem_append_left _ hm, hfulfils⟩
    · exact fun hfulfils => ⟨_, List.mem_append_right _ (List.mem_singleton_self _), hfulfils⟩
  | poll hcourse ih =>
    exact ih.trans ((leads_pollIdle (D := Deed.Asking) rfl _).carries (hcourse.steady ha) nofun)

end Courses

/-! ### Other callers at the slot -/

/-- Somebody looks for a completion, whether it is for him or not. -/
theorem carries_look (d : Call) (now : Nat) (a : Adapter σ) : Carries c p told a (d.look now a).2 := by
  have htable := (d.look_keeps now (a := a)).2.2
  refine .of_record (by rw [htable]) (fun r hr => ⟨r, by rw [htable, hr], rfl, fun _ _ => rfl⟩) ?_
  by_cases hd : d.seen?.isSome = true
  · rw [Call.look_seen now hd]
    exact .inl rfl
  · have hseen : d.seen? = none := by simpa using hd
    cases hposted : a.completions.get d.socket.handle with
    | none =>
      rw [Call.look_none now hseen hposted]
      exact .inl rfl
    | some status =>
      rw [Call.look_posted now hseen hposted]
      show (a.completions.set d.socket.handle none).get c.socket.handle = _ ∨
        (a.completions.set d.socket.handle none).get c.socket.handle ≠ _
      rw [Slots.get_set]
      split
      · exact .inr nofun
      · exact .inl rfl

/-- A caller whose socket is gone is polled: at most it takes back what is under way. -/
theorem carries_poll_stale [Chip σ] {d : Call} {q : Purpose} (hq : d.purpose? = some q)
    (hstale : a.table.isCurrent d.socket = false)
    (hhandle : d.socket.handle = c.socket.handle) (now : Nat) :
    Carries c p told a (d.poll now a).2 := by
  obtain ⟨hposted, _, htable⟩ := Call.poll_stale hq hstale now
  rw [hhandle] at hposted htable
  refine .of_record ?_ (fun r hr => ?_) (.inr (by rw [hposted]; nofun))
  · rw [htable]
    split
    · exact SocketTable.generation_modify ..
    · rfl
  · rw [htable]
    split
    · rw [SocketTable.get?_modify_self hr]
      exact ⟨_, rfl, rfl, fun q' hq' => (Purpose.pending_of_undo hq').trans hq'.symm⟩
    · exact ⟨r, hr, rfl, fun _ _ => rfl⟩

end Carries

end Adapter

/-! ### The caller itself -/

namespace Call
variable {σ : Type} {a : Adapter σ} {c : Call}

/-- A success at hand after a look was at hand before. -/
theorem Assured.of_look (now : Nat) (h : (c.look now a).1.Assured (c.look now a).2) :
    c.Assured a := by
  by_cases hsome : c.seen?.isSome = true
  · rwa [look_seen now hsome] at h
  · have hseen : c.seen? = none := by simpa using hsome
    cases hposted : a.completions.get c.socket.handle with
    | none =>
      rw [look_none now hseen hposted] at h
      rcases h with h | h
      · split at h
        · cases h
        · exact .inl h
      · have hsocket : (if c.deadline ≤ now then { c with seen? := some none } else c).socket =
          c.socket := by split <;> rfl
        rw [hsocket] at h
        exact .inr h
    | some status =>
      rw [look_posted now hseen hposted] at h
      rcases h with h | h
      · cases h
        exact .inr hposted
      · exact absurd ((Slots.get_set_self ..).symm.trans h) nofun

/-- What is at hand for a call once it has looked was at hand for it before. -/
theorem Assured.of_looked (now : Nat) (h : (c.look now a).1.Assured a) : c.Assured a := by
  have hsocket := (c.look_keeps now (a := a)).1
  rcases h with h | h
  · exact .of_look now (.inl h)
  · exact .inr (hsocket ▸ h)

/-- Only a call whose socket was not closed and that has a success at hand returns one. -/
theorem ok_of_poll (now : Nat) (h : (c.poll now a).1 = .finished (.ok ())) :
    a.table.isCurrent c.socket = true ∧ c.Assured a := by
  obtain ⟨hsocket, _, htable⟩ := c.look_keeps now (a := a)
  rw [poll_eq] at h
  cases hseen : (c.look now a).1.seen? with
  | none =>
    rw [conclude_unseen hseen] at h
    cases h
  | some outcome =>
    rw [conclude_seen hseen] at h
    have hresult := Polled.finished.inj h
    unfold Adapter.finishCall Adapter.callResult at hresult
    dsimp only at hresult
    split at hresult
    · next hcurrent =>
      refine ⟨by rwa [htable, hsocket] at hcurrent, Assured.of_look now ?_⟩
      cases outcome with
      | none =>
        refine .inr ?_
        rw [Option.none_or] at hresult
        split at hresult
        · next status hposted => rw [hposted, Status.eq_success_of_result hresult]
        · cases hresult
      | some status => exact .inl (by rw [hseen, Status.eq_success_of_result hresult])
    · cases hresult

end Call

end WifiAdapter
