import WifiAdapter.Proofs.Elsewhere
import WifiAdapter.Proofs.Runs

/-! A call that waits while its socket stays open.

While a call is parked and its socket is not closed, the socket is marked and in the
phase the call brought it to, until the operation comes to its end; the cell holds what
was posted last, until the call takes it (`Adapter.Waits`). Every move keeps this, and so
does whatever other calls do (`Steps.waits`). -/
namespace WifiAdapter

/-! ### How far an operation is -/

/-- The phases in which a socket can be after the end of an operation: none is under way,
and if the goal is reached the operation went well. -/
structure Purpose.Past (p : Purpose) (status : Status) (phase : Phase) : Prop where
  settled : ∀ q : Purpose, phase ≠ q.pending
  goal : phase = p.goal → status.isSuccess = true

/-- How far the operation of a parked call is, by what came to its end and the phase. -/
inductive Purpose.Stage (p : Purpose) : List (Purpose × Status) → Phase → Prop where
  | pending : p.Stage [] p.pending
  | past {status : Status} {phase : Phase} (h : p.Past status phase) : p.Stage [(p, status)] phase

namespace Purpose
variable {p p' : Purpose} {os : List (Purpose × Status)} {q q' : Phase} {status : Status}

/-- Only the phase in which an operation is under way admits its end. -/
theorem pending_of_admits {ok : Bool} (h : (q.transition (p.done ok)).rejected = false) :
    q = p.pending := by
  rw [Phase.rejected_transition] at h
  cases p <;> cases q <;> first | rfl | cases h

theorem pending_inj (h : p.pending = p'.pending) : p = p' := by
  cases p <;> cases p' <;> first | rfl | cases h

theorem past_done (p : Purpose) (status : Status) :
    p.Past status (p.pending.apply (p.done status.isSuccess)) where
  settled q := by
    cases p <;> cases q <;> cases status.isSuccess <;> decide
  goal h := by
    cases hs : status.isSuccess with
    | true => rfl
    | false =>
      rw [hs] at h
      cases p <;> cases h

theorem Stage.wander (h : p.Stage os q) (hq : q.Wanders q') : p.Stage os q' := by
  rcases hq with rfl | hq
  · exact h
  · cases h with
    | pending => exact absurd rfl (hq p).1
    | past => exact .past ⟨fun q => (hq q).2.1, fun hgoal => absurd hgoal (hq p).2.2⟩

/-- The end of an operation that the phase admits is the end of the one under way. -/
theorem Stage.complete (h : p.Stage os q)
    (hadmits : (q.transition (p'.done status.isSuccess)).rejected = false) :
    p.Stage (os ++ [(p', status)]) (q.apply (p'.done status.isSuccess)) := by
  have hpending := pending_of_admits hadmits
  cases h with
  | pending =>
    cases pending_inj hpending
    exact .past (past_done p status)
  | past h => exact absurd hpending (h.settled p')

/-- Taking back an operation leads to its goal only from there. -/
theorem Stage.undo_eq_goal_iff (h : p.Stage os q) : q.apply (p.done false) = p.goal ↔ q = p.goal := by
  cases h with
  | pending => cases p <;> decide
  | past h =>
    have hsame : q.apply (p.done false) = q := by
      refine (Phase.apply_done_false_iff q p).mpr ?_
      cases hstep : q.step? (p.done false) with
      | none => rfl
      | some q' =>
        have hadmits : (q.transition (p.done false)).rejected = false := by
          rw [Phase.rejected_transition, hstep]
          rfl
        exact absurd (pending_of_admits hadmits) (h.settled p)
    rw [hsame]

/-- At the goal the operation has come to its end and went well. -/
theorem Stage.goal (h : p.Stage os q) (hgoal : q = p.goal) :
    ∃ status : Status, (p, status) ∈ os ∧ status.isSuccess = true := by
  cases h with
  | pending => cases p <;> cases hgoal
  | @past status _ h => exact ⟨status, List.mem_singleton.mpr rfl, h.goal hgoal⟩

/-- No operation is under way but the call's own. -/
theorem Stage.own (h : p.Stage os q) (hq : q = p'.pending) : p' = p := by
  cases h with
  | pending => exact (pending_inj hq).symm
  | past h => exact absurd hq (h.settled p')

/-- Only one operation comes to its end while a call waits: its own. -/
theorem Stage.unique (h : p.Stage os q) {x : Purpose × Status} (hx : x ∈ os) :
    ∃ status, x = (p, status) ∧ os = [(p, status)] := by
  cases h with
  | pending => cases hx
  | @past status _ h => exact ⟨status, List.mem_singleton.mp hx, rfl⟩

end Purpose

/-! ### What a caller hears -/

/-- What a call has seen and what is posted for it, by what was entered since it began to
wait: it took what had been posted last, or it took nothing and that is still there. -/
def Call.Hears (c : Call) (es : List Entry) (posted? : Option Status) : Prop :=
  match c.seen? with
  | some (some status) => (∃ e ∈ es, e.takes c.socket = true) ∧ heard c.socket es = some status
  | _ => (∀ e ∈ es, e.takes c.socket = false) ∧ posted? = lastPosted c.socket es

section Hears
variable {c : Call} {es more : List Entry} {posted? : Option Status}

theorem Call.hears_of_untaken (hseen : c.seen?.join = none) :
    c.Hears es posted? ↔
      (∀ e ∈ es, e.takes c.socket = false) ∧ posted? = lastPosted c.socket es := by
  unfold Hears
  split
  · next h =>
    rw [h] at hseen
    cases hseen
  · rfl

theorem Call.hears_of_taken {status : Status} (hseen : c.seen? = some (some status)) :
    c.Hears es posted? ↔
      (∃ e ∈ es, e.takes c.socket = true) ∧ heard c.socket es = some status := by
  unfold Hears
  rw [hseen]

/-- A completion seen or posted is what was heard. -/
theorem Call.Hears.outcome (h : c.Hears es posted?) :
    c.seen?.join.or posted? = heard c.socket es := by
  cases hseen : c.seen?.join with
  | none =>
    obtain ⟨htakes, hposted⟩ := (hears_of_untaken hseen).mp h
    rw [hposted, heard_of_untaken htakes]
    rfl
  | some status =>
    have hs : c.seen? = some (some status) := Option.join_eq_some_iff.mp hseen
    exact ((hears_of_taken hs).mp h).2.symm

/-- Whatever is posted next takes the place of what was posted. -/
theorem Call.Hears.append (h : c.Hears es posted?) (hmore : ∀ e ∈ more, e.takes c.socket = false) :
    c.Hears (es ++ more) ((lastPosted c.socket more).or posted?) := by
  cases hseen : c.seen?.join with
  | none =>
    obtain ⟨htakes, hposted⟩ := (hears_of_untaken hseen).mp h
    refine (hears_of_untaken hseen).mpr ⟨fun e he => ?_, by rw [lastPosted_append, hposted]⟩
    rcases List.mem_append.mp he with he | he
    · exact htakes e he
    · exact hmore e he
  | some status =>
    have hs : c.seen? = some (some status) := Option.join_eq_some_iff.mp hseen
    obtain ⟨⟨e, he, htakes⟩, hheard⟩ := (hears_of_taken hs).mp h
    have htaken : ∃ e ∈ es, e.takes c.socket = true := ⟨e, he, htakes⟩
    refine (hears_of_taken hs).mpr ⟨⟨e, List.mem_append_left _ he, htakes⟩, ?_⟩
    rw [heard_append_of_taken htaken, hheard]

/-- A call takes what is posted. -/
theorem Call.Hears.take {status : Status} (h : c.Hears es (some status)) (hseen : c.seen? = none)
    (posted? : Option Status) :
    Call.Hears { c with seen? := some (some status) } (es ++ [.taken c.socket status]) posted? := by
  obtain ⟨htakes, hposted⟩ := (hears_of_untaken (by rw [hseen]; rfl)).mp h
  refine (hears_of_taken rfl).mpr ⟨⟨.taken c.socket status, by simp, by simp [Entry.takes]⟩, ?_⟩
  exact (heard_take htakes status).trans hposted.symm

end Hears

namespace Adapter
variable {σ : Type}

/-! ### Calls that wait -/

/-- A call waits: its socket is open and marked, its operation is as far as the phase says,
and what it has seen and what is posted is what it is to hear. -/
structure Waits (a : Adapter σ) (c : Call) : Prop where
  current : a.table.isCurrent c.socket = true
  stage : ∃ p r, c.purpose? = some p ∧ a.table.get? c.socket.handle = some r ∧ r.waiting = true ∧
    p.Stage (outcomes c.socket (a.bus.vigil c.socket)) r.phase
  hears : c.Hears (a.bus.vigil c.socket) (a.completions.get c.socket.handle)

section Waits
variable {a b : Adapter σ} {c : Call}

theorem vigil_append {i : Incarnation} {es : List Entry}
    (hjournal : b.bus.journal = a.bus.journal ++ es) (hes : ∀ e ∈ es, e.parks i = false) :
    b.bus.vigil i = a.bus.vigil i ++ es := by
  unfold Bus.vigil
  rw [hjournal, Entry.since_append hes]

/-- What a call needs to go on waiting. -/
theorem Waits.frame (h : a.Waits c) {es : List Entry}
    (hjournal : b.bus.journal = a.bus.journal ++ es)
    (hes : ∀ e ∈ es, e.takes c.socket = false ∧ e.parks c.socket = false)
    (hgeneration : b.table.generation c.socket.handle = a.table.generation c.socket.handle)
    (hrecord : ∀ r (p : Purpose) os, a.table.get? c.socket.handle = some r → p.Stage os r.phase →
      ∃ r', b.table.get? c.socket.handle = some r' ∧ r'.waiting = r.waiting ∧
        p.Stage (os ++ outcomes c.socket es) r'.phase)
    (hposted : b.completions.get c.socket.handle =
      (lastPosted c.socket es).or (a.completions.get c.socket.handle)) : b.Waits c := by
  obtain ⟨p, r, hp, hr, hwaiting, hstage⟩ := h.stage
  obtain ⟨r', hr', hwaiting', hstage'⟩ := hrecord r p _ hr hstage
  have hvigil := vigil_append hjournal fun e he => (hes e he).2
  refine ⟨?_, ⟨p, r', hp, hr', hwaiting'.trans hwaiting, ?_⟩, ?_⟩
  · have hcurrent := h.current
    unfold SocketTable.isCurrent SocketTable.isOpen at hcurrent ⊢
    rw [hgeneration, hr']
    rw [hr] at hcurrent
    exact hcurrent
  · rw [hvigil, outcomes_append]
    exact hstage'
  · rw [hvigil, hposted]
    exact h.hears.append fun e he => (hes e he).1

theorem Waits.elsewhere (h : a.Waits c) (hab : Elsewhere c.socket a b) : b.Waits c := by
  obtain ⟨es, hjournal, hes⟩ := hab.journal
  refine h.frame hjournal (fun e he => ⟨(hes e he).takes, (hes e he).parks⟩) hab.generation
    (fun r p os hr hstage => ?_) ?_
  · obtain ⟨r', hr', hwaiting, hphase⟩ := hab.record r hr
    rw [outcomes_mute hes, List.append_nil]
    exact ⟨r', hr', hwaiting, hstage.wander hphase⟩
  · rw [lastPosted_mute hes]
    exact hab.posted

theorem Waits.marked (h : a.Waits c) :
    (a.table.get? c.socket.handle).any (·.waiting) = true := by
  obtain ⟨_, r, _, hr, hwaiting, _⟩ := h.stage
  rw [hr]
  exact hwaiting

/-- The operation of a call comes to its end: the call is told. -/
theorem Waits.complete (h : a.Waits c) {r : SocketRecord}
    (hr : a.table.get? c.socket.handle = some r) {purpose : Purpose} {status : Status}
    (hadmits : (r.phase.transition (purpose.done status.isSuccess)).rejected = false)
    (starts : Bool) : (a.complete c.socket.handle purpose status starts).Waits c := by
  have hi : a.table.incarnation c.socket.handle = c.socket :=
    SocketTable.incarnation_of_current h.current
  have hjournal := journal_complete a c.socket.handle purpose status starts
  rw [hi] at hjournal
  refine h.frame hjournal (by simp [Entry.takes, Entry.parks]) ?_ (fun r' p os hr' hstage => ?_) ?_
  · rw [table_complete]
    exact SocketTable.generation_modify ..
  · cases hr.symm.trans hr'
    rw [table_complete, SocketTable.get?_modify, if_pos rfl, hr]
    refine ⟨_, rfl, by cases starts <;> rfl, ?_⟩
    have hend := hstage.complete hadmits
    rw [show outcomes c.socket [.completed c.socket purpose status] = [(purpose, status)] by
      simp [outcomes, Entry.outcome?]]
    cases starts <;> exact hend
  · rw [completions_complete, if_pos h.marked, Slots.get_set_self]
    simp [lastPosted, Entry.posted?]

/-- The stream of the socket ends: whoever waits on it is told. -/
theorem Waits.ended (h : a.Waits c) (ha : a.Steady) {i : Incarnation}
    (hi : i.handle = c.socket.handle) (hout : a.rx.outstanding? = some i) {d : Delivery}
    {status : Status}
    (hd : d.outcome = .closed ∧ status = .connectionAborted ∨ d.outcome = .failed status)
    (read : ReadStatus) :
    (((a.noted (.socket i.handle (.received d))).onRx .withdraw).endStream i.handle status
      read).Waits c := by
  have hcursor := RxState.cursor_of_outstanding hout
  have hopen : ((a.noted (.socket i.handle (.received d))).onRx .withdraw).table.isOpen i.handle =
      true := ha.sound.isOpen (.inl hcursor)
  have hanswer := Entry.answer?_of_outstanding hout d
  -- Both the socket that is asked and the one waited on are in use: on one slot they are one.
  have hasked := SocketTable.incarnation_of_current (ha.sound.asked i hcursor).current
  have hwaits := SocketTable.incarnation_of_current h.current
  have hsame : i = c.socket := by rw [← hasked, hi, hwaits]
  subst hsame
  obtain ⟨told, hjournal⟩ := journal_endStream _ hopen status read
  refine h.frame (hjournal.trans (List.append_assoc ..)) (by simp [Entry.takes, Entry.parks]) ?_
    (fun r p os hr hstage => ?_) ?_
  · rw [table_endStream _ hopen]
    exact SocketTable.generation_modify ..
  · refine ⟨{ r with peerClosed := true, poll := false }, ?_, rfl, ?_⟩
    · rw [table_endStream _ hopen, SocketTable.get?_modify, if_pos rfl]
      exact congrArg (Option.map _) hr
    · simpa [outcomes, Entry.outcome?] using hstage
  · have hposted := (Entry.posted?_handled hanswer).trans (Delivery.verdict?_of_end hd)
    rw [completions_endStream _ hopen, if_pos (by exact h.marked), Slots.get_set_self]
    unfold lastPosted
    rw [List.singleton_append, List.filterMap_cons_some hposted]
    rfl

theorem Concerns.waits {D : Deed → Prop} (hab : Concerns D c.socket.handle a b) (ha : a.Steady)
    (h : a.Waits c) : b.Waits c := by
  cases hab with
  | complete hr hp starts hd => exact h.complete hr hp starts
  | ended read hi hout hd => exact h.ended ha hi hout hd read

section Steps
variable [Chip σ]

/-- Whatever else happens, a call waits as long as it is not polled and its socket is
neither closed nor called on. -/
theorem Step.waits {D : Deed → Prop} {site? : Option Handle} (hab : Step D site? a b) (ha : a.Steady)
    (hsite : site? ≠ some c.socket.handle) (h : a.Waits c) : b.Waits c := by
  rcases hab.elsewhere ha (SocketTable.isCurrent_iff.mp h.current).1 hsite with hab | hab
  · exact h.elsewhere hab
  · exact hab.waits ha h

theorem Steps.waits {D : Deed → Prop} {site? : Option Handle} (hab : Steps D site? a b) (ha : a.Steady)
    (hsite : site? ≠ some c.socket.handle) (h : a.Waits c) : b.Waits c := by
  induction hab with
  | refl => exact h
  | tail hsteps hstep ih => exact hstep.waits (Steps.steady hsteps ha) hsite ih

end Steps

end Waits

end Adapter

/-! ### The call itself -/

/-- What a call that is polled hears. -/
def Call.hearing {σ : Type} (c : Call) (a : Adapter σ) : Option Status :=
  heard c.socket (a.bus.vigil c.socket)

namespace Adapter
variable {σ : Type} {a : Adapter σ} {c : Call}

/-- The call takes what is posted. -/
theorem Waits.take (h : a.Waits c) (hseen : c.seen? = none) {status : Status}
    (hposted : a.completions.get c.socket.handle = some status) :
    ((a.disarm c.socket.handle).enter (.taken c.socket status)).Waits
      { c with seen? := some (some status) } := by
  have hvigil : ((a.disarm c.socket.handle).enter (.taken c.socket status)).bus.vigil c.socket =
      a.bus.vigil c.socket ++ [.taken c.socket status] :=
    vigil_append rfl (by simp [Entry.parks])
  refine ⟨h.current, ?_, ?_⟩
  · obtain ⟨p, r, hp, hr, hwaiting, hstage⟩ := h.stage
    refine ⟨p, r, hp, hr, hwaiting, ?_⟩
    rw [hvigil, outcomes_append]
    simpa [outcomes, Entry.outcome?] using hstage
  · have hhears := h.hears
    rw [hposted] at hhears
    rw [hvigil]
    exact hhears.take hseen _

/-- The time of the call has run out. -/
theorem Waits.expire (h : a.Waits c) (hseen : c.seen? = none) :
    a.Waits { c with seen? := some none } := by
  have hhears := (Call.hears_of_untaken (by rw [hseen]; rfl)).mp h.hears
  exact ⟨h.current, h.stage, (Call.hears_of_untaken rfl).mpr hhears⟩

/-- A look leaves the call waiting, and it is to hear the same. -/
theorem Waits.look (h : a.Waits c) (now : Nat) :
    (c.look now a).2.Waits (c.look now a).1 ∧
      (c.look now a).1.hearing (c.look now a).2 = c.hearing a := by
  cases hseen : c.seen? with
  | some outcome =>
    rw [Call.look_seen now (by rw [hseen]; rfl)]
    exact ⟨h, rfl⟩
  | none =>
    cases hposted : a.completions.get c.socket.handle with
    | some status =>
      rw [Call.look_posted now hseen hposted]
      refine ⟨h.take hseen hposted, ?_⟩
      have htakes := ((Call.hears_of_untaken (by rw [hseen]; rfl)).mp h.hears).1
      unfold Call.hearing
      rw [show Bus.vigil _ _ = a.bus.vigil c.socket ++ [.taken c.socket status] from
        vigil_append rfl (by simp [Entry.parks]), heard_take htakes, heard_of_untaken htakes]
    | none =>
      rw [Call.look_none now hseen hposted]
      by_cases hclock : c.deadline ≤ now
      · rw [if_pos hclock]
        exact ⟨h.expire hseen, rfl⟩
      · rw [if_neg hclock]
        exact ⟨h, rfl⟩

/-- The result of a call that waits is what it hears. -/
theorem Waits.finishCall (h : a.Waits c) :
    (a.finishCall c c.seen?.join).1 = callResult true (c.hearing a) := by
  unfold Adapter.finishCall
  rw [h.current]
  exact congrArg (callResult true) h.hears.outcome

/-- What a call that waits makes of the phase with the result it hears. -/
theorem Waits.phase_finishCall (h : a.Waits c) {p : Purpose} (hp : c.purpose? = some p)
    {r : SocketRecord} (hr : a.table.get? c.socket.handle = some r) :
    ((a.finishCall c c.seen?.join).2.table.get? c.socket.handle).map (·.phase) =
      some (match callResult true (c.hearing a) with
        | .ok _ => r.phase
        | .error _ => r.phase.apply (p.done false)) := by
  have hphase : (a.table.get? c.socket.handle).map (·.phase) = some r.phase := by
    rw [hr]
    rfl
  rw [Adapter.phase_finishCall a c hphase, h.finishCall, hp]
  cases callResult true (c.hearing a) <;> rfl

/-- A call that is polled either goes on waiting, having heard nothing, or it finishes with
what it hears. -/
theorem Waits.poll (h : a.Waits c) (now : Nat) {p : Purpose} (hp : c.purpose? = some p)
    {r : SocketRecord} (hr : a.table.get? c.socket.handle = some r) :
    (c.hearing a = none ∧ c.poll now a = (.waiting c, a)) ∨
      ((c.poll now a).1 = .finished (callResult true (c.hearing a)) ∧
        ((c.poll now a).2.table.get? c.socket.handle).map (·.phase) =
          some (match callResult true (c.hearing a) with
            | .ok _ => r.phase
            | .error _ => r.phase.apply (p.done false))) := by
  obtain ⟨hlook, hsame⟩ := h.look now
  obtain ⟨hsocket, hpurpose, htable⟩ := c.look_keeps now (a := a)
  rw [Call.poll_eq]
  cases hseen : (c.look now a).1.seen? with
  | none =>
    obtain ⟨hunseen, hposted, heq⟩ := Call.look_unseen now hseen
    refine .inl ⟨?_, ?_⟩
    · rw [Call.hearing, ← h.hears.outcome, hunseen, hposted]
      rfl
    · rw [heq, Call.conclude_unseen hunseen]
  | some outcome =>
    have hjoin : (c.look now a).1.seen?.join = outcome := by rw [hseen]; rfl
    have hresult := hlook.finishCall
    have hphase := hlook.phase_finishCall (hpurpose.trans hp)
      (by rw [hsocket, htable]; exact hr)
    rw [hjoin, hsame] at hresult hphase
    rw [hsocket] at hphase
    rw [Call.conclude_seen hseen]
    exact .inr ⟨congrArg Polled.finished hresult, hphase⟩

/-- The operation of a call came to its end: the call hears its status, or the end of a
stream in its place. -/
theorem Waits.hearing_of_completed (h : a.Waits c) {p : Purpose} {status : Status}
    (hmem : .completed c.socket p status ∈ a.bus.vigil c.socket) :
    c.purpose? = some p ∧ ∃ heard, c.hearing a = some heard ∧
      (heard = status ∨ ∃ e ∈ a.bus.vigil c.socket, (e.ending? c.socket).isSome = true) := by
  obtain ⟨q, r, hq, _, _, hstage⟩ := h.stage
  obtain ⟨s, hs, hos⟩ := hstage.unique (mem_outcomes_iff.mpr hmem)
  cases hs
  refine ⟨hq, ?_⟩
  have hposted : (c.hearing a).isSome = true := by
    have hlast := lastPosted_isSome hmem (Entry.posted?_completed ..)
    rw [Call.hearing, ← h.hears.outcome]
    cases hseen : c.seen?.join with
    | some s => rfl
    | none => rwa [Option.none_or, ((Call.hears_of_untaken hseen).mp h.hears).2]
  obtain ⟨heard, hheard⟩ := Option.isSome_iff_exists.mp hposted
  refine ⟨heard, hheard, ?_⟩
  obtain ⟨e, he, hentry⟩ := exists_posted_of_heard hheard
  rcases Entry.posted?_cases hentry with ⟨p', rfl⟩ | hending
  · have hother := mem_outcomes_iff.mpr he
    rw [hos] at hother
    cases List.mem_singleton.mp hother
    exact .inl rfl
  · exact .inr ⟨e, he, hending⟩

/-- A call that fails with its socket where success leads to: the operation went well, and
the stream ended. -/
theorem Waits.goal_of_error (h : a.Waits c) {p : Purpose} (hp : c.purpose? = some p)
    {r : SocketRecord} (hr : a.table.get? c.socket.handle = some r) (hgoal : r.phase = p.goal)
    {error : SocketError} (herror : callResult true (c.hearing a) = .error error) :
    (∃ status, .completed c.socket p status ∈ a.bus.vigil c.socket ∧ status.isSuccess = true) ∧
      ∃ e ∈ a.bus.vigil c.socket, (e.ending? c.socket).isSome = true := by
  obtain ⟨q, r', hq, hr', _, hstage⟩ := h.stage
  cases hp.symm.trans hq
  cases hr.symm.trans hr'
  obtain ⟨status, hmem, hsuccess⟩ := hstage.goal hgoal
  have hcompleted := mem_outcomes_iff.mp hmem
  refine ⟨⟨status, hcompleted, hsuccess⟩, ?_⟩
  obtain ⟨_, heard, hheard, hcause⟩ := h.hearing_of_completed hcompleted
  rcases hcause with rfl | hending
  · -- A success that is heard is no error.
    rw [hheard] at herror
    cases herror.symm.trans (Status.result_of_success hsuccess)
  · exact hending

end Adapter

end WifiAdapter
