import WifiAdapter.Proofs.OpenSockets

/-! What moves a socket from phase to phase.

An operation on a socket is begun by the application. After that the phase of the socket changes
only where the end of an operation is put to it: by a notification that reports one, or by a caller
that fails and takes back what it began. `Session.endings` lists these for a history, in order;
while the application begins nothing new on the socket, its phase is what they make of it
(`Session.phase?_run`). The first of them that the operation under way admits decides where it
leads, and later ones have no effect (`Phase.foldl_endings`). -/
namespace WifiAdapter

namespace Phase

/-- The requests with which operations end. -/
def Request.Ends : Request → Prop
  | .bindDone _ | .listenDone _ | .connectDone _ => True
  | _ => False

/-- How a request ends the operation that is under way in a phase, if it does: well or not. -/
def answer? : Phase → Request → Option Bool
  | binding, .bindDone ok => some ok
  | listenPending, .listenDone ok => some ok
  | connecting, .connectDone ok => some ok
  | _, _ => none

/-- Where the operation that is under way in a phase leads, if there is one. -/
def afterEnd (ok : Bool) : Phase → Phase
  | binding => if ok then bound else unbound
  | listenPending => if ok then listening else bound
  | connecting => if ok then connected else unbound
  | p => p

section Endings
variable {p : Phase} {r : Request} {ok : Bool}

theorem apply_of_unanswered (hends : r.Ends) (h : p.answer? r = none) : p.apply r = p := by
  cases r with
  | bindDone ok | listenDone ok | connectDone ok => cases p <;> first | rfl | cases h
  | _ => exact hends.elim

theorem apply_of_answered (h : p.answer? r = some ok) : p.apply r = p.afterEnd ok := by
  unfold answer? at h
  split at h <;> cases h <;> cases ok <;> rfl

/-- No operation is under way where one has led. -/
theorem answer?_afterEnd (h : p.answer? r = some ok) (next : Request) :
    (p.afterEnd ok).answer? next = none := by
  unfold answer? at h
  split at h <;> cases h <;> cases ok <;> rfl

theorem foldl_of_unanswered {rs : List Request} (hends : ∀ r ∈ rs, r.Ends)
    (h : ∀ r ∈ rs, p.answer? r = none) : rs.foldl apply p = p := by
  induction rs with
  | nil => rfl
  | cons r rest ih =>
    obtain ⟨hr, hrest⟩ := List.forall_mem_cons.mp hends
    obtain ⟨hnone, hnever⟩ := List.forall_mem_cons.mp h
    rw [List.foldl_cons, apply_of_unanswered hr hnone]
    exact ih hrest hnever

/-- The first request that ends the operation under way decides. -/
theorem foldl_endings {rs : List Request} (hends : ∀ r ∈ rs, r.Ends) (p : Phase) :
    rs.foldl apply p = ((rs.findSome? p.answer?).map (p.afterEnd ·)).getD p := by
  induction rs with
  | nil => rfl
  | cons r rest ih =>
    obtain ⟨hr, hrest⟩ := List.forall_mem_cons.mp hends
    rw [List.foldl_cons, List.findSome?_cons]
    cases hanswer : p.answer? r with
    | none =>
      rw [apply_of_unanswered hr hanswer]
      exact ih hrest
    | some ok =>
      rw [apply_of_answered hanswer]
      exact foldl_of_unanswered hrest fun next _ => answer?_afterEnd hanswer next

end Endings

end Phase

theorem Purpose.ends_done (p : Purpose) (ok : Bool) : (p.done ok).Ends := by
  cases p <;> trivial

/-! ### Notifications -/

/-- The end of an operation that a message reports. -/
def SocketMessage.ending? : SocketMessage → Option Phase.Request
  | .bound status => some (.bindDone status.isSuccess)
  | .listening status => some (.listenDone status.isSuccess)
  | .connected status => some (.connectDone status.isSuccess)
  | _ => none

/-- The end of an operation on a socket that a notification reports. -/
def Notification.ending? (h : Handle) : Notification → Option Phase.Request
  | .socket k m => if k = h then m.ending? else none
  | .radio _ => none

theorem Notification.ending?_report (h : Handle) (p : Purpose) (status : Status) :
    (Notification.socket h (p.report status)).ending? h = some (p.done status.isSuccess) := by
  cases p <;> exact if_pos rfl

theorem Notification.ends {note : Notification} {h : Handle} {r : Phase.Request}
    (hr : note.ending? h = some r) : r.Ends := by
  cases note with
  | radio m => cases hr
  | socket k m =>
    change (if k = h then m.ending? else none) = some r at hr
    split at hr
    · cases m <;> cases hr <;> trivial
    · cases hr

namespace Adapter
variable {σ : Type} [Chip σ] {D : Deed → Prop} {site? : Option Handle} {a b : Adapter σ}
  {h : Handle} {q : Phase}

omit [Chip σ] in
/-- Only calls, and what operations and connects bring about, concern the phase. -/
theorem Revision.phase {r r' : SocketRecord} (hrevision : Revision D site? a h r r')
    (hsite : site? ≠ some h) (hcomplete : ¬ D (.complete h)) (hconnect : ¬ D (.connect h)) :
    r'.phase = r.phase := by
  cases hrevision with
  | begin hs | undo hs | mark hs => exact absurd hs hsite
  | complete hd => exact absurd hd hcomplete
  | connect hd | connectDone hd | aim hd => exact absurd hd hconnect
  | _ => rfl

theorem Step.phase? (hab : Step D site? a b) (ha : a.Steady) (hsite : site? ≠ some h)
    (hcomplete : ¬ D (.complete h)) (hconnect : ¬ D (.connect h))
    (hq : a.table.phase? h = some q) : b.table.phase? h = some q := by
  obtain ⟨r, hr, rfl⟩ := Option.map_eq_some_iff.mp hq
  cases hab.slot ha h with
  | free hfree | opened hfree => cases hfree.symm.trans hr
  | closed hs => exact absurd hs hsite
  | revised hr' hrevised _ hrevision =>
    cases hr'.symm.trans hr
    exact Option.map_eq_some_iff.mpr ⟨_, hrevised, hrevision.phase hsite hcomplete hconnect⟩

theorem Leads.phase? (hab : Leads D a b) (ha : a.Steady) (hcomplete : ¬ D (.complete h))
    (hconnect : ¬ D (.connect h)) (hq : a.table.phase? h = some q) : b.table.phase? h = some q := by
  have hsteps : Steps D none a b := hab.yields ha
  exact hsteps.keeps (P := fun a => a.table.phase? h = some q)
    (fun _ _ ha hq hstep => hstep.phase? ha nofun hcomplete hconnect hq) ha hq

/-- What the end of a connect makes of the phase. -/
theorem phase?_onConnect (hq : a.table.phase? h = some q) (status : Status) :
    (a.onConnect h status).table.phase? h = some (q.apply (.connectDone status.isSuccess)) := by
  obtain ⟨r, hr, rfl⟩ := Option.map_eq_some_iff.mp hq
  unfold onConnect
  rw [hr]
  dsimp only
  by_cases hrejected : (r.phase.transition (.connectDone status.isSuccess)).rejected = true
  · rw [if_pos hrejected, hq, Phase.apply_of_rejected hrejected]
  · rw [if_neg hrejected]
    have htold (e : Event) : ((a.modify h (·.apply (.connectDone status.isSuccess))).announce
        e).table.phase? h = some (r.phase.apply (.connectDone status.isSuccess)) := by
      rw [table_announce]
      refine Option.map_eq_some_iff.mpr ⟨r.apply (.connectDone status.isSuccess), ?_, rfl⟩
      exact SocketTable.get?_modify_self hr
    split
    · rw [phase?_pollIdle]
      exact htold _
    · exact htold _

/-- A notification puts to the phase of a socket what it reports of it, and nothing else. -/
theorem phase?_handle (ha : a.Steady) (now : Nat) (note : Notification)
    (hq : a.table.phase? h = some q) :
    (a.handle now note).table.phase? h = some ((note.ending? h).toList.foldl Phase.apply q) := by
  by_cases hcomplete : note.deed? = some (.complete h)
  · obtain ⟨p, status, rfl⟩ := Notification.eq_report hcomplete
    have hended := phase?_onCompletion (a := a.noted (.socket h (p.report status))) hq p status
    rw [Notification.ending?_report]
    cases p <;> exact hended
  · by_cases hconnect : note.deed? = some (.connect h)
    · obtain ⟨status, rfl⟩ := Notification.eq_connected hconnect
      have hended := phase?_onConnect (a := a.noted (.socket h (.connected status))) hq status
      rw [Notification.ending?, if_pos rfl]
      exact hended
    · have hnone : note.ending? h = none := by
        cases note with
        | radio m => rfl
        | socket k m =>
          refine ite_eq_right_iff.mpr ?_
          rintro rfl
          cases m <;> first | rfl | exact absurd rfl hcomplete | exact absurd rfl hconnect
      rw [hnone]
      exact (leads_handle_deeds a now note).phase? ha (fun hd => hcomplete (hd.resolve_left nofun))
        (fun hd => hconnect (hd.resolve_left nofun)) hq

/-- What a course makes of the phase of a socket that it does not itself concern. -/
theorem Course.phase? {now : Nat} {ms : List (Moment σ)} (hab : Course D site? now a ms b)
    (ha : a.Steady) (hsite : site? ≠ some h) (hcomplete : ¬ D (.complete h))
    (hconnect : ¬ D (.connect h)) (hq : a.table.phase? h = some q) :
    b.table.phase? h = some ((ms.filterMap fun m => m.note.ending? h).foldl Phase.apply q) := by
  induction hab with
  | refl => exact hq
  | step hcourse hstep ih => exact hstep.phase? (hcourse.steady ha) hsite hcomplete hconnect ih
  | handle hcourse note ih =>
    rw [phase?_handle (hcourse.steady ha) now note ih, List.filterMap_append, List.foldl_append]
    cases hnote : note.ending? h <;> simp [hnote]
  | poll hcourse ih => rw [phase?_pollIdle, ih]

end Adapter

/-! ### Callers -/

namespace Call
variable {σ : Type}

/-- What a caller takes back when it learns its result. -/
def ending? (c : Call) : Outcome → Option Phase.Request
  | .finished (.error _) => c.purpose?.map (·.done false)
  | _ => none

theorem ends {c : Call} {outcome : Outcome} {r : Phase.Request}
    (hr : c.ending? outcome = some r) : r.Ends := by
  unfold ending? at hr
  split at hr
  · obtain ⟨p, -, rfl⟩ := Option.map_eq_some_iff.mp hr
    exact p.ends_done false
  · cases hr

section Phases
variable {a : Adapter σ} {q : Phase} (c : Call)

theorem phase?_finishCall (hq : a.table.phase? c.socket.handle = some q)
    (outcome : Option Status) :
    (a.finishCall c outcome).2.table.phase? c.socket.handle =
      some ((c.ending? (.finished (a.finishCall c outcome).1)).toList.foldl Phase.apply q) := by
  refine (Adapter.phase_finishCall a c hq outcome).trans ?_
  unfold ending?
  cases (a.finishCall c outcome).1 <;> cases c.purpose? <;> rfl

/-- A caller puts to the phase of its slot what it takes back, and nothing else. -/
theorem phase?_poll (now : Nat) (hq : a.table.phase? c.socket.handle = some q) :
    (c.poll now a).2.table.phase? c.socket.handle =
      some ((c.ending? (c.poll now a).1).toList.foldl Phase.apply q) := by
  obtain ⟨hsocket, hpurpose, htable⟩ := c.look_keeps now (a := a)
  have hlooked : (c.look now a).2.table.phase? (c.look now a).1.socket.handle = some q := by
    rw [hsocket, htable, hq]
  have hsame (outcome : Outcome) : (c.look now a).1.ending? outcome = c.ending? outcome := by
    unfold ending?
    rw [hpurpose]
  rw [poll_eq]
  cases hseen : (c.look now a).1.seen? with
  | none =>
    rw [conclude_unseen hseen, htable]
    exact hq
  | some outcome =>
    rw [conclude_seen hseen, ← hsame, ← hsocket]
    exact phase?_finishCall _ hlooked outcome

end Phases

end Call

/-! ### Histories -/

/-- The application begins something on a socket, or closes it. -/
def Action.OperatesOn {σ : Type} (h : Handle) : Action σ → Prop
  | .close k | .bind k _ | .listen k _ | .connect k _ => k = h
  | _ => False

namespace Session
variable {σ : Type} [Chip σ] {s : Session σ} {h : Handle} {q : Phase} {action : Action σ}

/-- What a caller that is polled takes back on a slot. -/
def takenBack? (s : Session σ) (h : Handle) : Action σ → Option Phase.Request
  | .poll id =>
    match s.find? id with
    | some (.call c) =>
      if c.socket.handle = h then c.ending? (c.poll s.clock s.adapter).1 else none
    | _ => none
  | _ => none

/-- The ends of operations that a history puts to a socket, in order. -/
def endings (s : Session σ) (h : Handle) : List (Action σ) → List Phase.Request
  | [] => []
  | action :: rest =>
    (s.moments action).filterMap (fun m => m.note.ending? h) ++ (s.takenBack? h action).toList ++
      endings (s.perform action).2 h rest

omit [Chip σ] in
theorem ends_of_takenBack {r : Phase.Request} (hr : s.takenBack? h action = some r) : r.Ends := by
  unfold takenBack? at hr
  split at hr
  · split at hr
    · split at hr
      · exact Call.ends hr
      · cases hr
    · cases hr
  · cases hr

theorem ends_of_endings (s : Session σ) (h : Handle) (actions : List (Action σ)) :
    ∀ r ∈ s.endings h actions, r.Ends := by
  induction actions generalizing s with
  | nil => exact fun r hr => absurd hr List.not_mem_nil
  | cons action rest ih =>
    intro r hr
    rcases List.mem_append.mp hr with hr | hr
    · rcases List.mem_append.mp hr with hr | hr
      · obtain ⟨m, -, hm⟩ := List.mem_filterMap.mp hr
        exact Notification.ends hm
      · exact ends_of_takenBack (Option.mem_toList.mp hr)
    · exact ih _ r hr

omit [Chip σ] in
/-- No action but a connect brings about what a connect does. -/
theorem operates_of_connects (hd : deeds action (.connect h)) : action.OperatesOn h := by
  cases action with
  | connect k remote => exact (Deed.connect.inj hd).symm
  | send | work | contend => rcases hd with hd | hd <;> cases hd
  | poll => rcases hd with hd | hd | hd <;> cases hd
  | create | close | receive | drop | notify | post | tick | start | stop | join | scan | takeEvent |
    nextEvent => cases hd
  | _ => exact hd.elim

/-- An action that does not operate on a socket puts to its phase what it ends. -/
theorem phase?_perform (hs : s.adapter.Steady) (hfree : ¬ action.OperatesOn h)
    (hq : s.adapter.table.phase? h = some q) :
    (s.perform action).2.adapter.table.phase? h =
      some ((s.endings h [action]).foldl Phase.apply q) := by
  rw [endings, endings, List.append_nil, List.foldl_append]
  by_cases hsite : s.site? action = some h
  · have hmoments : s.moments action = [] := List.eq_nil_iff_forall_not_mem.mpr fun m hm =>
      absurd ((site?_of_moments hm).symm.trans hsite) nofun
    rw [hmoments, List.filterMap_nil, List.foldl_nil]
    cases action with
    | close k | bind k | listen k => exact absurd (Option.some.inj hsite) hfree
    | poll id =>
      obtain ⟨c, hc, rfl⟩ := exists_call_of_site hsite
      rw [adapter_poll_call hc, c.phase?_poll s.clock hq]
      simp only [takenBack?, hc, if_true]
    | contend id =>
      obtain ⟨c, hc, rfl⟩ := exists_call_of_site hsite
      exact (congrArg (·.phase? c.socket.handle) (table_contend_call hc)).trans hq
    | _ => cases hsite
  · have hnone : s.takenBack? h action = none := by
      unfold takenBack?
      split
      · split
        · next hc => exact if_neg fun hhandle => hsite (by rw [site?, hc]; exact congrArg some hhandle)
        · rfl
      · rfl
    rw [hnone]
    exact (passes_perform s action hs).phase? hs hsite broughtBy_of_deeds
      (fun hd => hfree (operates_of_connects hd)) hq

/-- While the application begins nothing on an open socket, its phase is what the ends of
operations make of it. -/
theorem phase?_run (hs : s.adapter.Steady) {actions : List (Action σ)}
    (hfree : ∀ action ∈ actions, ¬ action.OperatesOn h) (hq : s.adapter.table.phase? h = some q) :
    (s.run actions).adapter.table.phase? h =
      some ((s.endings h actions).foldl Phase.apply q) := by
  induction actions generalizing s q with
  | nil => exact hq
  | cons action rest ih =>
    obtain ⟨hfirst, hrest⟩ := List.forall_mem_cons.mp hfree
    have hnext := phase?_perform hs hfirst hq
    rw [endings, endings, List.append_nil] at hnext
    rw [endings, List.foldl_append]
    exact ih (steady_perform hs action) hrest hnext

end Session

end WifiAdapter
