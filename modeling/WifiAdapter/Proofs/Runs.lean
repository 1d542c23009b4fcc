import WifiAdapter.Proofs.Courses
import WifiAdapter.Session.Action

/-! Calls that wait, sessions and their histories, as steps.

Every action takes the adapter of a session through a course (`Session.passes_perform`),
on which it handles the notifications that are the moments of the action
(`Session.moments`); so what every step and every moment keep holds after every history. -/
namespace WifiAdapter

namespace Adapter
variable {σ : Type} [Chip σ] {D : Deed → Prop}

/-! ### Calls -/

theorem yields_beginCall (a : Adapter σ) (h : Handle) (purpose : Purpose) {c : Command}
    (hc : c.Plain) (hradio : ¬ c.Radio)
    (hlisten : purpose = .listen → a.table.kind? h = some .stream) :
    Yields D (some h) a (a.beginCall h purpose c).2 := by
  unfold beginCall
  split
  · exact .refl a
  · split
    · exact .refl a
    · split
      · exact .refl a
      · have hrequest : Yields D (some h) a ((a.modify h (·.apply purpose.request)).disarm h) :=
          (Yields.call (.request a h purpose hlisten)).trans (.call (.disarm _ h))
        dsimp only
        split
        · next hi => exact hrequest.trans (leads_issue hi hc fun hr => absurd hr hradio).yields
        · next hi =>
          exact hrequest.trans ((leads_issue hi hc fun hr => absurd hr hradio).yields.trans (.call (.revert _ h purpose)))

theorem yields_takeCompletion (a : Adapter σ) (c : Call) :
    Yields D (some c.socket.handle) a (a.takeCompletion c).2 := by
  cases hposted : a.completions.get c.socket.handle with
  | none =>
    rw [takeCompletion_none a hposted]
    exact .refl a
  | some status =>
    cases hseen : c.seen? with
    | none =>
      rw [takeCompletion_posted a hseen hposted]
      exact (Yields.call (.disarm a _)).trans (.call (.take _ _ _))
    | some outcome =>
      rw [takeCompletion_seen a (by rw [hseen]; rfl)]
      exact .refl a

theorem yields_settleCall (a : Adapter σ) (c : Call) (result : Except SocketError Unit) :
    Yields D (some c.socket.handle) a (a.settleCall c result) := by
  unfold settleCall
  split
  · exact .call (.revert a _ _)
  · exact .refl a

theorem yields_finishCall (a : Adapter σ) (c : Call) (outcome : Option Status) :
    Yields D (some c.socket.handle) a (a.finishCall c outcome).2 := by
  have hdisarm : Yields D (some c.socket.handle) a (a.disarm c.socket.handle) := .call (.disarm a _)
  unfold finishCall
  dsimp only
  refine (hdisarm.trans ?_).trans (yields_settleCall _ c _)
  split
  · exact .call (.mark _ _ false)
  · exact .refl _

end Adapter

namespace Call
variable {σ : Type} [Chip σ] {D : Deed → Prop}

theorem yields_look (c : Call) (now : Nat) (a : Adapter σ) :
    Adapter.Yields D (some c.socket.handle) a (c.look now a).2 := by
  have htake := Adapter.yields_takeCompletion (D := D) a c
  unfold look
  dsimp only
  split
  · exact htake
  · exact htake

theorem yields_conclude (c : Call) (a : Adapter σ) :
    Adapter.Yields D (some c.socket.handle) a (c.conclude a).2 := by
  unfold conclude
  split
  · exact .refl a
  · exact Adapter.yields_finishCall a c _

theorem yields_poll (c : Call) (now : Nat) (a : Adapter σ) :
    Adapter.Yields D (some c.socket.handle) a (c.poll now a).2 := by
  have hconclude := yields_conclude (D := D) (c.look now a).1 (c.look now a).2
  rw [(c.look_keeps now).1] at hconclude
  exact (yields_look c now a).trans hconclude

theorem yields_start (purpose? : Option Purpose) (h : Handle) (deadline : Nat) (a : Adapter σ) :
    Adapter.Yields D (some h) a (start purpose? h deadline a).2 := by
  have hmark : Adapter.Yields D (some h) a (a.modify h fun r => { r with waiting := true }) :=
    .call (.mark a h true)
  have hfirst (c : Call) (hc : c.socket.handle = h) (b : Adapter σ) :
      Adapter.Yields D (some h) b ((b.takeCompletion c).1.conclude (b.takeCompletion c).2).2 := by
    have hconclude := yields_conclude (D := D) (b.takeCompletion c).1 (b.takeCompletion c).2
    rw [(b.takeCompletion_keeps c).1, hc] at hconclude
    have htake := Adapter.yields_takeCompletion (D := D) b c
    rw [hc] at htake
    exact htake.trans hconclude
  unfold start
  split
  · exact hmark.trans ((Adapter.Yields.call (.park _ (a.table.incarnation h))).trans (hfirst _ rfl _))
  · exact .refl a

theorem yields_bind (h : Handle) (address : SocketAddr) (now : Nat) (a : Adapter σ) :
    Adapter.Yields D (some h) a (bind h address now a).2 := by
  unfold bind
  split
  · exact .refl a
  · next native _ =>
    have hbegin := Adapter.yields_beginCall (D := D) a h .bind (c := .bind h native) trivial id nofun
    split
    · next heq =>
      rw [heq] at hbegin
      exact hbegin
    · next heq =>
      rw [heq] at hbegin
      exact hbegin.trans (yields_start _ h _ _)

theorem yields_listen (h : Handle) (backlog : UInt8) (now : Nat) (a : Adapter σ) :
    Adapter.Yields D (some h) a (listen h backlog now a).2 := by
  unfold listen
  split
  · exact .refl a
  · next r hr =>
    split
    · exact .refl a
    · next hkind =>
      have hstream : a.table.kind? h = some .stream := by
        rw [SocketTable.kind?_of_get hr, Decidable.not_not.mp hkind]
      have hbegin := Adapter.yields_beginCall (D := D) a h .listen (c := .listen h backlog) trivial id
        fun _ => hstream
      split
      · next heq =>
        rw [heq] at hbegin
        exact hbegin
      · next heq =>
        rw [heq] at hbegin
        exact hbegin.trans (yields_start _ h _ _)

end Call

/-! ### Tasks -/

namespace Task
variable {σ : Type} [Chip σ] {D : Deed → Prop}

/-- The socket that a task waits on. -/
def site? : Task → Option Handle
  | .call c => some c.socket.handle
  | _ => none

theorem leads_pollPost (note : Notification) (a : Adapter σ) (hqueue : D .queue) :
    Adapter.Leads D a (pollPost note a).2 := by
  unfold pollPost Adapter.enqueue?
  cases a.notifications.push? note with
  | none => exact .refl a
  | some notifications => exact .chore (.queues a notifications _ _ (.inl hqueue))

theorem leads_takeEvent (a : Adapter σ) (hd : D .take) : Adapter.Leads D a a.takeEvent.2 := by
  unfold Adapter.takeEvent
  split
  · exact .refl a
  · next hpop => exact .chore (.take a hpop hd)

theorem leads_pollEvent (a : Adapter σ) (hd : D .take) : Adapter.Leads D a (pollEvent a).2 := by
  have htake := leads_takeEvent a hd
  unfold pollEvent
  split
  · next heq =>
    rw [heq] at htake
    exact htake
  · next heq =>
    rw [heq] at htake
    exact htake

/-- The notifications that a task handles when it is polled. -/
def moments (t : Task) (now : Nat) (a : Adapter σ) : List (Moment σ) :=
  match t with
  | .work w => w.pollMoments now a
  | _ => []

theorem passes_poll (t : Task) (now : Nat) (a : Adapter σ) (hd : D .link) (hqueue : D .queue)
    (htake : D .take) :
    Adapter.Passes D t.site? now (t.moments now a) a (t.poll now a).2 := by
  cases t with
  | call c => exact (c.yields_poll now a).passes
  | post note => exact (leads_pollPost note a hqueue).passes
  | nextEvent => exact (leads_pollEvent a htake).passes
  | work w => exact w.passes_poll now a hd hqueue

theorem yields_poll (t : Task) (now : Nat) (a : Adapter σ) :
    Adapter.Yields Deed.Any t.site? a (t.poll now a).2 := fun ha =>
  (t.passes_poll (D := Deed.Any) now a trivial trivial trivial ha).steps ha

theorem yields_contend (t : Task) (now : Nat) (a : Adapter σ) (hqueue : D .queue)
    (htake : D .take) :
    Adapter.Yields D t.site? a (t.contend now a).2 := by
  cases t with
  | call c => exact c.yields_look now a
  | post note => exact (leads_pollPost note a hqueue).yields
  | nextEvent => exact (leads_pollEvent a htake).yields
  | work w => exact w.yields_contend now a hqueue

end Task

/-! ### Sessions -/

@[simp] theorem Reply.ofBegun_snd {σ : Type} (x : Polled Nat TaskResult × Session σ) :
    (Reply.ofBegun x).2 = x.2 := by
  obtain ⟨_ | _, s⟩ := x <;> rfl

@[simp] theorem Reply.ofPolled_snd {σ : Type} (x : Option TaskResult × Session σ) :
    (Reply.ofPolled x).2 = x.2 := by
  obtain ⟨_ | _, s⟩ := x <;> rfl

theorem Reply.ofPolled_fst {σ : Type} {x : Option TaskResult × Session σ} {result : TaskResult}
    (hx : x.1 = some result) : (ofPolled x).1 = .finished result := by
  obtain ⟨_, s⟩ := x
  cases hx
  rfl

namespace Session
variable {σ : Type}

theorem adapter_begin (s : Session σ) (f : Nat → Adapter σ → Task.Outcome × Adapter σ) :
    (s.begin f).2.adapter = (f s.clock s.adapter).2 := by
  unfold begin
  split
  · next heq => rw [heq]
  · next heq =>
    rw [heq]
    rfl

/-- A first poll changes neither the clock nor what the application holds. -/
theorem begin_keeps (s : Session σ) (f : Nat → Adapter σ → Task.Outcome × Adapter σ) :
    (Reply.ofBegun (s.begin f)).2.clock = s.clock ∧
      (Reply.ofBegun (s.begin f)).2.held = s.held := by
  rw [Reply.ofBegun_snd]
  unfold begin
  split <;> exact ⟨rfl, rfl⟩

/-- Neither does any other poll. -/
theorem pollWith_keeps (f : Task → Nat → Adapter σ → Task.Outcome × Adapter σ) (s : Session σ)
    (id : Nat) :
    (Reply.ofPolled (s.pollWith f id)).2.clock = s.clock ∧
      (Reply.ofPolled (s.pollWith f id)).2.held = s.held := by
  rw [Reply.ofPolled_snd]
  unfold pollWith
  split
  · exact ⟨rfl, rfl⟩
  · split <;> exact ⟨rfl, rfl⟩

/-- Polling a task does to the adapter what the poll of the task does. -/
theorem adapter_pollWith (f : Task → Nat → Adapter σ → Task.Outcome × Adapter σ) (s : Session σ)
    (id : Nat) :
    (s.pollWith f id).2.adapter =
      ((s.find? id).map fun t => (f t s.clock s.adapter).2).getD s.adapter := by
  unfold pollWith
  cases s.find? id with
  | none => rfl
  | some t =>
    dsimp only [Option.map_some, Option.getD_some]
    split
    · next heq =>
      rw [heq]
      rfl
    · next heq =>
      rw [heq]
      rfl

theorem adapter_ofBegun (s : Session σ) (f : Nat → Adapter σ → Task.Outcome × Adapter σ) :
    (Reply.ofBegun (s.begin f)).2.adapter = (f s.clock s.adapter).2 := by
  rw [Reply.ofBegun_snd, adapter_begin]

theorem adapter_ofPolled (f : Task → Nat → Adapter σ → Task.Outcome × Adapter σ) (s : Session σ)
    (id : Nat) :
    (Reply.ofPolled (s.pollWith f id)).2.adapter =
      ((s.find? id).map fun t => (f t s.clock s.adapter).2).getD s.adapter := by
  rw [Reply.ofPolled_snd, adapter_pollWith]

variable [Chip σ] {D : Deed → Prop}

theorem passes_begin (s : Session σ) {site? : Option Handle} {ms : List (Moment σ)}
    {f : Nat → Adapter σ → Task.Outcome × Adapter σ}
    (hf : Adapter.Passes D site? s.clock ms s.adapter (f s.clock s.adapter).2) :
    Adapter.Passes D site? s.clock ms s.adapter (Reply.ofBegun (s.begin f)).2.adapter := by
  rw [adapter_ofBegun]
  exact hf

theorem passes_pollWith (s : Session σ) (id : Nat)
    {f : Task → Nat → Adapter σ → Task.Outcome × Adapter σ} {ms : Task → List (Moment σ)}
    (hf : ∀ t : Task, Adapter.Passes D t.site? s.clock (ms t) s.adapter (f t s.clock s.adapter).2) :
    Adapter.Passes D ((s.find? id).bind Task.site?) s.clock (((s.find? id).map ms).getD [])
      s.adapter (Reply.ofPolled (s.pollWith f id)).2.adapter := by
  rw [adapter_ofPolled]
  cases s.find? id with
  | none => exact .refl _
  | some t => exact hf t

/-- Polling a task without handling a notification. -/
theorem yields_pollWith (s : Session σ) (id : Nat)
    {f : Task → Nat → Adapter σ → Task.Outcome × Adapter σ}
    (hf : ∀ t : Task, Adapter.Yields D t.site? s.adapter (f t s.clock s.adapter).2) :
    Adapter.Yields D ((s.find? id).bind Task.site?) s.adapter
      (Reply.ofPolled (s.pollWith f id)).2.adapter := by
  rw [adapter_ofPolled]
  cases s.find? id with
  | none => exact .refl _
  | some t => exact hf t

theorem leads_receive (s : Session σ) (h : Handle) (hd : D (.read h)) :
    Adapter.Leads D s.adapter (s.receive h).2.adapter := by
  have hread : Adapter.Leads D s.adapter (s.adapter.receive h).2 :=
    .move fun _ => .read s.adapter h hd
  unfold receive
  split
  · next heq =>
    rw [heq] at hread
    exact hread
  · next heq =>
    rw [heq] at hread
    exact hread

/-- The socket that an action closes or that a call of it waits on. -/
def site? (s : Session σ) : Action σ → Option Handle
  | .close h | .bind h _ | .listen h _ => some h
  | .poll id | .contend id => (s.find? id).bind Task.site?
  | _ => none

/-- The notifications that an action handles, each with the adapter that is to handle it. -/
def moments (s : Session σ) : Action σ → List (Moment σ)
  | .dispatch note => [⟨s.adapter, note⟩]
  | .tick => s.adapter.tickMoments s.clock
  | .work => Worker.fresh.pollMoments s.clock s.adapter
  | .poll id => ((s.find? id).map fun t => t.moments s.clock s.adapter).getD []
  | _ => []

omit [Chip σ] in
/-- What an action may bring about by itself. -/
def deeds : Action σ → Deed → Prop
  | .create .. => (· = .occupy)
  | .close h => (· = .shut h)
  | .connect h _ => (· = .connect h)
  | .send h chain _ => fun d => d = .transmit h ∨ d = .give h chain
  | .receive h => (· = .read h)
  | .drop _ => (· = .drop)
  | .notify _ | .post _ => (· = .queue)
  | .tick | .start | .stop | .join .. | .scan => (· = .link)
  | .takeEvent | .nextEvent => (· = .take)
  | .work => fun d => d = .link ∨ d = .queue
  | .poll _ => fun d => d = .link ∨ d = .queue ∨ d = .take
  | .contend _ => fun d => d = .queue ∨ d = .take
  | _ => fun _ => False

/-- Which action it takes to bring something about. -/
def BroughtBy (action : Action σ) : Deed → Prop
  | .shut h => action = .close h
  | .read h => action = .receive h
  | .drop => ∃ place, action = .drop place
  | .give h chain => ∃ dest?, action = .send h chain dest?
  | .answer _ | .complete _ | .ask => False
  | .occupy | .connect _ | .transmit _ | .link | .queue | .take => True

omit [Chip σ] in
theorem broughtBy_of_deeds {action : Action σ} {d : Deed} (hd : deeds action d) :
    BroughtBy action d := by
  cases action with
  | send h chain dest? =>
    rcases hd with rfl | rfl
    · exact trivial
    · exact ⟨dest?, rfl⟩
  | drop place =>
    cases hd
    exact ⟨place, rfl⟩
  | close | receive =>
    cases hd
    rfl
  | work | contend => rcases hd with rfl | rfl <;> exact trivial
  | poll => rcases hd with rfl | rfl | rfl <;> exact trivial
  | create | connect | notify | post | tick | start | stop | join | scan | takeEvent | nextEvent =>
    cases hd
    exact trivial
  | _ => exact hd.elim

/-- Every action takes the adapter through a course. -/
theorem passes_perform (s : Session σ) (action : Action σ) :
    Adapter.Passes (deeds action) (s.site? action) s.clock (s.moments action) s.adapter
      (s.perform action).2.adapter := by
  cases action with
  | create domain type =>
    have hd : deeds (.create domain type : Action σ) .occupy := rfl
    exact (Adapter.leads_create s.adapter domain type hd).passes
  | close h => exact Adapter.Yields.passes fun _ => .single (.close s.adapter rfl rfl)
  | bind h address => exact passes_begin s (Call.yields_bind h address _ _).passes
  | listen h backlog => exact passes_begin s (Call.yields_listen h backlog _ _).passes
  | connect h remote =>
    have hd : deeds (.connect h remote : Action σ) (.connect h) := rfl
    exact (Adapter.leads_connect s.adapter h remote hd).passes
  | send h chain dest? =>
    have hd : deeds (.send h chain dest? : Action σ) (.transmit h) := .inl rfl
    have hgive : deeds (.send h chain dest? : Action σ) (.give h chain) := .inr rfl
    exact (Adapter.leads_send s.adapter h chain dest? hd hgive).passes
  | receive h =>
    have hd : deeds (.receive h : Action σ) (.read h) := rfl
    exact (leads_receive s h hd).passes
  | setOption h option => exact (Adapter.leads_setOption s.adapter h option).passes
  | drop place =>
    have hd : deeds (.drop place : Action σ) .drop := rfl
    show Adapter.Passes _ none s.clock [] s.adapter (s.drop place).2.adapter
    unfold drop
    split
    · exact (Adapter.Leads.chore (.giveBack s.adapter 1 hd)).passes
    · exact .refl _
  | dispatch note => exact Adapter.passes_handle s.adapter note
  | notify note =>
    have hd : deeds (.notify note : Action σ) .queue := rfl
    show Adapter.Passes _ none s.clock [] s.adapter (s.adapter.notify note).2
    unfold Adapter.notify Adapter.enqueue?
    cases s.adapter.notifications.push? note with
    | none => exact (Adapter.Leads.chore (.queues s.adapter _ _ _ (.inl hd))).passes
    | some notifications =>
      exact (Adapter.Leads.chore (.queues s.adapter _ _ _ (.inl hd))).passes
  | post note =>
    have hd : deeds (.post note : Action σ) .queue := rfl
    exact passes_begin s (Task.leads_pollPost note _ hd).passes
  | tick => exact Adapter.passes_tick s.adapter s.clock rfl
  | start =>
    have hd : deeds (.start : Action σ) .link := rfl
    exact (Adapter.leads_request s.adapter (fun t => t.acts_start s.clock) hd).passes
  | stop =>
    have hd : deeds (.stop : Action σ) .link := rfl
    exact (Adapter.leads_stop s.adapter s.clock hd).passes
  | join ssid key =>
    have hd : deeds (.join ssid key : Action σ) .link := rfl
    exact (Adapter.leads_request s.adapter (fun t => t.acts_join s.clock ssid key) hd).passes
  | scan =>
    have hd : deeds (.scan : Action σ) .link := rfl
    exact (Adapter.leads_request s.adapter (fun t => t.acts_scan s.clock) hd).passes
  | takeEvent =>
    have hd : deeds (.takeEvent : Action σ) .take := rfl
    exact (Task.leads_takeEvent s.adapter hd).passes
  | nextEvent =>
    have hd : deeds (.nextEvent : Action σ) .take := rfl
    exact passes_begin s (Task.leads_pollEvent _ hd).passes
  | work => exact passes_begin s (Worker.fresh.passes_poll _ _ (.inl rfl) (.inr rfl))
  | poll id =>
    exact passes_pollWith s id fun t =>
      t.passes_poll _ _ (.inl rfl) (.inr (.inl rfl)) (.inr (.inr rfl))
  | contend id =>
    exact (yields_pollWith s id fun t => t.yields_contend _ _ (.inl rfl) (.inr rfl)).passes
  | cancel id => exact .refl _
  | advance milliseconds => exact .refl _
  | chip state => exact (Adapter.Leads.chore (.chip s.adapter state)).passes

/-- Every action takes the adapter through steps. -/
theorem yields_perform (s : Session σ) (action : Action σ) :
    Adapter.Yields Deed.Any (s.site? action) s.adapter (s.perform action).2.adapter := fun hs =>
  (passes_perform s action hs).steps hs

theorem steady_perform {s : Session σ} (hs : s.adapter.Steady) (action : Action σ) :
    (s.perform action).2.adapter.Steady := (yields_perform s action hs).steady hs

/-! ### Histories -/

theorem run_snoc (s : Session σ) (actions : List (Action σ)) (action : Action σ) :
    s.run (actions ++ [action]) = ((s.run actions).perform action).2 := run_append s actions [action]

theorem steady_run {s : Session σ} (hs : s.adapter.Steady) (actions : List (Action σ)) :
    (s.run actions).adapter.Steady := by
  induction actions generalizing s with
  | nil => exact hs
  | cons action rest ih => exact ih (steady_perform hs action)

/-- The notifications that a history handles, each with the adapter that is to handle it. -/
def trail (s : Session σ) : List (Action σ) → List (Moment σ)
  | [] => []
  | action :: rest => s.moments action ++ trail (s.perform action).2 rest

theorem trail_snoc (s : Session σ) (actions : List (Action σ)) (action : Action σ) :
    s.trail (actions ++ [action]) = s.trail actions ++ (s.run actions).moments action := by
  induction actions generalizing s with
  | nil => simp [trail, run]
  | cons first rest ih => simp [trail, run, ih]

/-- A notification that is dispatched is handled by what the history before it made. -/
theorem mem_trail_dispatch (s : Session σ) (actions : List (Action σ)) (note : Notification) :
    ⟨(s.run actions).adapter, note⟩ ∈ s.trail (actions ++ [.dispatch note]) := by
  rw [trail_snoc]
  exact List.mem_append_right _ (List.mem_singleton_self _)

/-- What every step that is allowed keeps holds after every history of actions that bring nothing
else about, and whenever a notification is about to be handled. -/
theorem invariant_run_of {s : Session σ} {P : Adapter σ → Prop}
    (hstep : ∀ (site? : Option Handle) (a b : Adapter σ), a.Steady → P a →
      Adapter.Step D site? a b → P b)
    (hnotes : ∀ note : Notification, ∀ d ∈ note.deed?, D d) (hask : D .ask)
    (hs : s.adapter.Steady) (h : P s.adapter) (actions : List (Action σ))
    (hactions : ∀ action ∈ actions, ∀ d, deeds action d → D d) :
    P (s.run actions).adapter ∧
      ∀ m ∈ s.trail actions, m.adapter.Steady ∧ P m.adapter := by
  induction actions generalizing s with
  | nil => exact ⟨h, fun m hm => absurd hm List.not_mem_nil⟩
  | cons action rest ih =>
    obtain ⟨hdeeds, hrest⟩ := List.forall_mem_cons.mp hactions
    have hcourse := passes_perform s action hs
    have hsteps := hcourse.steps_of hdeeds hnotes hask hs
    obtain ⟨hrun, htrail⟩ := ih (hcourse.steady hs) (hsteps.keeps (hstep _) hs h) hrest
    refine ⟨hrun, fun m hm => ?_⟩
    rcases List.mem_append.mp hm with hm | hm
    · have hreached := hcourse.reaches_of hdeeds hnotes hask hs hm
      exact ⟨hreached.steady hs, hreached.keeps (hstep _) hs h⟩
    · exact htrail m hm

/-- What every step keeps holds after every history, and whenever a notification is about to be
handled. -/
theorem invariant_run {s : Session σ} {P : Adapter σ → Prop}
    (hstep : ∀ (site? : Option Handle) (a b : Adapter σ), a.Steady → P a →
      Adapter.Step Deed.Any site? a b → P b)
    (hs : s.adapter.Steady) (h : P s.adapter) (actions : List (Action σ)) :
    P (s.run actions).adapter ∧
      ∀ m ∈ s.trail actions, m.adapter.Steady ∧ P m.adapter :=
  invariant_run_of hstep (fun _ _ _ => trivial) trivial hs h actions fun _ _ _ _ => trivial

/-- After every history the state of receiving is sound, and no case came up on the way
that receiving provides for and does not expect. -/
theorem sound_run (chip : σ) (packets : Nat) (config : Config) (actions : List (Action σ)) :
    let a := ((new chip packets config).run actions).adapter
    a.rx.Sound a.table ∧ ∀ g, .unexpected g ∉ a.bus.journal :=
  have h := steady_run (s := new chip packets config) (Adapter.steady_new chip packets config) actions
  ⟨h.sound, h.expected⟩

end Session

end WifiAdapter
