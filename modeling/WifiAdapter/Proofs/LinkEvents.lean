import WifiAdapter.Proofs.Entering
import WifiAdapter.Proofs.Resting
import WifiAdapter.Proofs.Visits
import WifiAdapter.ScriptedChip

/-! What the application hears of the link.

An action of a settled link reports at most one event. It reports that the link is up just if
it takes the link onto its network, and that the link is down if it takes the link off
(`Station.tells_perform`). There are three places where `down` can be reported, but only one of
them is reached on the way of one action: a network that is lost has its address taken at once,
and giving up an address that is gone reports nothing (`Station.Telling`).

`Session.link_events_told`: of a new adapter, over any chip and after any history, every visit
to the link finds the queue of the link empty, reports as said, and what it reports is passed on
before the next; so the application is told of a `down` between any two `up`s. -/
namespace WifiAdapter

namespace Link

/-- The link with an event reported, if there is one. -/
def tell (l : Link) : Option LinkEvent → Link
  | none => l
  | some e => l.report e

theorem events_report {l l' : Link} (h : l'.events = l.events) (e : LinkEvent) :
    (l'.report e).events = (l.report e).events := by
  simp only [report, h]

/-- What is reported to an empty queue is held. -/
theorem items_tell {l : Link} (h : l.events = .empty) (e? : Option LinkEvent) :
    (l.tell e?).events.items = e?.toList := by
  cases e? with
  | none => exact congrArg Queue.items h
  | some e =>
    show ((l.events.push? e).getD l.events).items = [e]
    rw [h]
    rfl

/-- Giving up an address is reported if there is one. -/
theorem events_dropAddress (l : Link) :
    l.dropAddress.events = (l.tell (l.address?.map fun _ => .down)).events := by
  unfold dropAddress
  cases l.address? <;> rfl

end Link

namespace Station

/-! ### One action -/

/-- What is reported on the way from one link to another. -/
inductive Tells (l l' : Link) : Option LinkEvent → Prop where
  | silent (same : l'.state = .connected ↔ l.state = .connected) : Tells l l' none
  | up {address : InterfaceAddress} (apart : l.state ≠ .connected) (online : l'.state = .connected)
      (held : l'.address? = some address) : Tells l l' (some (.up address))
  | down (pending : l.state = .addressPending ∨ l.state = .connected)
      (apart : l'.state ≠ .connected) : Tells l l' (some .down)
  | failed {status : Status} (apart : l.state ≠ .connected) (apart' : l'.state ≠ .connected) :
      Tells l l' (some (.radioInitFailed status))

/-- What an action has reported so far, while the link converges. -/
inductive Telling (l l' : Link) : Option LinkEvent → Prop where
  | before (state : l'.state = l.state) (held : l'.state = .connected → l'.address?.isSome) :
      Telling l l' none
  /-- The network is lost, and the address with it. -/
  | losing (pending : l.state = .addressPending ∨ l.state = .connected) (state : l'.state = l.state)
      (target : l'.target = .initializing) (bare : l'.address? = none) : Telling l l' (some .down)
  | done {e? : Option LinkEvent} (settled : l'.Settled) (tells : Tells l l' e?) : Telling l l' e?

section Telling
variable {l l' l'' : Link} {e? : Option LinkEvent} {now : Nat}

theorem Telling.tells (h : Telling l l' e?) (settled : l'.Settled) : Tells l l' e? := by
  cases h with
  | before state => exact .silent (by rw [state])
  | losing pending state target =>
    have settled : l'.state = l'.target := settled
    rw [state, target] at settled
    rcases pending with h | h <;> cases h.symm.trans settled
  | done _ tells => exact tells

/-- A link that leaves with an address was connected, and reports it. -/
theorem tells_dropAddress (l'' : Link) (state : l'.state = l.state)
    (held : l'.address?.isSome ↔ l'.state = .connected) (events : l'.events = l.events)
    (apart : l''.state ≠ .connected) :
    ∃ e?, Tells l l'' e? ∧ l'.dropAddress.events = (l.tell e?).events := by
  rw [Link.events_dropAddress]
  cases haddress : l'.address? with
  | none =>
    rw [haddress] at held
    refine ⟨none, .silent ⟨fun h => absurd h apart, fun h => ?_⟩, events⟩
    cases held.mpr (state.trans h)
  | some address =>
    rw [haddress] at held
    exact ⟨some .down, .down (.inr (state ▸ held.mp rfl)) apart, Link.events_report events _⟩

/-- One more move of a link that has not settled. -/
theorem Telling.advance {traffic : List Entry} (h : Telling l l' e?) (coherent : l'.Coherent)
    (events : l'.events = (l.tell e?).events) (unsettled : ¬ l'.Settled)
    (ha : l'.Advance now traffic l'') :
    ∃ e?, Telling l l'' e? ∧ l''.events = (l.tell e?).events := by
  cases h with
  | done settled => exact absurd settled unsettled
  | losing pending state target bare =>
    cases ha with
    | back =>
      rw [show l'.dropAddress = l' by rw [Link.dropAddress, bare]]
      exact ⟨_, .done target.symm (.down pending (ne_of_beq_false rfl)), events⟩
    | up _ down | upRefused _ down =>
      rw [← state, down] at pending
      rcases pending with h | h <;> cases h
    | giveUp stuck => simp [Link.Stuck, target] at stuck
    | _ target' => cases target.symm.trans target'
  | before state held =>
    have events : l'.events = l.events := events
    have silent (settled : l''.Settled) (apart : l'.state ≠ .connected)
        (apart' : l''.state ≠ .connected) (same : l''.events = l'.events) :
        ∃ e?, Telling l l'' e? ∧ l''.events = (l.tell e?).events := by
      refine ⟨none, .done settled (.silent ⟨fun h => absurd h apart', fun h => ?_⟩),
        same.trans events⟩
      exact absurd (state.trans h) apart
    -- On the way home, or down, only a connected link has an address.
    have leaving (target : l'.target ≠ .connected) :
        l'.address?.isSome ↔ l'.state = .connected :=
      ⟨fun h => (coherent.held h).resolve_right fun h => target h.2, held⟩
    cases ha with
    | leave target | down target =>
      obtain ⟨e?, htells, hevents⟩ := tells_dropAddress l'.down state
        (leaving (by simp [target])) events (ne_of_beq_false rfl)
      exact ⟨e?, .done ((Link.target_dropAddress l').trans target).symm htells, hevents⟩
    | back target =>
      obtain ⟨e?, htells, hevents⟩ :=
        tells_dropAddress (l'.dropAddress.enter .initializing) state
          (leaving (by simp [target])) events (ne_of_beq_false rfl)
      exact ⟨e?, .done ((Link.target_dropAddress l').trans target).symm htells, hevents⟩
    | up target down => exact silent target.symm (by simp [down]) (ne_of_beq_false rfl) rfl
    | upRefused target down =>
      refine ⟨_, .done down (.failed ?_ ?_), Link.events_report events _⟩
      · rw [← state, down]
        decide
      · simp [Link.aim, down]
    | scan target ready => exact silent target.symm (by simp [ready]) (ne_of_beq_false rfl) rfl
    | regionRefused target ready | scanRefused target ready =>
      have hsettled : (scanRefused now l').Settled ∧ (scanRefused now l').state = l'.state ∧
          (scanRefused now l').events = l'.events := by
        unfold scanRefused Link.retryIfWanted
        split <;> exact ⟨ready, rfl, rfl⟩
      obtain ⟨hsettled, hstate, hevents⟩ := hsettled
      exact silent hsettled (by simp [ready]) (by simp [hstate, ready]) hevents
    | associate target ready =>
      exact silent target.symm (by rcases ready with h | h <;> simp [h]) (ne_of_beq_false rfl) rfl
    | associateRefused | seek => exact ⟨none, .before state held, events⟩
    | await target connecting =>
      exact silent target.symm (by simp [connecting]) (ne_of_beq_false rfl) rfl
    | connect target pending address =>
      refine ⟨_, .done target.symm (.up ?_ rfl address), Link.events_report events _⟩
      rw [← state, pending]
      decide
    | giveUp => exact ⟨none, .before state held, events⟩

/-- What an action makes of the link before it converges. -/
theorem Reacts.telling {a : Action} {traffic : List Entry} (h : Reacts now l a traffic l')
    (coherent : l.Coherent) (settled : l.Settled) :
    ∃ e?, Telling l l' e? ∧ l'.events = (l.tell e?).events := by
  have held : l.state = .connected → l.address?.isSome := (coherent.rests settled).address.mpr
  have silent (state : l'.state = l.state) (address : l'.address? = l.address?)
      (events : l'.events = l.events) : ∃ e?, Telling l l' e? ∧ l'.events = (l.tell e?).events :=
    ⟨none, .before state (by rw [state, address]; exact held), events⟩
  have hcomplete (l : Link) : (completeScan now l).state = l.state ∧
      (completeScan now l).address? = l.address? ∧ (completeScan now l).events = l.events := by
    unfold completeScan Link.retryIfWanted
    dsimp only
    split
    · exact ⟨rfl, rfl, rfl⟩
    · split <;> exact ⟨rfl, rfl, rfl⟩
  have scanned {l₀ : Link} (hl : l' = completeScan now l₀) (state : l₀.state = l.state)
      (address : l₀.address? = l.address?) (events : l₀.events = l.events) :
      ∃ e?, Telling l l' e? ∧ l'.events = (l.tell e?).events := by
    obtain ⟨hstate, haddress, hevents⟩ := hcomplete l₀
    rw [hl] at silent ⊢
    exact silent (hstate.trans state) (haddress.trans address) (hevents.trans events)
  cases h with
  | nothingFound | fetchRefused | fetchNextRefused | allFetched => exact scanned rfl rfl rfl rfl
  | lost pending =>
    refine ⟨some .down, ?_, ?_⟩
    · unfold Link.lose
      dsimp only
      split <;> exact .losing pending rfl rfl rfl
    · unfold Link.lose
      dsimp only
      split <;> rfl
  | assigned pending =>
    refine ⟨none, .before rfl fun h => ?_, rfl⟩
    cases pending.symm.trans h
  | _ => exact silent rfl rfl rfl

end Telling

variable {σ : Type} [Chip σ] {s : Station σ} (now : Nat)

/-- An action of a link at rest reports at most one event. -/
theorem tells_perform (coherent : s.link.Coherent) (settled : s.link.Settled) (a : Action) :
    ∃ e?, Tells s.link (s.perform now a).2.link e? ∧
      (s.perform now a).2.link.events = (s.link.tell e?).events := by
  obtain ⟨traffic, l, bus, hr, -, heq⟩ := converges_perform now settled a
  rw [heq]
  have hconverged : (converge now ⟨l, bus⟩).link.Coherent ∧ ∃ e?,
      Telling s.link (converge now ⟨l, bus⟩).link e? ∧
        (converge now ⟨l, bus⟩).link.events = (s.link.tell e?).events := by
    refine converge_induct_unsettled now ⟨l, bus⟩ (p := fun t => t.link.Coherent ∧ ∃ e?,
      Telling s.link t.link e? ∧ t.link.events = (s.link.tell e?).events)
      ⟨.reacts hr coherent settled, hr.telling coherent settled⟩ ?_
    rintro t u unsettled ⟨last, -, ha⟩ ⟨hcoherent, e?, htelling, hevents⟩
    exact ⟨.advance ha hcoherent, htelling.advance hcoherent hevents unsettled ha⟩
  obtain ⟨-, e?, htelling, hevents⟩ := hconverged
  exact ⟨e?, htelling.tells (settled_converge now _), hevents⟩

end Station

/-! ### Ups and downs -/

/-- News of the link, by whether it is connected before and after. -/
inductive Outages : Bool → Bool → List LinkEvent → Prop where
  | nil (online : Bool) : Outages online online []
  | up {online : Bool} {address : InterfaceAddress} {rest : List LinkEvent}
      (h : Outages true online rest) : Outages false online (.up address :: rest)
  | down {was online : Bool} {rest : List LinkEvent} (h : Outages false online rest) :
      Outages was online (.down :: rest)
  | failed {online : Bool} {status : Status} {rest : List LinkEvent}
      (h : Outages false online rest) : Outages false online (.radioInitFailed status :: rest)

section Outages
variable {was online later : Bool} {news more : List LinkEvent}

theorem Outages.append (h : Outages was online news) (h' : Outages online later more) :
    Outages was later (news ++ more) := by
  induction h with
  | nil => exact h'
  | up _ ih => exact .up (ih h')
  | down _ ih => exact .down (ih h')
  | failed _ ih => exact .failed (ih h')

theorem Outages.rest (h : Outages was later (news ++ more)) :
    ∃ online, Outages online later more := by
  induction news generalizing was with
  | nil => exact ⟨was, h⟩
  | cons e news ih => cases h with | up h | down h | failed h => exact ih h

/-- A connected link has to go down before it can come up. -/
theorem Outages.down_mem {address : InterfaceAddress}
    (h : Outages true later (news ++ .up address :: more)) : .down ∈ news := by
  induction news with
  | nil => cases h
  | cons e news ih =>
    cases h with
    | down => exact List.mem_cons_self

end Outages

/-- Whether the link is connected. -/
def Link.online (l : Link) : Bool := l.state == .connected

theorem Link.online_iff (l : Link) : l.online = true ↔ l.state = .connected := beq_iff_eq

theorem Link.online_eq_false (l : Link) : l.online = false ↔ l.state ≠ .connected :=
  beq_eq_false_iff_ne

theorem Station.Tells.outages {l l' : Link} {e? : Option LinkEvent} (h : Station.Tells l l' e?) :
    Outages l.online l'.online e?.toList := by
  cases h with
  | silent same =>
    rw [show l'.online = l.online from Bool.eq_iff_iff.mpr (by simp only [Link.online_iff, same])]
    exact .nil _
  | up apart online =>
    rw [l.online_eq_false.mpr apart, l'.online_iff.mpr online]
    exact .up (.nil true)
  | down _ apart =>
    rw [l'.online_eq_false.mpr apart]
    exact .down (.nil false)
  | failed apart apart' =>
    rw [l.online_eq_false.mpr apart, l'.online_eq_false.mpr apart']
    exact .failed (.nil false)

/-! ### The news of a history -/

/-- What an entry tells the application of the link. -/
def Entry.news? : Entry → Option LinkEvent
  | .event (.link e) _ => some e
  | _ => none

/-- What the application was told of the link, oldest first. -/
def Bus.news {σ : Type} (b : Bus σ) : List LinkEvent := b.journal.filterMap Entry.news?

theorem Bus.news_append {σ : Type} {a b : Bus σ} {es : List Entry}
    (h : b.journal = a.journal ++ es) : b.news = a.news ++ es.filterMap Entry.news? := by
  rw [news, news, h, List.filterMap_append]

variable {σ : Type}

/-- What the link has to tell after a visit. -/
def Visit.told [Chip σ] (v : Visit σ) : List LinkEvent := v.after.link.events.items

namespace Station

/-- The radio tells the application nothing. -/
theorem Acts.news [Chip σ] {s t : Station σ} (h : s.Acts t) : t.bus.news = s.bus.news := by
  induction h with
  | refl => rfl
  | tail _ hact ih =>
    rw [← ih]
    cases hact with
    | link => rfl
    | command => exact (Bus.news_append (Bus.journal_issue ..)).trans (List.append_nil _)

theorem news_perform [Chip σ] (s : Station σ) (now : Nat) (a : Action) :
    (s.perform now a).2.bus.news = s.bus.news :=
  (s.acts_perform now a).news

/-- The link is at rest with its events passed on, and so much was told of it. -/
structure Current (s : Station σ) (news : List LinkEvent) : Prop where
  coherent : s.link.Coherent
  settled : s.link.Settled
  passed : s.link.events = .empty
  told : s.bus.news = news

end Station

namespace Adapter
variable {a b : Adapter σ}

theorem news_announce_link (a : Adapter σ) (e : LinkEvent) :
    (a.announce (.link e)).bus.news = a.bus.news ++ [e] :=
  Bus.news_append (journal_announce ..)

/-- The events of the link are passed on in their order. -/
theorem news_flushLinkEvents (a : Adapter σ) :
    a.flushLinkEvents.bus.news = a.bus.news ++ a.link.events.items := by
  have hfold (events : List LinkEvent) (b : Adapter σ) :
      (events.foldl (fun b e => b.announce (.link e)) b).bus.news = b.bus.news ++ events := by
    induction events generalizing b with
    | nil => exact (List.append_nil _).symm
    | cons e rest ih => rw [List.foldl_cons, ih, news_announce_link, List.append_assoc]; rfl
  exact hfold _ _

variable [Chip σ]

theorem news_visit (a : Adapter σ) (now : Nat) (action : Station.Action) :
    (a.withStation (·.perform now action)).2.bus.news =
      a.bus.news ++ (⟨now, action, a.station⟩ : Visit σ).told := by
  have hflush := news_flushLinkEvents
    { a with
      link := (a.station.perform now action).2.link, bus := (a.station.perform now action).2.bus }
  rw [show ({ a with
      link := (a.station.perform now action).2.link,
      bus := (a.station.perform now action).2.bus } : Adapter σ).bus.news = a.bus.news from
    a.station.news_perform now action] at hflush
  exact hflush

/-- A step that does not concern the link tells nothing of it. -/
theorem Step.news_eq {D : Deed → Prop} {site? : Option Handle} (hab : Step D site? a b)
    (ha : a.Steady) (hD : ¬ D .link) : b.bus.news = a.bus.news := by
  obtain ⟨es, hjournal, hes⟩ := hab.enters ha
  rw [Bus.news_append hjournal, List.filterMap_eq_nil_iff.mpr, List.append_nil]
  intro e he
  have hmay := hes e he
  unfold Entry.news?
  split
  · exact absurd hmay hD
  · rfl

theorem Rounds.steady {vs : List (Visit σ)} (h : Rounds a vs b) (ha : a.Steady) : b.Steady := by
  induction h with
  | refl => exact ha
  | step _ hstep _ ih => exact hstep.steady ih
  | @visit _ b _ now action ih =>
    have hleads := leads_withStation (D := Deed.Any) b (fun s => s.acts_perform now action) trivial
    exact (hleads ih).steady ih

end Adapter

/-! ### Visits -/

/-- What a visit has the link tell, and when. -/
structure Visit.Reports [Chip σ] (v : Visit σ) : Prop where
  /-- Nothing is left of the visits before. -/
  passed : v.before.link.events = .empty
  /-- At most one event is reported, and it is there to be told. -/
  single : ∃ e?, v.after.link.events = (v.before.link.tell e?).events ∧ v.told = e?.toList
  up : ∀ address, .up address ∈ v.told ↔
    v.before.link.state ≠ .connected ∧ v.after.link.state = .connected ∧
      v.after.link.address? = some address
  /-- Connected there is an address to be told. -/
  held : v.after.link.state = .connected → v.after.link.address?.isSome
  leaves : v.before.link.state = .connected → v.after.link.state ≠ .connected → v.told = [.down]
  stays : v.before.link.state = .connected → v.after.link.state = .connected → v.told = []
  /-- Apart from a connection, what is lost is the way to one. -/
  down : .down ∈ v.told → v.after.link.state ≠ .connected ∧
    (v.before.link.state = .addressPending ∨ v.before.link.state = .connected)

section Visits
variable [Chip σ] {v : Visit σ} {news : List LinkEvent}

theorem Visit.tells (h : v.before.Current news) : ∃ e?,
    Station.Tells v.before.link v.after.link e? ∧
      v.after.link.events = (v.before.link.tell e?).events ∧ v.told = e?.toList := by
  obtain ⟨e?, htells, hevents⟩ := Station.tells_perform v.time h.coherent h.settled v.action
  exact ⟨e?, htells, hevents, (congrArg Queue.items hevents).trans (Link.items_tell h.passed e?)⟩

theorem Visit.reports (h : v.before.Current news) : v.Reports := by
  obtain ⟨e?, htells, hevents, htold⟩ := Visit.tells h
  obtain ⟨hcoherent, hsettled⟩ :=
    Station.coherent_perform v.time h.coherent h.settled v.action
  refine ⟨h.passed, ⟨e?, hevents, htold⟩, fun address => ?_, (hcoherent.rests hsettled).address.mpr,
    fun online apart => ?_, fun online online' => ?_, fun hdown => ?_⟩
  · rw [htold]
    cases htells with
    | silent same =>
      simp only [Option.toList_none, List.not_mem_nil, false_iff]
      rintro ⟨apart, online, -⟩
      exact apart (same.mp online)
    | up apart online held => simp [apart, online, held, eq_comm]
    | down _ apart | failed _ apart => simp [apart]
  · rw [htold]
    cases htells with
    | silent same => exact absurd (same.mpr online) apart
    | down => rfl
    | up apart' | failed apart' => exact absurd online apart'
  · rw [htold]
    cases htells with
    | silent => rfl
    | up apart | failed apart => exact absurd online apart
    | down _ apart => exact absurd online' apart
  · rw [htold] at hdown
    cases htells with
    | silent | up | failed => simp at hdown
    | down pending apart => exact ⟨apart, pending⟩

/-- The link is at rest again when its events are passed on. -/
theorem Station.Current.visit {a : Adapter σ} (h : a.station.Current news) (now : Nat)
    (action : Station.Action) :
    (a.withStation (·.perform now action)).2.station.Current
      (news ++ (⟨now, action, a.station⟩ : Visit σ).told) := by
  obtain ⟨hcoherent, hsettled⟩ := Station.coherent_perform now h.coherent h.settled action
  have hlink : (a.withStation (·.perform now action)).2.station.link =
      (a.station.perform now action).2.link.flushed := a.link_withStation (·.perform now action)
  exact ⟨hlink ▸ hcoherent.flushed, hlink ▸ hsettled, congrArg Link.events hlink,
    (a.news_visit now action).trans (congrArg (· ++ _) h.told)⟩

end Visits

/-! ### Histories -/

section Rounds
variable [Chip σ] {a b : Adapter σ} {vs : List (Visit σ)} {news : List LinkEvent}

/-- Every visit finds what the visits before had to tell told. -/
theorem Adapter.Rounds.current (h : Rounds a vs b) (ha : a.Steady)
    (hcurrent : a.station.Current news) : b.station.Current (news ++ vs.flatMap Visit.told) ∧
      ∀ before v after, vs = before ++ v :: after →
        v.before.Current (news ++ before.flatMap Visit.told) := by
  induction h with
  | refl =>
    refine ⟨by simpa using hcurrent, fun before v after heq => ?_⟩
    cases (List.append_eq_nil_iff.mp heq.symm).2
  | @step vs b c D site? hrounds hstep hD ih =>
    obtain ⟨hb, hvisits⟩ := ih
    have hlink : c.station.link = b.station.link := hstep.link_eq hD
    exact ⟨⟨hlink ▸ hb.coherent, hlink ▸ hb.settled, (congrArg Link.events hlink).trans hb.passed,
      (hstep.news_eq (hrounds.steady ha) hD).trans hb.told⟩, hvisits⟩
  | @visit vs b _ now action ih =>
    obtain ⟨hb, hvisits⟩ := ih
    have hafter := hb.visit now action
    refine ⟨by simpa [List.append_assoc] using hafter, fun before v after heq => ?_⟩
    rcases List.eq_nil_or_concat after with rfl | ⟨rest, last, rfl⟩
    · obtain ⟨rfl, hv⟩ := List.append_inj' heq rfl
      cases hv
      exact hb
    · rw [List.concat_eq_append, ← List.cons_append, ← List.append_assoc] at heq
      exact hvisits before v rest (List.append_inj' heq rfl).1

/-- What the application hears goes up and down in turn. -/
theorem outages_visits (l : Link) (htour : Tour vs l b.link)
    (hcurrent : ∀ v ∈ vs, ∃ news, v.before.Current news) :
    Outages l.online b.link.online (vs.flatMap Visit.told) := by
  induction vs generalizing l with
  | nil =>
    rw [show b.link = l from htour]
    exact .nil _
  | cons v rest ih =>
    obtain ⟨rfl, hrest⟩ := htour
    obtain ⟨news, hv⟩ := hcurrent v List.mem_cons_self
    obtain ⟨e?, htells, -, htold⟩ := Visit.tells hv
    rw [List.flatMap_cons, htold]
    exact htells.outages.append
      (ih v.after.link.flushed hrest fun w hw => hcurrent w (List.mem_cons_of_mem _ hw))

end Rounds

namespace Session
variable [Chip σ]

/-- A new adapter, over any chip, after any history. Its visits lead the link from where it began
to where it is. Each of them finds the events of the link passed on and reports at most one more:
that the link is up, with the address it then has, just if it takes the link onto its network; one
`down` if it takes the link off its network; nothing if the link stays on it. What a visit reports
is told before the next visit, in turn, and is all that is told of the link. So nothing is left in
the queue of the link, which has room for more than one event, and between any two `up`s the
application is told of a `down`. -/
theorem link_events_told (chip : σ) (packets : Nat) (config : Config) (actions : List (Action σ)) :
    let s := new chip packets config
    let t := s.run actions
    let visits := s.visits actions
    Tour visits s.adapter.link t.adapter.link ∧
    (∀ v ∈ visits, v.Reports) ∧
    (∀ before v after, visits = before ++ v :: after →
      v.before.bus.news = before.flatMap Visit.told) ∧
    t.adapter.bus.news = visits.flatMap Visit.told ∧
    t.adapter.link.events = .empty ∧
    ∀ early address between address' late,
      t.adapter.bus.news = early ++ .up address :: (between ++ .up address' :: late) →
      .down ∈ between := by
  intro s t visits
  have hsteady : s.adapter.Steady := Adapter.steady_new chip packets config
  have hrounds : s.adapter.Rounds visits t.adapter := rounds_run hsteady actions
  have htour : Tour visits s.adapter.link t.adapter.link := hrounds.tour
  have hbegin : s.adapter.station.Current [] := ⟨.new _, rfl, rfl, rfl⟩
  obtain ⟨hend, hvisits⟩ := hrounds.current hsteady hbegin
  have hcurrent : ∀ v ∈ visits, ∃ news, v.before.Current news := fun v hv => by
    obtain ⟨before, after, heq⟩ := List.append_of_mem hv
    exact ⟨_, hvisits before v after heq⟩
  refine ⟨htour, fun v hv => ?_, fun before v after heq => (hvisits before v after heq).told,
    hend.told, hend.passed, fun early address between address' late hnews => ?_⟩
  · obtain ⟨news, hv⟩ := hcurrent v hv
    exact Visit.reports hv
  · have houtages : Outages s.adapter.link.online t.adapter.link.online t.adapter.bus.news := by
      rw [show t.adapter.bus.news = visits.flatMap Visit.told from hend.told]
      exact outages_visits _ htour hcurrent
    rw [hnews] at houtages
    obtain ⟨online, hrest⟩ := houtages.rest
    cases hrest with
    | up hrest => exact hrest.down_mem

/-- The radio finds the network, takes the adapter in and assigns it an address. -/
def admitted : List (Action ScriptedChip) :=
  [.scanDone .success 1, .scanResult ⟨"net", [], -52, .wpaPsk, 6⟩, .association true 0,
    .addressAssigned ⟨⟨10, 0, 0, 2⟩, 24⟩].map fun message => .dispatch (.radio message)

/-- The network is lost, sought again when its retry is due, and found. -/
def rejoined : List (Action ScriptedChip) :=
  [.start, .join "net" "secret"] ++ admitted ++
    [.dispatch (.radio (.association false 0)), .advance 3000, .tick] ++ admitted

/-- The application is told of the loss between the two connections. -/
theorem link_events_told_rejoined :
    let s := new ScriptedChip.new 1 .defaults
    let online := .up ⟨⟨10, 0, 0, 2⟩, 24⟩
    ((s.visits rejoined).flatMap Visit.told) = [online, .down, online] ∧
      ∀ v ∈ s.visits rejoined, v.Reports := by
  obtain ⟨-, hreports, -, htold, -⟩ := link_events_told ScriptedChip.new 1 .defaults rejoined
  exact ⟨htold.symm.trans (by decide +kernel), hreports⟩

end Session

end WifiAdapter
