import WifiAdapter.Proofs.Reconnecting

/-! The way onto a network.

A link gets onto a network in three steps, each with a cause of its own: a command to
associate that the radio took, the news of the association, and an address. Everything
else either leaves an associated link where it is, with no command to its radio, or
takes it off the network.

`connects_in_order`: of a new link, over any radio and after any history, a connected
link has gone these steps in this order and was not disturbed since, and every command to
associate names the network joined last, as the latest scan found it. -/
namespace WifiAdapter

namespace Link

/-- On the way home, or seeking a network from where one can be joined. -/
def Outside (l : Link) : Prop :=
  l.Homeward ∨ l.Ready ∧ (l.target = .scanning ∨ l.target = .connecting)

variable {now : Nat} {l l' : Link} {traffic : List Entry}

theorem outside_of_settled (settled : l.Settled) (apart : ¬ l.Associated) : l.Outside := by
  have settled : l.target = l.state := settled.symm
  rw [Associated] at apart
  rw [Outside, Homeward, Ready, settled]
  cases state : l.state <;> simp_all

theorem Outside.apart (h : l.Outside) (settled : l.Settled) : ¬ l.Associated := by
  have settled : l.target = l.state := settled.symm
  rw [Outside, Homeward, Ready, settled] at h
  rw [Associated]
  cases state : l.state <;> simp_all

theorem Advance.network?_eq (h : l.Advance now traffic l') : l'.network? = l.network? := by
  cases h with
  | leave | down | back => simp [Link.down, enter]
  | regionRefused | scanRefused =>
    unfold Station.scanRefused retryIfWanted
    split <;> rfl
  | up | upRefused | scan | associate | associateRefused | seek | await | connect | giveUp => rfl

/-- A move from outside stays outside, unless it has the radio associate. -/
theorem Advance.outside (h : l.Advance now traffic l') (outside : l.Outside) :
    l'.Outside ∨ l'.state = .connecting ∧ l'.Settled ∧
      ∃ ssid auth key, traffic = [.command (.associate ssid auth key) (.accepted ())] := by
  cases h with
  | leave target | down target => exact .inl (.inl (.inl ((target_dropAddress l).trans target)))
  | up target => exact .inl (.inl (.inr target))
  | upRefused | associateRefused => exact .inl (.inl (.inl rfl))
  | back target => exact .inl (.inl (.inr ((target_dropAddress l).trans target)))
  | scan target => exact .inl (.inr ⟨.inr rfl, .inl target⟩)
  | regionRefused | scanRefused =>
    unfold Station.scanRefused retryIfWanted
    split <;> exact .inl (.inl (.inr rfl))
  | associate target => exact .inr ⟨rfl, target.symm, _, _, _, rfl⟩
  | seek _ ready => exact .inl (.inr ⟨ready, .inl rfl⟩)
  | await target | connect target => simp [Outside, Homeward, target] at outside
  | giveUp stuck =>
    rcases outside with (target | target) | ⟨ready, target | target⟩
    · simp [Stuck, target] at stuck
    · simp [Stuck, target] at stuck
    · simp only [Stuck, target] at stuck
      exact .inl (.inr ⟨ready, .inl (ready.resolve_left stuck)⟩)
    · simp [Stuck, target, ready] at stuck

/-- Every command to associate among the entries names the recorded network and the
protection of the first one found that has its name. -/
def Fits (l : Link) (traffic : List Entry) : Prop :=
  ∀ ssid auth key answer, .command (.associate ssid auth key) answer ∈ traffic →
    l.network? = some ⟨ssid, key⟩ ∧
      ∃ ap, l.found.items.find? (·.ssid == ssid) = some ap ∧ ap.auth = auth

theorem fits_of_wanted {network : Network} {ap : AccessPoint} {answer : Answer Unit}
    (recorded : l.network? = some network) (wanted : l.wanted? = some ap) :
    l.Fits [.command (.associate network.ssid ap.auth network.key) answer] := by
  intro ssid auth key answer h
  obtain ⟨⟨rfl, rfl, rfl⟩, -⟩ := by simpa using h
  exact ⟨recorded, ap, by simpa [wanted?, recorded] using wanted, rfl⟩

theorem Advance.fits (h : l.Advance now traffic l') : l'.Fits traffic := by
  cases h with
  | associate _ _ recorded wanted | associateRefused _ _ recorded wanted =>
    exact fits_of_wanted (l := l) recorded wanted
  | _ => simp [Fits]

/-- After a command to associate the link is where it is going, or goes down. -/
theorem Advance.final {ssid key : String} {auth : AuthType} {answer : Answer Unit}
    (h : l.Advance now traffic l') (hc : .command (.associate ssid auth key) answer ∈ traffic) :
    l'.Settled ∨ l'.target = .stopped := by
  cases h with
  | associate target => exact .inl target.symm
  | associateRefused => exact .inr rfl
  | _ => simp at hc

/-- On the way down what was found stays. -/
theorem Advance.lowers (h : l.Advance now traffic l') (target : l.target = .stopped) :
    l'.target = .stopped ∧ l'.found = l.found := by
  cases h with
  | leave | down => simp [Link.down, enter, target]
  | giveUp stuck => simp [Stuck, target] at stuck
  | up target' | upRefused target' | back target' | scan target' | regionRefused target'
  | scanRefused target' | associate target' | associateRefused target' | seek target'
  | await target' | connect target' => simp [target] at target'

theorem outside_completeScan (state : l.state = .scanning) :
    (Station.completeScan now l).Outside := by
  unfold Station.completeScan retryIfWanted
  dsimp only
  split
  · exact .inr ⟨.inr state, .inr rfl⟩
  · split <;> exact .inl (.inr rfl)

end Link

namespace Station

/-- What takes a link off a network. -/
def Action.Leaves : Action → Prop
  | .stop | .radio (.association false _) => True
  | _ => False

/-- One step further on the way onto a network, by what is its cause. -/
inductive Onward : Action → Link → Link → Prop where
  | associated {reason : UInt8} {l l' : Link} (state : l.state = .connecting)
      (state' : l'.state = .addressPending) : Onward (.radio (.association true reason)) l l'
  | assigned {address : InterfaceAddress} {l l' : Link} (state : l.state = .addressPending)
      (state' : l'.state = .connected) (held : l'.address? = some address) :
      Onward (.radio (.addressAssigned address)) l l'

theorem Reacts.outside {now : Nat} {l l' : Link} {a : Action} {traffic : List Entry}
    (h : Reacts now l a traffic l') (settled : l.Settled) (apart : ¬ l.Associated) :
    l'.Outside := by
  have outside : l.Outside := Link.outside_of_settled settled apart
  cases h with
  | startRefused | joinLater | joinRefused | scanRefused | wait | fetch | fetchNext | ignored =>
    exact outside
  | start => exact .inl (.inr rfl)
  | stop => exact .inl (.inl rfl)
  | join _ idle => exact .inr ⟨.inl (l.idle_iff.mp idle).1, .inr rfl⟩
  | scan ready => exact .inr ⟨.inl ready, .inl rfl⟩
  | retry due => exact .inr ⟨.inl (l.idle_iff.mp due.1).1, .inr rfl⟩
  | nothingFound state | fetchRefused state | fetchNextRefused state | allFetched state =>
    exact Link.outside_completeScan state
  | associated state | rejected state => exact absurd (.inl state) apart
  | lost state => exact absurd (.inr state) apart
  | assigned state => exact absurd (.inr (.inl state)) apart

/-- State and address are the same. -/
def Remains {σ : Type} (s t : Station σ) : Prop :=
  t.link.state = s.link.state ∧ t.link.address? = s.link.address?

variable {σ : Type} [Chip σ] {s : Station σ} (now : Nat)

/-! ### Outside any network -/

/-- The journal goes on with traffic that ends in a command to associate, and the radio
took it. -/
def Associates (s t : Station σ) : Prop :=
  ∃ traffic ssid auth key,
    t.bus.journal = s.bus.journal ++ traffic ++ [.command (.associate ssid auth key) (.accepted ())]

theorem converge_of_outside (outside : s.link.Outside) :
    (s.converge now).link.Outside ∨
      (s.converge now).link.state = .connecting ∧ s.Associates (s.converge now) := by
  refine (converge_induct_unsettled now s
    (p := fun t => (∃ traffic, t.bus.journal = s.bus.journal ++ traffic) ∧
      (t.link.Outside ∨ t.link.state = .connecting ∧ t.link.Settled ∧ s.Associates t))
    ⟨⟨[], (List.append_nil _).symm⟩, .inl outside⟩ ?_).2.imp_right
      fun ⟨state, _, associates⟩ => ⟨state, associates⟩
  rintro t u unsettled ⟨last, hlast, ha⟩ ⟨⟨traffic, htraffic⟩, outside | ⟨-, settled, -⟩⟩
  · refine ⟨⟨traffic ++ last, by rw [hlast, htraffic, List.append_assoc]⟩, ?_⟩
    refine (ha.outside outside).imp_right ?_
    rintro ⟨state, settled, ssid, auth, key, rfl⟩
    exact ⟨state, settled, traffic, ssid, auth, key, by rw [hlast, htraffic]⟩
  · exact absurd settled unsettled

/-- From outside an action leads nowhere else, unless it has the radio associate. -/
theorem perform_of_apart (settled : s.link.Settled) (apart : ¬ s.link.Associated) (a : Action) :
    ¬ (s.perform now a).2.link.Associated ∨
      (s.perform now a).2.link.state = .connecting ∧ s.Associates (s.perform now a).2 := by
  obtain ⟨traffic, l, bus, hr, hbus, heq⟩ := converges_perform now settled a
  rw [heq]
  rcases converge_of_outside now (s := ⟨l, bus⟩) (hr.outside settled apart) with
    outside | ⟨state, last, ssid, auth, key, hlast⟩
  · exact .inl (outside.apart (settled_converge now _))
  · refine .inr ⟨state, traffic ++ last, ssid, auth, key, ?_⟩
    rw [hlast, hbus, List.append_assoc s.bus.journal]

/-! ### On a network -/

theorem converge_of_step (unsettled : ¬ s.link.Settled) (settled : (s.step now).link.Settled) :
    s.converge now = s.step now :=
  (converge_of_unsettled now s unsettled).trans (converge_of_settled now _ settled)

theorem converge_await (state : s.link.state = .connecting)
    (target : s.link.target = .addressPending) :
    s.converge now = s.onLink (·.enter .addressPending) := by
  have hstep : s.step now = s.onLink (·.enter .addressPending) := by simp [step, target, state]
  rw [converge_of_step now (by simp [Link.Settled, state, target]), hstep]
  rw [hstep]
  exact target.symm

theorem converge_connect (address : InterfaceAddress) (state : s.link.state = .addressPending)
    (target : s.link.target = .connected) (held : s.link.address? = some address) :
    s.converge now = s.onLink fun l => (l.enter .connected).report (.up address) := by
  have hstep : s.step now = s.onLink fun l => (l.enter .connected).report (.up address) := by
    simp [step, target, state, held]
  rw [converge_of_step now (by simp [Link.Settled, state, target]), hstep]
  rw [hstep]
  exact target.symm

theorem converge_of_homeward (home : s.link.Homeward) : ¬ (s.converge now).link.Associated := by
  have home : (s.converge now).link.Homeward :=
    (spares_converge now).resolve_right fun h => h.1 home
  exact Link.Outside.apart (.inl home) (settled_converge now s)

/-- What takes a link off a network does so. -/
theorem apart_of_leaves (settled : s.link.Settled) {a : Action} (leaves : a.Leaves) :
    ¬ (s.perform now a).2.link.Associated := by
  obtain ⟨traffic, l, bus, hr, -, heq⟩ := converges_perform now settled a
  rw [heq]
  cases hr with
  | stop => exact converge_of_homeward now (.inl rfl)
  | rejected => exact converge_of_homeward now (.inr rfl)
  | lost =>
    refine converge_of_homeward now (.inr ?_)
    unfold Link.lose
    dsimp only
    split <;> rfl
  | @ignored m deaf =>
    cases m with
    | association connected reason =>
      cases connected with
      | false =>
        rw [converge_of_settled now ⟨s.link, bus⟩ settled]
        exact deaf
      | true => cases leaves
    | scanDone | scanResult | addressAssigned => cases leaves
  | _ => cases leaves

/-- What does not take a link off a network takes it one step on or leaves it where it is,
and gives its radio no command. -/
theorem stays_of_associated (settled : s.link.Settled) (associated : s.link.Associated) {a : Action}
    (stays : ¬ a.Leaves) :
    (s.perform now a).2.bus.journal = s.bus.journal ∧
      (s.Remains (s.perform now a).2 ∨ Onward a s.link (s.perform now a).2.link) := by
  obtain ⟨traffic, l, bus, hr, hbus, heq⟩ := converges_perform now settled a
  rw [heq]
  have hne {state : LinkState} (h : s.link.state = state)
      (apart : state = .stopped ∨ state = .initializing ∨ state = .scanning) : False := by
    rcases associated with h' | h' | h' <;> rw [h'] at h <;> simp [← h] at apart
  cases hr with
  | startRefused | joinLater | joinRefused | scanRefused | wait | ignored =>
    rw [converge_of_settled]
    · exact ⟨by simpa using hbus, .inl ⟨rfl, rfl⟩⟩
    · exact settled
  | start state => exact (hne state (.inl rfl)).elim
  | stop | rejected | lost => exact absurd trivial stays
  | join _ idle => exact (hne (s.link.idle_iff.mp idle).1 (.inr (.inl rfl))).elim
  | retry due => exact (hne (s.link.idle_iff.mp due.1).1 (.inr (.inl rfl))).elim
  | scan state => exact (hne state (.inr (.inl rfl))).elim
  | nothingFound state | fetch state | fetchRefused state | fetchNext state
  | fetchNextRefused state | allFetched state => exact (hne state (.inr (.inr rfl))).elim
  | associated state =>
    rw [converge_await]
    · exact ⟨hbus.trans (List.append_nil _), .inr (.associated state rfl)⟩
    · exact state
    · rfl
  | @assigned address state =>
    rw [converge_connect now address]
    · exact ⟨hbus.trans (List.append_nil _), .inr (.assigned state rfl rfl)⟩
    · exact state
    · rfl
    · rfl

/-! ### Each step and its cause -/

/-- An action takes the link from one station to the other, and onto a network only step by
step: each step from the one before it, and for its own reason. -/
structure InOrder (a : Action) (s t : Station σ) : Prop where
  connecting : t.link.state = .connecting → s.link.state ≠ .connecting →
    ¬ s.link.Associated ∧ s.Associates t
  addressPending : t.link.state = .addressPending → s.link.state ≠ .addressPending →
    s.link.state = .connecting ∧ ∃ reason, a = .radio (.association true reason)
  connected : t.link.state = .connected → s.link.state ≠ .connected →
    s.link.state = .addressPending ∧ ∃ address, a = .radio (.addressAssigned address) ∧
      t.link.address? = some address

theorem inOrder_perform (settled : s.link.Settled) (a : Action) :
    InOrder a s (s.perform now a).2 := by
  by_cases apart : s.link.Associated
  · by_cases leaves : a.Leaves
    · have gone := apart_of_leaves now settled leaves
      constructor
      · exact fun state => absurd (.inl state) gone
      · exact fun state => absurd (.inr (.inl state)) gone
      · exact fun state => absurd (.inr (.inr state)) gone
    · obtain ⟨-, ⟨hstate, -⟩ | onward⟩ := stays_of_associated now settled apart leaves
      · constructor <;> exact fun state moved => absurd (hstate ▸ state) moved
      · generalize (s.perform now a).2 = t at onward
        cases onward with
        | associated state state' =>
          constructor <;> intro hstate <;> simp [state'] at hstate
          exact fun _ => ⟨state, _, rfl⟩
        | assigned state state' held =>
          constructor <;> intro hstate <;> simp [state'] at hstate
          exact fun _ => ⟨state, _, rfl, held⟩
  · rcases perform_of_apart now settled apart a with gone | ⟨state, associates⟩
    · constructor
      · exact fun state => absurd (.inl state) gone
      · exact fun state => absurd (.inr (.inl state)) gone
      · exact fun state => absurd (.inr (.inr state)) gone
    · constructor <;> intro hstate
      · exact fun _ => ⟨apart, associates⟩
      · simp [state] at hstate
      · simp [state] at hstate

/-! ### The way there -/

/-- After `before`, the actions of `after` leave the link on its network, and its radio gets
no command. -/
def Undisturbed (s : Station σ) (before after : List (Nat × Action)) : Prop :=
  (∀ entry ∈ after, ¬ entry.2.Leaves) ∧
    (s.run (before ++ after)).bus.journal = (s.run before).bus.journal

theorem Undisturbed.append {before after later : List (Nat × Action)}
    (h : s.Undisturbed before after) (h' : s.Undisturbed (before ++ after) later) :
    s.Undisturbed before (after ++ later) := by
  refine ⟨fun entry hentry => ?_, ?_⟩
  · exact (List.mem_append.mp hentry).elim (h.1 entry) (h'.1 entry)
  · rw [← List.append_assoc, h'.2, h.2]

theorem run_snoc (s : Station σ) (history : List (Nat × Action)) (entry : Nat × Action) :
    s.run (history ++ [entry]) = ((s.run history).perform entry.1 entry.2).2 := run_append ..

section Run
variable (coherent : s.link.Coherent) (settled : s.link.Settled)
include coherent settled

theorem inOrder_run (history : List (Nat × Action)) (entry : Nat × Action) :
    InOrder entry.2 (s.run history) (s.run (history ++ [entry])) := by
  rw [run_snoc]
  exact inOrder_perform entry.1 (coherent_run history coherent settled).2 entry.2

/-- An action from one step of the way to another does not disturb, and leaves the link where
it is or takes it on. -/
theorem undisturbed_snoc {history : List (Nat × Action)} {entry : Nat × Action}
    (associated : (s.run history).link.Associated)
    (associated' : (s.run (history ++ [entry])).link.Associated) :
    s.Undisturbed history [entry] ∧ ((s.run history).Remains (s.run (history ++ [entry])) ∨
      Onward entry.2 (s.run history).link (s.run (history ++ [entry])).link) := by
  have hsettled := (coherent_run history coherent settled).2
  rw [Undisturbed, run_snoc] at *
  have stays : ¬ entry.2.Leaves := fun leaves => apart_of_leaves entry.1 hsettled leaves associated'
  obtain ⟨hjournal, hnext⟩ := stays_of_associated entry.1 hsettled associated stays
  exact ⟨⟨by simpa using stays, hjournal⟩, hnext⟩

/-- A link that is at some step of the way onto a network came there by an action and has
been there, undisturbed, since. -/
theorem arrived (apart : ¬ s.link.Associated) (history : List (Nat × Action))
    (associated : (s.run history).link.Associated) :
    ∃ before entry after, history = before ++ entry :: after ∧
      (s.run before).link.state ≠ (s.run history).link.state ∧
      s.Undisturbed (before ++ [entry]) after ∧
      (s.run (before ++ [entry])).Remains (s.run history) := by
  induction history using List.reverseRecOn with
  | nil => exact absurd associated apart
  | append_singleton history entry ih =>
    by_cases moved : (s.run history).link.state = (s.run (history ++ [entry])).link.state
    · have associated₀ : (s.run history).link.Associated := by rwa [Link.Associated, moved]
      obtain ⟨before, first, after, rfl, hmoved, hafter, hstate, haddress⟩ := ih associated₀
      obtain ⟨hlast, ⟨hstate', haddress'⟩ | onward⟩ :=
        undisturbed_snoc coherent settled associated₀ associated
      · refine ⟨before, first, after ++ [entry], by simp, moved ▸ hmoved, hafter.append ?_,
          hstate'.trans hstate, haddress'.trans haddress⟩
        simpa using hlast
      · generalize (s.run (_ ++ [entry])).link = l at onward moved
        obtain ⟨now, a⟩ := entry
        cases onward with
        | associated state state' => simp [state, state'] at moved
        | assigned state state' => simp [state, state'] at moved
    · exact ⟨history, entry, [], rfl, moved, ⟨by simp, by simp⟩, rfl, rfl⟩

end Run

/-! ### The network joined last -/

/-- The network of an action that is a join, and taken. -/
def joins? (now : Nat) (a : Action) (s : Station σ) : Option Network :=
  match a, (s.perform now a).1 with
  | .join ssid key, .ok () => some ⟨ssid, key⟩
  | _, _ => none

/-- The network of the last join that was taken. -/
def lastJoined? (s : Station σ) : List (Nat × Action) → Option Network
  | [] => none
  | (now, a) :: rest => (lastJoined? (s.perform now a).2 rest).or (s.joins? now a)

theorem Reacts.network?_eq {l l' : Link} {a : Action} {traffic : List Entry}
    (h : Reacts now l a traffic l') (other : ∀ ssid key, a ≠ .join ssid key) :
    l'.network? = l.network? := by
  have hcomplete (l : Link) : (completeScan now l).network? = l.network? := by
    unfold completeScan Link.retryIfWanted
    dsimp only
    split
    · rfl
    · split <;> rfl
  cases h with
  | nothingFound | fetchRefused | fetchNextRefused | allFetched => exact hcomplete _
  | lost =>
    unfold Link.lose
    dsimp only
    split <;> rfl
  | join | joinLater | joinRefused => exact absurd rfl (other _ _)
  | start | startRefused | stop | scan | scanRefused | retry | wait | fetch | fetchNext
  | associated | rejected | assigned | ignored => rfl

theorem network?_converge (s : Station σ) : (s.converge now).link.network? = s.link.network? :=
  converge_induct now s (p := fun t : Station σ => t.link.network? = s.link.network?) rfl
    fun _ _ ⟨_, _, ha⟩ h => ha.network?_eq.trans h

omit [Chip σ] in
theorem of?_eq_some {ssid key : String} {network : Network}
    (h : Network.of? ssid key = some network) : network = ⟨ssid, key⟩ := by
  unfold Network.of? at h
  split at h
  · cases h
  · exact (Option.some.inj h).symm

theorem joins?_of_other {a : Action} (other : ∀ ssid key, a ≠ .join ssid key) :
    s.joins? now a = none := by
  unfold joins?
  split
  · exact absurd rfl (other _ _)
  · rfl

theorem network?_join (ssid key : String) : (s.join now ssid key).2.link.network? =
    (s.joins? now (.join ssid key)).or s.link.network? := by
  simp only [joins?, perform]
  unfold join
  split
  · rfl
  · next network valid =>
    obtain rfl := of?_eq_some valid
    dsimp only
    split <;> simp [network?_converge, onLink, Link.aim]

theorem network?_perform (settled : s.link.Settled) (a : Action) :
    (s.perform now a).2.link.network? = (s.joins? now a).or s.link.network? := by
  by_cases joining : ∃ ssid key, a = .join ssid key
  · obtain ⟨ssid, key, rfl⟩ := joining
    exact network?_join now ssid key
  · have other : ∀ ssid key, a ≠ .join ssid key := fun ssid key h => joining ⟨ssid, key, h⟩
    obtain ⟨traffic, l, bus, hr, -, heq⟩ := converges_perform now settled a
    rw [heq, network?_converge, joins?_of_other now other, Option.none_or]
    exact hr.network?_eq now other

theorem network?_run (coherent : s.link.Coherent) (settled : s.link.Settled)
    (history : List (Nat × Action)) :
    (s.run history).link.network? = (s.lastJoined? history).or s.link.network? := by
  induction history generalizing s with
  | nil => rfl
  | cons entry rest ih =>
    obtain ⟨hnext, hsettled⟩ := coherent_perform entry.1 coherent settled entry.2
    rw [run, ih hnext hsettled, network?_perform entry.1 settled, lastJoined?, Option.or_assoc]

/-! ### Commands to associate -/

theorem fits_converge : ∃ traffic, (s.converge now).bus.journal = s.bus.journal ++ traffic ∧
    (s.converge now).link.Fits traffic := by
  obtain ⟨traffic, hjournal, hfits, -⟩ := converge_induct_unsettled now s
    (p := fun t => ∃ traffic, t.bus.journal = s.bus.journal ++ traffic ∧ t.link.Fits traffic ∧
      ((∃ ssid auth key answer, .command (.associate ssid auth key) answer ∈ traffic) →
        t.link.Settled ∨ t.link.target = .stopped))
    ⟨[], (List.append_nil _).symm, by simp [Link.Fits], by simp⟩ (by
      rintro t u unsettled ⟨last, hlast, ha⟩ ⟨traffic, htraffic, hfits, hfinal⟩
      refine ⟨traffic ++ last, by rw [hlast, htraffic, List.append_assoc], ?_, ?_⟩
      · intro ssid auth key answer hc
        rcases List.mem_append.mp hc with hc | hc
        · have target := (hfinal ⟨_, _, _, _, hc⟩).resolve_left unsettled
          rw [ha.network?_eq, (ha.lowers target).2]
          exact hfits _ _ _ _ hc
        · exact ha.fits _ _ _ _ hc
      · rintro ⟨ssid, auth, key, answer, hc⟩
        rcases List.mem_append.mp hc with hc | hc
        · have target := (hfinal ⟨_, _, _, _, hc⟩).resolve_left unsettled
          exact .inr (ha.lowers target).1
        · exact ha.final hc)
  exact ⟨traffic, hjournal, hfits⟩

theorem Reacts.not_associate {l l' : Link} {a : Action} {traffic : List Entry} {ssid key : String}
    {auth : AuthType} {answer : Answer Unit} (h : Reacts now l a traffic l') :
    .command (.associate ssid auth key) answer ∉ traffic := by
  cases h <;> simp

/-- Whatever an action has the radio associate with is recorded and found. -/
theorem fits_perform (settled : s.link.Settled) (a : Action) {traffic : List Entry}
    (htraffic : (s.perform now a).2.bus.journal = s.bus.journal ++ traffic) :
    (s.perform now a).2.link.Fits traffic := by
  obtain ⟨first, l, bus, hr, hbus, heq⟩ := converges_perform now settled a
  obtain ⟨last, hlast, hfits⟩ := fits_converge now (s := ⟨l, bus⟩)
  rw [heq] at htraffic ⊢
  obtain rfl : first ++ last = traffic := by
    rw [hlast, hbus, List.append_assoc] at htraffic
    exact List.append_cancel_left htraffic
  intro ssid auth key answer hc
  exact hfits _ _ _ _ ((List.mem_append.mp hc).resolve_left hr.not_associate)

/-! ### The whole way -/

/-- The history went the whole way onto a network, step by step, and nothing disturbed it
since its first step. -/
def Arrives (s : Station σ) (history : List (Nat × Action)) : Prop :=
  ∃ before joining waiting associated pending assigned after,
    history = before ++ joining :: waiting ++ associated :: pending ++ assigned :: after ∧
    (s.run before).Associates (s.run (before ++ [joining])) ∧
    (s.run (before ++ joining :: waiting)).link.state = .connecting ∧
    (∃ reason, associated.2 = .radio (.association true reason)) ∧
    (s.run (before ++ joining :: waiting ++ associated :: pending)).link.state = .addressPending ∧
    (∃ address, assigned.2 = .radio (.addressAssigned address) ∧
      (s.run history).link.address? = some address) ∧
    s.Undisturbed (before ++ [joining]) (waiting ++ associated :: pending ++ assigned :: after)

theorem arrives_of_connected (coherent : s.link.Coherent) (settled : s.link.Settled)
    (apart : ¬ s.link.Associated) {history : List (Nat × Action)}
    (connected : (s.run history).link.state = .connected) : s.Arrives history := by
  have inOrder := inOrder_run coherent settled
  obtain ⟨history₂, assigned, after, rfl, hmoved₂, hafter, hstate₂, haddress⟩ :=
    arrived coherent settled apart history (.inr (.inr connected))
  rw [connected] at hmoved₂ hstate₂
  obtain ⟨pending, address, hassigned, held⟩ :=
    (inOrder history₂ assigned).connected hstate₂.symm hmoved₂
  obtain ⟨history₁, associated, between, rfl, hmoved₁, hbetween, hstate₁, -⟩ :=
    arrived coherent settled apart history₂ (.inr (.inl pending))
  rw [pending] at hmoved₁ hstate₁
  obtain ⟨waiting, reason, hassociated⟩ :=
    (inOrder history₁ associated).addressPending hstate₁.symm hmoved₁
  obtain ⟨history₀, joining, waited, rfl, hmoved₀, hwaited, hstate₀, -⟩ :=
    arrived coherent settled apart history₁ (.inl waiting)
  rw [waiting] at hmoved₀ hstate₀
  obtain ⟨-, associates⟩ := (inOrder history₀ joining).connecting hstate₀.symm hmoved₀
  refine ⟨history₀, joining, waited, associated, between, assigned, after, rfl, associates,
    waiting, ⟨reason, hassociated⟩, pending, ⟨address, hassigned, haddress.trans held⟩, ?_⟩
  have hassociated := (undisturbed_snoc coherent settled (.inl waiting) (.inr (.inl hstate₁.symm))).1
  have hassigned :=
    (undisturbed_snoc coherent settled (.inr (.inl pending)) (.inr (.inr hstate₂.symm))).1
  have hpending := (hwaited.append (by simpa using hassociated)).append (by simpa using hbetween)
  have hconnected := (hpending.append (by simpa using hassigned)).append (by simpa using hafter)
  simpa only [List.append_assoc, List.cons_append, List.nil_append] using hconnected

/-- A new link over any radio, after any history of actions. It gets onto a network only step
by step: it is connecting only once the radio took a command to associate, waits for an
address only once it heard of the association while connecting, and is connected only once
it was assigned the address it has while it waited. While it is connected, the history went
this way, and has not left the network nor had the radio do anything since the command to
associate. And a command to associate always names the network joined last, with the
protection of the first one found that has its name. -/
theorem connects_in_order (policy : LinkPolicy) (bus : Bus σ) (history : List (Nat × Action)) :
    let s : Station σ := ⟨.new policy, bus⟩
    (∀ entry, InOrder entry.2 (s.run history) (s.run (history ++ [entry]))) ∧
      ((s.run history).link.state = .connected → s.Arrives history) ∧
      ∀ entry traffic ssid auth key answer,
        (s.run (history ++ [entry])).bus.journal = (s.run history).bus.journal ++ traffic →
        .command (.associate ssid auth key) answer ∈ traffic →
          s.lastJoined? (history ++ [entry]) = some ⟨ssid, key⟩ ∧
            ∃ ap, (s.run (history ++ [entry])).link.found.items.find? (·.ssid == ssid) = some ap ∧
              ap.auth = auth := by
  intro s
  have coherent : s.link.Coherent := .new policy
  have settled : s.link.Settled := rfl
  refine ⟨inOrder_run coherent settled history,
    arrives_of_connected coherent settled (by simp [s, Link.new, Link.Associated]), ?_⟩
  intro entry traffic ssid auth key answer htraffic hassociate
  have hfits : (s.run (history ++ [entry])).link.Fits traffic := by
    rw [run_snoc] at htraffic ⊢
    exact fits_perform entry.1 (coherent_run history coherent settled).2 entry.2 htraffic
  obtain ⟨recorded, found⟩ := hfits ssid auth key answer hassociate
  refine ⟨?_, found⟩
  have hnetwork := network?_run coherent settled (history ++ [entry])
  rw [recorded] at hnetwork
  simpa [s, Link.new] using hnetwork.symm

end Station

end WifiAdapter
