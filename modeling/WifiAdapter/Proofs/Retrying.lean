import WifiAdapter.Proofs.RadioSessions

/-! The retry of an idle link.

With reconnecting on, every way back to readiness schedules a retry of the recorded network: a
scan that ends without it, a request to scan that is refused, an association that is rejected or
lost (`Station.Setback`). One way to readiness is not a way back: `start`, which schedules
nothing. A link that comes up with a network recorded before waits for a retry that is not there,
until the application joins again, scans or stops it.

`retry_missing_iff`: this is the only way for an idle link with a recorded network to be without
a retry. `Station.Comes` lists the ways for an action to leave the link idle. -/
namespace WifiAdapter

/-- Commands with which a scan is requested. -/
def Command.Scans : Command → Prop
  | .scanRegion _ | .scan => True
  | _ => False

namespace Station
variable {σ : Type}

/-- What the application asks of an idle link, as far as the link heeds it. -/
def Action.Stirs : Action → Prop
  | .stop | .scan => True
  | .join ssid key => (Network.of? ssid key).isSome
  | .start | .tick | .radio _ => False

/-- The radio refuses a request to scan. -/
def Refuses (s t : Station σ) : Prop :=
  ∃ traffic c status, t.bus.journal = s.bus.journal ++ traffic ∧
    .command c (.refused status) ∈ traffic ∧ c.Scans

/-- An action on the way from one station to the other sets the link back. -/
inductive Setback (s t : Station σ) : Action → Prop where
  /-- A scan ends and the link is back at readiness. -/
  | scanEnded {m : RadioMessage} (scanning : s.link.state = .scanning)
      (ready : t.link.state = .initializing) : Setback s t (.radio m)
  | scanFailed {status : Status} {found : Nat} (scanning : s.link.state = .scanning)
      (failed : status.isSuccess = false) : Setback s t (.radio (.scanDone status found))
  | scanRefused {a : Action} (refused : s.Refuses t) : Setback s t a
  /-- The association is rejected, or lost. -/
  | dropped {reason : UInt8} (associated : s.link.Associated) :
      Setback s t (.radio (.association false reason))

/-- The ways for an action to leave the link idle. -/
inductive Comes (now : Nat) (s t : Station σ) (a : Action) : Prop where
  /-- It was idle, and nothing happened. -/
  | stays (link : t.link = s.link) (journal : t.bus.journal = s.bus.journal) (calm : ¬ a.Stirs)
  | starts (start : a = .start) (down : s.link.state = .stopped) (retry : t.link.retryAt? = none)
      (network : t.link.network? = s.link.network?)
  | fallsBack (setback : s.Setback t a)
      (retry : t.link.network?.isSome → t.link.retryAt? = some (now + s.link.policy.backoff))

theorem Refuses.of_append {s t u : Station σ} {traffic : List Entry} (h : t.Refuses u)
    (hjournal : t.bus.journal = s.bus.journal ++ traffic) : s.Refuses u := by
  obtain ⟨last, c, status, hlast, hmem, hc⟩ := h
  exact ⟨traffic ++ last, c, status, by rw [hlast, hjournal, List.append_assoc],
    List.mem_append_right _ hmem, hc⟩

end Station

namespace Link
variable {now : Nat} {l l' : Link} {traffic : List Entry}

theorem retryAt?_scanRefused (recorded : (Station.scanRefused now l).network?.isSome) :
    (Station.scanRefused now l).retryAt? = some (now + l.policy.backoff) := by
  unfold Station.scanRefused retryIfWanted at recorded ⊢
  split
  · rfl
  · next missing =>
    rw [if_neg missing] at recorded
    exact absurd recorded missing

/-- A ready link that is to scan stays ready only if the radio refuses. -/
theorem Advance.refused (h : l.Advance now traffic l') (target : l.target = .scanning)
    (state : l.state = .initializing) (idle : l'.idle) :
    (∃ c status, .command c (.refused status) ∈ traffic ∧ c.Scans) ∧
      l' = Station.scanRefused now l := by
  cases h with
  | regionRefused => exact ⟨⟨.scanRegion _, _, List.mem_singleton_self _, trivial⟩, rfl⟩
  | @scanRefused status => exact ⟨⟨.scan, status, by simp, trivial⟩, rfl⟩
  | scan => simp [Link.idle, enter] at idle
  | giveUp stuck => simp [Stuck, target, state] at stuck
  | leave target' | down target' | up target' | upRefused target' | back target'
  | associate target' | associateRefused target' | seek target' | await target'
  | connect target' => simp [target] at target'

end Link

namespace Station
variable {σ : Type} [Chip σ] {s : Station σ} (now : Nat)

/-! ### Where converging leads -/

theorem not_idle_of_stopping (target : s.link.target = .stopped) :
    ¬ (s.converge now).link.idle := by
  have hdown : (s.converge now).link.target = .stopped :=
    converge_induct now s (p := fun t : Station σ => t.link.target = .stopped) target
      fun _ _ ⟨_, _, ha⟩ h => (ha.lowers h).1
  simp [Link.idle, hdown]

/-- A link that goes on to the network it has found is not ready again at once. -/
theorem not_idle_of_wanted (ready : s.link.Ready) (target : s.link.target = .connecting)
    (wanted : s.link.wanted?.isSome) : ¬ (s.converge now).link.idle := by
  have unsettled : ¬ s.link.Settled := by
    rcases ready with state | state <;> simp [Link.Settled, state, target]
  rw [converge_of_unsettled now s unsettled]
  obtain ⟨traffic, -, ha⟩ := advances_step now s
  generalize s.step now = t at ha
  obtain ⟨l, bus⟩ := t
  cases ha with
  | associate =>
    rw [converge_of_settled]
    · simp [Link.idle]
    · exact target.symm
  | associateRefused => exact not_idle_of_stopping now rfl
  | seek _ _ missing => simp [missing] at wanted
  | giveUp stuck => simp [Link.Stuck, target, ready] at stuck
  | leave target' | down target' | up target' | upRefused target' | back target' | scan target'
  | regionRefused target' | scanRefused target' | await target' | connect target' =>
    simp [target] at target'

/-- A ready link that is to scan is ready again only if the radio refuses, with a retry. -/
theorem refuses_of_scanning (state : s.link.state = .initializing)
    (target : s.link.target = .scanning) (idle : (s.converge now).link.idle) :
    s.Refuses (s.converge now) ∧ ((s.converge now).link.network?.isSome →
      (s.converge now).link.retryAt? = some (now + s.link.policy.backoff)) := by
  have unsettled : ¬ s.link.Settled := by simp [Link.Settled, state, target]
  obtain ⟨traffic, hjournal, ha⟩ := advances_step now s
  have hstep : s.converge now = s.step now :=
    converge_of_step now unsettled (ha.settles (by simp [target]))
  rw [hstep] at idle ⊢
  obtain ⟨⟨c, status, hmem, hc⟩, hlink⟩ := ha.refused target state idle
  refine ⟨⟨traffic, c, status, hjournal, hmem, hc⟩, ?_⟩
  rw [hlink]
  exact Link.retryAt?_scanRefused

/-- So is one that is to join its network. -/
theorem refuses_of_connecting (state : s.link.state = .initializing)
    (target : s.link.target = .connecting) (idle : (s.converge now).link.idle) :
    s.Refuses (s.converge now) ∧ ((s.converge now).link.network?.isSome →
      (s.converge now).link.retryAt? = some (now + s.link.policy.backoff)) := by
  have unsettled : ¬ s.link.Settled := by simp [Link.Settled, state, target]
  cases hwanted : s.link.wanted? with
  | some ap =>
    exact absurd idle (not_idle_of_wanted now (.inl state) target (by rw [hwanted]; rfl))
  | none =>
    have hstep : s.step now = s.onLink (·.aim .scanning) := by
      simp [step, target, beginConnecting, state, hwanted]
    rw [converge_of_unsettled now s unsettled, hstep] at idle ⊢
    exact refuses_of_scanning now (s := s.onLink _) state rfl idle

/-- A link on its way back has the retry it had. -/
theorem link_converge_back (state : s.link.state ≠ .stopped) (unsettled : ¬ s.link.Settled)
    (target : s.link.target = .initializing) :
    (s.converge now).link.state = .initializing ∧
      (s.converge now).link.retryAt? = s.link.retryAt? := by
  rw [converge_back now state unsettled target]
  exact ⟨rfl, Link.retryAt?_dropAddress _⟩

/-- A scan that is over leaves the link ready only without the recorded network, and with a
retry. -/
theorem ready_of_completeScan {l : Link} {bus : Bus σ} (state : l.state = .scanning)
    (idle : (converge now ⟨completeScan now l, bus⟩).link.idle) :
    (converge now ⟨completeScan now l, bus⟩).link.network?.isSome →
      (converge now ⟨completeScan now l, bus⟩).link.retryAt? = some (now + l.policy.backoff) := by
  rw [network?_converge]
  unfold completeScan Link.retryIfWanted at idle ⊢
  dsimp only at idle ⊢
  split at idle
  · next wanted => exact absurd idle (not_idle_of_wanted now (.inr state) rfl wanted)
  · next missing =>
    rw [if_neg missing]
    intro recorded
    have recorded : l.network?.isSome := by
      split at recorded <;> exact recorded
    rw [if_pos (by exact recorded)]
    exact (link_converge_back now (by simp [Link.scheduleRetry, Link.aim, state])
      (by simp [Link.Settled, Link.scheduleRetry, Link.aim, state]) rfl).2

/-- Coming up schedules nothing. -/
theorem retry_of_start (down : s.link.state = .stopped) (target : s.link.target = .initializing)
    (retry : s.link.retryAt? = none) (idle : (s.converge now).link.idle) :
    (s.converge now).link.retryAt? = none := by
  have unsettled : ¬ s.link.Settled := by simp [Link.Settled, down, target]
  rw [converge_of_unsettled now s unsettled] at idle ⊢
  obtain ⟨traffic, -, ha⟩ := advances_step now s
  generalize s.step now = t at ha idle
  obtain ⟨l, bus⟩ := t
  cases ha with
  | up =>
    rw [converge_of_settled]
    · exact retry
    · exact target.symm
  | upRefused => exact absurd idle (not_idle_of_stopping now rfl)
  | back _ up => exact absurd down up
  | giveUp stuck => simp [Link.Stuck, target] at stuck
  | leave target' | down target' | scan target' | regionRefused target' | scanRefused target'
  | associate target' | associateRefused target' | seek target' | await target'
  | connect target' => simp [target] at target'

/-- An action leaves the link idle in one of three ways. -/
theorem comes_perform (coherent : s.link.Coherent) (settled : s.link.Settled)
    (reconnect : s.link.policy.reconnect = true) (a : Action)
    (idle : (s.perform now a).2.link.idle) : s.Comes now (s.perform now a).2 a := by
  have network := network?_perform now settled a
  obtain ⟨first, l, bus, hr, hbus, heq⟩ := converges_perform now settled a
  rw [heq] at idle network ⊢
  have stays (link : l = s.link) (silent : first = []) (calm : ¬ a.Stirs) :
      s.Comes now (converge now ⟨l, bus⟩) a := by
    subst link silent
    rw [converge_of_settled now ⟨s.link, bus⟩ settled]
    exact .stays rfl (hbus.trans (List.append_nil _)) calm
  -- A link that was settled somewhere else is not idle.
  have elsewhere (h : l.Settled) (state : l.state ≠ .initializing) :
      s.Comes now (converge now ⟨l, bus⟩) a := by
    rw [converge_of_settled now ⟨l, bus⟩ h] at idle
    exact absurd (l.idle_iff.mp idle).1 state
  have refused (h : Refuses ⟨l, bus⟩ (converge now ⟨l, bus⟩) ∧
      ((converge now ⟨l, bus⟩).link.network?.isSome →
        (converge now ⟨l, bus⟩).link.retryAt? = some (now + l.policy.backoff)))
      (policy : l.policy = s.link.policy) : s.Comes now (converge now ⟨l, bus⟩) a :=
    .fallsBack (.scanRefused (h.1.of_append hbus)) (policy ▸ h.2)
  have ready := ((converge now ⟨l, bus⟩).link.idle_iff.mp idle).1
  cases hr with
  | startRefused | wait | ignored => exact stays rfl rfl id
  | joinRefused invalid => exact stays rfl rfl (by simp [Action.Stirs, invalid])
  | start down =>
    refine .starts rfl down (retry_of_start now down rfl (coherent.retry down) idle) ?_
    rwa [joins?_of_other now (by simp), Option.none_or] at network
  | stop => exact absurd idle (not_idle_of_stopping now rfl)
  | join valid idle' =>
    exact refused (refuses_of_connecting now (s.link.idle_iff.mp idle').1 rfl idle) rfl
  | retry due =>
    exact refused (refuses_of_connecting now (s.link.idle_iff.mp due.1).1 rfl idle) rfl
  | scan state => exact refused (refuses_of_scanning now state rfl idle) rfl
  | joinLater _ busy =>
    rw [converge_of_settled] at idle
    · exact absurd idle busy
    · exact settled
  | scanRefused busy => exact elsewhere settled busy
  | fetch state | fetchNext state => exact elsewhere settled (by simp [Link.hold, state])
  | nothingFound state | allFetched state =>
    exact .fallsBack (.scanEnded state ready) (ready_of_completeScan now state idle)
  | fetchRefused state | fetchNextRefused state =>
    exact .fallsBack (.scanEnded state ready) (ready_of_completeScan now state idle)
  | associated state =>
    rw [converge_await] at ready
    · cases ready
    · exact state
    · rfl
  | @assigned address state =>
    rw [converge_connect now address] at ready
    · cases ready
    · exact state
    · rfl
    · rfl
  | rejected state =>
    refine .fallsBack (.dropped (.inl state)) fun _ => ?_
    exact (link_converge_back now (by simp [Link.scheduleRetry, Link.aim, state])
      (by simp [Link.Settled, Link.scheduleRetry, Link.aim, state]) rfl).2
  | lost state =>
    refine .fallsBack (.dropped (.inr state)) fun _ => ?_
    have lose : s.link.lose now = Link.scheduleRetry
        (({ s.link with address? := none }.report .down).aim .initializing) now := if_pos reconnect
    rw [lose]
    have away : s.link.state ≠ .stopped ∧ s.link.state ≠ .initializing := by
      rcases state with state | state <;> simp [state]
    refine (link_converge_back now ?_ ?_ rfl).2
    · exact away.1
    · exact away.2

/-! ### A link without a retry -/

/-- An idle link without a retry stays as it is until it is stirred. -/
theorem perform_of_calm (idle : s.link.idle) (retry : s.link.retryAt? = none) {a : Action}
    (calm : ¬ a.Stirs) : (s.perform now a).2 = s := by
  have early : ¬ s.link.Due now := by
    rintro ⟨-, ⟨due, hdue, -⟩, -⟩
    rw [retry] at hdue
    cases hdue
  cases a with
  | start =>
    show (s.start now).2 = s
    unfold start
    rw [if_neg]
    rintro ⟨down, -⟩
    cases down.symm.trans (s.link.idle_iff.mp idle).1
  | tick => exact perform_of_idle now idle trivial fun _ => early
  | radio m => exact perform_of_idle now idle trivial nofun
  | join ssid key =>
    have invalid : Network.of? ssid key = none := by simpa [Action.Stirs] using calm
    show (s.join now ssid key).2 = s
    unfold join
    rw [invalid]
  | stop | scan => exact absurd trivial calm

theorem run_of_calm (idle : s.link.idle) (retry : s.link.retryAt? = none)
    (history : List (Nat × Action)) (calm : ∀ entry ∈ history, ¬ entry.2.Stirs) :
    s.run history = s := by
  induction history with
  | nil => rfl
  | cons entry rest ih =>
    rw [run, perform_of_calm entry.1 idle retry (calm entry List.mem_cons_self)]
    exact ih fun e he => calm e (List.mem_cons_of_mem _ he)

/-- The radio is down, or the link is idle and has no retry. -/
def Dormant (s : Station σ) : Prop :=
  s.link.state = .stopped ∨ s.link.idle ∧ s.link.retryAt? = none

theorem dormant_perform (coherent : s.link.Coherent) (settled : s.link.Settled) {a : Action}
    (calm : ¬ a.Stirs) (h : s.Dormant) : (s.perform now a).2.Dormant := by
  rcases h with down | ⟨idle, retry⟩
  · by_cases start : a = .start
    · subst start
      have hstart : (s.perform now .start).2 = (s.onLink (·.aim .initializing)).converge now := by
        show (s.start now).2 = _
        unfold Station.start
        rw [if_pos ⟨down, settled.symm.trans down⟩]
      rw [hstart]
      have home : ((s.onLink (·.aim .initializing)).converge now).link.Homeward :=
        (spares_converge now).resolve_right fun h => h.1 (.inr rfl)
      have hsettled := settled_converge now (s.onLink (·.aim .initializing))
      rcases home with target | target
      · exact .inl (hsettled.trans target)
      · have idle := (Link.idle_iff _).mpr ⟨hsettled.trans target, target⟩
        exact .inr ⟨idle, retry_of_start now down rfl (coherent.retry down) idle⟩
    · exact .inl (perform_of_stopped now settled down start).2
  · rw [perform_of_calm now idle retry calm]
    exact .inr ⟨idle, retry⟩

theorem dormant_run (coherent : s.link.Coherent) (settled : s.link.Settled)
    (history : List (Nat × Action)) (calm : ∀ entry ∈ history, ¬ entry.2.Stirs) (h : s.Dormant) :
    (s.run history).Dormant := by
  induction history generalizing s with
  | nil => exact h
  | cons entry rest ih =>
    obtain ⟨hnext, hsettled⟩ := coherent_perform entry.1 coherent settled entry.2
    exact ih hnext hsettled (fun e he => calm e (List.mem_cons_of_mem _ he))
      (dormant_perform entry.1 coherent settled (calm entry List.mem_cons_self) h)

/-- The link was started with a network recorded before, and was not stirred since. -/
def Forgotten (s : Station σ) (history : List (Nat × Action)) : Prop :=
  ∃ before time after, history = before ++ (time, .start) :: after ∧
    (s.run before).link.state = .stopped ∧ (s.run before).link.network?.isSome ∧
    ∀ entry ∈ after, ¬ entry.2.Stirs

section Run
variable (coherent : s.link.Coherent) (settled : s.link.Settled)
include coherent settled

theorem retry_of_forgotten {history : List (Nat × Action)} (h : s.Forgotten history)
    (idle : (s.run history).link.idle) : (s.run history).link.retryAt? = none := by
  obtain ⟨before, time, after, rfl, down, -, calm⟩ := h
  obtain ⟨hcoherent, hsettled⟩ := coherent_run before coherent settled
  obtain ⟨hcoherent', hsettled'⟩ := coherent_perform time hcoherent hsettled .start
  have hdormant := dormant_run hcoherent' hsettled' after calm
    (dormant_perform time hcoherent hsettled id (.inl down))
  rw [run_append] at idle ⊢
  rcases hdormant with down | ⟨-, retry⟩
  · cases down.symm.trans ((Link.idle_iff _).mp idle).1
  · exact retry

/-- An idle link has no retry for its network only if it was started with that network. -/
theorem forgotten_of_missing (reconnect : s.link.policy.reconnect = true) (busy : ¬ s.link.idle)
    (history : List (Nat × Action)) (idle : (s.run history).link.idle)
    (recorded : (s.run history).link.network?.isSome)
    (missing : (s.run history).link.retryAt? = none) : s.Forgotten history := by
  induction history using List.reverseRecOn with
  | nil => exact absurd idle busy
  | append_singleton history entry ih =>
    obtain ⟨now, a⟩ := entry
    obtain ⟨hcoherent, hsettled⟩ := coherent_run history coherent settled
    have hpolicy := policy_run coherent settled history
    rw [run_snoc] at idle recorded missing
    cases comes_perform now hcoherent hsettled (by rw [hpolicy, reconnect]) a idle with
    | stays link _ calm =>
      rw [link] at idle recorded missing
      obtain ⟨before, time, after, rfl, down, hnetwork, hcalm⟩ := ih idle recorded missing
      refine ⟨before, time, after ++ [(now, a)], by simp, down, hnetwork, fun entry hentry => ?_⟩
      rcases List.mem_append.mp hentry with hentry | hentry
      · exact hcalm entry hentry
      · rw [List.mem_singleton.mp hentry]
        exact calm
    | starts start down _ network =>
      subst start
      exact ⟨history, now, [], rfl, down, network ▸ recorded, by simp⟩
    | fallsBack _ retry => cases missing.symm.trans (retry recorded)

end Run

/-- Reconnecting is on, and after some history, over any radio, a new link is idle with a network
recorded. It has no retry just if it was started with that network recorded already and was not
stirred since: the application did not scan, join a network or stop the link. If it has one, the
first tick at or after its time seeks a network, and has the radio associate with none but the
recorded one. If it has none, nothing changes until the link is stirred. -/
theorem retry_missing_iff (policy : LinkPolicy) (bus : Bus σ) (history : List (Nat × Action))
    (reconnect : policy.reconnect = true) (idle : (run ⟨.new policy, bus⟩ history).link.idle)
    (recorded : (run ⟨.new policy, bus⟩ history).link.network?.isSome) :
    let s := run ⟨.new policy, bus⟩ history
    (s.link.retryAt? = none ↔ Forgotten ⟨.new policy, bus⟩ history) ∧
    (∀ due ∈ s.link.retryAt?, ∀ now, due ≤ now → s.Sought (s.perform now .tick).2 ∧
      ∀ traffic ssid auth key answer,
        (s.perform now .tick).2.bus.journal = s.bus.journal ++ traffic →
        .command (.associate ssid auth key) answer ∈ traffic →
          s.link.network? = some ⟨ssid, key⟩) ∧
    (s.link.retryAt? = none → ∀ more, (∀ entry ∈ more, ¬ entry.2.Stirs) → s.run more = s) := by
  intro s
  let start : Station σ := ⟨.new policy, bus⟩
  have coherent : start.link.Coherent := .new policy
  have settled : start.link.Settled := rfl
  obtain ⟨hcoherent, hsettled⟩ := coherent_run history coherent settled
  refine ⟨⟨fun missing => ?_, fun h => retry_of_forgotten coherent settled h idle⟩, ?_,
    run_of_calm idle⟩
  · have busy : ¬ start.link.idle := by simp [start, Link.idle, Link.new]
    exact forgotten_of_missing coherent settled reconnect busy history idle recorded missing
  · intro due hdue now hnow
    refine ⟨sought_of_due now ⟨idle, ⟨due, hdue, hnow⟩, recorded⟩, ?_⟩
    intro traffic ssid auth key answer htraffic hassociate
    obtain ⟨network, -⟩ := fits_perform now hsettled .tick htraffic ssid auth key answer hassociate
    have hsame := network?_perform now hsettled .tick
    rw [joins?_of_other now (by simp), Option.none_or] at hsame
    exact hsame.symm.trans network

/-- The recorded network is not there for the first scan. -/
def missedAtFirst : List (Nat × Action) :=
  [(0, .start), (0, .join "net" "secret"), (10, .radio (.scanDone .success 0))]

/-- It is sought again once the backoff is over. -/
theorem retry_missing_never :
    let start : Station ScriptedChip :=
      ⟨.new ⟨.northAmerica, 3000, true⟩, ⟨ScriptedChip.new, []⟩⟩
    let s := start.run missedAtFirst
    s.link.idle = true ∧ s.link.retryAt? = some 3010 ∧ ¬ start.Forgotten missedAtFirst ∧
      s.Sought (s.perform 3010 .tick).2 := by
  have hidle : (run ⟨.new ⟨.northAmerica, 3000, true⟩, ⟨ScriptedChip.new, []⟩⟩
      missedAtFirst).link.idle = true := rfl
  have hretry : (run ⟨.new ⟨.northAmerica, 3000, true⟩, ⟨ScriptedChip.new, []⟩⟩
      missedAtFirst).link.retryAt? = some 3010 := rfl
  obtain ⟨hmissing, hdue, -⟩ := retry_missing_iff ⟨.northAmerica, 3000, true⟩
    ⟨ScriptedChip.new, []⟩ missedAtFirst rfl hidle rfl
  refine ⟨hidle, hretry, fun h => ?_, (hdue 3010 hretry 3010 (Nat.le_refl _)).1⟩
  cases hretry.symm.trans (hmissing.mpr h)

/-- A network is recorded before the link is started: no tick, however late, seeks it. -/
theorem retry_missing_at_start :
    ¬ ∀ history : List (Nat × Action),
      let s : Station ScriptedChip :=
        run ⟨.new ⟨.northAmerica, 3000, true⟩, ⟨ScriptedChip.new, []⟩⟩ history
      s.link.idle → s.link.network?.isSome → ∃ now, s.Sought (s.perform now .tick).2 := by
  intro halways
  let s : Station ScriptedChip := run ⟨.new ⟨.northAmerica, 3000, true⟩, ⟨ScriptedChip.new, []⟩⟩
    [(0, .join "net" "secret"), (0, .start)]
  obtain ⟨now, hsought⟩ := halways [(0, .join "net" "secret"), (0, .start)] rfl rfl
  have hsame : (s.perform now .tick).2 = s := perform_of_calm now rfl rfl id
  have hidles : s.Idles s := idles_refl rfl
  exact hsought.not_idles (hsame.symm ▸ hidles)

end Station

end WifiAdapter
