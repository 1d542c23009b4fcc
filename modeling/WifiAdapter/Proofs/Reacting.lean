import WifiAdapter.Proofs.Settling

/-! What an action does to a settled link.

`Station.Reacts` lists every way an action can change the link before it converges: what
the action needs, what it enters in the journal and what it makes of the link. Every
action is one of these changes followed by converging. -/
namespace WifiAdapter

namespace Link

/-- An idle link has a network to retry, and the time has come. -/
def Due (now : Nat) (l : Link) : Prop :=
  l.idle ∧ (∃ due ∈ l.retryAt?, due ≤ now) ∧ l.network?.isSome

/-- Takes in a scan result. -/
def hold (l : Link) (ap : AccessPoint) : Link :=
  { l with found := (l.found.push? ap).getD l.found, fetched := l.fetched + 1 }

/-- Loses its network, and schedules a retry if it is to reconnect. -/
def lose (now : Nat) (l : Link) : Link :=
  let l := ({ l with address? := none }.report .down).aim .initializing
  if l.policy.reconnect then l.scheduleRetry now else l

/-- The link is where a radio message means something to it. -/
def Heeds (l : Link) : RadioMessage → Prop
  | .scanDone .. | .scanResult _ => l.state = .scanning
  | .association true _ => l.state = .connecting
  | .association false _ => l.Associated
  | .addressAssigned _ => l.state = .addressPending

end Link

namespace Station
variable {σ : Type} [Chip σ]

/-- What an action makes of a settled link before it converges, with what that enters in
the journal. -/
inductive Reacts (now : Nat) (l : Link) : Action → List Entry → Link → Prop where
  | start (down : l.state = .stopped) : Reacts now l .start [] (l.aim .initializing)
  | startRefused (up : l.state ≠ .stopped) : Reacts now l .start [] l
  | stop : Reacts now l .stop [] (l.aim .stopped)
  | join {ssid key : String} {network : Network} (valid : Network.of? ssid key = some network)
      (idle : l.idle) :
      Reacts now l (.join ssid key) []
        ({ l with network? := some network, retryAt? := none }.aim .connecting)
  | joinLater {ssid key : String} {network : Network}
      (valid : Network.of? ssid key = some network) (busy : ¬ l.idle) :
      Reacts now l (.join ssid key) [] { l with network? := some network, retryAt? := none }
  | joinRefused {ssid key : String} (invalid : Network.of? ssid key = none) :
      Reacts now l (.join ssid key) [] l
  | scan (ready : l.state = .initializing) : Reacts now l .scan [] (l.aim .scanning)
  | scanRefused (busy : l.state ≠ .initializing) : Reacts now l .scan [] l
  | retry (due : l.Due now) :
      Reacts now l .tick [] ({ l with retryAt? := none }.aim .connecting)
  | wait (early : ¬ l.Due now) : Reacts now l .tick [] l
  | nothingFound {status : Status} {found : Nat} (state : l.state = .scanning)
      (none : !status.isSuccess || found == 0) :
      Reacts now l (.radio (.scanDone status found)) [] (completeScan now l)
  | fetch {status : Status} {found : Nat} (state : l.state = .scanning)
      (some : status.isSuccess ∧ found ≠ 0) :
      Reacts now l (.radio (.scanDone status found)) [.command (.scanResult 0) (.accepted ())]
        { l with expected := min found maxScanResults, fetched := 0 }
  | fetchRefused {status : Status} {found : Nat} {refusal : Status} (state : l.state = .scanning)
      (some : status.isSuccess ∧ found ≠ 0) :
      Reacts now l (.radio (.scanDone status found)) [.command (.scanResult 0) (.refused refusal)]
        (completeScan now { l with expected := min found maxScanResults, fetched := 0 })
  | fetchNext {ap : AccessPoint} (state : l.state = .scanning)
      (more : l.fetched + 1 < l.expected) :
      Reacts now l (.radio (.scanResult ap))
        [.command (.scanResult (l.fetched + 1)) (.accepted ())] (l.hold ap)
  | fetchNextRefused {ap : AccessPoint} {refusal : Status} (state : l.state = .scanning)
      (more : l.fetched + 1 < l.expected) :
      Reacts now l (.radio (.scanResult ap))
        [.command (.scanResult (l.fetched + 1)) (.refused refusal)] (completeScan now (l.hold ap))
  | allFetched {ap : AccessPoint} (state : l.state = .scanning)
      (last : ¬ l.fetched + 1 < l.expected) :
      Reacts now l (.radio (.scanResult ap)) [] (completeScan now (l.hold ap))
  | associated {reason : UInt8} (state : l.state = .connecting) :
      Reacts now l (.radio (.association true reason)) [] (l.aim .addressPending)
  | rejected {reason : UInt8} (state : l.state = .connecting) :
      Reacts now l (.radio (.association false reason)) []
        ((l.aim .initializing).scheduleRetry now)
  | lost {reason : UInt8} (state : l.state = .addressPending ∨ l.state = .connected) :
      Reacts now l (.radio (.association false reason)) [] (l.lose now)
  | assigned {address : InterfaceAddress} (state : l.state = .addressPending) :
      Reacts now l (.radio (.addressAssigned address)) []
        ({ l with address? := some address }.aim .connected)
  | ignored {m : RadioMessage} (deaf : ¬ l.Heeds m) : Reacts now l (.radio m) [] l

variable (now : Nat) {s : Station σ}

theorem tick_of_due (h : s.link.Due now) :
    s.tick now =
      (s.onLink fun l => { l with retryAt? := none }.aim .connecting).converge now := by
  obtain ⟨hidle, ⟨due, hdue, hnow⟩, hnetwork⟩ := h
  rw [Option.mem_def] at hdue
  simp [tick, hidle, hdue, hnow, hnetwork]

theorem tick_of_not_due (h : ¬ s.link.Due now) : s.tick now = s.converge now := by
  unfold tick
  dsimp only
  rw [if_neg]
  intro hall
  simp only [Bool.and_eq_true] at hall
  obtain ⟨⟨hidle, hdue⟩, hnetwork⟩ := hall
  refine h ⟨hidle, ?_, hnetwork⟩
  split at hdue
  · cases hdue
  · next due hretry => exact ⟨due, hretry, of_decide_eq_true hdue⟩

theorem onAssociation_true (l : Link) : onAssociation now true l =
    if l.state = .connecting then l.aim .addressPending else l := by
  obtain ⟨state⟩ := l
  cases state <;> rfl

theorem onAssociation_false (l : Link) : onAssociation now false l =
    if l.state = .connecting then (l.aim .initializing).scheduleRetry now
    else if l.state = .addressPending ∨ l.state = .connected then l.lose now else l := by
  obtain ⟨state⟩ := l
  cases state <;> rfl

/-- The station is left to converge after the action made a change of the link. -/
def Converges (now : Nat) (s : Station σ) (a : Action) (t : Station σ) : Prop :=
  ∃ (traffic : List Entry) (l : Link) (bus : Bus σ), Reacts now s.link a traffic l ∧
    bus.journal = s.bus.journal ++ traffic ∧ t = converge now ⟨l, bus⟩

theorem converges_onLink {a : Action} {l : Link} (h : Reacts now s.link a [] l) :
    s.Converges now a (converge now ⟨l, s.bus⟩) :=
  ⟨[], l, s.bus, h, (List.append_nil _).symm, rfl⟩

theorem converges_self (settled : s.link.Settled) {a : Action}
    (h : Reacts now s.link a [] s.link) : s.Converges now a s := by
  have := converges_onLink now h
  rwa [converge_of_settled now s settled] at this

/-- Asking for a scan result, from a link changed by `f`. -/
theorem converges_fetchResult {m : RadioMessage} {f : Link → Link}
    (accepted : Reacts now s.link (.radio m)
      [.command (.scanResult (f s.link).fetched) (.accepted ())] (f s.link))
    (refused : ∀ refusal, Reacts now s.link (.radio m)
      [.command (.scanResult (f s.link).fetched) (.refused refusal)]
      (completeScan now (f s.link))) :
    s.Converges now (.radio m) (((s.onLink f).fetchResult now).converge now) := by
  unfold fetchResult
  split
  · next t hi =>
    refine ⟨[_], t.link, t.bus, ?_, (journal_of_issue hi :), rfl⟩
    rw [link_of_issue hi]
    exact accepted
  · next refusal t hi =>
    refine ⟨[_], completeScan now t.link, t.bus, ?_, (journal_of_issue hi :), rfl⟩
    rw [link_of_issue hi]
    exact refused refusal

theorem converges_onRadio (m : RadioMessage) :
    s.Converges now (.radio m) (s.onRadio now m) := by
  unfold onRadio
  cases m with
  | scanDone status found =>
    show s.Converges now _ ((s.onScanDone now status found).converge now)
    unfold onScanDone
    split
    · next away => exact converges_onLink now (.ignored away)
    · next state =>
      have state : s.link.state = .scanning := Decidable.not_not.mp state
      split
      · next none => exact converges_onLink now (.nothingFound state none)
      · next some =>
        have some : status.isSuccess ∧ found ≠ 0 := by simpa using some
        exact converges_fetchResult now (.fetch state some) fun _ => .fetchRefused state some
  | scanResult ap =>
    show s.Converges now _ ((s.onScanResult now ap).converge now)
    unfold onScanResult
    split
    · next away => exact converges_onLink now (.ignored away)
    · next state =>
      have state : s.link.state = .scanning := Decidable.not_not.mp state
      dsimp only
      split
      · next more =>
        exact converges_fetchResult now (f := (·.hold ap)) (.fetchNext state more)
          fun _ => .fetchNextRefused state more
      · next last => exact converges_onLink now (.allFetched state last)
  | association connected reason =>
    show s.Converges now _ (converge now ⟨onAssociation now connected s.link, s.bus⟩)
    refine converges_onLink now ?_
    cases connected with
    | true =>
      rw [onAssociation_true]
      split
      · next state => exact .associated state
      · next deaf => exact .ignored deaf
    | false =>
      rw [onAssociation_false]
      split
      · next state => exact .rejected state
      · split
        · next state => exact .lost state
        · next deaf deaf' => exact .ignored (not_or.mpr ⟨deaf, deaf'⟩)
  | addressAssigned address =>
    show s.Converges now _ (converge now ⟨onAddress address s.link, s.bus⟩)
    refine converges_onLink now ?_
    unfold onAddress
    split
    · next state => exact .assigned state
    · next deaf => exact .ignored deaf

/-- Every action of a settled link is a change of the link, and then converging. -/
theorem converges_perform (settled : s.link.Settled) (a : Action) :
    s.Converges now a (s.perform now a).2 := by
  cases a with
  | start =>
    show s.Converges now .start (s.start now).2
    unfold start
    split
    · next down => exact converges_onLink now (.start down.1)
    · next up =>
      refine converges_self now settled (.startRefused fun down => up ⟨down, ?_⟩)
      exact settled.symm.trans down
  | stop => exact converges_onLink now .stop
  | join ssid key =>
    show s.Converges now (.join ssid key) (s.join now ssid key).2
    unfold join
    split
    · next invalid => exact converges_self now settled (.joinRefused invalid)
    · next network valid =>
      dsimp only
      split
      · next idle => exact converges_onLink now (.join valid idle)
      · next busy =>
        have := converges_onLink now (s := s) (.joinLater valid busy)
        rwa [converge_of_settled] at this
        exact settled
  | scan =>
    show s.Converges now .scan (s.scan now).2
    unfold scan
    split
    · next ready => exact converges_onLink now (.scan ready)
    · next busy => exact converges_self now settled (.scanRefused busy)
  | tick =>
    show s.Converges now .tick (s.tick now)
    by_cases due : s.link.Due now
    · rw [tick_of_due now due]
      exact converges_onLink now (.retry due)
    · rw [tick_of_not_due now due]
      exact converges_onLink now (.wait due)
  | radio m => exact converges_onRadio now m

end Station

end WifiAdapter
