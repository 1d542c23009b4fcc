import WifiAdapter.Proofs.Retrying

/-! Fetching the results of a scan.

A scan that is over announces how many networks it found. The link asks the radio for the first
of them, and for each further one when the one before has come in, and stops when it has them
all or the radio refuses. Part way through the link is still scanning and holds what has come in
so far (`Station.Fetching`); ticks, joins and news of other things change none of that, so what
remains is one step for each result and an induction along the history.

`results_fetched_one_by_one`: over any radio, the link asks for each result once and in order,
and leaves the scan with the last result or the first refusal, for the recorded network if it is
among the results and back to readiness if it is not. -/
namespace WifiAdapter

/-- Traffic ends in a request to scan that the radio took. -/
def EndsInScan (traffic : List Entry) : Prop :=
  traffic.getLast? = some (.command .scan (.accepted ()))

/-- Requests for the first results of a scan, each of which the radio took. -/
def requests (n : Nat) : List Entry :=
  (List.range n).map fun i => .command (.scanResult i) (.accepted ())

theorem requests_succ (n : Nat) :
    requests (n + 1) = requests n ++ [.command (.scanResult n) (.accepted ())] := by
  simp [requests, List.range_succ]

namespace Link

/-- There is no retry without a network. -/
def Retries (l : Link) : Prop := l.network? = none → l.retryAt? = none

variable {now : Nat} {l l' : Link} {traffic : List Entry}

theorem Retries.new (policy : LinkPolicy) : (Link.new policy).Retries := fun _ => rfl

theorem retries_retryIfWanted (h : l.Retries) : (l.retryIfWanted now).Retries := by
  unfold retryIfWanted
  split
  · next recorded =>
    intro (missing : l.network? = none)
    rw [missing] at recorded
    cases recorded
  · exact h

theorem retries_completeScan (h : l.Retries) : (Station.completeScan now l).Retries := by
  unfold Station.completeScan
  dsimp only
  split
  · exact h
  · exact retries_retryIfWanted (l := aim _ .initializing) h

theorem Retries.advance (ha : l.Advance now traffic l') (h : l.Retries) : l'.Retries := by
  cases ha with
  | leave | down => exact fun _ => rfl
  | back => simpa [Retries, enter] using h
  | regionRefused | scanRefused => exact retries_retryIfWanted (l := l.aim .initializing) h
  | up | upRefused | scan | associate | associateRefused | seek | await | connect | giveUp => exact h

theorem Retries.lose (recorded : l.network?.isSome) : (l.lose now).Retries := by
  intro missing
  have hnetwork : (l.lose now).network? = l.network? := by
    unfold Link.lose
    dsimp only
    split <;> rfl
  rw [← hnetwork, missing] at recorded
  cases recorded

/-- An action schedules a retry only for a network. -/
theorem Retries.reacts {a : Station.Action} (hr : Station.Reacts now l a traffic l')
    (coherent : l.Coherent) (h : l.Retries) : l'.Retries := by
  cases hr with
  | startRefused | joinRefused | scanRefused | wait | ignored => exact h
  | start | stop | scan | fetch | fetchNext | associated | assigned => exact h
  | join | joinLater => exact nofun
  | retry => exact fun _ => rfl
  | nothingFound | fetchRefused | fetchNextRefused | allFetched => exact retries_completeScan h
  | rejected state =>
    intro (missing : l.network? = none)
    have recorded := coherent.recorded (.inl state)
    rw [missing] at recorded
    cases recorded
  | lost state => exact .lose (coherent.recorded (.inr state))

/-- A move ends in a request to scan only if it takes the link into the scan. -/
theorem Advance.scans (h : l.Advance now traffic l') (hscan : EndsInScan traffic) :
    l'.state = .scanning ∧ l'.Settled ∧ l'.found.items = [] := by
  cases h with
  | scan target => exact ⟨rfl, target.symm, rfl⟩
  | _ => simp [EndsInScan] at hscan

/-- There is room for every result of a scan. -/
theorem items_hold (ap : AccessPoint) (room : l.found.items.length < maxScanResults) :
    (l.hold ap).found.items = l.found.items ++ [ap] := by
  simp [hold, Queue.push?, room]

end Link

namespace Station
variable {σ : Type} [Chip σ] {s : Station σ} (now : Nat)

theorem retries_converge (h : s.link.Retries) : (s.converge now).link.Retries :=
  converge_induct now s (p := fun t : Station σ => t.link.Retries) h fun _ _ ⟨_, _, ha⟩ => .advance ha

theorem retries_perform (coherent : s.link.Coherent) (settled : s.link.Settled)
    (h : s.link.Retries) (a : Action) : (s.perform now a).2.link.Retries := by
  obtain ⟨_, l, bus, hr, -, heq⟩ := converges_perform now settled a
  rw [heq]
  exact retries_converge now (.reacts hr coherent h)

theorem retries_run (coherent : s.link.Coherent) (settled : s.link.Settled) (h : s.link.Retries)
    (history : List (Nat × Action)) : (s.run history).link.Retries := by
  induction history generalizing s with
  | nil => exact h
  | cons entry rest ih =>
    obtain ⟨hnext, hsettled⟩ := coherent_perform entry.1 coherent settled entry.2
    exact ih hnext hsettled (retries_perform entry.1 coherent settled h entry.2)

/-! ### The scan begins -/

omit [Chip σ] in
/-- The journal goes on with traffic that ends in a request to scan, and the radio took it. -/
def ScanBegins (s t : Station σ) : Prop :=
  ∃ traffic, t.bus.journal = s.bus.journal ++ traffic ∧ EndsInScan traffic

theorem Reacts.not_scans {l l' : Link} {a : Action} {traffic : List Entry}
    (h : Reacts now l a traffic l') : ¬ EndsInScan traffic := by
  cases h <;> simp [EndsInScan]

/-- An accepted request to scan is the last thing an action does. -/
theorem scanning_of_begins (settled : s.link.Settled) (a : Action)
    (h : s.ScanBegins (s.perform now a).2) :
    (s.perform now a).2.link.state = .scanning ∧ (s.perform now a).2.link.found.items = [] := by
  obtain ⟨first, l, bus, hr, hbus, heq⟩ := converges_perform now settled a
  obtain ⟨traffic, htraffic, hscan⟩ := h
  rw [heq] at htraffic ⊢
  obtain ⟨whole, hwhole, hscans⟩ := converge_induct_unsettled now ⟨l, bus⟩
    (p := fun t => ∃ whole, t.bus.journal = s.bus.journal ++ whole ∧ (EndsInScan whole →
      t.link.state = .scanning ∧ t.link.Settled ∧ t.link.found.items = []))
    ⟨first, hbus, fun h => absurd h hr.not_scans⟩ (by
      rintro t u unsettled ⟨last, hlast, ha⟩ ⟨before, hbefore, h⟩
      refine ⟨before ++ last, by rw [hlast, hbefore, List.append_assoc], fun hscan => ?_⟩
      cases last with
      | nil => exact absurd (h (by simpa using hscan)).2.1 unsettled
      | cons e rest => exact ha.scans (by simpa [EndsInScan] using hscan))
  obtain rfl : whole = traffic := List.append_cancel_left (hwhole.symm.trans htraffic)
  obtain ⟨state, -, found⟩ := hscans hscan
  exact ⟨state, found⟩

/-! ### Messages among other things -/

/-- What may happen while the results of a scan come in. -/
def Action.Aside : Action → Prop
  | .tick | .join .. | .radio (.association ..) | .radio (.addressAssigned _) => True
  | .start | .stop | .scan | .radio (.scanDone ..) | .radio (.scanResult _) => False

/-- A history that brings these messages in this order, among other things. -/
inductive Relays : List (Nat × Action) → List RadioMessage → Prop where
  | nil : Relays [] []
  | aside {time : Nat} {a : Action} {history : List (Nat × Action)} {messages : List RadioMessage}
      (aside : a.Aside) (h : Relays history messages) : Relays ((time, a) :: history) messages
  | message {time : Nat} {m : RadioMessage} {history : List (Nat × Action)}
      {messages : List RadioMessage} (h : Relays history messages) :
      Relays ((time, .radio m) :: history) (m :: messages)

/-- While a link scans, other things change at most the network it has recorded and its retry. -/
theorem perform_aside (settled : s.link.Settled) (scanning : s.link.state = .scanning) {a : Action}
    (aside : a.Aside) : ∃ network? retryAt?,
      (s.perform now a).2.link = { s.link with network?, retryAt? } ∧
        (s.perform now a).2.bus.journal = s.bus.journal := by
  obtain ⟨traffic, l, bus, hr, hbus, heq⟩ := converges_perform now settled a
  rw [heq]
  have stays (h : l = s.link) (silent : traffic = []) : ∃ network? retryAt?,
      (converge now ⟨l, bus⟩).link = { s.link with network?, retryAt? } ∧
        (converge now ⟨l, bus⟩).bus.journal = s.bus.journal := by
    subst h silent
    rw [converge_of_settled now ⟨s.link, bus⟩ settled]
    exact ⟨s.link.network?, s.link.retryAt?, rfl, hbus.trans (List.append_nil _)⟩
  have away {state : LinkState} (h : s.link.state = state) (hne : state ≠ .scanning) : False :=
    hne (h.symm.trans scanning)
  cases hr with
  | joinRefused | wait => exact stays rfl rfl
  | ignored => exact stays rfl rfl
  | @joinLater ssid key network valid busy =>
    rw [converge_of_settled now ⟨_, bus⟩ (by exact settled)]
    exact ⟨some network, none, rfl, hbus.trans (List.append_nil _)⟩
  | join _ idle => exact (away (s.link.idle_iff.mp idle).1 (by simp)).elim
  | retry due => exact (away (s.link.idle_iff.mp due.1).1 (by simp)).elim
  | associated state | rejected state | assigned state => exact (away state (by simp)).elim
  | lost state => exact (state.elim (away · (by simp)) (away · (by simp))).elim
  | start | startRefused | stop | scan | scanRefused | nothingFound | fetch | fetchRefused
  | fetchNext | fetchNextRefused | allFetched => cases aside

/-! ### The scan is over -/

/-- How a scan comes to its end, with what that enters in the journal: on to the recorded network
if it is listed, unless the radio will not associate, and back to readiness if it is not listed or
none is recorded. A recorded network is sought again when the backoff is over. -/
inductive Leaves (network? : Option Network) (listed : List AccessPoint) (due : Nat) :
    List Entry → Link → Prop where
  | joins {network : Network} {ap : AccessPoint} {l : Link} (recorded : network? = some network)
      (first : listed.find? (·.ssid == network.ssid) = some ap) (state : l.state = .connecting) :
      Leaves network? listed due
        [.command (.associate network.ssid ap.auth network.key) (.accepted ())] l
  | turnedAway {network : Network} {ap : AccessPoint} {refusal : Status} {lowered : Answer Unit}
      {l : Link} (recorded : network? = some network)
      (first : listed.find? (·.ssid == network.ssid) = some ap) (state : l.state = .stopped) :
      Leaves network? listed due
        [.command (.associate network.ssid ap.auth network.key) (.refused refusal),
          .command .deinit lowered] l
  | waits {network : Network} {l : Link} (recorded : network? = some network)
      (missing : ∀ ap ∈ listed, ap.ssid ≠ network.ssid) (state : l.state = .initializing)
      (retry : l.retryAt? = some due) : Leaves network? listed due [] l
  | rests {l : Link} (unrecorded : network? = none) (state : l.state = .initializing)
      (retry : l.retryAt? = none) : Leaves network? listed due [] l

/-- A link off any network goes down with one command. -/
theorem converge_down (up : s.link.state ≠ .stopped) (apart : ¬ s.link.Associated)
    (target : s.link.target = .stopped) : ∃ lowered,
      (s.converge now).bus.journal = s.bus.journal ++ [.command .deinit lowered] ∧
        (s.converge now).link.state = .stopped ∧ (s.converge now).link.found = s.link.found := by
  have unsettled : ¬ s.link.Settled := fun h => up (h.trans target)
  obtain ⟨traffic, hjournal, ha⟩ := advances_step now s
  rw [converge_of_step now unsettled (ha.settles (by simp [target]))]
  generalize s.step now = t at ha hjournal
  obtain ⟨l, bus⟩ := t
  cases ha with
  | @down lowered => exact ⟨lowered, hjournal, rfl, Link.found_dropAddress s.link⟩
  | leave _ away => exact absurd away apart
  | giveUp stuck => simp [Link.Stuck, target] at stuck
  | up target' | upRefused target' | back target' | scan target' | regionRefused target'
  | scanRefused target' | associate target' | associateRefused target' | seek target'
  | await target' | connect target' => simp [target] at target'

/-- A link that goes on from a scan to the network it has found gets there, or goes down. -/
theorem leaves_of_wanted {network : Network} {ap : AccessPoint} (due : Nat)
    (scanning : s.link.state = .scanning) (target : s.link.target = .connecting)
    (recorded : s.link.network? = some network) (wanted : s.link.wanted? = some ap) :
    (s.converge now).link.found = s.link.found ∧ ∃ traffic,
      (s.converge now).bus.journal = s.bus.journal ++ traffic ∧
        Leaves s.link.network? s.link.found.items due traffic (s.converge now).link := by
  have first : s.link.found.items.find? (·.ssid == network.ssid) = some ap := by
    simpa [Link.wanted?, recorded] using wanted
  have unsettled : ¬ s.link.Settled := by simp [Link.Settled, scanning, target]
  rw [converge_of_unsettled now s unsettled]
  obtain ⟨traffic, hjournal, ha⟩ := advances_step now s
  generalize s.step now = t at ha hjournal
  obtain ⟨l, bus⟩ := t
  cases ha with
  | associate _ _ recorded' wanted' =>
    obtain rfl := Option.some.inj (recorded'.symm.trans recorded)
    obtain rfl := Option.some.inj (wanted'.symm.trans wanted)
    rw [converge_of_settled]
    · exact ⟨rfl, _, hjournal, .joins recorded first rfl⟩
    · exact target.symm
  | associateRefused _ _ recorded' wanted' =>
    obtain rfl := Option.some.inj (recorded'.symm.trans recorded)
    obtain rfl := Option.some.inj (wanted'.symm.trans wanted)
    obtain ⟨lowered, hdown, state, found⟩ := converge_down now (s := ⟨s.link.aim .stopped, bus⟩)
      (by simp [Link.aim, scanning]) (by simp [Link.Associated, Link.aim, scanning]) rfl
    have hboth := hdown.trans (congrArg (· ++ [.command .deinit lowered]) hjournal)
    exact ⟨found, _, hboth.trans (List.append_assoc ..), .turnedAway recorded first state⟩
  | seek _ _ missing => simp [missing] at wanted
  | giveUp stuck => simp [Link.Stuck, target, Link.Ready, scanning] at stuck
  | leave target' | down target' | up target' | upRefused target' | back target' | scan target'
  | regionRefused target' | scanRefused target' | await target' | connect target' =>
    simp [target] at target'

/-- A scan that is over takes the link on to its network or back to readiness. -/
theorem leaves_completeScan {l : Link} (bus : Bus σ) (scanning : l.state = .scanning)
    (retries : l.Retries) :
    (converge now ⟨completeScan now l, bus⟩).link.found = l.found ∧ ∃ traffic,
      (converge now ⟨completeScan now l, bus⟩).bus.journal = bus.journal ++ traffic ∧
        Leaves l.network? l.found.items (now + l.policy.backoff) traffic
          (converge now ⟨completeScan now l, bus⟩).link := by
  have hcomplete : completeScan now l = if l.wanted?.isSome then ({ l with expected := 0 }).aim .connecting
    else (({ l with expected := 0 }).aim .initializing).retryIfWanted now := rfl
  cases wanted : l.wanted? with
  | some ap =>
    obtain ⟨network, recorded, -⟩ := Option.bind_eq_some_iff.mp wanted
    rw [hcomplete, wanted]
    exact leaves_of_wanted now (s := ⟨({ l with expected := 0 }).aim .connecting, bus⟩) _ scanning
      rfl recorded wanted
  | none =>
    have up : l.state ≠ .stopped := by simp [scanning]
    have away : l.state ≠ .initializing := by simp [scanning]
    cases recorded : l.network? with
    | some network =>
      have hretry : completeScan now l =
          (({ l with expected := 0 }).aim .initializing).scheduleRetry now := by
        rw [hcomplete, wanted]
        exact if_pos (show l.network?.isSome by simp [recorded])
      rw [hretry, converge_back now (by exact up) (by exact away) rfl]
      refine ⟨Link.found_dropAddress _, [], (List.append_nil _).symm, ?_⟩
      refine .waits rfl ?_ rfl (Link.retryAt?_dropAddress _)
      simpa [Link.wanted?, recorded] using wanted
    | none =>
      have hstay : completeScan now l = ({ l with expected := 0 }).aim .initializing := by
        rw [hcomplete, wanted]
        exact if_neg (show ¬ l.network?.isSome by simp [recorded])
      rw [hstay, converge_back now (by exact up) (by exact away) rfl]
      refine ⟨Link.found_dropAddress _, [], (List.append_nil _).symm, ?_⟩
      exact .rests rfl rfl ((Link.retryAt?_dropAddress _).trans (retries recorded))

/-! ### One result at a time -/

/-- A scan is under way, and these networks came in. -/
structure Scans (listed : List AccessPoint) (journal : List Entry) (s : Station σ) : Prop where
  coherent : s.link.Coherent
  settled : s.link.Settled
  retries : s.link.Retries
  scanning : s.link.state = .scanning
  found : s.link.found.items = listed
  journal : s.bus.journal = journal

/-- Part way through a scan that announced `total` results: these came in since the journal was
`begun`, and the next one was asked for. -/
structure Fetching (total : Nat) (begun : List Entry) (listed : List AccessPoint)
    (s : Station σ) : Prop extends Scans listed (begun ++ requests (listed.length + 1)) s where
  fetched : s.link.fetched = listed.length
  expected : s.link.expected = total
  more : listed.length < total

/-- From one station to the other the scan ends with these networks listed: the radio refused to
give the next one, or there is none. -/
structure Concludes (due total : Nat) (begun : List Entry) (listed : List AccessPoint)
    (s t : Station σ) : Prop where
  found : t.link.found.items = listed
  ends : ∃ asked traffic,
    t.bus.journal = begun ++ requests listed.length ++ asked ++ traffic ∧
    (listed.length = total ∧ asked = [] ∨ listed.length < total ∧
      ∃ refusal, asked = [.command (.scanResult listed.length) (.refused refusal)]) ∧
    Leaves s.link.network? listed due traffic t.link

section Fetching
variable {total : Nat} {begun journal : List Entry} {listed : List AccessPoint}

theorem Scans.kept (h : s.Scans listed journal) (a : Action) :
    (s.perform now a).2.link.Coherent ∧ (s.perform now a).2.link.Settled ∧
      (s.perform now a).2.link.Retries := by
  obtain ⟨hcoherent, hsettled⟩ := coherent_perform now h.coherent h.settled a
  exact ⟨hcoherent, hsettled, retries_perform now h.coherent h.settled h.retries a⟩

theorem Scans.aside (h : s.Scans listed journal) {a : Action} (aside : a.Aside) :
    (s.perform now a).2.Scans listed journal := by
  obtain ⟨network?, retryAt?, hlink, hjournal⟩ := perform_aside now h.settled h.scanning aside
  obtain ⟨hcoherent, hsettled, hretries⟩ := h.kept now a
  refine ⟨hcoherent, hsettled, hretries, ?_, ?_, hjournal.trans h.journal⟩
  · rw [hlink]
    exact h.scanning
  · rw [hlink]
    exact h.found

theorem Fetching.aside (h : s.Fetching total begun listed) {a : Action} (aside : a.Aside) :
    (s.perform now a).2.Fetching total begun listed := by
  obtain ⟨network?, retryAt?, hlink, -⟩ := perform_aside now h.settled h.scanning aside
  refine ⟨h.toScans.aside now aside, ?_, ?_, h.more⟩
  · rw [hlink]
    exact h.fetched
  · rw [hlink]
    exact h.expected

/-- The scan ends where the link was about to complete it. -/
theorem concludes_completeScan {asked : List Entry} {l : Link} {bus : Bus σ}
    (scanning : l.state = .scanning) (retries : l.Retries) (found : l.found.items = listed)
    (network? : l.network? = s.link.network?)
    (journal : bus.journal = begun ++ requests listed.length ++ asked)
    (hasked : listed.length = total ∧ asked = [] ∨ listed.length < total ∧
      ∃ refusal, asked = [.command (.scanResult listed.length) (.refused refusal)]) :
    Concludes (now + l.policy.backoff) total begun listed s
      (converge now ⟨completeScan now l, bus⟩) := by
  obtain ⟨hfound, traffic, hjournal, hleaves⟩ := leaves_completeScan now bus scanning retries
  refine ⟨(congrArg Queue.items hfound).trans found, asked, traffic, ?_, hasked, ?_⟩
  · rw [hjournal, journal]
  · rwa [← network?, ← found]

/-- The radio is done: the link asks for the first result, or is refused even that. -/
theorem Scans.done (h : s.Scans [] begun) {status : Status} {found : Nat}
    (success : status.isSuccess) (positive : found ≠ 0) :
    let t := (s.perform now (.radio (.scanDone status found))).2
    t.Fetching (min found maxScanResults) begun [] ∨
      Concludes (now + s.link.policy.backoff) (min found maxScanResults) begun [] s t := by
  intro t
  obtain ⟨hcoherent, hsettled, hretries⟩ := h.kept now (.radio (.scanDone status found))
  obtain ⟨traffic, l, bus, hr, hbus, heq⟩ :=
    converges_perform now h.settled (.radio (.scanDone status found))
  have hpositive : 0 < min found maxScanResults :=
    Nat.lt_min.mpr ⟨Nat.pos_of_ne_zero positive, by decide⟩
  rw [h.journal] at hbus
  cases hr with
  | nothingFound _ none => simp [success, positive] at none
  | fetch state =>
    have ht : t = ⟨{ s.link with expected := min found maxScanResults, fetched := 0 }, bus⟩ :=
      heq.trans (converge_of_settled now ⟨_, bus⟩ (by exact h.settled))
    refine .inl ⟨⟨hcoherent, hsettled, hretries, ?_, ?_, ?_⟩, ?_, ?_, hpositive⟩
    · rw [ht]
      exact state
    · rw [ht]
      exact h.found
    · rw [ht]
      exact hbus
    · rw [ht]
      rfl
    · rw [ht]
  | @fetchRefused _ _ refusal state =>
    have hjournal : bus.journal = begun ++ requests 0 ++ [.command (.scanResult 0) (.refused refusal)] :=
      hbus.trans (congrArg (· ++ _) (List.append_nil begun).symm)
    rw [show t = _ from heq]
    exact .inr (concludes_completeScan now
      (l := { s.link with expected := min found maxScanResults, fetched := 0 })
      state h.retries h.found rfl hjournal (.inr ⟨hpositive, refusal, rfl⟩))
  | ignored deaf => exact absurd h.scanning deaf

/-- A result comes in: the link asks for the next one, is refused it, or has them all. -/
theorem Fetching.answer (h : s.Fetching total begun listed) (within : total ≤ maxScanResults)
    (ap : AccessPoint) :
    let t := (s.perform now (.radio (.scanResult ap))).2
    t.Fetching total begun (listed ++ [ap]) ∨
      Concludes (now + s.link.policy.backoff) total begun (listed ++ [ap]) s t := by
  intro t
  obtain ⟨hcoherent, hsettled, hretries⟩ := h.toScans.kept now (.radio (.scanResult ap))
  obtain ⟨traffic, l, bus, hr, hbus, heq⟩ :=
    converges_perform now h.settled (.radio (.scanResult ap))
  have hlength : (listed ++ [ap]).length = listed.length + 1 := List.length_append
  have hheld : (s.link.hold ap).found.items = listed ++ [ap] := by
    rw [Link.items_hold, h.found]
    rw [h.found]
    exact Nat.lt_of_lt_of_le h.more within
  have hnext {answer : Answer Unit} (more : s.link.fetched + 1 < s.link.expected)
      (hbus : bus.journal = s.bus.journal ++ [.command (.scanResult (s.link.fetched + 1)) answer]) :
      (listed ++ [ap]).length < total ∧ bus.journal = begun ++ requests (listed ++ [ap]).length ++
        [.command (.scanResult (listed ++ [ap]).length) answer] := by
    rw [h.journal, h.fetched, ← hlength] at hbus
    rw [h.fetched, h.expected, ← hlength] at more
    exact ⟨more, hbus⟩
  cases hr with
  | fetchNext state more =>
    obtain ⟨hless, hjournal⟩ := hnext more hbus
    have ht : t = ⟨s.link.hold ap, bus⟩ :=
      heq.trans (converge_of_settled now ⟨s.link.hold ap, bus⟩ h.settled)
    refine .inl ⟨⟨hcoherent, hsettled, hretries, ?_, ?_, ?_⟩, ?_, ?_, hless⟩
    · rw [ht]
      exact state
    · rw [ht]
      exact hheld
    · rw [ht, requests_succ, ← List.append_assoc]
      exact hjournal
    · rw [ht, hlength, ← h.fetched]
      rfl
    · rw [ht]
      exact h.expected
  | fetchNextRefused state more =>
    obtain ⟨hless, hjournal⟩ := hnext more hbus
    rw [show t = _ from heq]
    exact .inr (concludes_completeScan now (l := s.link.hold ap) state h.retries hheld rfl hjournal
      (.inr ⟨hless, _, rfl⟩))
  | allFetched state last =>
    have hall : (listed ++ [ap]).length = total := by
      have hmore := h.more
      rw [h.fetched, h.expected] at last
      omega
    rw [show t = _ from heq]
    refine .inr (concludes_completeScan now (l := s.link.hold ap) state h.retries hheld rfl ?_
      (.inl ⟨hall, rfl⟩))
    rw [hbus, h.journal, hlength]
  | ignored deaf => exact absurd h.scanning deaf

end Fetching

/-! ### The whole list -/

/-- Along a history that brings these messages among other things, `p` tells how many of them have
come, up to one of them, which leads from one station to the other as `q` says. -/
def Unfolds (s : Station σ) (history : List (Nat × Action)) (messages : List RadioMessage)
    (p : Nat → Station σ → Prop) (q : Nat → Nat → Station σ → Station σ → Prop) : Prop :=
  ∃ before now m after k, history = before ++ (now, .radio m) :: after ∧ messages[k]? = some m ∧
    Relays before (messages.take k) ∧
    (∀ past, past <+: before → ∃ i ≤ k, Relays past (messages.take i) ∧ p i (s.run past)) ∧
    q now k (s.run before) (s.run (before ++ [(now, .radio m)]))

/-- What other things keep, and each message takes one further or ends, unfolds. -/
theorem unfolds_of_stages {history : List (Nat × Action)} {messages : List RadioMessage}
    (hr : Relays history messages) {p : Nat → Station σ → Prop}
    {q : Nat → Nat → Station σ → Station σ → Prop}
    (aside : ∀ i s now a, p i s → a.Aside → p i (s.perform now a).2)
    (message : ∀ i s now m, p i s → messages[i]? = some m →
      p (i + 1) (s.perform now (.radio m)).2 ∨ q now i s (s.perform now (.radio m)).2)
    (last : ∀ s, ¬ p messages.length s) (h : p 0 s) : s.Unfolds history messages p q := by
  induction hr generalizing s p q with
  | nil => exact absurd h (last s)
  | @aside time a _ _ haside _ ih =>
    obtain ⟨before, now, m, after, k, rfl, hm, hbefore, hpast, hq⟩ :=
      ih aside message last (aside 0 s time a h haside)
    refine ⟨(time, a) :: before, now, m, after, k, rfl, hm, .aside haside hbefore, ?_, hq⟩
    intro past hprefix
    rcases List.prefix_cons_iff.mp hprefix with rfl | ⟨past, rfl, hshort⟩
    · exact ⟨0, Nat.zero_le k, .nil, h⟩
    · obtain ⟨i, hi, hrelays, hp⟩ := hpast past hshort
      exact ⟨i, hi, .aside haside hrelays, hp⟩
  | @message time m later _ _ ih =>
    rcases message 0 s time m h rfl with hnext | hq
    · obtain ⟨before, now, m', after, k, rfl, hm, hbefore, hpast, hq⟩ :=
        ih (p := fun i => p (i + 1)) (q := fun now i => q now (i + 1))
          (fun i => aside (i + 1)) (fun i => message (i + 1)) last hnext
      refine ⟨(time, .radio m) :: before, now, m', after, k + 1, rfl, hm, .message hbefore, ?_, hq⟩
      intro past hprefix
      rcases List.prefix_cons_iff.mp hprefix with rfl | ⟨past, rfl, hshort⟩
      · exact ⟨0, Nat.zero_le _, .nil, h⟩
      · obtain ⟨i, hi, hrelays, hp⟩ := hpast past hshort
        exact ⟨i + 1, Nat.succ_le_succ hi, .message hrelays, hp⟩
    · refine ⟨[], time, m, later, 0, rfl, rfl, .nil, ?_, hq⟩
      intro past hprefix
      obtain rfl := List.prefix_nil.mp hprefix
      exact ⟨0, Nat.le_refl 0, .nil, h⟩

/-- How far a scan has come: by how many messages, of which the first says that the radio is done
and every other one is a result. -/
def Stage (total : Nat) (begun : List Entry) (aps : List AccessPoint) : Nat → Station σ → Prop
  | 0, s => s.Scans [] begun
  | i + 1, s => s.Fetching total begun (aps.take i)

omit [Chip σ] in
theorem Stage.scans {total i : Nat} {begun : List Entry} {aps : List AccessPoint}
    (h : Stage total begun aps i s) (within : total = aps.length) :
    s.Scans (aps.take (i - 1)) (begun ++ requests i) := by
  cases i with
  | zero =>
    have h : s.Scans [] begun := h
    simpa [requests] using h
  | succ i =>
    have hless := h.more
    have hlength : (aps.take i).length = i := by
      rw [List.length_take] at hless ⊢
      omega
    have hscans := h.toScans
    rwa [hlength] at hscans

/-- From a scan that nothing has come in from, the whole way to its end. -/
theorem unfolds_scan {begun : List Entry} (h : s.Scans [] begun) {status : Status} {found : Nat}
    (success : status.isSuccess) (positive : found ≠ 0) {aps : List AccessPoint}
    (length : aps.length = min found maxScanResults) {history : List (Nat × Action)}
    (hr : Relays history (.scanDone status found :: aps.map .scanResult)) :
    s.Unfolds history (.scanDone status found :: aps.map .scanResult)
      (Stage aps.length begun aps) fun now k u t =>
        Concludes (now + u.link.policy.backoff) aps.length begun (aps.take k) u t := by
  have within : aps.length ≤ maxScanResults := by
    rw [length]
    exact Nat.min_le_right ..
  refine unfolds_of_stages hr ?_ ?_ ?_ h
  · intro i u now a hstage haside
    cases i with
    | zero => exact Scans.aside now hstage haside
    | succ i => exact Fetching.aside now hstage haside
  · intro i u now m hstage hm
    cases i with
    | zero =>
      obtain rfl := Option.some.inj hm
      rw [length]
      exact Scans.done now hstage success positive
    | succ i =>
      obtain ⟨ap, hap, rfl⟩ : ∃ ap, aps[i]? = some ap ∧ .scanResult ap = m := by simpa using hm
      have hnext : aps.take (i + 1) = aps.take i ++ [ap] := by simp [List.take_add_one, hap]
      rw [hnext]
      have hanswer := Fetching.answer now hstage within ap
      rwa [← hnext] at hanswer ⊢
  · intro u hstage
    simp only [List.length_cons, List.length_map] at hstage
    have hless := hstage.more
    simp at hless

/-- A new link, over any radio and after any history, has just had a request to scan accepted.
Then, with ticks, joins and news of the association or an address at any time in between, the radio
is done, with at least one network found, and gives the results, of which at most as many count as
are kept. As long as the link was refused nothing and does not have them all, it is scanning, holds
the networks that came in and has asked for the first results once each and in order, up to the
next one it waits for. The scan ends with the message `k` upon which the radio refuses the `k`-th
result, or with the last result. Then the link holds the results that came in and goes on to the
network recorded at that moment if it is one of them, and down if the radio will not associate; else
it is ready again and will seek the network when the backoff is over, if one is recorded. -/
theorem results_fetched_one_by_one (policy : LinkPolicy) (bus : Bus σ)
    (history : List (Nat × Action)) (entry : Nat × Action)
    (begins : (run ⟨.new policy, bus⟩ history).ScanBegins
      (run ⟨.new policy, bus⟩ (history ++ [entry])))
    {status : Status} {found : Nat} (success : status.isSuccess) (found_pos : 1 ≤ found)
    {aps : List AccessPoint} (length : aps.length = min found maxScanResults)
    {later : List (Nat × Action)}
    (relays : Relays later (.scanDone status found :: aps.map .scanResult)) :
    let s := run ⟨.new policy, bus⟩ (history ++ [entry])
    let messages : List RadioMessage := .scanDone status found :: aps.map .scanResult
    ∃ before now m after k, later = before ++ (now, .radio m) :: after ∧ messages[k]? = some m ∧
      Relays before (messages.take k) ∧
      (∀ past, past <+: before → ∃ i ≤ k, Relays past (messages.take i) ∧
        (s.run past).link.state = .scanning ∧ (s.run past).link.found.items = aps.take (i - 1) ∧
        (s.run past).bus.journal = s.bus.journal ++ requests i) ∧
      Concludes (now + policy.backoff) aps.length s.bus.journal (aps.take k) (s.run before)
        (s.run (before ++ [(now, .radio m)])) := by
  intro s messages
  let start : Station σ := ⟨.new policy, bus⟩
  have coherent : start.link.Coherent := .new policy
  have settled : start.link.Settled := rfl
  obtain ⟨hcoherent, hsettled⟩ := coherent_run (history ++ [entry]) coherent settled
  have hretries := retries_run coherent settled (.new policy) (history ++ [entry])
  have hscans : s.Scans [] s.bus.journal := by
    obtain ⟨scanning, hfound⟩ : s.link.state = .scanning ∧ s.link.found.items = [] := by
      rw [run_snoc] at begins
      have hscan := scanning_of_begins entry.1 (coherent_run history coherent settled).2 entry.2 begins
      rwa [← run_snoc] at hscan
    exact ⟨hcoherent, hsettled, hretries, scanning, hfound, rfl⟩
  obtain ⟨before, now, m, after, k, hlater, hm, hbefore, hpast, hends⟩ :=
    unfolds_scan hscans success (Nat.ne_of_gt found_pos) length relays
  refine ⟨before, now, m, after, k, hlater, hm, hbefore, fun past hprefix => ?_, ?_⟩
  · obtain ⟨i, hi, hrelays, hstage⟩ := hpast past hprefix
    have h := hstage.scans rfl
    exact ⟨i, hi, hrelays, h.scanning, h.found, h.journal⟩
  · have hpolicy : (s.run before).link.policy = policy := by
      rw [policy_run hcoherent hsettled, policy_run coherent settled]
      rfl
    rwa [hpolicy] at hends

/-- Two networks are found. While they come in, the application joins the second. -/
def twoFound : List (Nat × Action) :=
  [(5, .tick), (10, .radio (.scanDone .success 2)),
    (12, .radio (.scanResult ⟨"guest", [], -40, .openNetwork, 1⟩)), (13, .join "net" "secret"),
    (14, .radio (.association false 1)), (20, .radio (.scanResult ⟨"net", [], -60, .wpaPsk, 6⟩)),
    (21, .tick)]

/-- The link asks for both, and goes on to the second. -/
theorem results_fetched_pair :
    let start : Station ScriptedChip := ⟨.new ⟨.northAmerica, 3000, true⟩, ⟨ScriptedChip.new, []⟩⟩
    let aps : List AccessPoint :=
      [⟨"guest", [], -40, .openNetwork, 1⟩, ⟨"net", [], -60, .wpaPsk, 6⟩]
    let s := start.run [(0, .start), (0, .scan)]
    (start.run [(0, .start)]).ScanBegins s ∧
      Relays twoFound (.scanDone .success 2 :: aps.map .scanResult) ∧
      (s.run twoFound).link.state = .connecting ∧ (s.run twoFound).link.found.items = aps ∧
      ∃ before now m after k, twoFound = before ++ (now, .radio m) :: after ∧
        Concludes (now + 3000) 2 s.bus.journal (aps.take k) (s.run before)
          (s.run (before ++ [(now, .radio m)])) := by
  intro start aps s
  have hbegins : (start.run [(0, .start)]).ScanBegins s :=
    ⟨[.command (.scanRegion .northAmerica) (.accepted ()), .command .scan (.accepted ())], rfl, rfl⟩
  have hrelays : Relays twoFound (.scanDone .success 2 :: aps.map .scanResult) :=
    .aside trivial (.message (.message (.aside trivial (.aside trivial (.message
      (.aside trivial .nil))))))
  have hends := results_fetched_one_by_one _ _ [(0, .start)] (0, .scan) hbegins
    (by rfl) (by decide) (by rfl) hrelays
  obtain ⟨before, now, m, after, k, hlater, -, -, -, hends⟩ := hends
  refine ⟨hbegins, hrelays, ?_, ?_, before, now, m, after, k, hlater, hends⟩
  · decide +kernel
  · decide +kernel

end Station

end WifiAdapter
