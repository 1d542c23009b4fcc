import WifiAdapter.Proofs.Fetching
import WifiAdapter.Proofs.Journal

/-! Results that come late.

A scan that was cut short may leave results behind, which come in when the next scan is under way.
The link does not tell them from results of this scan, and goes by the number that the earlier scan
announced until the radio announces another (`Station.Proceeds`). Each result has one more asked for
or ends the scan. So as long as a scan is unannounced and under way, as many results are asked for
as are held, and from the announcement on there is one more asked for (`Station.Tally`).

`late_results`: over any radio and after any history, more networks are held than results were asked
for, by one, just if a result came that nobody had announced and ended the scan. -/
namespace WifiAdapter

namespace Entry

/-- A request to scan that the radio took. -/
def startsScan : Entry → Bool
  | .command .scan (.accepted _) => true
  | _ => false

/-- A request for a result of a scan, whether the radio took it or not. -/
def asksResult : Entry → Bool
  | .command (.scanResult _) _ => true
  | _ => false

end Entry

namespace Link

@[simp] theorem expected_dropAddress (l : Link) : l.dropAddress.expected = l.expected := by
  unfold dropAddress; split <;> rfl

@[simp] theorem fetched_dropAddress (l : Link) : l.dropAddress.fetched = l.fetched := by
  unfold dropAddress; split <;> rfl

/-- A result is held if there is room for it. -/
theorem length_hold_le (l : Link) (ap : AccessPoint) :
    (l.hold ap).found.length ≤ l.found.length + 1 := by
  unfold hold Queue.length
  cases hpush : l.found.push? ap with
  | none => simp
  | some found => simp [Queue.items_push? hpush]

theorem length_hold {l : Link} (ap : AccessPoint) (room : l.found.length < maxScanResults) :
    (l.hold ap).found.length = l.found.length + 1 := by
  unfold Queue.length at room ⊢
  simp [items_hold ap room]

/-- A retry makes no difference to a scan. -/
theorem retryIfWanted_keeps (l : Link) (now : Nat) :
    (l.retryIfWanted now).found = l.found ∧ (l.retryIfWanted now).expected = l.expected ∧
      (l.retryIfWanted now).fetched = l.fetched ∧ (l.retryIfWanted now).state = l.state := by
  unfold retryIfWanted
  split <;> exact ⟨rfl, rfl, rfl, rfl⟩

end Link

namespace Station
variable {σ : Type}

/-- How many scans the radio took on. -/
def scansTaken (s : Station σ) : Nat := s.bus.journal.countP (·.startsScan)

/-- How many results were asked for since the radio took on a scan last. -/
def asked (s : Station σ) : Nat :=
  (Entry.since (·.startsScan) s.bus.journal).countP (·.asksResult)

/-! ### What a link does to a scan -/

/-- No scan begins and no result is asked for or taken in. -/
structure Still (s t : Station σ) : Prop where
  found : t.link.found = s.link.found
  expected : t.link.expected = s.link.expected
  fetched : t.link.fetched = s.link.fetched
  journal : ∃ traffic, t.bus.journal = s.bus.journal ++ traffic ∧
    ∀ e ∈ traffic, e.startsScan = false ∧ e.asksResult = false

/-- The radio takes on a scan. What an earlier scan announced stays. -/
structure Begins (s t : Station σ) : Prop where
  scanning : t.link.state = .scanning
  found : t.link.found.items = []
  expected : t.link.expected = s.link.expected
  asked : t.asked = 0
  scansTaken : t.scansTaken = s.scansTaken + 1

section Still
variable {s t u : Station σ}

theorem Still.refl (s : Station σ) : s.Still s := ⟨rfl, rfl, rfl, [], by simp, by simp⟩

theorem Still.trans (h : s.Still t) (h' : t.Still u) : s.Still u :=
  ⟨h'.found.trans h.found, h'.expected.trans h.expected, h'.fetched.trans h.fetched,
    Entry.appended_trans h.journal h'.journal⟩

/-- Entries that begin no scan only add to the results that were asked for. -/
theorem asked_append {traffic : List Entry} (hjournal : t.bus.journal = s.bus.journal ++ traffic)
    (hscans : ∀ e ∈ traffic, e.startsScan = false) :
    t.asked = s.asked + traffic.countP (·.asksResult) ∧ t.scansTaken = s.scansTaken := by
  unfold asked scansTaken
  rw [hjournal, Entry.since_append hscans, List.countP_append, List.countP_append]
  have hnone : traffic.countP (·.startsScan) = 0 := by
    rw [List.countP_eq_zero]
    exact fun e he => Bool.eq_false_iff.mp (hscans e he)
  exact ⟨rfl, by omega⟩

theorem Still.counts (h : s.Still t) : t.asked = s.asked ∧ t.scansTaken = s.scansTaken := by
  obtain ⟨traffic, hjournal, htraffic⟩ := h.journal
  obtain ⟨hasked, hscans⟩ := asked_append hjournal fun e he => (htraffic e he).1
  have hnone : traffic.countP (·.asksResult) = 0 := by
    rw [List.countP_eq_zero]
    exact fun e he => Bool.eq_false_iff.mp (htraffic e he).2
  exact ⟨by omega, hscans⟩

theorem Still.begins (h : s.Still t) (h' : t.Begins u) : s.Begins u :=
  ⟨h'.scanning, h'.found, h'.expected.trans h.expected, h'.asked,
    h'.scansTaken.trans (congrArg (· + 1) h.counts.2)⟩

end Still

/-- One move leaves the scan alone, or begins one and settles the link. -/
theorem Advances.scan {now : Nat} {s t : Station σ} (h : s.Advances now t) :
    s.Still t ∧ (t.link.state = .scanning → s.link.state = .scanning) ∨
      s.Begins t ∧ t.link.Settled := by
  obtain ⟨traffic, hjournal, ha⟩ := h
  obtain ⟨l, bus⟩ := t
  have hstill (found : l.found = s.link.found) (expected : l.expected = s.link.expected)
      (fetched : l.fetched = s.link.fetched)
      (htraffic : ∀ e ∈ traffic, e.startsScan = false ∧ e.asksResult = false) :
      s.Still ⟨l, bus⟩ := ⟨found, expected, fetched, traffic, hjournal, htraffic⟩
  cases ha with
  | leave | down =>
    refine .inl ⟨hstill (Link.found_dropAddress _) (Link.expected_dropAddress _)
      (Link.fetched_dropAddress _) ?_, nofun⟩
    simp [Entry.startsScan, Entry.asksResult]
  | up => exact .inl ⟨hstill rfl rfl rfl (by simp [Entry.startsScan, Entry.asksResult]), nofun⟩
  | upRefused _ state =>
    exact .inl ⟨hstill rfl rfl rfl (by simp [Entry.startsScan, Entry.asksResult]), id⟩
  | back =>
    exact .inl ⟨hstill (Link.found_dropAddress _) (Link.expected_dropAddress _)
      (Link.fetched_dropAddress _) (by simp), nofun⟩
  | scan target =>
    refine .inr ⟨⟨rfl, rfl, rfl, ?_, ?_⟩, target.symm⟩
    · unfold asked
      rw [hjournal, List.append_cons, Entry.since_concat]
      rfl
    · unfold scansTaken
      rw [hjournal, List.countP_append]
      rfl
  | regionRefused | scanRefused =>
    have hkept := Link.retryIfWanted_keeps (s.link.aim .initializing) now
    exact .inl ⟨hstill hkept.1 hkept.2.1 hkept.2.2.1 (by simp [Entry.startsScan, Entry.asksResult]),
      fun state => hkept.2.2.2.symm.trans state⟩
  | associate | await | connect =>
    exact .inl ⟨hstill rfl rfl rfl (by simp [Entry.startsScan, Entry.asksResult]), nofun⟩
  | associateRefused | seek | giveUp =>
    exact .inl ⟨hstill rfl rfl rfl (by simp [Entry.startsScan, Entry.asksResult]), id⟩

variable [Chip σ]

/-- Converging leaves the scan alone, or ends where the radio took one on. -/
theorem converge_scan (now : Nat) (s : Station σ) :
    s.Still (s.converge now) ∧
        ((s.converge now).link.state = .scanning → s.link.state = .scanning) ∨
      s.Begins (s.converge now) := by
  have h := converge_induct_unsettled now s
    (p := fun t => s.Still t ∧ (t.link.state = .scanning → s.link.state = .scanning) ∨
      s.Begins t ∧ t.link.Settled) (.inl ⟨.refl s, id⟩) (by
    rintro t u unsettled hadvances (⟨hstill, hstate⟩ | ⟨-, settled⟩)
    · rcases hadvances.scan with ⟨hstill', hstate'⟩ | ⟨hbegins, hsettled⟩
      · exact .inl ⟨hstill.trans hstill', fun h => hstate (hstate' h)⟩
      · exact .inr ⟨hstill.begins hbegins, hsettled⟩
    · exact absurd settled unsettled)
  exact h.imp_right And.left

theorem kept_completeScan (now : Nat) (l : Link) :
    (completeScan now l).found = l.found ∧ (completeScan now l).expected = 0 := by
  unfold completeScan
  dsimp only
  split
  · exact ⟨rfl, rfl⟩
  · have hkept := Link.retryIfWanted_keeps (({ l with expected := 0 }).aim .initializing) now
    exact ⟨hkept.1, hkept.2.1⟩

/-- A scan that is over keeps what was found, and asks for nothing more. -/
theorem over_completeScan (now : Nat) {s : Station σ} {l : Link} {bus : Bus σ}
    {traffic : List Entry} (hjournal : bus.journal = s.bus.journal ++ traffic)
    (hscans : ∀ e ∈ traffic, e.startsScan = false) (scanning : l.state = .scanning)
    (retries : l.Retries) :
    let t := converge now ⟨completeScan now l, bus⟩
    t.link.found = l.found ∧ t.link.expected = 0 ∧ t.scansTaken = s.scansTaken ∧
      t.asked = s.asked + traffic.countP (·.asksResult) ∧ t.link.state ≠ .scanning ∧
      s.bus.journal ++ traffic <+: t.bus.journal := by
  intro t
  have away : t.link.state ≠ .scanning := by
    obtain ⟨-, traffic, -, hleaves⟩ := leaves_completeScan now bus scanning retries
    cases hleaves <;> simp [t, *]
  rcases converge_scan now ⟨completeScan now l, bus⟩ with ⟨hstill, -⟩ | hbegins
  · obtain ⟨hfound, hexpected⟩ := kept_completeScan now l
    obtain ⟨hasked, hscans⟩ := asked_append (t := ⟨completeScan now l, bus⟩) hjournal hscans
    obtain ⟨rest, hrest, -⟩ := hstill.journal
    exact ⟨hstill.found.trans hfound, hstill.expected.trans hexpected,
      hstill.counts.2.trans hscans, hstill.counts.1.trans hasked, away, rest, hjournal ▸ hrest.symm⟩
  · exact absurd hbegins.scanning away

/-! ### What an action does to a scan -/

omit [Chip σ] in
/-- One more result is expected, and the radio agrees to give it. -/
def Granted (s t : Station σ) : Prop :=
  s.link.fetched + 1 < s.link.expected ∧
    t.bus.journal = s.bus.journal ++ [.command (.scanResult (s.link.fetched + 1)) (.accepted ())]

omit [Chip σ] in
/-- What an action does to a scan. -/
inductive Proceeds (s : Station σ) : Action → Station σ → Prop where
  | begins {a : Action} {t : Station σ} (away : s.link.state ≠ .scanning) (begins : s.Begins t) :
      Proceeds s a t
  | idles {a : Action} {t : Station σ} (still : s.Still t)
      (state : t.link.state = .scanning → s.link.state = .scanning)
      (unheard : s.link.state = .scanning → (∀ ap, a ≠ .radio (.scanResult ap)) ∧
        (∀ status found, a ≠ .radio (.scanDone status found)))
      (stopped : s.link.state = .scanning → t.link.state ≠ .scanning → a = .stop) : Proceeds s a t
  /-- The radio is done, and the link asks for the first result unless there is none. -/
  | announced {status : Status} {number : Nat} {t : Station σ} (scanning : s.link.state = .scanning)
      (found : t.link.found = s.link.found) (expected : t.link.expected ≤ maxScanResults)
      (scansTaken : t.scansTaken = s.scansTaken)
      (asked : t.asked = s.asked ∧ t.link.state ≠ .scanning ∨ t.asked = s.asked + 1) :
      Proceeds s (.radio (.scanDone status number)) t
  /-- A result comes in, and the link asks for one more, which it may be refused. -/
  | more {ap : AccessPoint} {t : Station σ} (scanning : s.link.state = .scanning)
      (found : t.link.found = (s.link.hold ap).found) (more : s.link.fetched + 1 < s.link.expected)
      (expected : t.link.expected ≤ s.link.expected) (scansTaken : t.scansTaken = s.scansTaken)
      (asked : t.asked = s.asked + 1)
      (count : t.link.state = .scanning →
        t.link.fetched = s.link.fetched + 1 ∧ t.link.expected = s.link.expected)
      (granted : t.link.state = .scanning ↔ s.Granted t) :
      Proceeds s (.radio (.scanResult ap)) t
  /-- A result comes in, and it was the last. -/
  | completes {ap : AccessPoint} {t : Station σ} (scanning : s.link.state = .scanning)
      (found : t.link.found = (s.link.hold ap).found) (last : s.link.expected ≤ s.link.fetched + 1)
      (expected : t.link.expected ≤ s.link.expected) (scansTaken : t.scansTaken = s.scansTaken)
      (asked : t.asked = s.asked) (away : t.link.state ≠ .scanning) :
      Proceeds s (.radio (.scanResult ap)) t

variable {s : Station σ} (now : Nat)

/-- Outside a scan an action makes no difference to what was found, unless it begins one. -/
theorem proceeds_of_away (settled : s.link.Settled) (away : s.link.state ≠ .scanning) (a : Action) :
    s.Proceeds a (s.perform now a).2 := by
  obtain ⟨traffic, l, bus, hr, hbus, heq⟩ := converges_perform now settled a
  have hstill : s.Still ⟨l, bus⟩ ∧ l.state = s.link.state := by
    cases hr with
    | nothingFound state | fetch state | fetchRefused state | fetchNext state
    | fetchNextRefused state | allFetched state => exact absurd state away
    | lost =>
      unfold Link.lose
      dsimp only
      split <;> exact ⟨⟨rfl, rfl, rfl, [], hbus, by simp⟩, rfl⟩
    | start | startRefused | stop | join | joinLater | joinRefused | scan | scanRefused | retry
    | wait
    | associated | rejected | assigned | ignored => exact ⟨⟨rfl, rfl, rfl, [], hbus, by simp⟩, rfl⟩
  rw [heq]
  rcases converge_scan now ⟨l, bus⟩ with ⟨hstill', hstate⟩ | hbegins
  · exact .idles (hstill.1.trans hstill') (fun h => hstill.2.symm.trans (hstate h))
      (fun h => absurd h away) fun h => absurd h away
  · exact .begins away (hstill.1.begins hbegins)

/-- While a scan is under way, what is no news of it makes no difference, except that a stop cuts
it short. -/
theorem proceeds_of_aside (settled : s.link.Settled) (scanning : s.link.state = .scanning)
    {a : Action} (aside : a.Aside) : s.Proceeds a (s.perform now a).2 := by
  obtain ⟨network?, retryAt?, hlink, hjournal⟩ := perform_aside now settled scanning aside
  refine .idles ⟨?_, ?_, ?_, [], by rw [hjournal, List.append_nil], by simp⟩
    (fun _ => scanning) ?_ ?_
  · rw [hlink]
  · rw [hlink]
  · rw [hlink]
  · refine fun _ => ⟨?_, ?_⟩
    · rintro ap rfl
      exact aside
    · rintro status found rfl
      exact aside
  · intro _ away
    rw [hlink] at away
    exact absurd scanning away

theorem proceeds_stop (scanning : s.link.state = .scanning) :
    s.Proceeds .stop (s.perform now .stop).2 := by
  obtain ⟨lowered, -, state, -⟩ := converge_down now (s := s.onLink (·.aim .stopped))
    (by simp [onLink, Link.aim, scanning])
    (by simp [Link.Associated, onLink, Link.aim, scanning]) rfl
  have haim : s.Still (s.onLink (·.aim .stopped)) := ⟨rfl, rfl, rfl, [], by simp [onLink], by simp⟩
  rcases converge_scan now (s.onLink (·.aim .stopped)) with ⟨hstill, -⟩ | hbegins
  · exact .idles (haim.trans hstill) (fun _ => scanning) (fun _ => by simp) fun _ _ => rfl
  · have h := hbegins.scanning
    rw [state] at h
    cases h

section News
variable (settled : s.link.Settled) (retries : s.link.Retries) (scanning : s.link.state = .scanning)
include settled retries scanning

theorem proceeds_scanDone (status : Status) (number : Nat) :
    s.Proceeds (.radio (.scanDone status number))
      (s.perform now (.radio (.scanDone status number))).2 := by
  obtain ⟨traffic, l, bus, hr, hbus, heq⟩ :=
    converges_perform now settled (.radio (.scanDone status number))
  rw [heq]
  cases hr with
  | nothingFound =>
    obtain ⟨hfound, hexpected, hscans, hasked, away, -⟩ :=
      over_completeScan now hbus (by simp) scanning retries
    exact .announced scanning hfound (by simp [hexpected]) hscans (.inl ⟨hasked, away⟩)
  | fetch =>
    rw [converge_of_settled now ⟨_, bus⟩ (by exact settled)]
    obtain ⟨hasked, hscans⟩ := asked_append
      (t := ⟨{ s.link with expected := min number maxScanResults, fetched := 0 }, bus⟩) hbus
      (by simp [Entry.startsScan])
    exact .announced scanning rfl (Nat.min_le_right ..) hscans (.inr hasked)
  | fetchRefused =>
    obtain ⟨hfound, hexpected, hscans, hasked, -⟩ := over_completeScan
      (l := { s.link with expected := min number maxScanResults, fetched := 0 }) now hbus
      (by simp [Entry.startsScan]) scanning retries
    exact .announced scanning hfound (by simp [hexpected]) hscans (.inr hasked)
  | ignored deaf => exact absurd scanning deaf

theorem proceeds_scanResult (ap : AccessPoint) :
    s.Proceeds (.radio (.scanResult ap)) (s.perform now (.radio (.scanResult ap))).2 := by
  obtain ⟨traffic, l, bus, hr, hbus, heq⟩ :=
    converges_perform now settled (.radio (.scanResult ap))
  rw [heq]
  cases hr with
  | fetchNext _ more =>
    rw [converge_of_settled now ⟨s.link.hold ap, bus⟩ settled]
    obtain ⟨hasked, hscans⟩ := asked_append (t := ⟨s.link.hold ap, bus⟩) hbus
      (by simp [Entry.startsScan])
    exact .more scanning rfl more (Nat.le_refl _) hscans hasked (fun _ => ⟨rfl, rfl⟩)
      ⟨fun _ => ⟨more, hbus⟩, fun _ => scanning⟩
  | fetchNextRefused _ more =>
    obtain ⟨hfound, hexpected, hscans, hasked, away, rest, hrest⟩ := over_completeScan
      (l := s.link.hold ap) now hbus (by simp [Entry.startsScan]) scanning retries
    refine .more scanning hfound more (by simp [hexpected]) hscans hasked (fun h => absurd h away)
      ⟨fun h => absurd h away, fun ⟨_, hgranted⟩ => ?_⟩
    rw [hgranted, List.append_assoc] at hrest
    simpa using List.append_cancel_left hrest
  | allFetched _ last =>
    obtain ⟨hfound, hexpected, hscans, hasked, away, -⟩ :=
      over_completeScan (l := s.link.hold ap) now hbus (by simp) scanning retries
    exact .completes scanning hfound (Nat.le_of_not_lt last) (by simp [hexpected]) hscans hasked
      away
  | ignored deaf => exact absurd scanning deaf

theorem proceeds_of_scanning (a : Action) : s.Proceeds a (s.perform now a).2 := by
  cases a with
  | stop => exact proceeds_stop now scanning
  | start | scan =>
    have hsame : (s.start now).2 = s ∧ (s.scan now).2 = s := by simp [start, Station.scan, scanning]
    exact .idles (by simp [perform, hsame, Still.refl]) (fun _ => scanning)
      (fun _ => by simp) fun _ away => absurd scanning (by simpa [perform, hsame] using away)
  | join | tick => exact proceeds_of_aside now settled scanning trivial
  | radio m =>
    cases m with
    | scanDone status number => exact proceeds_scanDone now settled retries scanning status number
    | scanResult ap => exact proceeds_scanResult now settled retries scanning ap
    | association | addressAssigned => exact proceeds_of_aside now settled scanning trivial

end News

theorem proceeds_perform (settled : s.link.Settled) (retries : s.link.Retries) (a : Action) :
    s.Proceeds a (s.perform now a).2 := by
  by_cases scanning : s.link.state = .scanning
  · exact proceeds_of_scanning now settled retries scanning a
  · exact proceeds_of_away now settled scanning a

/-! ### During a scan -/

/-- During the scan that the radio took on last something happened, by the history before it. -/
def DuringScan (s : Station σ) (p : List (Nat × Action) → Action → Prop)
    (history : List (Nat × Action)) : Prop :=
  ∃ before now a after, history = before ++ (now, a) :: after ∧
    (s.run before).link.state = .scanning ∧
    (s.run before).scansTaken = (s.run history).scansTaken ∧ p before a

/-- The scan was announced to be done. -/
def Announced (s : Station σ) : List (Nat × Action) → Prop :=
  s.DuringScan fun _ a => ∃ status found, a = .radio (.scanDone status found)

/-- During the scan a result came in before any was announced, and no more was expected, going by
the scan that announced its results last. -/
def Unasked (s : Station σ) : List (Nat × Action) → Prop :=
  s.DuringScan fun before a => (∃ ap, a = .radio (.scanResult ap)) ∧ ¬ s.Announced before ∧
    (s.run before).link.expected ≤ (s.run before).link.fetched + 1

omit [Chip σ] in
theorem Proceeds.scansTaken_le {a : Action} {t : Station σ} (h : s.Proceeds a t) :
    s.scansTaken ≤ t.scansTaken := by
  cases h with
  | begins _ begins => exact begins.scansTaken ▸ Nat.le_succ _
  | idles still => exact Nat.le_of_eq still.counts.2.symm
  | announced _ _ _ scansTaken | more _ _ _ _ scansTaken | completes _ _ _ _ scansTaken =>
    exact Nat.le_of_eq scansTaken.symm

/-- A link that is at rest and retries only for a network. -/
structure AtRest (s : Station σ) : Prop where
  coherent : s.link.Coherent
  settled : s.link.Settled
  retries : s.link.Retries

section History
variable (rest : s.AtRest)
include rest

theorem proceeds_run (history : List (Nat × Action)) (entry : Nat × Action) :
    (s.run history).Proceeds entry.2 (s.run (history ++ [entry])) := by
  rw [run_snoc]
  exact proceeds_perform entry.1 (coherent_run history rest.coherent rest.settled).2
    (retries_run rest.coherent rest.settled rest.retries history) entry.2

theorem scansTaken_run (history more : List (Nat × Action)) :
    (s.run history).scansTaken ≤ (s.run (history ++ more)).scansTaken := by
  induction more using List.reverseRecOn with
  | nil => simp
  | append_singleton more entry ih =>
    rw [← List.append_assoc]
    exact Nat.le_trans ih (proceeds_run rest (history ++ more) entry).scansTaken_le

/-- Something happened during the latest scan if no scan began with the last action, and it
happened before or is what the last action does. -/
theorem duringScan_snoc {p : List (Nat × Action) → Action → Prop} {history : List (Nat × Action)}
    {entry : Nat × Action} : s.DuringScan p (history ++ [entry]) ↔
      (s.run (history ++ [entry])).scansTaken = (s.run history).scansTaken ∧
        (s.DuringScan p history ∨ (s.run history).link.state = .scanning ∧ p history entry.2) := by
  constructor
  · rintro ⟨before, now, a, after, heq, scanning, hscans, hp⟩
    rcases List.eq_nil_or_concat after with rfl | ⟨after, last, rfl⟩
    · obtain ⟨rfl, rfl⟩ := by simpa using heq
      exact ⟨hscans.symm, .inr ⟨scanning, hp⟩⟩
    · rw [List.concat_eq_append, ← List.cons_append, ← List.append_assoc] at heq
      obtain ⟨rfl, hlast⟩ := List.append_inj' heq rfl
      have hbefore := scansTaken_run rest before ((now, a) :: after)
      have hafter := scansTaken_run rest (before ++ (now, a) :: after) [entry]
      exact ⟨by omega, .inl ⟨before, now, a, after, rfl, scanning, by omega, hp⟩⟩
  · rintro ⟨hscans, ⟨before, now, a, after, rfl, scanning, hsame, hp⟩ | ⟨scanning, hp⟩⟩
    · exact ⟨before, now, a, after ++ [entry], by simp, scanning, hsame.trans hscans.symm, hp⟩
    · exact ⟨history, entry.1, entry.2, [], rfl, scanning, hscans.symm, hp⟩

end History

/-! ### Results asked for and results held -/

/-- How many results are held of those that were asked for, by whether the scan was announced to be
done, and whether a result came that ended it unasked. -/
structure Tally (announced unasked : Prop) (t : Station σ) : Prop where
  expected : t.link.expected ≤ maxScanResults
  /-- Before any result is announced, each that comes has one more asked for, as far as an earlier
  scan had announced more. -/
  before : t.link.state = .scanning → ¬ announced → t.asked = t.link.found.length ∧
    (t.link.found.length = 0 ∨
      t.link.found.length ≤ t.link.fetched ∧ t.link.fetched < t.link.expected)
  after : t.link.state = .scanning → announced → t.link.found.length < t.asked
  held : t.link.found.length ≤ t.asked + 1
  surplus : t.asked < t.link.found.length ↔ unasked

omit [Chip σ] in
theorem Tally.scanning {announced unasked : Prop} (h : Tally announced unasked s)
    (scanning : s.link.state = .scanning) : s.link.found.length ≤ s.asked := by
  by_cases ha : announced
  · exact Nat.le_of_lt (h.after scanning ha)
  · exact Nat.le_of_eq (h.before scanning ha).1.symm

omit [Chip σ] in
/-- A scan begins with nothing held and nothing asked for. -/
theorem Tally.of_begins {announced unasked : Prop} {t : Station σ} (begins : s.Begins t)
    (expected : s.link.expected ≤ maxScanResults) (hannounced : ¬ announced)
    (hunasked : ¬ unasked) : Tally announced unasked t := by
  have hfound : t.link.found.length = 0 := congrArg List.length begins.found
  exact ⟨begins.expected ▸ expected, fun _ _ => ⟨begins.asked.trans hfound.symm, .inl hfound⟩,
    fun _ ha => absurd ha hannounced, hfound ▸ Nat.zero_le _, by simp [hfound, hunasked]⟩

omit [Chip σ] in
/-- What leaves the scan alone keeps the tally. -/
theorem Tally.still {announced unasked announced' unasked' : Prop} {t : Station σ}
    (h : Tally announced unasked s) (still : s.Still t)
    (state : t.link.state = .scanning → s.link.state = .scanning)
    (hannounced : s.link.state = .scanning → (announced' ↔ announced))
    (hunasked : unasked' ↔ unasked) : Tally announced' unasked' t := by
  have hasked := still.counts.1
  refine ⟨?_, fun scanning ha => ?_, fun scanning ha => ?_, ?_, ?_⟩
  · rw [still.expected]
    exact h.expected
  · rw [hasked, still.found, still.fetched, still.expected]
    exact h.before (state scanning) fun hs => ha ((hannounced (state scanning)).mpr hs)
  · rw [hasked, still.found]
    exact h.after (state scanning) ((hannounced (state scanning)).mp ha)
  · rw [hasked, still.found]
    exact h.held
  · rw [hasked, still.found, hunasked]
    exact h.surplus

omit [Chip σ] in
/-- An action keeps the tally. -/
theorem Tally.proceeds {announced unasked announced' unasked' : Prop} {a : Action} {t : Station σ}
    (h : Tally announced unasked s) (hp : s.Proceeds a t)
    (hannounced : announced' ↔ t.scansTaken = s.scansTaken ∧
      (announced ∨ s.link.state = .scanning ∧ ∃ status found, a = .radio (.scanDone status found)))
    (hunasked : unasked' ↔ t.scansTaken = s.scansTaken ∧ (unasked ∨ s.link.state = .scanning ∧
      (∃ ap, a = .radio (.scanResult ap)) ∧ ¬ announced ∧
        s.link.expected ≤ s.link.fetched + 1)) :
    Tally announced' unasked' t := by
  have hexpected := h.expected
  cases hp with
  | begins _ begins =>
    have hnew : ¬ announced' ∧ ¬ unasked' := by simp [hannounced, hunasked, begins.scansTaken]
    exact .of_begins begins hexpected hnew.1 hnew.2
  | idles still state unheard =>
    obtain ⟨-, hscans⟩ := still.counts
    refine h.still still state (fun scanning => ?_) ?_
    · rw [hannounced]
      simp [hscans, (unheard scanning).2]
    · rw [hunasked]
      refine ⟨fun h => h.2.resolve_right ?_, fun h => ⟨hscans, .inl h⟩⟩
      rintro ⟨scanning, ⟨ap, rfl⟩, -⟩
      exact (unheard scanning).1 ap rfl
  | announced scanning found expected scansTaken asked =>
    have hheld := h.scanning scanning
    have hdone : announced' := hannounced.mpr ⟨scansTaken, .inr ⟨scanning, _, _, rfl⟩⟩
    have hnone : ¬ unasked' := by
      rw [hunasked, ← h.surplus]
      simp [Nat.not_lt.mpr hheld]
    rw [← found] at hheld
    refine ⟨expected, fun _ ha => absurd hdone ha, fun state _ => ?_, by omega, ?_⟩
    · have hasked := asked.resolve_left fun h => h.2 state
      omega
    · exact ⟨fun hless => by omega, fun hu => absurd hu hnone⟩
  | @more ap _ scanning found more expected scansTaken asked count =>
    have hheld := h.scanning scanning
    have hlength : t.link.found.length ≤ s.link.found.length + 1 :=
      found ▸ s.link.length_hold_le ap
    have hsame : announced' ↔ announced := by simp [hannounced, scansTaken]
    have hnone : ¬ unasked' := by
      rw [hunasked, ← h.surplus]
      rintro ⟨-, hless | ⟨-, -, -, hlast⟩⟩ <;> omega
    refine ⟨by omega, fun state ha => ?_, fun _ ha => ?_, by omega, ?_⟩
    · obtain ⟨hasked, hroom⟩ := h.before scanning fun hs => ha (hsame.mpr hs)
      obtain ⟨hfetched, hexpected'⟩ := count state
      have hnext : t.link.found.length = s.link.found.length + 1 :=
        found ▸ Link.length_hold ap (by omega)
      exact ⟨by omega, .inr ⟨by omega, by omega⟩⟩
    · have hless := h.after scanning (hsame.mp ha)
      omega
    · exact ⟨fun hless => by omega, fun hu => absurd hu hnone⟩
  | @completes ap _ scanning found last expected scansTaken asked away =>
    have hheld := h.scanning scanning
    have hlength : t.link.found.length ≤ s.link.found.length + 1 :=
      found ▸ s.link.length_hold_le ap
    have hlast : unasked' ↔ ¬ announced := by
      rw [hunasked, ← h.surplus]
      refine ⟨?_, fun ha => ⟨scansTaken, .inr ⟨scanning, ⟨_, rfl⟩, ha, last⟩⟩⟩
      rintro ⟨-, hless | ⟨-, -, ha, -⟩⟩
      · omega
      · exact ha
    refine ⟨by omega, fun state => absurd state away, fun state => absurd state away, by omega, ?_⟩
    rw [hlast]
    constructor
    · intro hless ha
      have hmore := h.after scanning ha
      omega
    · intro ha
      obtain ⟨hasked, hroom⟩ := h.before scanning ha
      have hnext : t.link.found.length = s.link.found.length + 1 :=
        found ▸ Link.length_hold ap (by unfold maxScanResults at *; omega)
      omega

/-- The action takes the link out of a scan that was not announced to be done, and is no stop. -/
structure EndsEarly (s : Station σ) (history : List (Nat × Action)) (entry : Nat × Action) :
    Prop where
  scanning : (s.run history).link.state = .scanning
  continued : entry.2 ≠ .stop
  ended : (s.run (history ++ [entry])).link.state ≠ .scanning
  unannounced : ¬ s.Announced (history ++ [entry])

section NewLink
variable (rest : s.AtRest)
include rest

/-- An action ends a scan early just if it is a result that nobody announced and the radio does not
grant one more. -/
theorem endsEarly_iff (history : List (Nat × Action)) (entry : Nat × Action) :
    s.EndsEarly history entry ↔
      (s.run history).link.state = .scanning ∧ ¬ s.Announced history ∧
        (∃ ap, entry.2 = .radio (.scanResult ap)) ∧
        ¬ (s.run history).Granted (s.run (history ++ [entry])) := by
  have hp := proceeds_run rest history entry
  have hannounced : s.Announced (history ++ [entry]) ↔ _ := duringScan_snoc rest
  obtain ⟨now, a⟩ := entry
  constructor
  · rintro ⟨scanning, continued, ended, unannounced⟩
    refine ⟨scanning, ?_⟩
    generalize s.run (history ++ [(now, a)]) = t at hp hannounced ended
    cases hp with
    | begins away => exact absurd scanning away
    | idles _ _ _ stopped => exact absurd (stopped scanning ended) continued
    | announced _ _ _ scansTaken =>
      exact absurd (hannounced.mpr ⟨scansTaken, .inr ⟨scanning, _, _, rfl⟩⟩) unannounced
    | more _ _ _ _ scansTaken _ _ granted =>
      exact ⟨fun ha => unannounced (hannounced.mpr ⟨scansTaken, .inl ha⟩), ⟨_, rfl⟩,
        fun h => ended (granted.mpr h)⟩
    | completes _ _ last _ scansTaken =>
      exact ⟨fun ha => unannounced (hannounced.mpr ⟨scansTaken, .inl ha⟩), ⟨_, rfl⟩,
        fun h => Nat.not_lt.mpr last h.1⟩
  · rintro ⟨scanning, unannounced, ⟨ap, rfl⟩, refused⟩
    refine ⟨scanning, nofun, ?_, fun ha => ?_⟩
    · generalize s.run (history ++ [(now, _)]) = t at hp refused
      cases hp with
      | begins away => exact absurd scanning away
      | idles _ _ unheard => exact absurd rfl ((unheard scanning).1 ap)
      | more _ _ _ _ _ _ _ granted => exact fun h => refused (granted.mp h)
      | completes _ _ _ _ _ _ away => exact away
    · obtain ⟨-, ha | ⟨-, status, found, h⟩⟩ := hannounced.mp ha
      · exact unannounced ha
      · cases h

theorem tally_run (new : s.link.found.length = 0) (expected : s.link.expected ≤ maxScanResults)
    (state : s.link.state ≠ .scanning) (history : List (Nat × Action)) :
    Tally (s.Announced history) (s.Unasked history) (s.run history) := by
  induction history using List.reverseRecOn with
  | nil =>
    have hnone (p) : ¬ s.DuringScan p [] := by simp [DuringScan]
    exact ⟨expected, fun scanning => absurd scanning state, fun scanning => absurd scanning state,
      by simp [run, new], by simp [run, new, Unasked, hnone]⟩
  | append_singleton history entry ih =>
    exact ih.proceeds (proceeds_run rest history entry) (duringScan_snoc rest)
      (duringScan_snoc rest)

end NewLink

/-- A new link, over any radio and after any history of actions. It holds at most one network more
than results were asked for since the radio took on a scan last, and one more just if a result came
in during that scan before the radio announced any, and no more was expected going by what an
earlier scan had announced. And an action other than a stop takes the link out of a scan that was
not announced to be done just if it is such a result, unless the radio is asked for one more and
grants it. -/
theorem late_results (policy : LinkPolicy) (bus : Bus σ) (history : List (Nat × Action)) :
    let s : Station σ := ⟨.new policy, bus⟩
    (s.run history).link.found.length ≤ (s.run history).asked + 1 ∧
      ((s.run history).asked < (s.run history).link.found.length ↔ s.Unasked history) ∧
      ∀ entry, s.EndsEarly history entry ↔
        (s.run history).link.state = .scanning ∧ ¬ s.Announced history ∧
          (∃ ap, entry.2 = .radio (.scanResult ap)) ∧
          ¬ (s.run history).Granted (s.run (history ++ [entry])) := by
  intro s
  have rest : s.AtRest := ⟨.new policy, rfl, .new policy⟩
  have htally := tally_run rest rfl (Nat.zero_le _) nofun history
  exact ⟨htally.held, htally.surplus, endsEarly_iff rest history⟩

/-- One result is announced, and the scan is stopped before it comes. -/
def lateHistory : List (Nat × Action) :=
  [(0, .start), (0, .scan), (0, .radio (.scanDone .success 1)), (0, .stop), (0, .start), (0, .scan)]

/-- It comes when the next scan is under way, which ends at once. The link then holds a network
though it has asked for no result. -/
theorem late_result_held :
    let start : Station ScriptedChip := ⟨.new ⟨.northAmerica, 3000, true⟩, ⟨ScriptedChip.new, []⟩⟩
    let late : Nat × Action := (0, .radio (.scanResult ⟨"net", [], -60, .wpaPsk, 6⟩))
    let t := start.run (lateHistory ++ [late])
    start.EndsEarly lateHistory late ∧ t.asked = 0 ∧ t.link.found.length = 1 := by
  intro start late t
  have rest : start.AtRest := ⟨.new _, rfl, .new _⟩
  refine ⟨⟨by decide +kernel, nofun, by decide +kernel, fun announced => ?_⟩, by decide +kernel,
    by decide +kernel⟩
  obtain ⟨-, announced | ⟨-, status, found, h⟩⟩ := (duringScan_snoc rest).mp announced
  · -- The second scan began with the last action.
    have announced : start.Announced (lateHistory.dropLast ++ [(0, .scan)]) := announced
    have hbegan := ((duringScan_snoc rest).mp announced).1
    exact absurd hbegan (by decide +kernel)
  · cases h

end Station

end WifiAdapter
