import WifiAdapter.Proofs.Retrying
import WifiAdapter.Proofs.Visits

/-! The pace at which a network is sought again.

A retry outlives manual scans and the way onto a network, and only some ways back to readiness
replace it or take it away. What holds is said of an idle link alone (`Paced`): if it has a retry,
the latest setback scheduled it, and nothing was attempted since. Whatever leaves the link idle
either changed nothing, or took the retry away, or set the link back (`Station.Comes`), so every
visit keeps this.

`attempts_keep_backoff`: a tick makes the attempt that is due, no sooner than the backoff after
every setback before it, and this uses up the retry that the latest of them scheduled. -/
namespace WifiAdapter

variable {σ : Type} [Chip σ]

namespace Visit
variable {v : Visit σ}

/-- A tick has an idle link seek its network. -/
def Attempts (v : Visit σ) : Prop :=
  v.action = .tick ∧ v.before.link.idle ∧ v.before.Sought v.after

/-- A scan fails or is refused, an association is rejected, or a network is lost. -/
def SetsBack (v : Visit σ) : Prop := v.before.Setback v.after v.action

/-- An attempt is made just if it is due. -/
theorem attempts_iff_due : v.Attempts ↔ v.action = .tick ∧ v.before.link.Due v.time := by
  constructor
  · rintro ⟨htick, idle, sought⟩
    refine ⟨htick, Classical.byContradiction fun early => ?_⟩
    have same : v.after = v.before :=
      Station.perform_of_idle v.time idle (by rw [htick]; trivial) fun _ => early
    rw [same] at sought
    exact sought.not_idles (Station.idles_refl idle)
  · rintro ⟨htick, due⟩
    have sought := Station.sought_of_due v.time due
    refine ⟨htick, due.1, ?_⟩
    unfold after
    rw [htick]
    exact sought

/-- A visit that leaves an idle link as it was is neither an attempt nor a setback. -/
theorem calm_of_same (idle : v.before.link.idle)
    (journal : v.after.bus.journal = v.before.bus.journal) : ¬ v.SetsBack ∧ ¬ v.Attempts := by
  have silent {traffic : List Entry}
      (h : v.after.bus.journal = v.before.bus.journal ++ traffic) : traffic = [] :=
    List.self_eq_append_right.mp (journal.symm.trans h)
  have ready := (v.before.link.idle_iff.mp idle).1
  constructor
  · intro setback
    unfold SetsBack at setback
    generalize v.action = a at setback
    cases setback with
    | scanEnded scanning | scanFailed scanning => cases scanning.symm.trans ready
    | scanRefused refused =>
      obtain ⟨traffic, c, status, htraffic, hmem, -⟩ := refused
      rw [silent htraffic] at hmem
      cases hmem
    | dropped associated =>
      rcases associated with state | state | state <;> cases state.symm.trans ready
  · rintro ⟨-, -, c, answer, rest, hjournal, -⟩
    cases silent hjournal

end Visit

/-! ### What the past says of a retry -/

/-- The latest setback scheduled a retry for that time, and no attempt was made since. -/
def Scheduled (backoff : Nat) (past : List (Visit σ)) (due : Nat) : Prop :=
  ∃ early f late, past = early ++ f :: late ∧ f.SetsBack ∧ f.after.link.retryAt? = some due ∧
    due = f.time + backoff ∧ ∀ g ∈ late, ¬ g.SetsBack ∧ ¬ g.Attempts

/-- A link at rest. If it is idle, with a network recorded and a retry, the past has scheduled
this retry. -/
structure Paced (policy : LinkPolicy) (past : List (Visit σ)) (l : Link) : Prop where
  coherent : l.Coherent
  settled : l.Settled
  kept : l.policy = policy
  scheduled : l.idle → l.network?.isSome → ∀ due ∈ l.retryAt?, Scheduled policy.backoff past due

section Past
variable {backoff due : Nat} {past : List (Visit σ)} {v : Visit σ} {policy : LinkPolicy} {l : Link}

theorem Scheduled.snoc (h : Scheduled backoff past due) (calm : ¬ v.SetsBack ∧ ¬ v.Attempts) :
    Scheduled backoff (past ++ [v]) due := by
  obtain ⟨early, f, late, rfl, hback, hretry, hdue, hlate⟩ := h
  refine ⟨early, f, late ++ [v], by simp, hback, hretry, hdue, fun g hg => ?_⟩
  rcases List.mem_append.mp hg with hg | hg
  · exact hlate g hg
  · rw [List.mem_singleton.mp hg]
    exact calm

/-- No setback was later than the one that scheduled the retry. -/
theorem Scheduled.backoff_le (h : Scheduled backoff past due)
    (htimes : past.Pairwise fun v w => v.time ≤ w.time) {g : Visit σ} (hg : g ∈ past)
    (hback : g.SetsBack) : g.time + backoff ≤ due := by
  obtain ⟨early, f, late, rfl, -, -, rfl, hlate⟩ := h
  refine Nat.add_le_add_right ?_ backoff
  rcases List.mem_append.mp hg with hg | hg
  · exact (List.pairwise_append.mp htimes).2.2 g hg f List.mem_cons_self
  · rcases List.mem_cons.mp hg with rfl | hg
    · exact Nat.le_refl _
    · exact absurd hback (hlate g hg).1

/-- Every visit keeps the pace. -/
theorem Paced.snoc (h : Paced policy past v.before.link) (reconnect : policy.reconnect = true) :
    Paced policy (past ++ [v]) v.after.link.flushed := by
  obtain ⟨hcoherent, hsettled⟩ :=
    Station.coherent_perform v.time h.coherent h.settled v.action
  have hpolicy := Station.policy_perform v.time h.settled v.action
  refine ⟨hcoherent.flushed, hsettled.flushed, hpolicy.trans h.kept, ?_⟩
  intro (idle : v.after.link.idle) (recorded : v.after.link.network?.isSome) due
    (standing : v.after.link.retryAt? = some due)
  cases Station.comes_perform v.time h.coherent h.settled (by rw [h.kept, reconnect]) v.action
    idle with
  | stays link journal =>
    have link : v.after.link = v.before.link := link
    rw [link] at idle recorded standing
    exact (h.scheduled idle recorded due standing).snoc (Visit.calm_of_same idle journal)
  | starts _ _ retry => cases retry.symm.trans standing
  | fallsBack setback retry =>
    have hdue : due = v.time + policy.backoff := by
      have hretry : v.after.link.retryAt? = some (v.time + v.before.link.policy.backoff) :=
        retry recorded
      rw [h.kept, standing] at hretry
      exact Option.some.inj hretry
    exact ⟨past, v, [], rfl, setback, standing, hdue, by simp⟩

theorem paced_tour (h : Tour past (.new policy) l) (reconnect : policy.reconnect = true) :
    Paced policy past l := by
  induction past using List.reverseRecOn generalizing l with
  | nil =>
    obtain rfl : l = .new policy := h
    exact ⟨.new policy, rfl, rfl, by simp [Link.idle, Link.new]⟩
  | append_singleton past v ih =>
    obtain ⟨hpast, rfl⟩ := tour_snoc.mp h
    exact (ih hpast).snoc reconnect

end Past

namespace Session

/-- Reconnecting is on. A tick, in whatever way it comes about, has the link seek its network just
if the link is idle with a network recorded and a retry that is due. By then at least the backoff
has passed since every setback before: a scan that failed or was refused, an association that was
rejected, a network that was lost. The retry was scheduled by the latest of these setbacks, and no
attempt was made on it before. -/
theorem attempts_keep_backoff (chip : σ) (packets : Nat) (config : Config)
    (reconnect : config.autoReconnect = true) (actions : List (Action σ))
    {before after : List (Visit σ)} {o : Visit σ}
    (hvisits : (new chip packets config).visits actions = before ++ o :: after) :
    let backoff := config.sanitized.rescanBackoff
    (o.Attempts ↔ o.action = .tick ∧ o.before.link.Due o.time) ∧
    (o.Attempts →
      (∀ g ∈ before, g.SetsBack → g.time + backoff ≤ o.time) ∧
      ∃ early f late, before = early ++ f :: late ∧ f.SetsBack ∧
        f.after.link.retryAt? = some (f.time + backoff) ∧
        o.before.link.retryAt? = some (f.time + backoff) ∧
        ∀ g ∈ late, ¬ g.SetsBack ∧ ¬ g.Attempts) := by
  intro backoff
  refine ⟨Visit.attempts_iff_due, fun hattempt => ?_⟩
  have htour := tour_run (s := new chip packets config)
    (Adapter.steady_new chip packets config) actions
  have htimes := visits_in_time (new chip packets config) actions
  rw [hvisits] at htour htimes
  obtain ⟨_, hbefore, rfl, -⟩ := tour_append.mp htour
  have hpaced : Paced config.sanitized.linkPolicy before o.before.link :=
    paced_tour hbefore reconnect
  obtain ⟨-, idle, ⟨due, standing, hdue⟩, recorded⟩ := Visit.attempts_iff_due.mp hattempt
  have hscheduled := hpaced.scheduled idle recorded due standing
  refine ⟨fun g hg hback => ?_, ?_⟩
  · exact Nat.le_trans (hscheduled.backoff_le (List.pairwise_append.mp htimes).1 hg hback) hdue
  · obtain ⟨early, f, late, hsplit, hback, hretry, rfl, hlate⟩ := hscheduled
    exact ⟨early, f, late, hsplit, hback, hretry, standing, hlate⟩

/-- The first scan ends without the network, and time goes on for the backoff. -/
def waitedOut : List (Action ScriptedChip) :=
  [.start, .join "net" "secret", .advance 10, .dispatch (.radio (.scanDone .success 0)),
    .advance 3000]

/-- The next tick seeks the network again. -/
theorem attempts_keep_backoff_rescan :
    let s := (new ScriptedChip.new 1 .defaults).run waitedOut
    let o : Visit ScriptedChip := ⟨3010, .tick, s.adapter.station⟩
    o.Attempts ∧
      (new ScriptedChip.new 1 .defaults).visits (waitedOut ++ [.tick]) =
        (new ScriptedChip.new 1 .defaults).visits waitedOut ++ [o] ∧
      ∃ f ∈ (new ScriptedChip.new 1 .defaults).visits waitedOut, f.SetsBack ∧ f.time = 10 := by
  have hvisits : (new ScriptedChip.new 1 .defaults).visits (waitedOut ++ [.tick]) =
      (new ScriptedChip.new 1 .defaults).visits waitedOut ++
        [⟨3010, .tick, ((new ScriptedChip.new 1 .defaults).run waitedOut).adapter.station⟩] := rfl
  obtain ⟨hdue, hkeeps⟩ := attempts_keep_backoff ScriptedChip.new 1 .defaults rfl _ hvisits
  have hattempt := hdue.mpr ⟨rfl, rfl, ⟨3010, rfl, Nat.le_refl _⟩, rfl⟩
  obtain ⟨-, early, f, late, hbefore, hback, -, hretry, -⟩ := hkeeps hattempt
  refine ⟨hattempt, hvisits, f, by simp [hbefore], hback, ?_⟩
  have hretry : some 3010 = some (f.time + 3000) := hretry
  have := Option.some.inj hretry
  omega

end Session

end WifiAdapter
