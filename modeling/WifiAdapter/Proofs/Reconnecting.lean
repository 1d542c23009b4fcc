import Mathlib.Data.List.Induction
import WifiAdapter.Proofs.Resting
import WifiAdapter.ScriptedChip

/-! A lost network that is not to be sought again.

With reconnecting off, losing the network schedules no retry, but it cancels none
either. A retry that an earlier failure scheduled survives a manual scan: if that scan
finds the network, the link gets connected with the retry still standing, and the first
tick at or after its time after the network is lost seeks the network again.

`idles_after_loss_iff` says when a lost link stays idle: exactly as long as no tick comes
at or after the time of such a retry; and that no other retry can stand. -/
namespace WifiAdapter

/-- Commands of an attempt to find a network and get onto it. -/
def Command.Seeks : Command → Prop
  | .scanRegion _ | .scan | .associate .. => True
  | _ => False

namespace Link

/-- On the way down or back to readiness. -/
def Homeward (l : Link) : Prop := l.target = .stopped ∨ l.target = .initializing

instance (l : Link) : Decidable l.Homeward := inferInstanceAs (Decidable (_ ∨ _))

/-- The link heads home in the end, or it did not before and its retry is the same. -/
def Spares (l l' : Link) : Prop := l'.Homeward ∨ ¬ l.Homeward ∧ l'.retryAt? = l.retryAt?

theorem Spares.refl (l : Link) : l.Spares l := (Decidable.em l.Homeward).imp_right fun h => ⟨h, rfl⟩

theorem Spares.trans {l m n : Link} (h : l.Spares m) (h' : m.Spares n) : l.Spares n := by
  rcases h' with home | ⟨away, retry⟩
  · exact .inl home
  · rcases h with home | ⟨away', retry'⟩
    · exact absurd home away
    · exact .inr ⟨away', retry.trans retry'⟩

section Advance
variable {now : Nat} {l l' : Link} {traffic : List Entry}

theorem Advance.policy_eq (h : l.Advance now traffic l') : l'.policy = l.policy := by
  cases h with
  | leave | down | back => simp [Link.down, enter]
  | regionRefused | scanRefused =>
    unfold Station.scanRefused retryIfWanted
    split <;> rfl
  | up | upRefused | scan | associate | associateRefused | seek | await | connect | giveUp => rfl

/-- A move changes the retry only on the way home. -/
theorem Advance.spares (h : l.Advance now traffic l') : l.Spares l' := by
  cases h with
  | leave target | down target =>
    exact .inl (.inl ((target_dropAddress l).trans target))
  | up target => exact .inl (.inr target)
  | upRefused | associateRefused => exact .inl (.inl rfl)
  | back target => exact .inl (.inr ((target_dropAddress l).trans target))
  | regionRefused | scanRefused =>
    unfold Station.scanRefused retryIfWanted
    split <;> exact .inl (.inr rfl)
  | scan target | associate target | seek target | await target | connect target =>
    exact .inr ⟨by simp [Homeward, target], rfl⟩
  | giveUp stuck =>
    refine .inr ⟨?_, rfl⟩
    rintro (target | target) <;> simp [Stuck, target] at stuck

/-- A ready link that turns to a network seeks it with its first command. -/
theorem Advance.seeks (h : l.Advance now traffic l') (state : l.state = .initializing)
    (target : l.target = .connecting ∨ l.target = .scanning) :
    (∃ c answer rest, traffic = .command c answer :: rest ∧ c.Seeks) ∨
      l.target = .connecting ∧ traffic = [] ∧ l' = l.aim .scanning := by
  cases h with
  | scan | regionRefused | scanRefused | associate | associateRefused =>
    exact .inl ⟨_, _, _, rfl, trivial⟩
  | seek target => exact .inr ⟨target, rfl, rfl⟩
  | giveUp stuck =>
    rcases target with target | target <;> simp [Stuck, Ready, target, state] at stuck
  | leave target' | down target' | up target' | upRefused target' | back target' | await target'
  | connect target' =>
    rcases target with target | target <;> simp [target] at target'

end Advance

/-- A link that is ready and settled. -/
theorem idle_iff (l : Link) : l.idle ↔ l.state = .initializing ∧ l.target = .initializing := by
  simp [idle]

end Link

namespace Station
variable {σ : Type} [Chip σ]

/-- From the first station to the second the link is ready in the end and nothing was
done to get onto a network. -/
def Idles (s t : Station σ) : Prop :=
  t.link.state = .initializing ∧ ∃ traffic, t.bus.journal = s.bus.journal ++ traffic ∧
    ∀ c answer, Entry.command c answer ∈ traffic → ¬ c.Seeks

/-- What the application does not ask for. -/
def Action.Passive : Action → Prop
  | .tick | .radio _ => True
  | .start | .stop | .join .. | .scan => False

section Idle
omit [Chip σ]
variable {s : Station σ}

theorem settled_of_idle (h : s.link.idle) : s.link.Settled := by
  rw [Link.idle_iff] at h
  exact h.1.trans h.2.symm

end Idle

variable {s : Station σ} (now : Nat)

/-! ### An idle link -/

theorem onRadio_of_idle (h : s.link.idle) (m : RadioMessage) : s.onRadio now m = s := by
  obtain ⟨state, -⟩ := s.link.idle_iff.mp h
  have hsettled := converge_of_settled now s (settled_of_idle h)
  cases m <;>
    simp [onRadio, onScanDone, onScanResult, onAssociation, onAddress, onLink, state, hsettled]

/-- An idle link that no tick calls on stays as it is. -/
theorem perform_of_idle (h : s.link.idle) {a : Action} (passive : a.Passive)
    (quiet : a = .tick → ¬ s.link.Due now) : (s.perform now a).2 = s := by
  cases a with
  | tick =>
    exact (tick_of_not_due now (quiet rfl)).trans (converge_of_settled now s (settled_of_idle h))
  | radio m => exact onRadio_of_idle now h m
  | start | stop | join | scan => cases passive

/-- The journal goes on with a command that seeks a network. -/
def Sought (s t : Station σ) : Prop :=
  ∃ c answer rest, t.bus.journal = s.bus.journal ++ .command c answer :: rest ∧ c.Seeks

omit [Chip σ] in
theorem Sought.not_idles {s t : Station σ} (h : s.Sought t) : ¬ s.Idles t := by
  rintro ⟨-, traffic, htraffic, hquiet⟩
  obtain ⟨c, answer, rest, hjournal, hseeks⟩ := h
  obtain rfl := List.append_cancel_left (htraffic.symm.trans hjournal)
  exact hquiet c answer List.mem_cons_self hseeks

/-- A sought network is a matter of the first moves. -/
theorem Sought.converge {s t : Station σ} (h : s.Sought t) : s.Sought (t.converge now) := by
  obtain ⟨c, answer, rest, hjournal, hc⟩ := h
  obtain ⟨more, hmore⟩ := journal_converge now t
  exact ⟨c, answer, rest ++ more, by rw [hmore, hjournal, List.append_assoc]; rfl, hc⟩

theorem sought_converge_of_scanning (state : s.link.state = .initializing)
    (target : s.link.target = .scanning) : s.Sought (s.converge now) := by
  have hunsettled : ¬ s.link.Settled := by simp [Link.Settled, state, target]
  rw [converge_of_unsettled now s hunsettled]
  obtain ⟨traffic, hjournal, hadvance⟩ := advances_step now s
  rcases hadvance.seeks state (.inr target) with ⟨c, answer, rest, rfl, hc⟩ | ⟨target', -, -⟩
  · exact Sought.converge now ⟨c, answer, rest, hjournal, hc⟩
  · simp [target] at target'

theorem sought_converge_of_connecting (state : s.link.state = .initializing)
    (target : s.link.target = .connecting) : s.Sought (s.converge now) := by
  have hunsettled : ¬ s.link.Settled := by simp [Link.Settled, state, target]
  rw [converge_of_unsettled now s hunsettled]
  obtain ⟨traffic, hjournal, hadvance⟩ := advances_step now s
  rcases hadvance.seeks state (.inl target) with ⟨c, answer, rest, rfl, hc⟩ | ⟨-, rfl, hlink⟩
  · exact Sought.converge now ⟨c, answer, rest, hjournal, hc⟩
  · -- no network found so far has the name, so the next move asks for a scan
    obtain ⟨c, answer, rest, hrest, hc⟩ :=
      sought_converge_of_scanning now (s := s.step now) (by rw [hlink]; exact state)
        (by rw [hlink]; rfl)
    exact ⟨c, answer, rest, by rw [hrest, hjournal, List.append_nil], hc⟩

/-- A tick at or after the time of a retry seeks the recorded network. -/
theorem sought_of_due (h : s.link.Due now) : s.Sought (s.tick now) := by
  rw [tick_of_due now h]
  exact sought_converge_of_connecting now (s := s.onLink _) (s.link.idle_iff.mp h.1).1 rfl

/-! ### After the loss of a network -/

omit [Chip σ] in
theorem idles_refl (idle : s.link.idle) : s.Idles s :=
  ⟨(s.link.idle_iff.mp idle).1, [], (List.append_nil _).symm, by simp⟩

/-- An idle link that has a network stays idle, over ticks and messages, exactly as long as
no tick comes at or after the time of a retry. -/
theorem idles_iff (idle : s.link.idle) (recorded : s.link.network?.isSome)
    (more : List (Nat × Action)) (passive : ∀ entry ∈ more, entry.2.Passive) :
    (∀ before after, more = before ++ after → s.Idles (s.run before)) ↔
      ∀ time, (time, .tick) ∈ more → ∀ due ∈ s.link.retryAt?, time < due := by
  induction more with
  | nil =>
    refine ⟨fun _ time h => absurd h List.not_mem_nil, fun _ before after h => ?_⟩
    obtain ⟨rfl, -⟩ := List.append_eq_nil_iff.mp h.symm
    exact idles_refl idle
  | cons entry rest ih =>
    obtain ⟨now, a⟩ := entry
    have ih := ih fun e he => passive e (List.mem_cons_of_mem _ he)
    by_cases hcalled : a = .tick ∧ s.link.Due now
    · -- the tick that calls on the link ends its rest
      obtain ⟨rfl, hcalled⟩ := hcalled
      constructor
      · intro h
        exact absurd (h [(now, .tick)] rest rfl) (sought_of_due now hcalled).not_idles
      · intro h
        obtain ⟨-, ⟨due, hretry, hnow⟩, -⟩ := hcalled
        have hlater := h now List.mem_cons_self due hretry
        omega
    · have hstays : (s.perform now a).2 = s :=
        perform_of_idle now idle (passive (now, a) List.mem_cons_self) fun ha hdue =>
          hcalled ⟨ha, hdue⟩
      have hrun (before : List (Nat × Action)) : s.run ((now, a) :: before) = s.run before :=
        congrArg (run · before) hstays
      constructor
      · intro h time htime due hretry
        rcases List.mem_cons.mp htime with hentry | htime
        · obtain ⟨rfl, rfl⟩ := Prod.mk.inj hentry
          by_contra hpassed
          exact hcalled ⟨rfl, idle, ⟨due, hretry, by omega⟩, recorded⟩
        · refine ih.mp (fun before after heq => ?_) time htime due hretry
          have := h ((now, a) :: before) after (by rw [heq]; rfl)
          rwa [hrun] at this
      · intro h before after heq
        have hlater := ih.mpr fun time htime => h time (List.mem_cons_of_mem _ htime)
        cases before with
        | nil => exact idles_refl idle
        | cons first before =>
          obtain ⟨rfl, hrest⟩ := List.cons.inj heq
          rw [hrun]
          exact hlater before after hrest

/-! ### Where the retry of a connected link comes from -/

/-- What an action can leave of a retry: the link heads home, or it has no retry, or it has
the one it had before, and then it did not head home before or was asked to scan. -/
def Retains (a : Action) (l l' : Link) : Prop :=
  l'.Homeward ∨ l'.retryAt? = none ∨ (¬ l.Homeward ∨ a = .scan) ∧ l'.retryAt? = l.retryAt?

section Retains
variable {a : Action} {l l' : Link}

theorem retains_of_spares (h : l.Spares l') : Retains a l l' :=
  h.imp_right fun ⟨away, retry⟩ => .inr ⟨.inl away, retry⟩

theorem Retains.trans {l'' : Link} (h : Retains a l l') (h' : l'.Spares l'') : Retains a l l'' := by
  rcases h' with home | ⟨away, retry⟩
  · exact .inl home
  · rcases h with home | gone | ⟨cause, retry'⟩
    · exact absurd home away
    · exact .inr (.inl (retry.trans gone))
    · exact .inr (.inr ⟨cause, retry.trans retry'⟩)

theorem spares_completeScan (away : ¬ l.Homeward) (retry : l'.retryAt? = l.retryAt?) :
    l.Spares (completeScan now l') := by
  unfold completeScan Link.retryIfWanted
  dsimp only
  split
  · exact .inr ⟨away, retry⟩
  · split <;> exact .inl (.inr rfl)

theorem Reacts.retains {traffic : List Entry} (hr : Reacts now l a traffic l')
    (settled : l.Settled) : Retains a l l' := by
  have away {state : LinkState} (hs : l.state = state) (stopped : state ≠ .stopped := by simp)
      (ready : state ≠ .initializing := by simp) : ¬ l.Homeward := by
    have settled : l.state = l.target := settled
    simp [Link.Homeward, ← settled, hs, stopped, ready]
  cases hr with
  | startRefused | joinRefused | scanRefused | wait | ignored => exact retains_of_spares (.refl l)
  | start => exact .inl (.inr rfl)
  | stop => exact .inl (.inl rfl)
  | scan => exact .inr (.inr ⟨.inr rfl, rfl⟩)
  | join | joinLater | retry => exact .inr (.inl rfl)
  | fetch state | fetchNext state | associated state | assigned state =>
    exact .inr (.inr ⟨.inl (away state), rfl⟩)
  | nothingFound state | fetchRefused state | fetchNextRefused state | allFetched state =>
    exact retains_of_spares (spares_completeScan now (away state) rfl)
  | rejected => exact .inl (.inr rfl)
  | lost =>
    unfold Link.lose
    dsimp only
    split <;> exact .inl (.inr rfl)

end Retains

theorem spares_converge : s.link.Spares (s.converge now).link :=
  converge_induct now s (p := fun t : Station σ => s.link.Spares t.link) (.refl _)
    fun _ _ ⟨_, _, ha⟩ h => h.trans ha.spares

theorem retains_perform (settled : s.link.Settled) (a : Action) :
    Retains a s.link (s.perform now a).2.link := by
  obtain ⟨traffic, l, bus, hr, -, heq⟩ := converges_perform now settled a
  rw [heq]
  exact (hr.retains now settled).trans (spares_converge now)

/-- A retry that stands while a link is up or on the way there is older than a request to
scan, which was made while it stood. -/
theorem retry_run (policy : LinkPolicy) (bus : Bus σ) (history : List (Nat × Action))
    (away : ¬ (run ⟨.new policy, bus⟩ history).link.Homeward) {due : Nat}
    (standing : due ∈ (run ⟨.new policy, bus⟩ history).link.retryAt?) :
    ∃ before time after, history = before ++ (time, .scan) :: after ∧
      due ∈ (run ⟨.new policy, bus⟩ before).link.retryAt? := by
  induction history using List.reverseRecOn with
  | nil => simp [run, Link.new] at standing
  | append_singleton history entry ih =>
    obtain ⟨now, a⟩ := entry
    have hlast : run ⟨.new policy, bus⟩ (history ++ [(now, a)]) =
        ((run ⟨.new policy, bus⟩ history).perform now a).2 := run_append ..
    obtain ⟨-, hsettled⟩ :=
      coherent_run (s := ⟨.new policy, bus⟩) history (.new policy) rfl
    rw [hlast] at away standing
    rcases retains_perform now hsettled a with home | gone | ⟨cause, retry⟩
    · exact absurd home away
    · rw [gone] at standing
      cases standing
    · rw [retry] at standing
      rcases cause with away | rfl
      · obtain ⟨before, time, after, rfl, hbefore⟩ := ih away standing
        exact ⟨before, time, after ++ [(now, a)], by simp, hbefore⟩
      · exact ⟨history, now, [], rfl, standing⟩

/-! ### The loss of a network -/

theorem Reacts.policy_eq {l l' : Link} {a : Action} {traffic : List Entry}
    (h : Reacts now l a traffic l') : l'.policy = l.policy := by
  have hcomplete (l : Link) : (completeScan now l).policy = l.policy := by
    unfold completeScan Link.retryIfWanted
    dsimp only
    split
    · rfl
    · split <;> rfl
  cases h with
  | nothingFound | fetchRefused | fetchNextRefused | allFetched => exact hcomplete _
  | lost =>
    unfold Link.lose
    dsimp only
    split <;> rfl
  | start | startRefused | stop | join | joinLater | joinRefused | scan | scanRefused | retry
  | wait | fetch | fetchNext | associated | rejected | assigned | ignored => rfl

theorem policy_perform (settled : s.link.Settled) (a : Action) :
    (s.perform now a).2.link.policy = s.link.policy := by
  obtain ⟨traffic, l, bus, hr, -, heq⟩ := converges_perform now settled a
  rw [heq, ← hr.policy_eq]
  exact converge_induct now ⟨l, bus⟩ (p := fun t : Station σ => t.link.policy = l.policy) rfl
    fun _ _ ⟨_, _, ha⟩ h => ha.policy_eq.trans h

theorem policy_run (h : s.link.Coherent) (settled : s.link.Settled)
    (history : List (Nat × Action)) : (s.run history).link.policy = s.link.policy := by
  induction history generalizing s with
  | nil => rfl
  | cons entry rest ih =>
    obtain ⟨hnext, hsettled⟩ := coherent_perform entry.1 h settled entry.2
    exact (ih hnext hsettled).trans (policy_perform entry.1 settled entry.2)

theorem converge_back (state : s.link.state ≠ .stopped) (unsettled : ¬ s.link.Settled)
    (target : s.link.target = .initializing) :
    s.converge now = s.onLink fun l => l.dropAddress.enter .initializing := by
  have hstep : s.step now = s.onLink fun l => l.dropAddress.enter .initializing := by
    simp [step, target, settleIdle, state]
  rw [converge_of_unsettled now s unsettled, hstep]
  exact converge_of_settled now _ ((Link.target_dropAddress s.link).trans target).symm

/-- With reconnecting off, the loss of a network leaves an idle link with the same retry and
the same network to seek, and takes no command. -/
theorem lost_idle (reconnect : s.link.policy.reconnect = false)
    (state : s.link.state = .addressPending ∨ s.link.state = .connected) (reason : UInt8) :
    let lost := (s.perform now (.radio (.association false reason))).2
    lost.link.idle ∧ lost.link.retryAt? = s.link.retryAt? ∧
      lost.link.network? = s.link.network? ∧ lost.bus = s.bus := by
  have hlost : onAssociation now false s.link =
      ({ s.link with address? := none }.report .down).aim .initializing := by
    have away : s.link.state ≠ .connecting := by rcases state with h | h <;> simp [h]
    rw [onAssociation_false, if_neg away, if_pos state]
    refine if_neg ?_
    show ¬ s.link.policy.reconnect = true
    simp [reconnect]
  have hback := converge_back now
    (s := s.onLink fun l => ({ l with address? := none }.report .down).aim .initializing)
    (by rcases state with h | h <;> simp [onLink, Link.aim, h])
    (by rcases state with h | h <;> simp [onLink, Link.Settled, Link.aim, h]) rfl
  have heq : (s.perform now (.radio (.association false reason))).2 =
      (s.onLink fun l => ({ l with address? := none }.report .down).aim .initializing).onLink
        fun l => l.dropAddress.enter .initializing := by
    rw [← hback]
    exact congrArg (fun l => converge now ⟨l, s.bus⟩) hlost
  rw [heq]
  refine ⟨?_, ?_, ?_, rfl⟩ <;> simp [onLink, Link.idle, Link.enter, Link.aim]

/-- With reconnecting off, a link that loses its network is idle, and stays idle over ticks
and messages exactly as long as no tick comes at or after the time of a retry that was
standing when the network was lost. Such a retry is a remnant: it was standing already
when the application asked for a scan. -/
theorem idles_after_loss_iff (policy : LinkPolicy) (bus : Bus σ) (history : List (Nat × Action))
    (now : Nat) (reason : UInt8) (more : List (Nat × Action)) (reconnect : policy.reconnect = false)
    (state : (run ⟨.new policy, bus⟩ history).link.state = .addressPending ∨
      (run ⟨.new policy, bus⟩ history).link.state = .connected)
    (passive : ∀ entry ∈ more, entry.2.Passive) :
    let s := run ⟨.new policy, bus⟩ history
    let lost := (s.perform now (.radio (.association false reason))).2
    s.Idles lost ∧
      ((∀ before after, more = before ++ after → lost.Idles (lost.run before)) ↔
        ∀ time, (time, .tick) ∈ more → ∀ due ∈ s.link.retryAt?, time < due) ∧
      ∀ due ∈ s.link.retryAt?, ∃ before time after, history = before ++ (time, .scan) :: after ∧
        due ∈ (run ⟨.new policy, bus⟩ before).link.retryAt? := by
  intro s lost
  obtain ⟨hcoherent, hsettled⟩ :=
    coherent_run (s := ⟨.new policy, bus⟩) history (.new policy) rfl
  have state : s.link.state = .addressPending ∨ s.link.state = .connected := state
  have hpolicy : s.link.policy = policy :=
    policy_run (s := ⟨.new policy, bus⟩) (.new policy) rfl history
  obtain ⟨hidle, hretry, hnetwork, hbus⟩ :=
    lost_idle now (s := s) (by rw [hpolicy, reconnect]) state reason
  have hrecorded : lost.link.network?.isSome := by
    rw [hnetwork]
    exact hcoherent.recorded (.inr state)
  refine ⟨⟨(lost.link.idle_iff.mp hidle).1, [], by rw [hbus, List.append_nil], by simp⟩, ?_, ?_⟩
  · rw [← hretry]
    exact idles_iff hidle hrecorded more passive
  · have away : ¬ s.link.Homeward := by
      have hsettled : s.link.state = s.link.target := hsettled
      rcases state with h | h <;> simp [Link.Homeward, ← hsettled, h]
    exact fun due => retry_run policy bus history away

/-- The recorded network is not there for the first scan and is found by a second one, which
the application asks for before the retry is due. -/
def foundOnRequest : List (Nat × Action) :=
  [(0, .start), (0, .join "net" "secret"), (0, .radio (.scanDone .success 0)), (1000, .scan),
    (1000, .radio (.scanDone .success 1)),
    (1000, .radio (.scanResult ⟨"net", [], -52, .wpaPsk, 6⟩)),
    (1000, .radio (.association true 0)),
    (1000, .radio (.addressAssigned ⟨⟨10, 0, 0, 2⟩, 24⟩))]

/-- Lost at 2000, the network is left alone as long as the time of the old retry has not come. -/
theorem idles_until_retry :
    let s := run ⟨.new ⟨.northAmerica, 3000, false⟩, ⟨ScriptedChip.new, []⟩⟩ foundOnRequest
    let lost := (s.perform 2000 (.radio (.association false 0))).2
    s.link.state = .connected ∧ s.link.retryAt? = some 3000 ∧
      ∀ before after,
        [(2999, .tick), (9000, .radio (.scanDone .success 1))] = before ++ after →
          lost.Idles (lost.run before) := by
  have hconnected : (run ⟨.new ⟨.northAmerica, 3000, false⟩, ⟨ScriptedChip.new, []⟩⟩
      foundOnRequest).link.state = .connected := rfl
  have hretry : (run ⟨.new ⟨.northAmerica, 3000, false⟩, ⟨ScriptedChip.new, []⟩⟩
      foundOnRequest).link.retryAt? = some 3000 := rfl
  refine ⟨hconnected, hretry, ?_⟩
  refine (idles_after_loss_iff _ _ foundOnRequest 2000 0 _ rfl (.inr hconnected) ?_).2.1.mpr ?_
  · simp [Action.Passive]
  · rw [hretry]
    rintro time htime due ⟨⟩
    simp only [List.mem_cons, Prod.mk.injEq, reduceCtorEq, and_true, and_false, List.not_mem_nil,
      or_false] at htime
    omega

/-- The tick at the time of the old retry joins the lost network again. -/
theorem rejoins_at_retry :
    let s := run ⟨.new ⟨.northAmerica, 3000, false⟩, ⟨ScriptedChip.new, []⟩⟩ foundOnRequest
    let lost := (s.perform 2000 (.radio (.association false 0))).2
    let later := (lost.perform 3000 .tick).2
    s.link.policy.reconnect = false ∧ s.link.state = .connected ∧
      lost.link.state = .initializing ∧ later.link.state = .connecting ∧
      later.bus.journal =
        lost.bus.journal ++ [.command (.associate "net" .wpaPsk "secret") (.accepted ())] :=
  ⟨rfl, rfl, rfl, rfl, rfl⟩

end Station

end WifiAdapter
