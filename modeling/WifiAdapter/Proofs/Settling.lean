import Mathlib.Logic.Function.Iterate
import WifiAdapter.Link.Settling

/-! One move of a link, and how few of them settle it.

`Link.Advance` lists every way a move can end: what it needs, what it enters in the
journal and what it makes of the link. A move that does not settle the link leaves it
with a target that the next move settles, so two moves always do. -/
namespace WifiAdapter

namespace Link

/-- On a network, or on the way onto one. -/
def Associated (l : Link) : Prop :=
  l.state = .connecting ∨ l.state = .addressPending ∨ l.state = .connected

instance (l : Link) : Decidable l.Associated := inferInstanceAs (Decidable (_ ∨ _))

/-- Where a network can be joined from. -/
def Ready (l : Link) : Prop := l.state = .initializing ∨ l.state = .scanning

instance (l : Link) : Decidable l.Ready := inferInstanceAs (Decidable (_ ∨ _))

/-- State and target agree. -/
def Settled (l : Link) : Prop := l.state = l.target

instance (l : Link) : Decidable l.Settled := inferInstanceAs (Decidable (_ = _))

/-- The target cannot be reached from where the link is. -/
def Stuck (l : Link) : Prop :=
  match l.target with
  | .stopped | .initializing => False
  | .scanning => l.state ≠ .initializing
  | .connecting => ¬ l.Ready
  | .addressPending => l.state ≠ .connecting
  | .connected => l.state = .addressPending → l.address? = none

/-- The link with its radio down. -/
def down (l : Link) : Link := { l.dropAddress with armed := false, retryAt? := none }.enter .stopped

/-- One move, with what it enters in the journal. -/
inductive Advance (now : Nat) (l : Link) : List Entry → Link → Prop where
  | leave {left lowered : Answer Unit} (target : l.target = .stopped) (away : l.Associated) :
      Advance now l [.command .disassociate left, .command .deinit lowered] l.down
  | down {lowered : Answer Unit} (target : l.target = .stopped) (home : ¬ l.Associated) :
      Advance now l [.command .deinit lowered] l.down
  | up (target : l.target = .initializing) (state : l.state = .stopped) :
      Advance now l [.command .init (.accepted ())] ({ l with armed := true }.enter .initializing)
  | upRefused {status : Status} (target : l.target = .initializing) (state : l.state = .stopped) :
      Advance now l [.command .init (.refused status)]
        ((l.aim .stopped).report (.radioInitFailed status))
  | back (target : l.target = .initializing) (state : l.state ≠ .stopped) :
      Advance now l [] (l.dropAddress.enter .initializing)
  | scan (target : l.target = .scanning) (state : l.state = .initializing) :
      Advance now l
        [.command (.scanRegion l.policy.region) (.accepted ()), .command .scan (.accepted ())]
        ({ l with found := .empty }.enter .scanning)
  | regionRefused {status : Status} (target : l.target = .scanning)
      (state : l.state = .initializing) :
      Advance now l [.command (.scanRegion l.policy.region) (.refused status)]
        (Station.scanRefused now l)
  | scanRefused {status : Status} (target : l.target = .scanning) (state : l.state = .initializing) :
      Advance now l
        [.command (.scanRegion l.policy.region) (.accepted ()), .command .scan (.refused status)]
        (Station.scanRefused now l)
  | associate {network : Network} {ap : AccessPoint} (target : l.target = .connecting)
      (ready : l.Ready) (recorded : l.network? = some network) (wanted : l.wanted? = some ap) :
      Advance now l [.command (.associate network.ssid ap.auth network.key) (.accepted ())]
        (l.enter .connecting)
  | associateRefused {network : Network} {ap : AccessPoint} {status : Status}
      (target : l.target = .connecting) (ready : l.Ready) (recorded : l.network? = some network)
      (wanted : l.wanted? = some ap) :
      Advance now l [.command (.associate network.ssid ap.auth network.key) (.refused status)]
        (l.aim .stopped)
  | seek (target : l.target = .connecting) (ready : l.Ready) (wanted : l.wanted? = none) :
      Advance now l [] (l.aim .scanning)
  | await (target : l.target = .addressPending) (state : l.state = .connecting) :
      Advance now l [] (l.enter .addressPending)
  | connect {address : InterfaceAddress} (target : l.target = .connected)
      (state : l.state = .addressPending) (held : l.address? = some address) :
      Advance now l [] ((l.enter .connected).report (.up address))
  | giveUp (stuck : l.Stuck) : Advance now l [] l.giveUp

@[simp] theorem state_report (l : Link) (e : LinkEvent) : (l.report e).state = l.state := rfl
@[simp] theorem target_report (l : Link) (e : LinkEvent) : (l.report e).target = l.target := rfl
@[simp] theorem network?_report (l : Link) (e : LinkEvent) : (l.report e).network? = l.network? := rfl
@[simp] theorem address?_report (l : Link) (e : LinkEvent) : (l.report e).address? = l.address? := rfl
@[simp] theorem armed_report (l : Link) (e : LinkEvent) : (l.report e).armed = l.armed := rfl
@[simp] theorem retryAt?_report (l : Link) (e : LinkEvent) : (l.report e).retryAt? = l.retryAt? := rfl
@[simp] theorem policy_report (l : Link) (e : LinkEvent) : (l.report e).policy = l.policy := rfl

section DropAddress
variable (l : Link)

@[simp] theorem state_dropAddress : l.dropAddress.state = l.state := by
  unfold dropAddress; split <;> rfl
@[simp] theorem target_dropAddress : l.dropAddress.target = l.target := by
  unfold dropAddress; split <;> rfl
@[simp] theorem network?_dropAddress : l.dropAddress.network? = l.network? := by
  unfold dropAddress; split <;> rfl
@[simp] theorem armed_dropAddress : l.dropAddress.armed = l.armed := by
  unfold dropAddress; split <;> rfl
@[simp] theorem retryAt?_dropAddress : l.dropAddress.retryAt? = l.retryAt? := by
  unfold dropAddress; split <;> rfl
@[simp] theorem policy_dropAddress : l.dropAddress.policy = l.policy := by
  unfold dropAddress; split <;> rfl
@[simp] theorem found_dropAddress : l.dropAddress.found = l.found := by
  unfold dropAddress; split <;> rfl

@[simp] theorem address?_dropAddress : l.dropAddress.address? = none := by
  unfold dropAddress
  split
  · assumption
  · rfl

end DropAddress

/-! ### What a move makes of the target -/

section Advance
variable {now : Nat} {l l' : Link} {traffic : List Entry}

theorem Advance.settles (h : l.Advance now traffic l') (target : l.target ≠ .connecting) :
    l'.Settled := by
  cases h with
  | leave target | down target | up target | back target | await target | connect target =>
    simp [Settled, Link.down, enter, target]
  | scan target => exact target.symm
  | upRefused _ state | regionRefused _ state | scanRefused _ state =>
    simp [Settled, Station.scanRefused, retryIfWanted, scheduleRetry, apply_ite, aim, state]
  | giveUp => rfl
  | associate target' | associateRefused target' | seek target' => exact absurd target' target

/-- A move towards `connecting` that does not get there falls back on a target that the
next move settles. -/
theorem Advance.falls_back (h : l.Advance now traffic l') (unsettled : ¬ l'.Settled) :
    l'.target ≠ .connecting := by
  by_cases target : l.target = .connecting
  · cases h with
    | associate => exact absurd target.symm unsettled
    | associateRefused | seek => simp [aim]
    | giveUp => exact absurd rfl unsettled
    | leave target' | down target' | up target' | upRefused target' | back target' | scan target'
    | regionRefused target' | scanRefused target' | await target' | connect target' =>
      simp [target] at target'
  · exact absurd (h.settles target) unsettled

end Advance

end Link

namespace Station
variable {σ : Type} [Chip σ]

/-- One move takes the first station to the second. -/
def Advances (now : Nat) (s t : Station σ) : Prop :=
  ∃ traffic, t.bus.journal = s.bus.journal ++ traffic ∧ s.link.Advance now traffic t.link

variable (now : Nat) (s : Station σ)

section Issue
variable {s} {t : Station σ} {c : Command} {answer : Answer Unit}

theorem link_of_issue (h : s.issue c = (answer, t)) : t.link = s.link :=
  (congrArg (fun r => r.2.link) h).symm

theorem journal_of_issue (h : s.issue c = (answer, t)) :
    t.bus.journal = s.bus.journal ++ [.command c answer] := by
  have hjournal : (s.issue c).2.bus.journal = s.bus.journal ++ [.command c (s.issue c).1] := rfl
  rwa [h] at hjournal

end Issue

omit [Chip σ] in
theorem advances_onLink {f : Link → Link} (h : s.link.Advance now [] (f s.link)) :
    s.Advances now (s.onLink f) :=
  ⟨[], (List.append_nil _).symm, h⟩

theorem advances_of_issue {s t : Station σ} {c : Command} {answer : Answer Unit} {f : Link → Link}
    (hi : s.issue c = (answer, t)) (h : s.link.Advance now [.command c answer] (f s.link)) :
    s.Advances now (t.onLink f) := by
  refine ⟨[.command c answer], (journal_of_issue hi :), ?_⟩
  show s.link.Advance now _ (f t.link)
  rwa [link_of_issue hi]

/-- A move of two commands. -/
theorem advances_of_issues {s t u : Station σ} {c d : Command} {first second : Answer Unit}
    {f : Link → Link} (hc : s.issue c = (first, t)) (hd : t.issue d = (second, u))
    (h : s.link.Advance now [.command c first, .command d second] (f s.link)) :
    s.Advances now (u.onLink f) := by
  refine ⟨[.command c first, .command d second], ?_, ?_⟩
  · show u.bus.journal = _
    rw [journal_of_issue hd, journal_of_issue hc, List.append_assoc]
    rfl
  · show s.link.Advance now _ (f u.link)
    rwa [link_of_issue hd, link_of_issue hc]

theorem powerDown_eq : s.powerDown =
    ((if s.link.Associated then s.order .disassociate else s).order .deinit).onLink Link.down := by
  obtain ⟨⟨state⟩, bus⟩ := s
  cases state <;> rfl

theorem advances_powerDown (target : s.link.target = .stopped) : s.Advances now s.powerDown := by
  rw [powerDown_eq]
  split
  · next away => exact advances_of_issues now rfl rfl (.leave target away)
  · next home => exact advances_of_issue now rfl (.down target home)

theorem advances_settleIdle (target : s.link.target = .initializing) :
    s.Advances now s.settleIdle := by
  unfold settleIdle powerUp
  split
  · next state =>
    split
    · next h => exact advances_of_issue now h (.up target state)
    · next h => exact advances_of_issue now h (.upRefused target state)
  · next state => exact advances_onLink now s (.back target state)

theorem advances_beginScan (target : s.link.target = .scanning) :
    s.Advances now (s.beginScan now) := by
  unfold beginScan
  split
  · next state => exact advances_onLink now s (.giveUp (by simpa [Link.Stuck, target]))
  · next state =>
    have state : s.link.state = .initializing := Decidable.not_not.mp state
    split
    · next h => exact advances_of_issue now h (.regionRefused target state)
    · next h =>
      split
      · next h' => exact advances_of_issues now h h' (.scanRefused target state)
      · next h' => exact advances_of_issues now h h' (.scan target state)

theorem advances_beginConnecting (target : s.link.target = .connecting) :
    s.Advances now s.beginConnecting := by
  unfold beginConnecting
  split
  · next state =>
    exact advances_onLink now s (.giveUp (by simpa [Link.Stuck, target, Link.Ready] using state))
  · next state =>
    have ready : s.link.Ready := Decidable.byContradiction fun h => state (not_or.mp h)
    split
    · next recorded wanted =>
      split
      · next h => exact advances_of_issue now h (.associate target ready recorded wanted)
      · next h => exact advances_of_issue now h (.associateRefused target ready recorded wanted)
    · next missing =>
      refine advances_onLink now s (.seek target ready ?_)
      cases recorded : s.link.network? with
      | none => simp [Link.wanted?, recorded]
      | some network =>
        cases wanted : s.link.wanted? with
        | none => rfl
        | some ap => exact (missing network ap recorded wanted).elim

theorem advances_step : s.Advances now (s.step now) := by
  unfold step
  split
  · next target => exact advances_powerDown now s target
  · next target => exact advances_settleIdle now s target
  · next target => exact advances_beginScan now s target
  · next target => exact advances_beginConnecting now s target
  · next target =>
    split
    · next state => exact advances_onLink now s (.await target state)
    · next state => exact advances_onLink now s (.giveUp (by simpa [Link.Stuck, target]))
  · next target =>
    split
    · next state held => exact advances_onLink now s (.connect target state held)
    · next missing =>
      refine advances_onLink now s (.giveUp ?_)
      simp only [Link.Stuck, target]
      intro state
      cases held : s.link.address? with
      | none => rfl
      | some address => exact (missing address state held).elim

/-! ### Settling -/

/-- So many moves settle the link, and no fewer. -/
def SettlesIn (n : Nat) : Prop :=
  ((step now)^[n] s).link.Settled ∧ ∀ k < n, ¬ ((step now)^[k] s).link.Settled

theorem settlesIn_two : ∃ n ≤ 2, SettlesIn now s n := by
  by_cases h0 : s.link.Settled
  · exact ⟨0, by omega, h0, by omega⟩
  obtain ⟨_, -, h⟩ := advances_step now s
  by_cases h1 : (s.step now).link.Settled
  · refine ⟨1, by omega, h1, fun k hk => ?_⟩
    obtain rfl : k = 0 := by omega
    exact h0
  obtain ⟨_, -, h'⟩ := advances_step now (s.step now)
  refine ⟨2, Nat.le_refl 2, h'.settles (h.falls_back h1), fun k hk => ?_⟩
  obtain rfl | rfl : k = 0 ∨ k = 1 := by omega
  · exact h0
  · exact h1

theorem SettlesIn.convergeWithin {now n : Nat} {s : Station σ} (h : SettlesIn now s n)
    {moves : Nat} (hm : n ≤ moves) : s.convergeWithin now moves = (step now)^[n] s := by
  induction n generalizing s moves with
  | zero =>
    cases moves <;> exact if_pos h.1
  | succ n ih =>
    obtain ⟨moves, rfl⟩ : ∃ m, moves = m + 1 := ⟨moves - 1, by omega⟩
    have hnext : SettlesIn now (s.step now) n := ⟨h.1, fun k hk => h.2 (k + 1) (by omega)⟩
    calc s.convergeWithin now (moves + 1)
        = (s.step now).convergeWithin now moves := if_neg (h.2 0 (by omega))
      _ = (step now)^[n + 1] s := ih hnext (by omega)

theorem settled_converge : (s.converge now).link.Settled := by
  obtain ⟨n, hn, h⟩ := settlesIn_two now s
  rw [converge, h.convergeWithin (by omega)]
  exact h.1

theorem converge_of_settled (h : s.link.Settled) : s.converge now = s := if_pos h

/-- What a move of an unsettled link keeps holds once the link has settled. -/
theorem converge_induct_unsettled {p : Station σ → Prop} (h : p s)
    (hp : ∀ t u : Station σ, ¬ t.link.Settled → t.Advances now u → p t → p u) :
    p (s.converge now) := by
  obtain ⟨n, hn, hs⟩ := settlesIn_two now s
  rw [converge, hs.convergeWithin (by omega)]
  have unsettled := hs.2
  clear hs hn
  induction n with
  | zero => exact h
  | succ n ih =>
    rw [Function.iterate_succ_apply']
    exact hp _ _ (unsettled n (by omega)) (advances_step now _)
      (ih fun k hk => unsettled k (by omega))

/-- What a move keeps holds once the link has settled. -/
theorem converge_induct {p : Station σ → Prop} (h : p s)
    (hp : ∀ t u : Station σ, t.Advances now u → p t → p u) : p (s.converge now) :=
  converge_induct_unsettled now s h fun t u _ => hp t u

theorem converge_of_unsettled (h : ¬ s.link.Settled) :
    s.converge now = (s.step now).converge now := by
  obtain ⟨n, hn, hs⟩ := settlesIn_two now s
  obtain ⟨k, rfl⟩ : ∃ k, n = k + 1 := by
    cases n with
    | zero => exact absurd hs.1 h
    | succ k => exact ⟨k, rfl⟩
  have hnext : SettlesIn now (s.step now) k := ⟨hs.1, fun j hj => hs.2 (j + 1) (by omega)⟩
  rw [converge, converge, hs.convergeWithin (by omega), hnext.convergeWithin (by omega)]
  rfl

/-- Converging adds to the journal. -/
theorem journal_converge : ∃ traffic, (s.converge now).bus.journal = s.bus.journal ++ traffic := by
  refine converge_induct now s (p := fun t => ∃ traffic, t.bus.journal = s.bus.journal ++ traffic)
    ⟨[], (List.append_nil _).symm⟩ ?_
  rintro t u ⟨last, hlast, -⟩ ⟨traffic, htraffic⟩
  exact ⟨traffic ++ last, by rw [hlast, htraffic, List.append_assoc]⟩

end Station

end WifiAdapter
