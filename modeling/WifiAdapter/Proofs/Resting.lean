import WifiAdapter.Proofs.Reacting

/-! Where a link rests between actions.

`Link.Coherent` is what every move and every action keep of a link's address, its
armed flag, its retry and its network; a coherent link that has settled is at rest.

`rests_in_two_moves`: a new link is at rest after every history of actions, and from
any state and target two moves settle it, so that the bound on the moves never cuts in. -/
namespace WifiAdapter

namespace Link

/-- At rest. -/
structure Rests (l : Link) : Prop where
  settled : l.state = l.target
  address : l.address?.isSome ↔ l.state = .connected
  armed : l.armed ↔ l.state ≠ .stopped
  retry : l.state = .stopped → l.retryAt? = none

/-- What holds of a link also while it moves. -/
structure Coherent (l : Link) : Prop where
  armed : l.armed ↔ l.state ≠ .stopped
  retry : l.state = .stopped → l.retryAt? = none
  /-- An address is there on a network, or just assigned. -/
  held : l.address?.isSome → l.state = .connected ∨ l.state = .addressPending ∧ l.target = .connected
  /-- A network whose address is gone is being left. -/
  lost : l.state = .connected → l.address?.isSome ∨ l.target = .initializing
  /-- No network is joined unrecorded. -/
  recorded : l.Associated → l.network?.isSome

variable {l l' : Link} {now : Nat}

theorem Coherent.new (policy : LinkPolicy) : (new policy).Coherent := by
  constructor <;> simp [Link.new, Associated]

theorem Coherent.rests (h : l.Coherent) (settled : l.Settled) : l.Rests where
  settled := settled
  address := by
    have settled : l.state = l.target := settled
    constructor
    · intro held
      rcases h.held held with connected | ⟨pending, target⟩
      · exact connected
      · simp [pending, target] at settled
    · intro connected
      rcases h.lost connected with held | target
      · exact held
      · simp [connected, target] at settled
  armed := h.armed
  retry := h.retry

/-- A link at rest may head anywhere. -/
theorem Coherent.aim (h : l.Coherent) (settled : l.Settled) (target : LinkState) :
    (l.aim target).Coherent where
  armed := h.armed
  retry := h.retry
  held held := .inl ((h.rests settled).address.mp held)
  lost connected := .inl ((h.rests settled).address.mpr connected)
  recorded := h.recorded

/-- The results of a scan are beside the point. -/
theorem Coherent.scanned (h : l.Coherent) (found : Queue maxScanResults AccessPoint)
    (expected fetched : Nat) : Coherent { l with found, expected, fetched } :=
  ⟨h.armed, h.retry, h.held, h.lost, h.recorded⟩

theorem Coherent.withoutRetry (h : l.Coherent) : Coherent { l with retryAt? := none } :=
  ⟨h.armed, fun _ => rfl, h.held, h.lost, h.recorded⟩

theorem Coherent.record (h : l.Coherent) (network : Network) :
    Coherent { l with network? := some network, retryAt? := none } :=
  ⟨h.armed, fun _ => rfl, h.held, h.lost, fun _ => rfl⟩

/-- The link without its events. -/
def flushed (l : Link) : Link := { l with events := .empty }

theorem Coherent.flushed (h : l.Coherent) : l.flushed.Coherent :=
  ⟨h.armed, h.retry, h.held, h.lost, h.recorded⟩

theorem Settled.flushed (h : l.Settled) : l.flushed.Settled := h

/-- Away from a network there is no address. -/
theorem Coherent.bare (h : l.Coherent) (connected : l.state ≠ .connected)
    (pending : l.state ≠ .addressPending) : l.address? = none := by
  cases held : l.address? with
  | none => rfl
  | some address =>
    rcases h.held (by simp [held]) with state | ⟨state, -⟩
    · exact absurd state connected
    · exact absurd state pending

theorem Coherent.giveUp (h : l.Coherent) (stuck : l.Stuck) : l.giveUp.Coherent where
  armed := h.armed
  retry := h.retry
  held held := by
    rcases h.held held with state | ⟨state, target⟩
    · exact .inl state
    · simp only [Stuck, target] at stuck
      have gone : l.address? = none := stuck state
      simp [Link.giveUp, gone] at held
  lost state := by
    rcases h.lost state with held | target
    · exact .inl held
    · simp [Stuck, target] at stuck
  recorded := h.recorded

theorem Coherent.advance {traffic : List Entry} (ha : l.Advance now traffic l') (h : l.Coherent) :
    l'.Coherent := by
  have harmed := h.armed
  have hretry := h.retry
  have hbare := h.bare
  have hrecorded := h.recorded
  cases ha with
  | leave | down => constructor <;> simp [Link.down, enter, Associated]
  | up _ state => constructor <;> simp_all [enter, Associated]
  | upRefused _ state => constructor <;> simp_all [Link.aim, Associated]
  | back _ state => constructor <;> simp_all [enter, Associated]
  | scan _ state => constructor <;> simp_all [enter, Associated]
  | regionRefused _ state | scanRefused _ state =>
    unfold Station.scanRefused retryIfWanted scheduleRetry
    split <;> constructor <;> simp_all [Link.aim, Associated]
  | associate _ ready recorded | associateRefused _ ready recorded | seek _ ready =>
    rcases ready with state | state <;> constructor <;> simp_all [enter, Link.aim, Associated]
  | await _ state => constructor <;> simp_all [enter, Associated]
  | connect _ state held => constructor <;> simp_all [enter, Associated]
  | giveUp stuck => exact h.giveUp stuck

/-! ### Actions -/

theorem coherent_completeScan (h : l.Coherent) (state : l.state = .scanning) :
    (Station.completeScan now l).Coherent := by
  have harmed := h.armed
  have hretry := h.retry
  have hbare := h.bare
  unfold Station.completeScan retryIfWanted scheduleRetry
  dsimp only
  split
  · constructor <;> simp_all [Link.aim, Associated]
  · split <;> constructor <;> simp_all [Link.aim, Associated]

theorem coherent_lose (h : l.Coherent) (state : l.state = .addressPending ∨ l.state = .connected) :
    (l.lose now).Coherent := by
  have harmed := h.armed
  have hrecorded := h.recorded
  unfold Link.lose scheduleRetry
  dsimp only
  rcases state with state | state <;> split <;> constructor <;> simp_all [Link.aim, Associated]

theorem coherent_hold (h : l.Coherent) (ap : AccessPoint) : (l.hold ap).Coherent :=
  h.scanned ..

theorem Coherent.reacts {a : Station.Action} {traffic : List Entry}
    (hr : Station.Reacts now l a traffic l') (h : l.Coherent) (settled : l.Settled) :
    l'.Coherent := by
  have harmed := h.armed
  have hretry := h.retry
  have hbare := h.bare
  have hrecorded := h.recorded
  cases hr with
  | startRefused | joinRefused | scanRefused | wait | ignored => exact h
  | start | stop | scan => exact h.aim settled _
  | join => exact (h.record _).aim settled _
  | joinLater => exact h.record _
  | retry => exact h.withoutRetry.aim settled _
  | nothingFound state => exact coherent_completeScan h state
  | fetch => exact h.scanned ..
  | fetchRefused state => exact coherent_completeScan (h.scanned ..) state
  | fetchNext => exact coherent_hold h _
  | fetchNextRefused state | allFetched state =>
    exact coherent_completeScan (coherent_hold h _) state
  | associated state => constructor <;> simp_all [Link.aim, Associated]
  | rejected state => constructor <;> simp_all [Link.aim, scheduleRetry, Associated]
  | lost state => exact coherent_lose h state
  | assigned state => constructor <;> simp_all [Link.aim, Associated]

end Link

namespace Station
variable {σ : Type} [Chip σ] {s : Station σ} (now : Nat)

theorem coherent_converge (h : s.link.Coherent) : (s.converge now).link.Coherent :=
  converge_induct now s (p := fun t : Station σ => t.link.Coherent) h
    fun _ _ ⟨_, _, ha⟩ => .advance ha

theorem coherent_perform (h : s.link.Coherent) (settled : s.link.Settled) (a : Action) :
    (s.perform now a).2.link.Coherent ∧ (s.perform now a).2.link.Settled := by
  obtain ⟨traffic, l, bus, hr, -, heq⟩ := converges_perform now settled a
  rw [heq]
  exact ⟨coherent_converge now (h.reacts hr settled), settled_converge now _⟩

/-- A link that starts at rest is at rest after every history of actions. -/
theorem coherent_run (history : List (Nat × Action)) (h : s.link.Coherent)
    (settled : s.link.Settled) : (s.run history).link.Coherent ∧ (s.run history).link.Settled := by
  induction history generalizing s with
  | nil => exact ⟨h, settled⟩
  | cons entry rest ih =>
    obtain ⟨now, a⟩ := entry
    obtain ⟨hnext, hsettled⟩ := coherent_perform now h settled a
    exact ih hnext hsettled

/-- After every history of actions of a new link, over any radio, the link is at rest:
state and target agree, it has an address iff it is connected, it is armed iff it is not
stopped, and stopped it has no retry. And a link in any state with any target settles in
at most two moves, so converging is making these moves, whatever their bound from two up. -/
theorem rests_in_two_moves (policy : LinkPolicy) (bus : Bus σ) (history : List (Nat × Action)) :
    (run ⟨.new policy, bus⟩ history).link.Rests ∧
      ∀ (now : Nat) (s : Station σ), ∃ n ≤ 2, SettlesIn now s n ∧
        s.converge now = (step now)^[n] s ∧
        ∀ moves, 2 ≤ moves → s.convergeWithin now moves = s.converge now := by
  obtain ⟨hcoherent, hsettled⟩ :=
    coherent_run (s := ⟨.new policy, bus⟩) history (.new policy) rfl
  refine ⟨hcoherent.rests hsettled, fun now s => ?_⟩
  obtain ⟨n, hn, h⟩ := settlesIn_two now s
  have hconverge : s.converge now = (step now)^[n] s := h.convergeWithin (by omega)
  refine ⟨n, hn, h, hconverge, fun moves hmoves => ?_⟩
  rw [hconverge, h.convergeWithin (by omega)]

end Station

end WifiAdapter
