import WifiAdapter.Proofs.Patience

/-! Where a parked task comes from.

A task that is parked after an action was parked before it, or it is what is left of one that
was polled, or the action began it (`Session.Origin`). Numbers are given out in ascending
order, so a number stands for one operation all the time (`Session.parked_before`). -/
namespace WifiAdapter

namespace Task
variable {σ : Type}

/-- What is left of a call is a call on the same socket, for the same. -/
theorem call_of_contend {old : Task} {c : Call} {now : Nat} {a b : Adapter σ}
    (h : old.contend now a = (.waiting (.call c), b)) :
    ∃ d, old = .call d ∧ d.socket = c.socket ∧ d.purpose? = c.purpose? ∧
      c = (d.look now a).1 ∧ b = (d.look now a).2 := by
  cases old with
  | call d =>
    cases h
    obtain ⟨hsocket, hpurpose, _⟩ := d.look_keeps now (a := a)
    exact ⟨d, rfl, hsocket.symm, hpurpose.symm, rfl, rfl⟩
  | post note => exact absurd (congrArg Prod.fst h) (pollPost_ne_call note a c)
  | nextEvent => exact absurd (congrArg Prod.fst h) (pollEvent_ne_call a c)
  | work w => cases h

/-- A call that is polled and goes on is the same call, and nothing was done. -/
theorem call_of_poll [Chip σ] {old : Task} {c : Call} {now : Nat} {a b : Adapter σ}
    (h : old.poll now a = (.waiting (.call c), b)) : old = .call c ∧ b = a := by
  cases old with
  | call d =>
    change (ofCall (d.poll now a).1, (d.poll now a).2) = _ at h
    rw [Call.poll_eq] at h
    cases hseen : (d.look now a).1.seen? with
    | none =>
      obtain ⟨hunseen, _, hlook⟩ := Call.look_unseen now hseen
      rw [hlook, Call.conclude_unseen hunseen] at h
      cases h
      exact ⟨rfl, rfl⟩
    | some outcome =>
      rw [Call.conclude_seen hseen] at h
      cases h
  | post note => exact absurd (congrArg Prod.fst h) (pollPost_ne_call note a c)
  | nextEvent => exact absurd (congrArg Prod.fst h) (pollEvent_ne_call a c)
  | work w => cases h

end Task

namespace Session
variable {σ : Type} {s : Session σ} {id k : Nat} {t : Task}

/-! ### The list of tasks -/

theorem find?_park (s : Session σ) (t : Task) (id : Nat) :
    (s.park t).2.find? id = (s.find? id).or (if id = s.nextTask then some t else none) := by
  unfold find? park
  rw [List.find?_append]
  cases s.tasks.find? (·.id == id) with
  | some parked => rfl
  | none =>
    by_cases hid : id = s.nextTask
    · simp [hid]
    · simp [hid, Ne.symm hid]

theorem find?_remove (s : Session σ) (k id : Nat) :
    (s.remove k).find? id = if id = k then none else s.find? id := by
  unfold find? remove
  rw [List.find?_filter]
  by_cases hid : id = k
  · simp [hid]
  · rw [if_neg hid]
    congr 2
    funext parked
    by_cases hp : parked.id = id
    · simp [hp, hid]
    · simp [hp]

theorem find?_replace (s : Session σ) (k : Nat) (t : Task) (id : Nat) :
    (s.replace k t).find? id = (s.find? id).map fun old => if id = k then t else old := by
  unfold find? replace
  rw [List.find?_map]
  have hsame : ((fun p : Parked => p.id == id) ∘ fun p => if p.id = k then { p with task := t } else p) =
      fun p : Parked => p.id == id := by
    funext parked
    by_cases hp : parked.id = k
    · simp [hp]
    · simp [hp]
  rw [hsame, Option.map_map, Option.map_map]
  cases hfind : s.tasks.find? (·.id == id) with
  | none => rfl
  | some parked =>
    have hid : parked.id = id := by simpa using List.find?_some hfind
    by_cases hk : id = k
    · simp [hk, hid]
    · simp [hk, hid]

/-- What is parked after an operation began was parked before, or it is the operation. -/
theorem find?_begin {f : Nat → Adapter σ → Task.Outcome × Adapter σ}
    (h : (s.begin f).2.find? id = some t) :
    s.find? id = some t ∨ (id = s.nextTask ∧ s.nextTask < (s.begin f).2.nextTask ∧
      f s.clock s.adapter = (.waiting t, (s.begin f).2.adapter)) := by
  unfold begin at h ⊢
  split at h
  · exact .inl h
  · next task adapter heq =>
    rw [heq]
    change (({ s with adapter } : Session σ).park task).2.find? id = some t at h
    rw [find?_park] at h
    cases hfind : s.find? id with
    | some old =>
      rw [show ({ s with adapter } : Session σ).find? id = some old from hfind] at h
      exact .inl h
    | none =>
      rw [show ({ s with adapter } : Session σ).find? id = none from hfind, Option.none_or] at h
      split at h
      · next hid =>
        cases h
        exact .inr ⟨hid, Nat.lt_succ_self _, rfl⟩
      · cases h

theorem nextTask_begin (s : Session σ) (f : Nat → Adapter σ → Task.Outcome × Adapter σ) :
    s.nextTask ≤ (s.begin f).2.nextTask := by
  unfold begin
  split
  · exact Nat.le_refl _
  · exact Nat.le_succ _

/-- What is parked after a poll was not polled, or it is what is left of what was. -/
theorem find?_pollWith {f : Task → Nat → Adapter σ → Task.Outcome × Adapter σ}
    (h : (s.pollWith f k).2.find? id = some t) :
    (s.find? id = some t ∧ id ≠ k) ∨ (id = k ∧ ∃ old, s.find? id = some old ∧
      f old s.clock s.adapter = (.waiting t, (s.pollWith f k).2.adapter)) := by
  unfold pollWith at h ⊢
  cases hfind : s.find? k with
  | none =>
    rw [hfind] at h
    refine .inl ⟨h, ?_⟩
    rintro rfl
    cases hfind.symm.trans h
  | some old =>
    rw [hfind] at h
    dsimp only at h ⊢
    revert h
    cases hf : f old s.clock s.adapter with
    | mk outcome adapter =>
      intro h
      cases outcome with
      | finished result =>
        change (({ s with adapter } : Session σ).remove k).find? id = some t at h
        rw [find?_remove] at h
        split at h
        · cases h
        · next hid => exact .inl ⟨h, hid⟩
      | waiting task =>
        change (({ s with adapter } : Session σ).replace k task).find? id = some t at h
        rw [find?_replace] at h
        obtain ⟨before, hbefore, htask⟩ := Option.map_eq_some_iff.mp h
        change s.find? id = some before at hbefore
        by_cases hid : id = k
        · rw [if_pos hid] at htask
          subst hid htask
          cases hfind.symm.trans hbefore
          exact .inr ⟨rfl, old, hfind, hf⟩
        · rw [if_neg hid] at htask
          exact .inl ⟨htask ▸ hbefore, hid⟩

theorem nextTask_pollWith (s : Session σ) (f : Task → Nat → Adapter σ → Task.Outcome × Adapter σ)
    (k : Nat) : (s.pollWith f k).2.nextTask = s.nextTask := by
  unfold pollWith
  split
  · rfl
  · split <;> rfl

/-! ### Actions -/

variable [Chip σ]

/-- Where a task that is parked after an action comes from. -/
inductive Origin (s : Session σ) (action : Action σ) (id : Nat) (t : Task) : Prop where
  | kept (h : s.find? id = some t) (hpoll : action ≠ .poll id) (hcontend : action ≠ .contend id)
  | polled {old : Task} (haction : action = .poll id) (h : s.find? id = some old)
      (hrest : old.poll s.clock s.adapter = (.waiting t, (s.perform action).2.adapter))
  | contended {old : Task} (haction : action = .contend id) (h : s.find? id = some old)
      (hrest : old.contend s.clock s.adapter = (.waiting t, (s.perform action).2.adapter))
  /-- A call that begins is a bind or a listen. -/
  | begun (hid : id = s.nextTask) (hnext : s.nextTask < (s.perform action).2.nextTask)
      (hcall : ∀ c, t = .call c → ∃ h,
        Call.Begun h s.adapter (.waiting c, (s.perform action).2.adapter))

/-- An operation of the application that is no bind and no listen. -/
theorem origin_begin {action : Action σ} {f : Nat → Adapter σ → Task.Outcome × Adapter σ}
    (haction : (s.perform action).2 = (s.begin f).2) (hpoll : action ≠ .poll id)
    (hcontend : action ≠ .contend id)
    (hcall : ∀ c, (f s.clock s.adapter).1 = .waiting (.call c) → ∃ h,
      Call.Begun h s.adapter (.waiting c, (f s.clock s.adapter).2))
    (h : (s.perform action).2.find? id = some t) : s.Origin action id t := by
  rw [haction] at h
  rcases find?_begin h with h | ⟨hid, hnext, hf⟩
  · exact .kept h hpoll hcontend
  · refine .begun hid (haction ▸ hnext) ?_
    rintro c rfl
    rw [hf] at hcall
    rw [haction]
    exact hcall c rfl

/-- A bind or a listen. -/
theorem origin_call {action : Action σ} {h : Handle}
    {f : Nat → Adapter σ → Call.Outcome × Adapter σ}
    (haction : (s.perform action).2 =
      (s.begin fun now a => (Task.ofCall (f now a).1, (f now a).2)).2)
    (hpoll : action ≠ .poll id) (hcontend : action ≠ .contend id)
    (hbegun : Call.Begun h s.adapter (f s.clock s.adapter))
    (hfound : (s.perform action).2.find? id = some t) : s.Origin action id t := by
  refine origin_begin haction hpoll hcontend (fun c hc => ⟨h, ?_⟩) hfound
  revert hbegun hc
  dsimp only
  generalize f s.clock s.adapter = first
  obtain ⟨outcome, b⟩ := first
  intro hbegun hc
  cases outcome with
  | waiting d =>
    cases hc
    exact hbegun
  | finished result => cases hc

theorem origin_perform (action : Action σ) (h : (s.perform action).2.find? id = some t) :
    s.Origin action id t := by
  cases action with
  | bind k address =>
    exact origin_call (f := Call.bind k address) (Reply.ofBegun_snd _) nofun nofun
      (Call.begun_bind k address _ _) h
  | listen k backlog =>
    exact origin_call (f := Call.listen k backlog) (Reply.ofBegun_snd _) nofun nofun
      (Call.begun_listen k backlog _ _) h
  | post note =>
    exact origin_begin (Reply.ofBegun_snd _) nofun nofun
      (fun c hc => absurd hc (Task.pollPost_ne_call note _ c)) h
  | nextEvent =>
    exact origin_begin (Reply.ofBegun_snd _) nofun nofun
      (fun c hc => absurd hc (Task.pollEvent_ne_call _ c)) h
  | work => exact origin_begin (Reply.ofBegun_snd _) nofun nofun (fun c hc => by cases hc) h
  | poll k =>
    have hadapter := congrArg Session.adapter (Reply.ofPolled_snd (s.poll k))
    rw [show (s.perform (.poll k)).2 = (s.poll k).2 from Reply.ofPolled_snd _] at h
    rcases find?_pollWith h with ⟨h, hid⟩ | ⟨rfl, old, hold, hf⟩
    · exact .kept h (fun heq => hid (Action.poll.inj heq).symm) nofun
    · exact .polled rfl hold (hf.trans (congrArg (Prod.mk _) hadapter.symm))
  | contend k =>
    have hadapter := congrArg Session.adapter (Reply.ofPolled_snd (s.contend k))
    rw [show (s.perform (.contend k)).2 = (s.contend k).2 from Reply.ofPolled_snd _] at h
    rcases find?_pollWith h with ⟨h, hid⟩ | ⟨rfl, old, hold, hf⟩
    · exact .kept h nofun fun heq => hid (Action.contend.inj heq).symm
    · exact .contended rfl hold (hf.trans (congrArg (Prod.mk _) hadapter.symm))
  | cancel k =>
    change (s.remove k).find? id = some t at h
    rw [find?_remove] at h
    split at h
    · cases h
    · exact .kept h nofun nofun
  | receive k =>
    have htasks : (s.receive k).2.tasks = s.tasks := by
      unfold receive
      split <;> rfl
    change (s.receive k).2.find? id = some t at h
    unfold find? at h
    rw [htasks] at h
    exact .kept h nofun nofun
  | drop place =>
    have htasks : (s.drop place).2.tasks = s.tasks := by
      unfold drop
      split <;> rfl
    change (s.drop place).2.find? id = some t at h
    unfold find? at h
    rw [htasks] at h
    exact .kept h nofun nofun
  | _ => exact .kept h nofun nofun

theorem nextTask_perform (s : Session σ) (action : Action σ) :
    s.nextTask ≤ (s.perform action).2.nextTask := by
  have hbegin (f : Nat → Adapter σ → Task.Outcome × Adapter σ) :
      s.nextTask ≤ (Reply.ofBegun (s.begin f)).2.nextTask := by
    rw [Reply.ofBegun_snd]
    exact nextTask_begin s f
  have hpoll (f : Task → Nat → Adapter σ → Task.Outcome × Adapter σ) (k : Nat) :
      s.nextTask ≤ (Reply.ofPolled (s.pollWith f k)).2.nextTask := by
    rw [Reply.ofPolled_snd]
    exact Nat.le_of_eq (nextTask_pollWith s f k).symm
  cases action with
  | bind | listen | post | nextEvent | work => exact hbegin _
  | poll k => exact hpoll _ k
  | contend k => exact hpoll _ k
  | receive k =>
    show s.nextTask ≤ (s.receive k).2.nextTask
    unfold receive
    split <;> exact Nat.le_refl _
  | drop place =>
    show s.nextTask ≤ (s.drop place).2.nextTask
    unfold drop
    split <;> exact Nat.le_refl _
  | _ => exact Nat.le_refl _

/-! ### Histories -/

/-- Every number that is in use was given out. -/
def Numbered (s : Session σ) : Prop := ∀ id t, s.find? id = some t → id < s.nextTask

omit [Chip σ] in
theorem numbered_new (chip : σ) (packets : Nat) (config : Config) :
    (new chip packets config).Numbered := fun id t h => by cases h

omit [Chip σ] in
/-- The next number is not in use. -/
theorem find?_nextTask (hs : s.Numbered) : s.find? s.nextTask = none := by
  cases hfind : s.find? s.nextTask with
  | none => rfl
  | some t => exact absurd (hs _ t hfind) (Nat.lt_irrefl _)

theorem numbered_perform (hs : s.Numbered) (action : Action σ) : (s.perform action).2.Numbered := by
  intro id t h
  have hnext := nextTask_perform s action
  cases origin_perform action h with
  | kept hold => exact Nat.lt_of_lt_of_le (hs id t hold) hnext
  | polled _ hold => exact Nat.lt_of_lt_of_le (hs id _ hold) hnext
  | contended _ hold => exact Nat.lt_of_lt_of_le (hs id _ hold) hnext
  | begun hid hlt => exact hid ▸ hlt

theorem numbered_run (hs : s.Numbered) (actions : List (Action σ)) : (s.run actions).Numbered := by
  induction actions generalizing s with
  | nil => exact hs
  | cons action rest ih => exact ih (numbered_perform hs action)

/-- A parked call was parked before the action, on the same socket and for the same, or the action
began it. -/
theorem parked_or_begun {action : Action σ} {c : Call}
    (h : (s.perform action).2.find? id = some (.call c)) :
    (∃ d, s.find? id = some (.call d) ∧ d.socket = c.socket ∧ d.purpose? = c.purpose?) ∨
      (id = s.nextTask ∧ Call.Begun c.socket.handle s.adapter
        (.waiting c, (s.perform action).2.adapter)) := by
  cases origin_perform action h with
  | kept hold => exact .inl ⟨c, hold, rfl, rfl⟩
  | polled _ hold hrest =>
    obtain ⟨rfl, _⟩ := Task.call_of_poll hrest
    exact .inl ⟨c, hold, rfl, rfl⟩
  | contended _ hold hrest =>
    obtain ⟨d, rfl, hsame, hpurpose, _⟩ := Task.call_of_contend hrest
    exact .inl ⟨d, hold, hsame, hpurpose⟩
  | begun hid _ hcall =>
    obtain ⟨k, hbegun⟩ := hcall c rfl
    have hhandle := (hbegun.waits c rfl).1
    exact .inr ⟨hid, hhandle ▸ hbegun⟩

/-- A call whose number was given out before was parked then, on the same socket and for the
same. -/
theorem same_call_before {actions : List (Action σ)} (hid : id < s.nextTask) {c : Call}
    (h : (s.run actions).find? id = some (.call c)) :
    ∃ d, s.find? id = some (.call d) ∧ d.socket = c.socket ∧ d.purpose? = c.purpose? := by
  induction actions generalizing s with
  | nil => exact ⟨c, h, rfl, rfl⟩
  | cons action rest ih =>
    obtain ⟨d, hd, hsocket, hpurpose⟩ := ih (Nat.lt_of_lt_of_le hid (nextTask_perform s action)) h
    rcases parked_or_begun hd with ⟨e, he, hsame, hfor⟩ | ⟨hnew, _⟩
    · exact ⟨e, he, hsame.trans hsocket, hfor.trans hpurpose⟩
    · omega

/-- A call whose number was given out before was parked then, on the same socket. -/
theorem parked_before {actions : List (Action σ)} (hid : id < s.nextTask) {c : Call}
    (h : (s.run actions).find? id = some (.call c)) :
    ∃ d, s.find? id = some (.call d) ∧ d.socket = c.socket := by
  obtain ⟨d, hd, hsocket, _⟩ := same_call_before hid h
  exact ⟨d, hd, hsocket⟩

end Session

end WifiAdapter
