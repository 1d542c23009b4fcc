import WifiAdapter.Proofs.Courses

/-! What stands apart from the sockets.

The link, the notifications that wait for the worker, the count of the refused ones, the settings
and the buffer of datagrams are changed by chores only (`Adapter.Step.apart_eq`): the link by those
that concern the link (`Adapter.Step.link_eq`), the notifications and their count by those that
concern the queue (`Adapter.Step.queue_eq`), and the settings by none (`Adapter.Step.config_eq`).
No chore overfills the buffer (`Adapter.Step.fits`). -/
namespace WifiAdapter.Adapter
variable {σ : Type}

/-- The link, the notifications that wait for the worker with the count of the refused ones, the
settings and the buffer of datagrams. -/
def apart (a : Adapter σ) :
    Link × (Queue notificationCapacity Notification × UInt32) × Config × Bytes :=
  (a.link, (a.notifications, a.overflowed), a.config, a.scratch)

section Apart
variable {a b : Adapter σ}

@[simp] theorem apart_announce (a : Adapter σ) (e : Event) : (a.announce e).apart = a.apart := by
  obtain ⟨_, _, h⟩ := announce_eq a e
  rw [h]
  rfl

@[simp] theorem apart_handOver (a : Adapter σ) (h : Handle) (packet : Packet) :
    (a.handOver h packet).apart = a.apart := apart_announce ..

@[simp] theorem apart_wake (a : Adapter σ) (h : Handle) (status : Status) :
    (a.wake h status).apart = a.apart := by
  rw [wake_eq]
  rfl

theorem apart_endStream (a : Adapter σ) (h : Handle) (status : Status) (read : ReadStatus) :
    (a.endStream h status read).apart = a.apart := by
  unfold endStream
  dsimp only
  split
  · exact (apart_announce ..).trans (apart_wake ..)
  · rfl

theorem Answered.apart_eq {i : Incarnation} {d : Delivery} (hab : a.Answered i d b) :
    b.apart = a.apart := by
  cases hab with
  | noData | keep => rfl
  | finish => exact apart_handOver ..
  | ended => exact apart_endStream ..

variable [Chip σ] {D : Deed → Prop} {site? : Option Handle}

theorem apart_resumeFlow (a : Adapter σ) : a.resumeFlow.apart = a.apart := by
  obtain ⟨_, _, heq, _⟩ := resumeFlow_eq a
  rw [heq]
  rfl

theorem apart_close (a : Adapter σ) (h : Handle) : (a.close h).apart = a.apart := by
  cases hr : a.table.get? h with
  | none => rw [close_none a h hr]
  | some r =>
    rw [close_some a hr]
    dsimp only
    split <;> rfl

theorem Move.apart_eq (hab : Move D a b) : Chore D a b ∨ b.apart = a.apart := by
  cases hab with
  | chore hab => exact .inl hab
  | create => exact .inr rfl
  | register =>
    rw [register_eq]
    dsimp only
    split <;> exact .inr (apart_announce ..)
  | read h =>
    rcases a.receive_cases h with ⟨_, heq⟩ | ⟨_, _, _, _, _, _, heq⟩ <;> rw [heq] <;> exact .inr rfl
  | resume | lease => exact .inr (apart_resumeFlow _)
  | pause =>
    obtain ⟨_, _, _, heq, _⟩ := pauseFlow_eq a
    rw [heq]
    exact .inr rfl
  | settle => exact .inr (apart_handOver ..)
  | ask _ hpacket =>
    rw [ask_eq a _ hpacket]
    dsimp only
    split <;> exact .inr rfl
  | answer _ _ hab => exact .inr hab.apart_eq

/-- What is no chore leaves all of it alone. -/
theorem Step.apart_eq (hab : Step D site? a b) : Chore D a b ∨ b.apart = a.apart := by
  cases hab with
  | move hab => exact hab.apart_eq
  | close => exact .inr (apart_close ..)
  | call _ hcall => cases hcall <;> exact .inr rfl

/-! ### The link -/

theorem Chore.link_eq (hD : ¬ D .link) (hab : Chore D a b) : b.link = a.link := by
  cases hab with
  | link _ hd => exact absurd hd hD
  | complete => exact congrArg Prod.fst (apart_wake ..)
  | writable | linkEvent => exact congrArg Prod.fst (apart_announce ..)
  | _ => rfl

/-- The link is left alone. -/
theorem Step.link_eq (hD : ¬ D .link) (hab : Step D site? a b) : b.link = a.link := by
  rcases hab.apart_eq with hchore | hsame
  · exact hchore.link_eq hD
  · exact congrArg Prod.fst hsame

/-! ### The queue of the worker -/

theorem Chore.queue_eq (hD : ¬ D .queue) (hab : Chore D a b) : b.apart.2.1 = a.apart.2.1 := by
  cases hab with
  | queues _ _ _ hd =>
    obtain ⟨rfl, rfl⟩ := hd.resolve_left hD
    rfl
  | complete => exact congrArg (·.2.1) (apart_wake ..)
  | writable | linkEvent => exact congrArg (·.2.1) (apart_announce ..)
  | _ => rfl

theorem Step.queue_eq (hD : ¬ D .queue) (hab : Step D site? a b) : b.apart.2.1 = a.apart.2.1 := by
  rcases hab.apart_eq with hchore | hsame
  · exact hchore.queue_eq hD
  · exact congrArg (·.2.1) hsame

/-- The queue of the worker is left alone, and so is the count of what it had no room for. -/
theorem Steps.queue_eq (hD : ¬ D .queue) (h : Steps D site? a b) :
    b.notifications = a.notifications ∧ b.overflowed = a.overflowed := by
  have hsame : b.apart.2.1 = a.apart.2.1 := by
    induction h with
    | refl => rfl
    | tail _ hstep ih => exact (hstep.queue_eq hD).trans ih
  exact ⟨congrArg Prod.fst hsame, congrArg Prod.snd hsame⟩

/-! ### The settings and the buffer of datagrams -/

theorem Step.config_eq (hab : Step D site? a b) : b.config = a.config := by
  rcases hab.apart_eq with hchore | hsame
  · exact hchore.quiet.config
  · exact congrArg (·.2.2.1) hsame

theorem Chore.fits (hab : Chore D a b) (ha : a.scratch.length ≤ datagramCapacity) :
    b.scratch.length ≤ datagramCapacity := by
  cases hab with
  | scratch _ hfits => exact hfits
  | complete =>
    rw [show (a.complete ..).scratch = a.scratch from congrArg (·.2.2.2) (apart_wake ..)]
    exact ha
  | writable | linkEvent =>
    rw [show (a.announce _).scratch = a.scratch from congrArg (·.2.2.2) (apart_announce ..)]
    exact ha
  | _ => exact ha

/-- The buffer of datagrams never holds more than it has room for. -/
theorem Step.fits (hab : Step D site? a b) (ha : a.scratch.length ≤ datagramCapacity) :
    b.scratch.length ≤ datagramCapacity := by
  rcases hab.apart_eq with hchore | hsame
  · exact hchore.fits ha
  · rw [show b.scratch = a.scratch from congrArg (·.2.2.2) hsame]
    exact ha

end Apart

end WifiAdapter.Adapter
