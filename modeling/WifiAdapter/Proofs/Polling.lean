import WifiAdapter.Proofs.Steady

/-! How the adapter asks for data, as moves.

Every poll is a sequence of moves when it starts from a steady adapter (`Leads`): the
receive state then rules out the cases that receiving provides for and does not
expect. A notification that is no answer leads on and may end with a poll of its own
(`Prompts`); after an answer, receiving goes on at a slot that the answer determines
(`Resumes`, `resumption`). -/
namespace WifiAdapter.Adapter
variable {σ : Type} [Chip σ]

def Moves (D : Deed → Prop) : Adapter σ → Adapter σ → Prop := Relation.ReflTransGen (Move D)

variable {D : Deed → Prop}

theorem Moves.steady {a b : Adapter σ} (h : Moves D a b) (ha : a.Steady) : b.Steady := by
  induction h with
  | refl => exact ha
  | tail _ hmove ih => exact hmove.steady ih

variable (D) in
/-- From a steady adapter, moves lead to `b`. -/
def Leads (a b : Adapter σ) : Prop := a.Steady → Moves D a b

section Leads
variable {a b c : Adapter σ}

theorem Leads.refl (a : Adapter σ) : Leads D a a := fun _ => .refl

theorem Leads.trans (h : Leads D a b) (h' : Leads D b c) : Leads D a c := fun ha =>
  have hab := h ha
  Relation.ReflTransGen.trans hab (h' (hab.steady ha))

theorem Leads.move (h : a.Steady → Move D a b) : Leads D a b := fun ha => .single (h ha)

theorem Leads.chore (h : Chore D a b) : Leads D a b := .move fun _ => .chore h

/-- Moves that allow less are moves that allow more. -/
theorem Leads.mono {D' : Deed → Prop} (h : Leads D a b) (hD : ∀ d, D d → D' d) : Leads D' a b :=
  fun ha => Relation.ReflTransGen.mono (fun _ _ hmove => hmove.mono hD) _ _ (h ha)

end Leads

/-! ### A packet in flight -/

theorem leads_ensurePacket (a : Adapter σ) : Leads D a a.ensurePacket.2 := by
  unfold ensurePacket
  cases hp : a.rx.packet? with
  | some packet => exact .move fun _ => .resume a
  | none =>
    cases hl : a.pool.lease? a.config.rxPacketSize with
    | some leased => exact .move fun _ => .lease a hp hl
    | none => exact .move fun _ => .pause a hp hl

/-- Whoever is asked or has bytes in flight, a packet makes no difference to it. -/
theorem ensurePacket_spec (a : Adapter σ) :
    a.ensurePacket.2.table = a.table ∧ a.ensurePacket.2.rx.cursor? = a.rx.cursor? ∧
      a.ensurePacket.2.rx.owner? = a.rx.owner? ∧
      (a.ensurePacket.1 = true → a.ensurePacket.2.rx.packet?.isSome = true) := by
  unfold ensurePacket
  cases hp : a.rx.packet? with
  | some packet =>
    obtain ⟨bus, es, heq, -⟩ := resumeFlow_eq a
    dsimp only
    rw [heq]
    exact ⟨rfl, rfl, rfl, fun _ => by simp [hp]⟩
  | none =>
    cases hl : a.pool.lease? a.config.rxPacketSize with
    | some leased =>
      obtain ⟨packet, pool⟩ := leased
      obtain ⟨bus, es, heq, -⟩ := resumeFlow_eq
        ({ a with pool }.onRx fun r => { r with packet? := some packet })
      dsimp only
      rw [heq]
      exact ⟨rfl, rfl, rfl, fun _ => rfl⟩
    | none =>
      obtain ⟨bus, stats, es, heq, -⟩ := pauseFlow_eq a
      dsimp only
      rw [heq]
      exact ⟨rfl, rfl, rfl, nofun⟩

/-! ### Partial packets -/

omit [Chip σ] in
/-- The owner of the bytes in flight gets them, or there is none. -/
theorem settlePartial_eq {a : Adapter σ} (ha : a.Steady) :
    (a.rx.owner? = none ∧ a.settlePartial = a) ∨
      ∃ i packet, a.rx.owner? = some i ∧ a.rx.packet? = some packet ∧
        a.settlePartial = (a.onRx .part).handOver i.handle packet := by
  unfold settlePartial
  cases ho : a.rx.owner? with
  | none => exact .inl ⟨rfl, rfl⟩
  | some i =>
    have howes := ha.sound.owned i ho
    obtain ⟨packet, hp, _⟩ := howes.packet
    refine .inr ⟨i, packet, rfl, hp, ?_⟩
    dsimp only
    rw [if_pos howes.current]
    exact finishPacket_eq a i.handle hp (ha.sound.isOpen (.inr ho))

omit [Chip σ] in
/-- It makes no difference whether a receive is outstanding. -/
theorem settlePartial_withdraw {a : Adapter σ} (ha : a.Steady) :
    a.settlePartial.onRx .withdraw = (a.onRx .withdraw).settlePartial := by
  rcases settlePartial_eq ha with ⟨ho, heq⟩ | ⟨i, packet, ho, hp, heq⟩
  · rcases settlePartial_eq (steady_withdraw ha) with ⟨_, heq'⟩ | ⟨j, _, ho', _⟩
    · rw [heq, heq']
    · cases ho.symm.trans ho'
  · rcases settlePartial_eq (steady_withdraw ha) with ⟨ho', _⟩ | ⟨j, packet', ho', hp', heq'⟩
    · cases ho.symm.trans ho'
    · cases ho.symm.trans ho'
      cases hp.symm.trans hp'
      rw [heq, heq', onRx_handOver]
      rfl

theorem leads_settlePartial {a : Adapter σ} (hc : a.rx.cursor? = none) :
    Leads D a a.settlePartial := by
  intro ha
  rcases settlePartial_eq ha with ⟨_, heq⟩ | ⟨i, packet, ho, hp, heq⟩
  · rw [heq]
    exact .refl
  · rw [heq]
    exact .single (.settle a hc ho hp)

omit [Chip σ] in
/-- Nothing is in flight afterwards, and every socket wants data just as before. -/
theorem settlePartial_spec {a : Adapter σ} (ha : a.Steady) :
    a.settlePartial.rx.cursor? = a.rx.cursor? ∧ a.settlePartial.rx.paused = a.rx.paused ∧
      a.settlePartial.rx.owner? = none ∧
      ∀ h, a.settlePartial.table.awaits h = a.table.awaits h := by
  rcases settlePartial_eq ha with ⟨ho, heq⟩ | ⟨i, packet, _, _, heq⟩
  · rw [heq]
    exact ⟨rfl, rfl, ho, fun _ => rfl⟩
  · rw [heq, rx_handOver, table_handOver]
    exact ⟨rfl, rfl, rfl, fun h => SocketTable.awaits_requeue a.table i.handle h (· ++ [packet])⟩

/-! ### Asking -/

/-- Room for the bytes of `h` while nothing is outstanding. -/
theorem clearFor_spec {a : Adapter σ} (ha : a.Steady) (hc : a.rx.cursor? = none)
    (hp : a.rx.packet?.isSome = true) (h : Handle) :
    Moves D a (a.clearFor h).2 ∧ (a.clearFor h).2.rx.cursor? = none ∧
      ((a.clearFor h).1 = true →
        (a.clearFor h).2.rx.packet?.isSome = true ∧
        ((a.clearFor h).2.rx.owner? = none ∨
          (a.clearFor h).2.rx.owner? = some ((a.clearFor h).2.table.incarnation h)) ∧
        ∀ k, (a.clearFor h).2.table.awaits k = a.table.awaits k) := by
  unfold clearFor
  cases ho : a.rx.owner? with
  | none => exact ⟨.refl, hc, fun _ => ⟨hp, .inl ho, fun _ => rfl⟩⟩
  | some owner =>
    dsimp only
    by_cases hown : owner = a.table.incarnation h
    · rw [if_pos hown]
      exact ⟨.refl, hc, fun _ => ⟨hp, .inr (by rw [ho, hown]), fun _ => rfl⟩⟩
    · rw [if_neg hown]
      obtain ⟨hcursor, -, howner, hawaits⟩ := settlePartial_spec ha
      obtain ⟨htable, hcursor', howner', hpacket⟩ := ensurePacket_spec a.settlePartial
      refine ⟨(leads_settlePartial hc).trans (leads_ensurePacket _) ha, ?_, fun hsome => ?_⟩
      · rw [hcursor', hcursor, hc]
      · exact ⟨hpacket hsome, .inl (howner'.trans howner), fun k => by rw [htable, hawaits]⟩

/-- Asking one socket after the other while nothing is outstanding. -/
theorem leads_pollEach (hd : D .ask) (l : List Handle) {a : Adapter σ} (hc : a.rx.cursor? = none)
    (hp : a.rx.packet?.isSome = true) : Leads D a (pollEach l a) := by
  induction l generalizing a with
  | nil => exact .refl a
  | cons h rest ih =>
    intro ha
    unfold pollEach
    by_cases hawaits : a.table.awaits h = true
    · rw [if_pos hawaits]
      obtain ⟨hmoves, hcursor, hready⟩ := clearFor_spec (D := D) ha hc hp h
      revert hmoves hcursor hready
      generalize a.clearFor h = cleared
      obtain ⟨ok, b⟩ := cleared
      intro hmoves hcursor hready
      cases ok with
      | false => exact hmoves
      | true =>
        obtain ⟨hpacket, howner, hsame⟩ := hready rfl
        have hasked : Moves D b (b.ask h).2 :=
          .single (.ask b hcursor hpacket ((hsame h).trans hawaits) howner hd)
        have hrx := rx_ask_of_refused b h hpacket
        revert hasked hrx
        dsimp only
        generalize b.ask h = asked
        obtain ⟨taken, c⟩ := asked
        intro hasked hrx
        cases taken with
        | true => exact hmoves.trans hasked
        | false =>
          have hbc : c.rx = b.rx := hrx rfl
          have hrest := ih (by rw [hbc]; exact hcursor) (by rw [hbc]; exact hpacket)
            (hasked.steady (hmoves.steady ha))
          exact (hmoves.trans hasked).trans hrest
    · rw [if_neg hawaits]
      exact ih hc hp ha

omit [Chip σ] in
/-- With nothing outstanding there is nothing to forget. -/
theorem withdraw_of_idle {a : Adapter σ} (ha : a.Steady) (hc : a.rx.cursor? = none) :
    a.onRx .withdraw = a := by
  have hrx : a.rx.withdraw = a.rx := by
    rw [RxState.withdraw, ← hc, ← ha.sound.polling_eq_false hc]
  rw [onRx, hrx]

theorem leads_pollFrom (hd : D .ask) {a : Adapter σ} (hc : a.rx.cursor? = none) (start : Nat) :
    Leads D a (a.pollFrom start) := by
  intro ha
  have hready := leads_ensurePacket (D := D) a
  obtain ⟨_, hcursor, _, hpacket⟩ := ensurePacket_spec a
  unfold pollFrom
  rw [withdraw_of_idle ha hc]
  revert hready hcursor hpacket
  dsimp only
  generalize a.ensurePacket = ensured
  obtain ⟨ok, b⟩ := ensured
  intro hready hcursor hpacket
  cases ok with
  | false => exact hready ha
  | true => exact hready.trans (leads_pollEach hd _ (hcursor.trans hc) (hpacket rfl)) ha

theorem leads_pollIdle (hd : D .ask) (a : Adapter σ) : Leads D a a.pollIdle := by
  unfold pollIdle
  split
  · exact .refl a
  · next idle =>
    intro ha
    have hc : a.rx.cursor? = none := by
      cases hc : a.rx.cursor? with
      | none => rfl
      | some i => exact absurd (ha.sound.polling.mpr (by rw [hc]; rfl)) idle
    exact leads_pollFrom hd hc 0 ha

/-- Every poll begins by forgetting what was outstanding. -/
theorem pollFrom_withdraw (a : Adapter σ) (start : Nat) :
    (a.onRx .withdraw).pollFrom start = a.pollFrom start := rfl

/-! ### Going on -/

variable (D) in
/-- Moves lead to `b`, but for a poll from the beginning that may come last. -/
def Prompts (a b : Adapter σ) : Prop := ∃ c, Leads D a c ∧ (b = c ∨ b = c.pollIdle)

section Prompts
variable {a b c : Adapter σ}

theorem Leads.prompts (h : Leads D a b) : Prompts D a b := ⟨b, h, .inl rfl⟩

theorem Leads.prompts_pollIdle (h : Leads D a b) : Prompts D a b.pollIdle := ⟨b, h, .inr rfl⟩

theorem Leads.trans_prompts (h : Leads D a b) (h' : Prompts D b c) : Prompts D a c := by
  obtain ⟨b', hleads, hend⟩ := h'
  exact ⟨b', h.trans hleads, hend⟩

theorem Prompts.leads (h : Prompts D a b) (hask : D .ask) : Leads D a b := by
  obtain ⟨c, hleads, rfl | rfl⟩ := h
  · exact hleads
  · exact hleads.trans (leads_pollIdle hask c)

end Prompts

/-! ### Deliveries -/

/-- Where receiving goes on after an answer: at the socket itself as long as the chip has more for
it, and at the next one otherwise. -/
def resumption (h : Handle) (d : Delivery) : Nat :=
  match d.outcome with
  | .data remaining => if 0 < remaining then h.val else h.val + 1
  | _ => h.val + 1

/-- An answer is taken, and moves lead to where the next socket is asked. -/
structure Resumes (a : Adapter σ) (i : Incarnation) (d : Delivery) (b c : Adapter σ) : Prop where
  answered : a.Answered i d b
  leads : Leads Deed.None b c
  idle : c.rx.cursor? = none
  paused : c.rx.paused = a.rx.paused

section Deliveries
variable {a : Adapter σ} {i : Incarnation} {d : Delivery}

/-- Bytes for the socket that was asked. -/
theorem resumes_onData (ha : a.Steady) (hout : a.rx.outstanding? = some i) {remaining : Nat}
    (hd : d.outcome = .data remaining) :
    ∃ b c, a.Resumes i d b c ∧
      (a.noted (.socket i.handle (.received d))).onData i d remaining =
        c.pollFrom (resumption i.handle d) := by
  have hasks := ha.sound.asked i (RxState.cursor_of_outstanding hout)
  obtain ⟨before, hbefore⟩ := Option.isSome_iff_exists.mp hasks.packet
  have hopen := ha.isOpen hout
  have hresumption : resumption i.handle d =
      if 0 < remaining then i.handle.val else i.handle.val + 1 := by
    rw [resumption, hd]
  unfold onData
  rw [show (a.noted _).rx.packet? = some before from hbefore]
  dsimp only
  rw [← pollFrom_withdraw, takeIn_eq (a.noted _) hopen, hresumption]
  split
  · next hmore => exact ⟨_, _, ⟨.keep hd hbefore hmore.2, .refl _, rfl, rfl⟩, rfl⟩
  · refine ⟨_, _, ⟨.finish hd hbefore, .refl _, ?_, ?_⟩, rfl⟩ <;> rw [rx_handOver] <;> rfl

/-- The end of the stream of the socket that was asked. -/
theorem resumes_onEnd (ha : a.Steady) (hout : a.rx.outstanding? = some i) (status : Status)
    (read : ReadStatus)
    (hd : d.outcome = .closed ∧ status = .connectionAborted ∨ d.outcome = .failed status)
    (hread : read ≠ .data) (start : Nat) :
    ∃ b c, a.Resumes i d b c ∧
      ((a.noted (.socket i.handle (.received d))).endStream i.handle status read).pollFrom start =
        c.pollFrom start := by
  have hopen := ha.isOpen hout
  have hrx := rx_endStream (a.noted (.socket i.handle (.received d)) |>.onRx .withdraw) hopen status read
  rw [← pollFrom_withdraw, withdraw_endStream (a.noted _) hopen]
  refine ⟨_, _, ⟨.ended hd hread, .refl _, ?_, ?_⟩, rfl⟩ <;> rw [hrx] <;> rfl

/-- The chip has no more data for the socket that was asked. -/
theorem resumes_onNoData (ha : a.Steady) (hd : d.outcome = .noData) (start : Nat) :
    ∃ b c, a.Resumes i d b c ∧
      (a.noted (.socket i.handle (.received d))).settlePartial.pollFrom start = c.pollFrom start := by
  have hnoted : (a.noted (.socket i.handle (.received d))).Steady := steady_enter ha (by simp)
  obtain ⟨hcursor, hpaused, -⟩ := settlePartial_spec (steady_withdraw hnoted)
  rw [← pollFrom_withdraw, settlePartial_withdraw hnoted]
  exact ⟨_, _, ⟨.noData hd, leads_settlePartial rfl, hcursor, hpaused⟩, rfl⟩

/-- A delivery for the socket that was asked is taken as the answer, and then receiving goes on. -/
theorem resumes_onDelivery (ha : a.Steady) (hout : a.rx.outstanding? = some i) (d : Delivery) :
    ∃ b c, a.Resumes i d b c ∧
      (a.noted (.socket i.handle (.received d))).onDelivery i.handle d =
        c.pollFrom (resumption i.handle d) := by
  have hasks := ha.sound.asked i (RxState.cursor_of_outstanding hout)
  unfold onDelivery
  rw [show (a.noted _).rx.outstanding? = some i from hout]
  dsimp only
  rw [if_pos rfl, show (a.noted _).table.isCurrent i = true from hasks.current, if_pos rfl]
  cases hd : d.outcome with
  | data remaining =>
    unfold onAnswer
    rw [hd]
    exact resumes_onData ha hout hd
  | noData =>
    unfold onAnswer resumption
    rw [hd]
    exact resumes_onNoData ha hd _
  | closed =>
    unfold onAnswer resumption
    rw [hd]
    exact resumes_onEnd ha hout .connectionAborted .endOfStream (.inl ⟨hd, rfl⟩) nofun _
  | failed status =>
    unfold onAnswer resumption
    rw [hd]
    exact resumes_onEnd ha hout status (.failed _) (.inr hd) nofun _

/-- What follows the answer are moves. -/
theorem answered_onDelivery (hask : D .ask) (ha : a.Steady) (hout : a.rx.outstanding? = some i)
    (d : Delivery) :
    ∃ b, a.Answered i d b ∧
      Leads D b ((a.noted (.socket i.handle (.received d))).onDelivery i.handle d) := by
  obtain ⟨b, c, hresumes, heq⟩ := resumes_onDelivery ha hout d
  refine ⟨b, hresumes.answered, ?_⟩
  rw [heq]
  exact (hresumes.leads.mono nofun).trans (leads_pollFrom hask hresumes.idle _)

/-- A delivery nobody asked for is no answer. -/
theorem prompts_onStray {h : Handle} (hstray : ∀ i, a.rx.outstanding? = some i → i.handle ≠ h)
    (d : Delivery) : Prompts D a ((a.noted (.socket h (.received d))).onDelivery h d) := by
  have hnoted : Chore D a (a.noted (.socket h (.received d))) := by
    refine .note a (Option.eq_none_iff_forall_ne_some.mpr fun ⟨x, d'⟩ hx => ?_) nofun nofun
    obtain ⟨hexpecting, hhandle, _⟩ := Entry.answer?_eq_some_iff.mp hx
    obtain ⟨i, hi, rfl⟩ := Option.map_eq_some_iff.mp hexpecting
    exact hstray i hi hhandle
  have hdiscarded : Prompts D a (a.noted (.socket h (.received d))).discard.pollIdle :=
    ((Leads.chore hnoted).trans (.chore (.discard _))).prompts_pollIdle
  unfold onDelivery
  rw [show (a.noted _).rx.outstanding? = a.rx.outstanding? from rfl]
  cases hout : a.rx.outstanding? with
  | none => exact hdiscarded
  | some i =>
    dsimp only
    rw [if_neg (hstray i hout)]
    exact hdiscarded

end Deliveries

end WifiAdapter.Adapter
