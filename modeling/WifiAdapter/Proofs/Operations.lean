import WifiAdapter.Proofs.Polling
import WifiAdapter.Proofs.Station

/-! The operations of the adapter, as moves. -/
namespace WifiAdapter

theorem Command.Radio.plain {c : Command} (hc : c.Radio) : c.Plain := by
  cases c <;> trivial

namespace Adapter
variable {σ : Type} [Chip σ] {D : Deed → Prop}

theorem leads_command (a : Adapter σ) {c : Command} (hc : c.Plain) (hd : c.Radio → D .link) :
    Leads D a (a.order c) :=
  .chore (.command a hc hd)

theorem leads_issue {a b : Adapter σ} {c : Command} {answer : Answer Unit}
    (hi : a.issue c = (answer, b)) (hc : c.Plain) (hd : c.Radio → D .link) : Leads D a b := by
  have hb : b = a.order c := (congrArg Prod.snd hi).symm
  rw [hb]
  exact leads_command a hc hd

/-! ### The link -/

/-- The adapter with another link and another bus. -/
def seat (a : Adapter σ) (s : Station σ) : Adapter σ := { a with link := s.link, bus := s.bus }

theorem leads_seat (a : Adapter σ) {s t : Station σ} (h : s.Acts t) (hd : D .link) :
    Leads D (a.seat s) (a.seat t) := by
  induction h with
  | refl => exact .refl _
  | tail _ hact ih =>
    refine ih.trans (.chore ?_)
    cases hact with
    | link f => exact .link (a.seat _) _ hd
    | command hc => exact .command (a.seat _) hc.plain fun _ => hd

theorem leads_flushLinkEvents (a : Adapter σ) (hd : D .link) : Leads D a a.flushLinkEvents := by
  have hfold (l : List LinkEvent) (b : Adapter σ) :
      Leads D b (l.foldl (fun a e => a.announce (.link e)) b) := by
    induction l generalizing b with
    | nil => exact .refl b
    | cons e rest ih => exact (Leads.chore (.linkEvent b e hd)).trans (ih _)
  exact (Leads.chore (.link a _ hd)).trans (hfold _ _)

theorem leads_withStation {α : Type} (a : Adapter σ) {f : Station σ → α × Station σ}
    (hf : ∀ s : Station σ, s.Acts (f s).2) (hd : D .link) : Leads D a (a.withStation f).2 :=
  (leads_seat a (hf ⟨a.link, a.bus⟩) hd).trans (leads_flushLinkEvents _ hd)

theorem leads_request (a : Adapter σ) {f : Station σ → Except LinkError Unit × Station σ}
    (hf : ∀ s : Station σ, s.Acts (f s).2) (hd : D .link) : Leads D a (a.request f).2 :=
  (leads_withStation a hf hd).trans (.chore (.queues _ _ true _ (.inr ⟨rfl, rfl⟩)))

theorem leads_stop (a : Adapter σ) (now : Nat) (hd : D .link) : Leads D a (a.stop now) :=
  leads_withStation a (f := fun s => ((), s.stop now)) (fun s => s.acts_stop now) hd

/-! ### Sending -/

/-- A piece of a stream goes to the chip. -/
theorem leads_piece {a : Adapter σ} {bus bus' : Bus σ} {h : Handle} {data : Bytes}
    {answer : Answer Unit} (hd : D (.transmit h))
    (hi : bus.issue (.send h data) = (answer, bus')) :
    Leads D { a with bus } { a with bus := bus' } := by
  have hb : bus' = bus.order (.send h data) := (congrArg Prod.snd hi).symm
  rw [hb]
  exact .chore (.transmit { a with bus } h data hd)

/-- What the chip has no room for is left of the chain. -/
theorem leftOf_drain (bus : Bus σ) (h : Handle) (chain : Chain)
    (hblocked : (bus.drain h chain).1 = .blocked) : (bus.drain h chain).2.1.LeftOf chain := by
  fun_induction Bus.drain bus h chain with
  | case1 => cases hblocked
  | case2 _ _ _ _ _ _ _ ih =>
    have hrest := ih hblocked
    exact ⟨hrest.some, fun hsolid => hrest.solid (hsolid.advance _)⟩
  | case3 _ chain piece hpiece =>
    refine ⟨fun hempty => ?_, id⟩
    rw [Chain.piece?, Chain.front?, hempty] at hpiece
    cases hpiece
  | case4 => cases hblocked

theorem leads_drain (a : Adapter σ) (bus : Bus σ) (h : Handle) (chain : Chain)
    (hd : D (.transmit h)) :
    Leads D { a with bus } { a with bus := (bus.drain h chain).2.2 } := by
  fun_induction Bus.drain bus h chain with
  | case1 => exact .refl _
  | case2 _ _ _ _ _ _ hi ih => exact (leads_piece hd hi).trans ih
  | case3 _ _ _ _ _ hi => exact leads_piece hd hi
  | case4 _ _ _ _ _ _ hi => exact leads_piece hd hi

theorem leads_sendDatagram (a : Adapter σ) (h : Handle) (chain : Chain)
    (dest? : Option SocketAddr) : Leads D a (a.sendDatagram h chain dest?).2 := by
  unfold sendDatagram
  cases dest? with
  | none => exact .refl a
  | some dest =>
    dsimp only
    cases dest.native? with
    | none => exact .refl a
    | some address =>
      dsimp only
      split
      · exact .refl a
      · cases hpayload : Chain.flattenWithin datagramCapacity [] chain.segments with
        | none => exact .chore (.scratch a [] (Nat.zero_le _))
        | some payload =>
          have hfits := ((Chain.flattenWithin_eq_some_iff (Nat.zero_le _)).mp hpayload).2
          have hput : Leads D a { a with scratch := payload } := .chore (.scratch a payload hfits)
          dsimp only
          split
          · next hi => exact hput.trans (leads_issue hi trivial nofun)
          · next hi => exact hput.trans (leads_issue hi trivial nofun)

omit [Chip σ] in
/-- A stream that can take data is connected, and no data of it waits. -/
theorem of_streamRefusal? {r : SocketRecord} {dest? : Option SocketAddr}
    (h : streamRefusal? r dest? = none) :
    r.phase = .connected ∧ r.peerClosed = false ∧ r.pendingTx? = none := by
  unfold streamRefusal? at h
  split at h
  · cases h
  · next hphase =>
    split at h
    · cases h
    · next hopen =>
      split at h
      · cases h
      · next hpending => exact ⟨by simp_all, by simpa using hopen, by simpa using hpending⟩

/-- A send on a stream. -/
theorem send_of_stream {a : Adapter σ} {h : Handle} {r : SocketRecord}
    (hr : a.table.get? h = some r) (hkind : r.kind = .stream) (chain : Chain)
    (dest? : Option SocketAddr) : a.send h chain dest? = a.sendStream h r chain dest? := by
  unfold send SocketTable.get
  rw [hr]
  dsimp only
  rw [hkind]

theorem leads_sendStream (a : Adapter σ) {h : Handle} {r : SocketRecord}
    (hr : a.table.get? h = some r) (hkind : r.kind = .stream) (chain : Chain)
    (dest? : Option SocketAddr) (hd : D (.transmit h)) (hgive : D (.give h chain)) :
    Leads D a (a.sendStream h r chain dest?).2 := by
  have hdrain := leads_drain a a.bus h chain hd
  have hleft := leftOf_drain a.bus h chain
  unfold sendStream
  cases hrefusal : streamRefusal? r dest? with
  | some error => exact .refl a
  | none =>
    dsimp only
    split
    · exact .refl a
    · revert hdrain hleft
      generalize a.bus.drain h chain = drained
      obtain ⟨progress, rest, bus⟩ := drained
      intro hdrain hleft
      cases progress with
      | done | failed => exact hdrain
      | blocked =>
        refine hdrain.trans (.chore (.pending _ h _ hd fun _ hrest => ?_))
        cases hrest
        exact ⟨r, chain, hr, hleft rfl, .inr ⟨hkind, (of_streamRefusal? hrefusal).1, hgive⟩⟩

theorem leads_send (a : Adapter σ) (h : Handle) (chain : Chain) (dest? : Option SocketAddr)
    (hd : D (.transmit h)) (hgive : D (.give h chain)) : Leads D a (a.send h chain dest?).2 := by
  unfold send SocketTable.get
  cases hr : a.table.get? h with
  | none => exact .refl a
  | some r =>
    dsimp only
    cases hkind : r.kind with
    | datagram => exact leads_sendDatagram a h chain dest?
    | stream => exact leads_sendStream a hr hkind chain dest? hd hgive

theorem leads_onSent (a : Adapter σ) (h : Handle) (status : Status) (hd : D (.transmit h)) :
    Leads D a (a.onSent h status) := by
  have hfreed (b : Adapter σ) (error? : Option SocketError) : Leads D b
      ((b.modify h fun r => { r with pendingTx? := none }).announce (.writable h error?)) :=
    (Leads.chore (.pending b h none hd nofun)).trans (.chore (.writable _ h error? (.inr hd)))
  unfold onSent
  split
  · exact .refl a
  · next chain hchain =>
    obtain ⟨r, hr, hpending⟩ := Option.bind_eq_some_iff.mp hchain
    split
    · exact hfreed a _
    · have hdrain := leads_drain a a.bus h chain hd
      have hleft := leftOf_drain a.bus h chain
      revert hdrain hleft
      dsimp only
      generalize a.bus.drain h chain = drained
      obtain ⟨progress, rest, bus⟩ := drained
      intro hdrain hleft
      cases progress with
      | blocked =>
        refine hdrain.trans (.chore (.pending _ h _ hd fun _ hrest => ?_))
        cases hrest
        exact ⟨r, chain, hr, hleft rfl, .inl hpending⟩
      | done => exact hdrain.trans (hfreed _ none)
      | failed error => exact hdrain.trans (hfreed _ _)

/-! ### Sockets -/

theorem leads_create (a : Adapter σ) (domain : Domain) (type : SocketType) (hd : D .occupy) :
    Leads D a (a.create domain type).2 := by
  unfold create
  cases SocketKind.of? domain type with
  | error error => exact .refl a
  | ok kind =>
    have hopening : Leads D a { a with bus := (a.bus.openSocket kind).2 } :=
      .chore (.opening a kind hd)
    have hcreate (h : Handle) (hbus : (a.bus.openSocket kind).1 = .accepted h)
        (hfree : a.table.isOpen h = false) := Move.create (D := D) a hbus hfree hd
    unfold SocketTable.allocate
    revert hopening hcreate
    dsimp only
    generalize a.bus.openSocket kind = opened
    obtain ⟨answer, bus⟩ := opened
    intro hopening hcreate
    cases answer with
    | refused status => exact hopening
    | accepted h =>
      dsimp only
      cases hfree : a.table.isOpen h with
      | true => exact hopening
      | false => exact .move fun _ => hcreate h rfl hfree

theorem leads_connect (a : Adapter σ) (h : Handle) (remote : SocketAddr) (hd : D (.connect h)) :
    Leads D a (a.connect h remote).2 := by
  unfold connect
  cases remote with
  | v6 => exact .refl a
  | v4 peer =>
    dsimp only
    split
    · exact .refl a
    · next r hr =>
      split
      · next hkind =>
        exact .chore (.aim a h peer ((SocketTable.kind?_of_get hr).trans (congrArg some hkind)) hd)
      · next hkind =>
        split
        · exact .refl a
        · have hstream : a.table.kind? h = some .stream := by
            rw [SocketTable.kind?_of_get hr]
            cases hk : r.kind with
            | datagram => exact absurd hk hkind
            | stream => rfl
          have hconnect {b : Adapter σ} {answer : Answer Unit}
              (hi : (a.modify h fun r => (r.apply .connect).aimedAt peer).issue
                (.connect h (.ofEndpoint peer)) = (answer, b)) : Leads D a b := by
            have hb : b = _ := (congrArg Prod.snd hi).symm
            rw [hb]
            exact .chore (.connect a h peer hstream hd)
          split
          · next hi => exact hconnect hi
          · next hi => exact (hconnect hi).trans (.chore (.connectDone _ h false hd))

theorem leads_setMembership (a : Adapter σ) (h : Handle) (group : IpAddr) (join : Bool) :
    Leads D a (a.setMembership h group join).2 := by
  unfold setMembership
  cases group with
  | v6 => exact .refl a
  | v4 group =>
    dsimp only
    split
    · exact .refl a
    · split
      · next hi => exact leads_issue hi trivial nofun
      · next hi => exact leads_issue hi trivial nofun

theorem leads_setOption (a : Adapter σ) (h : Handle) (option : SocketOption) :
    Leads D a (a.setOption h option).2 := by
  cases option with
  | joinGroup group => exact leads_setMembership a h group true
  | leaveGroup group => exact leads_setMembership a h group false
  | multicastInterface index => exact .refl a
  | other level name => exact .refl a

/-! ### Notifications -/

theorem prompts_onCompletion (a : Adapter σ) (h : Handle) (purpose : Purpose) (status : Status)
    (hd : D (.complete h)) : Prompts D a (a.onCompletion h purpose status) := by
  unfold onCompletion
  cases hr : a.table.get? h with
  | none => exact (Leads.chore (.discard a)).prompts
  | some r =>
    dsimp only
    by_cases hrejected : (r.phase.transition (purpose.done status.isSuccess)).rejected = true
    · rw [if_pos hrejected]
      exact (Leads.refl a).prompts
    · rw [if_neg hrejected]
      have hcomplete (starts : Bool) : Leads D a (a.complete h purpose status starts) :=
        .chore (.complete a hr (Bool.eq_false_iff.mpr hrejected) starts hd)
      split
      · exact (hcomplete _).prompts_pollIdle
      · exact (hcomplete _).prompts

theorem prompts_onAccept (a : Adapter σ) (listener : Handle) (child : Answer Handle)
    (peer : NativeAddr) (hd : D .occupy)
    (hpeer : ∀ h, child = .accepted h → a.Introduced listener h peer.endpoint) :
    Prompts D a (a.onAccept listener child peer) := by
  unfold onAccept
  cases child with
  | refused status => exact (Leads.refl a).prompts
  | accepted child =>
    have hturnAway : Prompts D a (a.order (.close child)) :=
      (Leads.chore (.turnAway a child hd)).prompts
    dsimp only
    split
    · exact hturnAway
    · next r hr =>
      split
      · exact hturnAway
      · next hphase =>
        unfold SocketTable.adopt
        cases hfree : a.table.isOpen child with
        | true => exact hturnAway
        | false =>
          have hlistens : r.phase = .listening := Decidable.not_not.mp hphase
          have hregister := Move.register (D := D) a hr hlistens _ (hpeer child rfl) hfree hd
          rw [if_neg Bool.false_ne_true]
          dsimp only
          split
          · next heq =>
            rw [heq] at hregister
            exact (Leads.move fun _ => hregister).prompts_pollIdle
          · next heq =>
            rw [heq] at hregister
            exact (Leads.move fun _ => hregister).prompts

theorem prompts_onConnect (a : Adapter σ) (h : Handle) (status : Status) (hd : D (.connect h)) :
    Prompts D a (a.onConnect h status) := by
  unfold onConnect
  split
  · exact (Leads.chore (.discard a)).prompts
  · dsimp only
    split
    · exact (Leads.refl a).prompts
    · have hdone : Leads D a ((a.modify h (·.apply (.connectDone status.isSuccess))).announce
          (.writable h status.error?)) :=
        (Leads.chore (.connectDone a h _ hd)).trans (.chore (.writable _ h _ (.inl hd)))
      split
      · exact hdone.prompts_pollIdle
      · exact hdone.prompts

/-- A notification that is no answer to a receive. -/
theorem leads_noted (a : Adapter σ) {note : Notification}
    (hn : ∀ e, (Entry.handled note e).answer? = none) (hd : ∀ child ∈ note.announced?, D .occupy)
    (hprogress : ∀ h ∈ note.progress?, D (.transmit h)) : Leads D a (a.noted note) :=
  .chore (.note a (hn _) hd hprogress)

/-- A notification answers the outstanding receive, or it does not: then moves follow, and perhaps
a poll from the beginning. -/
theorem handle_cases {a : Adapter σ} (ha : a.Steady) (now : Nat) (note : Notification) :
    (∃ i d b c, note = .socket i.handle (.received d) ∧ a.rx.outstanding? = some i ∧
      a.Resumes i d b c ∧ a.handle now note = c.pollFrom (resumption i.handle d)) ∨
    Prompts (fun d => d ∈ note.deed? ∧ ∀ h, d ≠ .answer h) a (a.handle now note) := by
  have hother {D : Deed → Prop} {b : Adapter σ} (hn : ∀ e, (Entry.handled note e).answer? = none)
      (hd : ∀ child ∈ note.announced?, D .occupy) (hprogress : ∀ h ∈ note.progress?, D (.transmit h))
      (h : Prompts D (a.noted note) b) : Prompts D a b :=
    (leads_noted a hn hd hprogress).trans_prompts h
  cases note with
  | radio m =>
    refine .inr (hother (fun _ => rfl) nofun nofun (Leads.prompts ?_))
    exact leads_withStation _ (fun s => s.acts_onRadio now m) ⟨rfl, nofun⟩
  | socket h m =>
    cases m with
    | received d =>
      by_cases hasked : ∃ i, a.rx.outstanding? = some i ∧ i.handle = h
      · obtain ⟨i, hout, rfl⟩ := hasked
        obtain ⟨b, c, hresumes, heq⟩ := resumes_onDelivery ha hout d
        exact .inl ⟨i, d, b, c, rfl, hout, hresumes, heq⟩
      · exact .inr (prompts_onStray (fun i hout hh => hasked ⟨i, hout, hh⟩) d)
    | bound status =>
      exact .inr (hother (fun _ => rfl) nofun nofun (prompts_onCompletion _ h .bind status ⟨rfl, nofun⟩))
    | listening status =>
      exact .inr (hother (fun _ => rfl) nofun nofun (prompts_onCompletion _ h .listen status ⟨rfl, nofun⟩))
    | accepted child peer =>
      exact .inr (hother (fun _ => rfl) (fun _ _ => ⟨rfl, nofun⟩) nofun
        (prompts_onAccept _ h child peer ⟨rfl, nofun⟩ fun _ hchild => by
          subst hchild
          exact ⟨peer, _, List.getLast?_concat, rfl⟩))
    | connected status =>
      exact .inr (hother (fun _ => rfl) nofun nofun (prompts_onConnect _ h status ⟨rfl, nofun⟩))
    | sent status =>
      refine .inr (hother (fun _ => rfl) nofun (fun k hk => ?_) (Leads.prompts ?_))
      · cases hk
        exact ⟨rfl, nofun⟩
      · exact leads_onSent _ h status ⟨rfl, nofun⟩
    | sentTo status => exact .inr (leads_noted a (fun _ => rfl) nofun nofun).prompts

theorem leads_handle (a : Adapter σ) (now : Nat) (note : Notification)
    (hd : ∀ d ∈ note.deed?, D d) (hask : D .ask) : Leads D a (a.handle now note) := by
  intro ha
  rcases handle_cases ha now note with ⟨i, d, b, c, rfl, hout, hresumes, heq⟩ | hprompts
  · rw [heq]
    have hanswer : Leads D a b := .move fun _ => .answer hout (hd _ rfl) hresumes.answered
    exact hanswer.trans ((hresumes.leads.mono nofun).trans (leads_pollFrom hask hresumes.idle _)) ha
  · obtain ⟨c, hleads, hend⟩ := hprompts
    exact Prompts.leads ⟨c, hleads.mono fun d hd' => hd d hd'.1, hend⟩ hask ha

theorem leads_handle_deeds (a : Adapter σ) (now : Nat) (note : Notification) :
    Leads note.deeds a (a.handle now note) :=
  leads_handle a now note (fun _ => .inr) (.inl rfl)

end Adapter

end WifiAdapter
