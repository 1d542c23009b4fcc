import Mathlib.Data.List.Induction
import WifiAdapter.Proofs.Reopening
import WifiAdapter.ScriptedChip

/-! The data of a stream on its way to the chip.

What was given for a stream to send is what the chip took of it, followed by what waits in the
record of its socket. Both grow together when a send is accepted, and progress only moves data
from the record to the chip (`Adapter.Conserves`). The account is kept for the present
occupant of a slot, since its slot was taken into use, and until a send fails for good
(`Session.stream_conserved`). -/
namespace WifiAdapter

/-- The data that the chip took for a stream. -/
def shipped (h : Handle) (es : List Entry) : Bytes := es.flatMap (·.shipment h)

/-- The data of a stream that waits. -/
def SocketRecord.backlog (r : SocketRecord) : Bytes := (r.pendingTx?.map (·.bytes)).getD []

section Shipped
variable {h : Handle} {es more : List Entry}

theorem shipped_append : shipped h (es ++ more) = shipped h es ++ shipped h more :=
  List.flatMap_append

theorem shipped_inert (hes : ∀ e ∈ es, e.Inert h) : shipped h es = [] :=
  List.flatMap_eq_nil_iff.mpr fun e he => (hes e he).shipment

end Shipped

/-! ### Draining a chain -/

/-- The chip refuses data of a stream, and not because its buffer is full. -/
def Entry.fails (h : Handle) : Entry → Bool
  | .command (.send k _) (.refused status) => k == h && status != .bufferFull
  | _ => false

def FailsIn (h : Handle) (es : List Entry) : Prop := ∃ e ∈ es, e.fails h = true

instance (h : Handle) (es : List Entry) : Decidable (FailsIn h es) :=
  inferInstanceAs (Decidable (∃ e ∈ es, e.fails h = true))

theorem FailsIn.mono {h : Handle} {es more : List Entry} (hfails : FailsIn h es)
    (hsub : es ⊆ more) : FailsIn h more := by
  obtain ⟨e, he, hfails⟩ := hfails
  exact ⟨e, hsub he, hfails⟩

/-- What is entered while a chain is drained, how far that gets and what is left. -/
structure Drained (h : Handle) (chain : Chain) (es : List Entry) (progress : Progress)
    (rest : Chain) : Prop where
  sums : shipped h es ++ rest.bytes = chain.bytes
  opens : ∀ e ∈ es, e.opens h = false
  done : progress = .done → rest.bytes = []
  fails : ∀ error, progress = .failed error → FailsIn h es

theorem drained {σ : Type} [Chip σ] (bus : Bus σ) (h : Handle) (chain : Chain) :
    ∃ es, (bus.drain h chain).2.2.journal = bus.journal ++ es ∧
      Drained h chain es (bus.drain h chain).1 (bus.drain h chain).2.1 := by
  -- What the chip refuses is not sent off.
  have hrefused (chain : Chain) (piece : Bytes) (status : Status) (progress : Progress)
      (hdone : progress ≠ .done) (hfails : ∀ error, progress = .failed error → status ≠ .bufferFull) :
      Drained h chain [.command (.send h piece) (.refused status)] progress chain :=
    ⟨rfl, by simp [Entry.opens], fun hp => absurd hp hdone, fun error hp =>
      ⟨_, List.mem_singleton.mpr rfl, by simpa [Entry.fails] using hfails error hp⟩⟩
  fun_induction Bus.drain bus h chain with
  | case1 bus chain hpiece =>
    exact ⟨[], (List.append_nil _).symm, rfl, by simp, fun _ => Chain.bytes_of_no_piece hpiece,
      by simp⟩
  | case2 bus chain piece hpiece _ bus' hi ih =>
    obtain ⟨es, hjournal, hes⟩ := ih
    refine ⟨.command (.send h piece) (.accepted ()) :: es,
      by rw [hjournal, Bus.journal_of_issue hi]; simp, ?_, ?_, hes.done, fun error hp => ?_⟩
    · have htaken : Entry.shipment h (.command (.send h piece) (.accepted ())) = piece :=
        if_pos rfl
      rw [← Chain.bytes_advance_piece hpiece, ← hes.sums, ← List.append_assoc, shipped,
        List.flatMap_cons, htaken]
      rfl
    · simpa [Entry.opens] using hes.opens
    · exact (hes.fails error hp).mono (List.subset_cons_self ..)
  | case3 bus chain piece hpiece bus' hi =>
    exact ⟨_, Bus.journal_of_issue hi, hrefused _ _ _ _ (by simp) (by simp)⟩
  | case4 bus chain piece hpiece status bus' hi hne =>
    exact ⟨_, Bus.journal_of_issue hi, hrefused _ _ _ _ (by simp) fun _ _ => hne⟩

namespace Adapter
variable {σ : Type}

/-! ### The account of a stream -/

/-- The data of a stream that the chip took, followed by what waits. -/
def outgoing (a : Adapter σ) (h : Handle) : Bytes :=
  shipped h (a.bus.history h) ++ ((a.table.get? h).map (·.backlog)).getD []

theorem outgoing_of_get? {a : Adapter σ} {h : Handle} {r : SocketRecord}
    (hr : a.table.get? h = some r) : a.outgoing h = shipped h (a.bus.history h) ++ r.backlog := by
  unfold outgoing
  rw [hr]
  rfl

/-- From one adapter to another just `more` is added to the data of a stream, which starts with
nothing if the slot is taken into use; unless a send fails for good. -/
structure Conserves (h : Handle) (more : Bytes) (a b : Adapter σ) : Prop where
  ages : Ages h a b
  outgoing : ∀ r', b.table.get? h = some r' → r'.kind = .stream → ¬ FailsIn h (b.bus.history h) →
    b.outgoing h =
      (if b.bus.openings h = a.bus.openings h then a.outgoing h else []) ++ more

section Conserves
variable {D : Deed → Prop} {h : Handle} {more : Bytes} {a b c : Adapter σ}

theorem Conserves.refl (a : Adapter σ) (h : Handle) : Conserves h [] a a :=
  ⟨.refl a, fun _ _ _ _ => by simp⟩

theorem outgoing_new (chip : σ) (packets : Nat) (config : Config) (h : Handle) :
    (new chip packets config).outgoing h = [] := by
  simp [outgoing, new, Bus.history, shipped, SocketTable.empty, SocketTable.get?, Slot.free]

/-- What was there before the slot was taken into use does not matter. -/
theorem Ages.conserves (hab : Ages h a b)
    (hsame : c.bus.openings h = b.bus.openings h → Conserves h [] a b)
    (hbc : Conserves h more b c) : Conserves h more a c := by
  refine ⟨hab.trans hbc.ages, fun r'' hr'' hkind hfine => ?_⟩
  rw [hbc.outgoing r'' hr'' hkind hfine]
  by_cases hopen : c.bus.openings h = b.bus.openings h
  · obtain ⟨r', hr', hsame'⟩ := hbc.ages.record_of_eq hopen hr''
    obtain ⟨es, hhistory⟩ := hbc.ages.history_of_eq hopen
    have hfine' : ¬ FailsIn h (b.bus.history h) := fun hfails =>
      hfine (hfails.mono (hhistory ▸ List.subset_append_left ..))
    rw [if_pos hopen, (hsame hopen).outgoing r' hr' (hsame' ▸ hkind) hfine', hopen, List.append_nil]
  · have hle := hab.le
    have hle' := hbc.ages.le
    rw [if_neg hopen, if_neg (by omega)]

theorem Conserves.trans (hab : Conserves h [] a b) (hbc : Conserves h more b c) :
    Conserves h more a c := hab.ages.conserves (fun _ => hab) hbc

/-- The data in the record and what the chip takes, when no slot is taken into use. -/
theorem Ages.conserves_of {es : List Entry} (hab : Ages h a b)
    (hjournal : b.bus.journal = a.bus.journal ++ es) (hopens : ∀ e ∈ es, e.opens h = false)
    (hrecord : ∀ r', b.table.get? h = some r' → r'.kind = .stream → ¬ FailsIn h es →
      ∃ r, a.table.get? h = some r ∧ shipped h es ++ r'.backlog = r.backlog ++ more) :
    Conserves h more a b := by
  refine ⟨hab, fun r' hr' hkind hfine => ?_⟩
  have hsame : b.bus.openings h = a.bus.openings h := by
    rw [Bus.openings_append hjournal, List.countP_eq_zero.mpr fun e he => by simp [hopens e he]]
    rfl
  have hhistory := Bus.history_append hjournal hopens
  have hfine' : ¬ FailsIn h es := fun hfails =>
    hfine (hfails.mono (hhistory ▸ List.subset_append_right ..))
  obtain ⟨r, hr, hsum⟩ := hrecord r' hr' hkind hfine'
  rw [if_pos hsame, outgoing_of_get? hr, outgoing_of_get? hr', hhistory, shipped_append,
    List.append_assoc, hsum, List.append_assoc]

/-- A step that moves no data of the stream. -/
theorem Touch.conserves (hab : Touch D h a b) (hD : ¬ D (.transmit h)) : Conserves h [] a b := by
  have hages := hab.ages
  cases hab with
  | still hgeneration hrecord hjournal =>
    obtain ⟨es, hjournal, hes⟩ := hjournal
    refine hages.conserves_of hjournal (fun e he => (hes e he).opens) fun r' hr' _ _ => ?_
    obtain ⟨r, hr, _, hpending⟩ := hrecord r' hr'
    refine ⟨r, hr, ?_⟩
    rw [shipped_inert hes, SocketRecord.backlog, hpending, List.append_nil]
    rfl
  | transmit hd => exact absurd hd hD
  | opened hgeneration hrecord hpending hjournal =>
    obtain ⟨e, hjournal, he⟩ := hjournal
    refine ⟨hages, fun _ _ _ _ => ?_⟩
    have hopenings : b.bus.openings h = a.bus.openings h + 1 := by
      rw [Bus.openings_append hjournal]
      simp [he]
    have hhistory : b.bus.history h = [] := by
      unfold Bus.history
      rw [hjournal, Entry.since_concat, if_pos he]
    rw [if_neg (by omega), outgoing_of_get? hrecord, hhistory, SocketRecord.backlog, hpending]
    rfl

theorem Touches.conserves (hab : Touches D h a b) (hD : ¬ D (.transmit h)) :
    Conserves h [] a b := by
  induction hab with
  | refl => exact .refl a h
  | tail _ htouch ih => exact ih.trans (htouch.conserves hD)

end Conserves

/-! ### Sends and progress -/

/-- Data of a stream moved from the record to the chip. -/
structure Moved (h : Handle) (data : Bytes) (a b : Adapter σ) (es : List Entry) : Prop where
  journal : b.bus.journal = a.bus.journal ++ es
  opens : ∀ e ∈ es, e.opens h = false
  sums : ∀ r', b.table.get? h = some r' → ¬ FailsIn h es → shipped h es ++ r'.backlog = data

section Moved
variable {a b : Adapter σ} {h : Handle} {r : SocketRecord} {data : Bytes} {es : List Entry}

theorem Moved.conserves (hab : Ages h a b) (hmoved : Moved h data a b es)
    (hr : a.table.get? h = some r) {more : Bytes} (hdata : data = r.backlog ++ more) :
    Conserves h more a b :=
  hab.conserves_of hmoved.journal hmoved.opens fun r' hr' _ hfine =>
    ⟨r, hr, (hmoved.sums r' hr' hfine).trans hdata⟩

/-- The table is as it was, and the chip took `es` of a stream. -/
theorem moved_table {bus : Bus σ} (hr : a.table.get? h = some r)
    (hjournal : bus.journal = a.bus.journal ++ es) (hopens : ∀ e ∈ es, e.opens h = false)
    (hsums : ¬ FailsIn h es → shipped h es ++ r.backlog = data) :
    Moved h data a { a with bus } es := by
  refine ⟨hjournal, hopens, fun r' hr' hfine => ?_⟩
  cases hr.symm.trans hr'
  exact hsums hfine

/-- What is left waits in the record. -/
theorem moved_pending {bus : Bus σ} (hr : a.table.get? h = some r)
    (hjournal : bus.journal = a.bus.journal ++ es) (hopens : ∀ e ∈ es, e.opens h = false)
    (chain? : Option Chain)
    (hsums : ¬ FailsIn h es → shipped h es ++ (chain?.map (·.bytes)).getD [] = data) :
    Moved h data a ({ a with bus }.modify h fun r => { r with pendingTx? := chain? }) es := by
  refine ⟨hjournal, hopens, fun r' hr' hfine => ?_⟩
  change (a.table.modify h _).get? h = some r' at hr'
  cases (SocketTable.get?_modify_self hr).symm.trans hr'
  exact hsums hfine

theorem Moved.announce (hmoved : Moved h data a b es) (e : Event) :
    Moved h data a (b.announce e) (es ++ [.event e (b.emit e).1]) where
  journal := by rw [journal_announce, hmoved.journal, List.append_assoc]
  opens := List.forall_mem_append.mpr ⟨hmoved.opens, by simp [Entry.opens]⟩
  sums r' hr' hfine := by
    rw [table_announce] at hr'
    have hinert := Entry.inert_event h e (b.emit e).1
    rw [shipped_append, shipped_inert (List.forall_mem_singleton.mpr hinert), List.append_nil]
    exact hmoved.sums r' hr' fun hfails => hfine (hfails.mono (List.subset_append_left ..))

variable [Chip σ] {chain : Chain}

/-- What waits goes on. -/
theorem moved_onSent (hr : a.table.get? h = some r) (hchain : r.pendingTx? = some chain)
    {status : Status} (hstatus : ¬ status.code < 0) :
    ∃ es, Moved h chain.bytes a (a.onSent h status) es := by
  obtain ⟨es, hjournal, hes⟩ := drained a.bus h chain
  unfold onSent
  rw [hr, Option.bind_some, hchain]
  dsimp only
  rw [if_neg hstatus]
  revert hjournal hes
  generalize a.bus.drain h chain = drain
  obtain ⟨progress, rest, bus⟩ := drain
  intro hjournal hes
  cases progress with
  | done =>
    refine ⟨_, (moved_pending hr hjournal hes.opens none fun _ => ?_).announce _⟩
    rw [← hes.sums, hes.done rfl]
    rfl
  | blocked => exact ⟨_, moved_pending hr hjournal hes.opens (some rest) fun _ => hes.sums⟩
  | failed error =>
    refine ⟨_, (moved_pending hr hjournal hes.opens none fun hfine => ?_).announce _⟩
    exact absurd (hes.fails error rfl) hfine

theorem conserves_onSent (ha : a.Steady) (status : Status)
    (hfine : (a.onSent h status).bus.openings h = a.bus.openings h → status.code < 0 →
      (a.table.get? h).bind (·.pendingTx?) = none) :
    Conserves h [] a (a.onSent h status) := by
  have hages : Ages h a (a.onSent h status) :=
    ((leads_onSent (D := Deed.Any) a h status trivial).touches ha).ages
  cases hpending : (a.table.get? h).bind (·.pendingTx?) with
  | none =>
    unfold onSent
    rw [hpending]
    exact .refl a h
  | some chain =>
    obtain ⟨r, hr, hchain⟩ := Option.bind_eq_some_iff.mp hpending
    have hnonneg : ¬ status.code < 0 := by
      intro hneg
      have hsame : (a.onSent h status).bus.openings h = a.bus.openings h := by
        unfold onSent
        rw [hpending]
        dsimp only
        rw [if_pos hneg, Bus.openings_append (journal_announce ..)]
        rfl
      exact absurd ((hfine hsame hneg).symm.trans hpending) nofun
    obtain ⟨es, hmoved⟩ := moved_onSent hr hchain hnonneg
    refine hmoved.conserves hages hr ?_
    rw [SocketRecord.backlog, hchain, List.append_nil]
    rfl

/-- A send on a stream adds its data if it is accepted. One that fails hands back what the chip
did not take. -/
theorem moved_sendStream (hr : a.table.get? h = some r) (chain : Chain)
    (dest? : Option SocketAddr) :
    ∃ es, match (a.sendStream h r chain dest?).1 with
      | .ok _ => Moved h (r.backlog ++ chain.bytes) a (a.sendStream h r chain dest?).2 es
      | .error rejected =>
        Moved h r.backlog a (a.sendStream h r chain dest?).2 es ∧
          shipped h es ++ rejected.chain.bytes = chain.bytes := by
  have hsame : Moved h r.backlog a a [] :=
    moved_table hr (List.append_nil _).symm (by simp) fun _ => rfl
  unfold sendStream
  cases hrefusal : streamRefusal? r dest? with
  | some error => exact ⟨[], hsame, rfl⟩
  | none =>
    have hbacklog : r.backlog = [] := by
      rw [SocketRecord.backlog, (of_streamRefusal? hrefusal).2.2]
      rfl
    dsimp only
    by_cases hempty : chain.isEmpty = true
    · rw [if_pos hempty, Chain.bytes_of_isEmpty hempty, List.append_nil]
      exact ⟨[], hsame⟩
    · rw [if_neg hempty, hbacklog, List.nil_append]
      obtain ⟨es, hjournal, hes⟩ := drained a.bus h chain
      refine ⟨es, ?_⟩
      revert hjournal hes
      generalize a.bus.drain h chain = drain
      obtain ⟨progress, rest, bus⟩ := drain
      intro hjournal hes
      cases progress with
      | done =>
        refine moved_table hr hjournal hes.opens fun _ => ?_
        rw [hbacklog, ← hes.sums, hes.done rfl]
      | blocked => exact moved_pending hr hjournal hes.opens (some rest) fun _ => hes.sums
      | failed error =>
        refine ⟨moved_table hr hjournal hes.opens fun hfine => ?_, hes.sums⟩
        exact absurd (hes.fails error rfl) hfine

/-- A datagram is no data of a stream, and what fails is handed back. -/
theorem sendDatagram_parts (a : Adapter σ) (h : Handle) (chain : Chain)
    (dest? : Option SocketAddr) :
    ∃ es, (a.sendDatagram h chain dest?).2.bus.journal = a.bus.journal ++ es ∧
      (∀ e ∈ es, e.Inert h) ∧
      (∃ bus scratch, (a.sendDatagram h chain dest?).2 = { a with bus, scratch }) ∧
      ∀ rejected, (a.sendDatagram h chain dest?).1 = .error rejected → rejected.chain = chain := by
  have hback {error : SocketError} {rejected : Rejected}
      (heq : (.error ⟨error, chain⟩ : Except Rejected Unit) = .error rejected) :
      rejected.chain = chain := by
    cases heq
    rfl
  have hinert {c : Command} (answer : Answer Unit) (hc : ∀ k data, c = .send k data → k ≠ h) :
      ∀ e ∈ [Entry.command c answer], e.Inert h :=
    List.forall_mem_singleton.mpr (Entry.inert_command answer hc)
  have hnothing : a.bus.journal = a.bus.journal ++ [] := (List.append_nil _).symm
  unfold sendDatagram
  cases dest? with
  | none => exact ⟨[], hnothing, by simp, ⟨_, _, rfl⟩, fun _ => hback⟩
  | some dest =>
    dsimp only
    cases dest.native? with
    | none => exact ⟨[], hnothing, by simp, ⟨_, _, rfl⟩, fun _ => hback⟩
    | some address =>
      dsimp only
      split
      · exact ⟨[], hnothing, by simp, ⟨_, _, rfl⟩, fun _ => hback⟩
      · cases Chain.flattenWithin datagramCapacity [] chain.segments with
        | none => exact ⟨[], hnothing, by simp, ⟨_, _, rfl⟩, fun _ => hback⟩
        | some payload =>
          dsimp only
          split
          · next hi =>
            obtain rfl := congrArg Prod.snd hi
            exact ⟨[_], rfl, hinert _ nofun, ⟨_, _, rfl⟩, nofun⟩
          · next hi =>
            obtain rfl := congrArg Prod.snd hi
            exact ⟨[_], rfl, hinert _ nofun, ⟨_, _, rfl⟩, fun _ => hback⟩

/-- The data that a send takes over, if it is accepted. -/
def takenOver (a : Adapter σ) (h : Handle) (chain : Chain) (dest? : Option SocketAddr) : Bytes :=
  match (a.send h chain dest?).1 with
  | .ok _ => chain.bytes
  | .error _ => []

theorem conserves_send (ha : a.Steady) (h : Handle) (chain : Chain) (dest? : Option SocketAddr) :
    Conserves h (a.takenOver h chain dest?) a (a.send h chain dest?).2 := by
  have hages : Ages h a (a.send h chain dest?).2 :=
    ((leads_send (D := Deed.Any) a h chain dest? trivial trivial).touches ha).ages
  revert hages
  unfold takenOver send SocketTable.get
  cases hr : a.table.get? h with
  | none => exact fun _ => .refl a h
  | some r =>
    dsimp only
    cases hkind : r.kind with
    | datagram =>
      intro hages
      obtain ⟨es, _, _, ⟨bus, scratch, heq⟩, _⟩ := sendDatagram_parts a h chain dest?
      refine ⟨hages, fun r' hr' hstream => ?_⟩
      rw [heq] at hr'
      cases hr.symm.trans hr'
      cases hkind.symm.trans hstream
    | stream =>
      intro hages
      obtain ⟨es, hmoved⟩ := moved_sendStream hr chain dest?
      dsimp only at hages ⊢
      cases hresult : (a.sendStream h r chain dest?).1 with
      | ok _ =>
        rw [hresult] at hmoved
        exact Moved.conserves hages hmoved hr rfl
      | error rejected =>
        rw [hresult] at hmoved
        exact Moved.conserves hages hmoved.1 hr (List.append_nil _).symm

/-- A send that fails hands back what the chip did not take. -/
theorem send_error (a : Adapter σ) (h : Handle) (chain : Chain) (dest? : Option SocketAddr)
    {rejected : Rejected} (hresult : (a.send h chain dest?).1 = .error rejected) :
    ∃ es, (a.send h chain dest?).2.bus.journal = a.bus.journal ++ es ∧
      shipped h es ++ rejected.chain.bytes = chain.bytes := by
  revert hresult
  unfold send SocketTable.get
  cases hr : a.table.get? h with
  | none =>
    intro hresult
    cases hresult
    exact ⟨[], (List.append_nil _).symm, rfl⟩
  | some r =>
    dsimp only
    cases hkind : r.kind with
    | datagram =>
      intro hresult
      obtain ⟨es, hjournal, hinert, _, hback⟩ := sendDatagram_parts a h chain dest?
      exact ⟨es, hjournal, by rw [shipped_inert hinert, hback rejected hresult]; rfl⟩
    | stream =>
      intro hresult
      obtain ⟨es, hmoved⟩ := moved_sendStream hr chain dest?
      dsimp only at hresult
      rw [hresult] at hmoved
      exact ⟨es, hmoved.1.journal, hmoved.2⟩

end Moved

end Adapter

/-! ### Notifications -/

/-- The chip reports that a stream failed while data of it waits. -/
def Moment.breaks {σ : Type} (m : Moment σ) (h : Handle) : Bool :=
  match m.note with
  | .socket k (.sent status) =>
    k == h && decide (status.code < 0) && ((m.adapter.table.get? h).bind (·.pendingTx?)).isSome
  | _ => false

/-- Progress is what moves data of a stream. -/
theorem Notification.eq_sent {note : Notification} {h : Handle}
    (hdeed : note.deed? = some (.transmit h)) : ∃ status, note = .socket h (.sent status) := by
  unfold Notification.deed? at hdeed
  split at hdeed <;> cases hdeed
  exact ⟨_, rfl⟩

namespace Adapter
variable {σ : Type} [Chip σ] {a b : Adapter σ} {h : Handle}

theorem conserves_handle (ha : a.Steady) (now : Nat) (note : Notification)
    (hfine : a.bus.openings h = (a.handle now note).bus.openings h →
      (⟨a, note⟩ : Moment σ).breaks h = false) : Conserves h [] a (a.handle now note) := by
  by_cases hdeed : note.deed? = some (.transmit h)
  · obtain ⟨status, rfl⟩ := Notification.eq_sent hdeed
    have hnoted : Conserves h [] a (a.noted (.socket h (.sent status))) :=
      (touch_enter (D := fun _ => False) a (Entry.inert_handled ..)).conserves id
    have hsteady : (a.noted (.socket h (.sent status))).Steady := steady_enter ha (by simp)
    have hopenings : (a.noted (.socket h (.sent status))).bus.openings h = a.bus.openings h :=
      Bus.openings_append (a.bus.journal_enter _)
    refine hnoted.trans (conserves_onSent hsteady status fun hsame hneg => ?_)
    have hwaits : (a.table.get? h).bind (·.pendingTx?) = none := by
      simpa [Moment.breaks, hneg] using hfine (hsame.trans hopenings).symm
    exact hwaits
  · exact ((leads_handle_deeds a now note).touches ha).conserves fun hd =>
      hdeed (hd.resolve_left nofun)

theorem Course.conserves {D : Deed → Prop} {site? : Option Handle} {now : Nat}
    {ms : List (Moment σ)} (hcourse : Course D site? now a ms b) (ha : a.Steady)
    (hD : ¬ D (.transmit h))
    (hfine : ∀ m ∈ ms, m.adapter.bus.openings h = b.bus.openings h → m.breaks h = false) :
    Conserves h [] a b := by
  induction hcourse with
  | refl => exact .refl a h
  | @step ms b c hcourse hstep ih =>
    have hages := (hcourse.steps ha).ages (h := h) ha
    have hstep := (hstep.touches (hcourse.steady ha)).conserves hD
    exact hages.conserves (fun hsame => ih (hsame ▸ hfine)) hstep
  | @handle ms b hcourse note ih =>
    have hb := hcourse.steady ha
    have hages := (hcourse.steps ha).ages (h := h) ha
    have hhandle : Conserves h [] b (b.handle now note) :=
      conserves_handle hb now note (hfine ⟨b, note⟩ (by simp))
    refine hages.conserves (fun hsame => ih fun m hm => ?_) hhandle
    rw [← hsame]
    exact hfine m (List.mem_append_left _ hm)
  | poll hcourse ih =>
    have hb := hcourse.steady ha
    have hages := (hcourse.steps ha).ages (h := h) ha
    have hpoll := ((leads_pollIdle (D := Deed.Asking) rfl _).touches (h := h) hb).conserves nofun
    exact hages.conserves (fun hsame => ih (hsame ▸ hfine)) hpoll

end Adapter

/-! ### Histories -/

namespace Session
variable {σ : Type} [Chip σ]

/-- The data that an action gives for the stream of a socket: that of a send which is accepted. -/
def entrusted (s : Session σ) (h : Handle) : Action σ → Bytes
  | .send k chain dest? =>
    if k = h then s.adapter.takenOver k chain dest? else []
  | _ => []

/-- The data given for the stream of a socket, in the order of the sends. It starts anew when
the slot is taken into use. -/
def given (h : Handle) (s : Session σ) (before : Bytes) : List (Action σ) → Bytes
  | [] => before
  | action :: rest =>
    let t := (s.perform action).2
    let kept := if t.adapter.bus.openings h = s.adapter.bus.openings h then before else []
    given h t (kept ++ s.entrusted h action) rest

/-- The stream of a socket has not failed for good since its slot was taken into use: the chip
refused data only while its buffer was full, and reported no failure while data waited. -/
structure Smooth (s : Session σ) (h : Handle) (actions : List (Action σ)) : Prop where
  refusals : ¬ FailsIn h ((s.run actions).adapter.bus.history h)
  reports : ∀ m ∈ s.trail actions,
    m.adapter.bus.openings h = (s.run actions).adapter.bus.openings h → m.breaks h = false

section Histories
variable {s : Session σ} {h : Handle} {actions : List (Action σ)} {action : Action σ}

theorem given_snoc (h : Handle) (s : Session σ) (before : Bytes) (actions : List (Action σ))
    (action : Action σ) :
    given h s before (actions ++ [action]) =
      (if ((s.run actions).perform action).2.adapter.bus.openings h =
          (s.run actions).adapter.bus.openings h then given h s before actions else []) ++
        (s.run actions).entrusted h action := by
  induction actions generalizing s before with
  | nil => rfl
  | cons first rest ih => exact ih ..

theorem entrusted_of_deeds (s : Session σ) (hdeeds : ¬ deeds action (.transmit h)) :
    s.entrusted h action = [] := by
  cases action with
  | send k chain dest? =>
    refine if_neg ?_
    rintro rfl
    exact hdeeds (.inl rfl)
  | _ => rfl

theorem conserves_perform (hs : s.adapter.Steady) (action : Action σ)
    (hfine : ∀ m ∈ s.moments action,
      m.adapter.bus.openings h = (s.perform action).2.adapter.bus.openings h →
        m.breaks h = false) :
    Adapter.Conserves h (s.entrusted h action) s.adapter (s.perform action).2.adapter := by
  by_cases hdeeds : deeds action (.transmit h)
  · cases action with
    | send k chain dest? =>
      obtain rfl : h = k := by rcases hdeeds with hd | hd <;> cases hd; rfl
      have hentrusted : s.entrusted h (.send h chain dest?) = s.adapter.takenOver h chain dest? :=
        if_pos rfl
      rw [hentrusted]
      exact Adapter.conserves_send hs h chain dest?
    | work | contend => rcases hdeeds with hd | hd <;> cases hd
    | poll => rcases hdeeds with hd | hd | hd <;> cases hd
    | _ => cases hdeeds
  · rw [entrusted_of_deeds s hdeeds]
    exact (passes_perform s action hs).conserves hs hdeeds hfine

theorem outgoing_run (hs : s.adapter.Steady) {r : SocketRecord}
    (hr : (s.run actions).adapter.table.get? h = some r) (hkind : r.kind = .stream)
    (hsmooth : s.Smooth h actions) :
    (s.run actions).adapter.outgoing h = given h s (s.adapter.outgoing h) actions := by
  induction actions using List.reverseRecOn generalizing r with
  | nil => rfl
  | append_singleton actions action ih =>
    have hafter := s.run_snoc actions action
    rw [hafter] at hr ⊢
    obtain ⟨hrefusals, hreports⟩ := hsmooth
    rw [hafter] at hrefusals hreports
    have hperform : Adapter.Conserves h _ _ ((s.run actions).perform action).2.adapter :=
      conserves_perform (steady_run hs actions) action fun m hm =>
        hreports m (by rw [trail_snoc]; exact List.mem_append_right _ hm)
    rw [hperform.outgoing r hr hkind hrefusals, given_snoc]
    by_cases hsame : ((s.run actions).perform action).2.adapter.bus.openings h =
        (s.run actions).adapter.bus.openings h
    · obtain ⟨r₀, hr₀, hkind₀⟩ := hperform.ages.record_of_eq hsame hr
      obtain ⟨es, hhistory⟩ := hperform.ages.history_of_eq hsame
      have hsmooth₀ : s.Smooth h actions := by
        refine ⟨fun hfails => hrefusals (hfails.mono ?_), fun m hm hopenings => ?_⟩
        · exact hhistory ▸ List.subset_append_left ..
        · exact hreports m (by rw [trail_snoc]; exact List.mem_append_left _ hm)
            (hopenings.trans hsame.symm)
      rw [ih hr₀ (hkind₀ ▸ hkind) hsmooth₀]
    · rw [if_neg hsame, if_neg hsame]

end Histories

/-- What the chip took for a stream, followed by what waits in the record of its socket, is what
was given for it, in the order of the sends; for every occupant of a slot, as long as no send
failed for good. A send that fails hands back the data that the chip did not take of it. -/
theorem stream_conserved (chip : σ) (packets : Nat) (config : Config) (actions : List (Action σ)) :
    let s := (new chip packets config).run actions
    (∀ h r, s.adapter.table.get? h = some r → r.kind = .stream →
      (new chip packets config).Smooth h actions →
      shipped h (s.adapter.bus.history h) ++ r.backlog =
        given h (new chip packets config) [] actions) ∧
    (∀ h chain dest? rejected,
      (s.perform (.send h chain dest?)).1 = .sent (.error rejected) →
      ∃ es, (s.perform (.send h chain dest?)).2.adapter.bus.journal = s.adapter.bus.journal ++ es ∧
        shipped h es ++ rejected.chain.bytes = chain.bytes) := by
  intro s
  refine ⟨fun h r hr hkind hsmooth => ?_, fun h chain dest? rejected hresult => ?_⟩
  · rw [← Adapter.outgoing_of_get? hr, ← Adapter.outgoing_new chip packets config h]
    exact outgoing_run (Adapter.steady_new chip packets config) hr hkind hsmooth
  · exact Adapter.send_error s.adapter h chain dest? (Reply.sent.inj hresult)

/-- The chip has room for two pieces of three, then for the third and one more, and then it
fails. -/
theorem stream_conserved_refused :
    let actions := [.create .inet .stream, .connect 0 (.v4 ⟨⟨10, 0, 0, 1⟩, 80⟩),
      .dispatch (.socket 0 (.connected .success)),
      .chip { ScriptedChip.new with budget? := some 2 },
      .send 0 ⟨[[1, 2], [3, 4], [5]]⟩ none,
      .chip { ScriptedChip.new with budget? := some 2, refusals := [(.send, ⟨-9⟩)] },
      .dispatch (.socket 0 (.sent .success))]
    let s := (new ScriptedChip.new 4 .defaults).run actions
    (new ScriptedChip.new 4 .defaults).Smooth 0 actions ∧
      shipped 0 (s.adapter.bus.history 0) = [1, 2, 3, 4, 5] ∧
      given 0 (new ScriptedChip.new 4 .defaults) [] actions = [1, 2, 3, 4, 5] ∧
      ∃ es, (s.perform (.send 0 ⟨[[6], [7]]⟩ none)).2.adapter.bus.journal =
        s.adapter.bus.journal ++ es ∧ shipped 0 es ++ [7] = [6, 7] := by
  intro actions s
  have hsmooth : (new ScriptedChip.new 4 .defaults).Smooth 0 actions :=
    ⟨by decide +kernel, by decide +kernel⟩
  have hshipped : shipped 0 (s.adapter.bus.history 0) = [1, 2, 3, 4, 5] := by decide +kernel
  have h := stream_conserved ScriptedChip.new 4 .defaults actions
  have hrecord : ∃ r, s.adapter.table.get? 0 = some r ∧ r.kind = .stream ∧ r.backlog = [] := by
    decide +kernel
  obtain ⟨r, hr, hkind, hbacklog⟩ := hrecord
  have hgiven := h.1 0 r hr hkind hsmooth
  rw [hshipped, hbacklog, List.append_nil] at hgiven
  have hrejected : (s.adapter.send 0 ⟨[[6], [7]]⟩ none).1 =
      .error ⟨.invalidArgument, ⟨[[7]]⟩⟩ := by decide +kernel
  exact ⟨hsmooth, hshipped, hgiven.symm, h.2 0 _ none _ (congrArg Reply.sent hrejected)⟩

end Session

end WifiAdapter
