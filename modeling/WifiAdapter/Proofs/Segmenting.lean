import WifiAdapter.Proofs.Chains
import WifiAdapter.Proofs.Regular
import WifiAdapter.Proofs.Streams

/-! A chain goes out in pieces.

A chain is given to the chip in pieces, each segment by itself cut into what one send takes
(`Chain.pieces`). A piece for which the chip has no room waits, with all that follow, until the chip
reports progress; the drain that goes on then starts from a chain whose first segment was trimmed.
This does not change the pieces: what the chip takes of a chain is what it would take without any
refusal (`Session.sent_in_pieces`).

`Sends` says how far the pieces of a chain have come by what was entered since it was given, and
`Adapter.Underway` that this agrees with the record of the socket. One drain gives the next of the
pieces (`drainedInPieces`); all other steps enter nothing of the stream (`MayEnter.idle`) and leave
what waits as it is. -/
namespace WifiAdapter

namespace Chain

/-- The pieces of a chain: each segment by itself is cut into what one send takes. -/
def pieces (c : Chain) : List Bytes := c.segments.flatMap (cut maxStreamSegment)

/-- A piece is not empty, is no longer than one send takes, and is part of one segment. -/
theorem mem_pieces {c : Chain} {piece : Bytes} (h : piece ∈ c.pieces) :
    piece ≠ [] ∧ piece.length ≤ maxStreamSegment ∧ ∃ segment ∈ c.segments, piece <:+: segment := by
  obtain ⟨segment, hsegment, hpiece⟩ := List.mem_flatMap.mp h
  obtain ⟨hne, hlength, hinfix⟩ := mem_cut hpiece
  exact ⟨hne, hlength, segment, hsegment, hinfix⟩

theorem cut_of_ne_nil {size : Nat} (hsize : 0 < size) {data : Bytes} (h : data ≠ []) :
    cut size data = data.take size :: cut size (data.drop size) := by
  rw [cut, if_neg (by simpa using h), show max size 1 = size by omega]

/-- What a drain gives the chip next is the first piece. -/
theorem pieces_of_piece {c : Chain} (hsolid : c.Solid) {piece : Bytes}
    (h : c.piece? maxStreamSegment = some piece) :
    c.pieces = piece :: (c.advance piece.length).pieces := by
  obtain ⟨_ | ⟨segment, rest⟩⟩ := c
  · cases h
  · obtain rfl : segment.take maxStreamSegment = piece := Option.some.inj h
    have hne : segment ≠ [] := hsolid segment List.mem_cons_self
    rw [pieces, List.flatMap_cons, cut_of_ne_nil maxStreamSegment_pos hne, List.cons_append]
    congr 1
    rw [List.length_take, advance]
    dsimp only
    split
    · next hall =>
      rw [List.drop_eq_nil_of_le (by omega), cut]
      rfl
    · next hpart =>
      rw [Nat.min_eq_left (by omega)]
      rfl

theorem pieces_of_no_piece {c : Chain} {size : Nat} (h : c.piece? size = none) : c.pieces = [] := by
  obtain ⟨_ | ⟨segment, rest⟩⟩ := c
  · rfl
  · cases h

end Chain

/-! ### What the journal says of a stream -/

namespace Entry

/-- The piece of a stream that the chip took. -/
def piece? (h : Handle) : Entry → Option Bytes
  | .command (.send k data) (.accepted _) => if k = h then some data else none
  | _ => none

/-- The chip refuses a piece of a stream. -/
def refuses (h : Handle) : Entry → Bool
  | .command (.send k _) (.refused _) => k == h
  | _ => false

/-- The application is told of a stream. -/
def tells (h : Handle) : Entry → Bool
  | .event (.writable k _) _ => k == h
  | _ => false

/-- The chip reports progress on a stream. -/
def reports (h : Handle) : Entry → Bool
  | .handled (.socket k (.sent status)) _ => k == h && decide (0 ≤ status.code)
  | _ => false

/-- No piece of a stream is given to the chip, and the application is told nothing of it. -/
structure Idle (h : Handle) (e : Entry) : Prop where
  piece : e.piece? h = none
  refuses : e.refuses h = false
  tells : e.tells h = false

end Entry

/-- The pieces of a stream that the chip took, in order. -/
def piecesTaken (h : Handle) (es : List Entry) : List Bytes := es.filterMap (·.piece? h)

section Entries
variable {h : Handle} {es more : List Entry} {pieces : List Bytes}

theorem piecesTaken_append : piecesTaken h (es ++ more) = piecesTaken h es ++ piecesTaken h more :=
  List.filterMap_append

@[simp] theorem piecesTaken_acceptances : piecesTaken h (acceptances h pieces) = pieces := by
  have hpiece : (Entry.piece? h) ∘ (fun piece => .command (.send h piece) (.accepted ())) = some :=
    funext fun piece => if_pos rfl
  have hmapped : piecesTaken h (acceptances h pieces) = pieces.filterMap _ := List.filterMap_map
  rw [hmapped, hpiece, List.filterMap_some]

theorem piecesTaken_idle (hes : ∀ e ∈ es, e.Idle h) : piecesTaken h es = [] :=
  List.filterMap_eq_nil_iff.mpr fun e he => (hes e he).piece

theorem of_mem_acceptances {e : Entry} (he : e ∈ acceptances h pieces) :
    e.refuses h = false ∧ e.tells h = false := by
  obtain ⟨piece, -, rfl⟩ := List.mem_map.mp he
  exact ⟨rfl, rfl⟩

end Entries

/-! ### Draining a chain -/

/-- What is entered while a chain is drained, how far that gets and what is left: all pieces go to
the chip in order, or those up to one that the chip has no room for. -/
inductive DrainedInPieces (h : Handle) (chain : Chain) : List Entry → Progress → Chain → Prop where
  | done {rest : Chain} : DrainedInPieces h chain (acceptances h chain.pieces) .done rest
  | blocked (pieces : List Bytes) {left : List Bytes} {piece : Bytes} {rest : Chain}
      (split : chain.pieces = pieces ++ rest.pieces) (next : rest.pieces = piece :: left)
      (solid : rest.Solid) : DrainedInPieces h chain
        (acceptances h pieces ++ [.command (.send h piece) (.refused .bufferFull)]) .blocked rest
  | failed {es : List Entry} {error : SocketError} {rest : Chain} (fails : FailsIn h es) :
      DrainedInPieces h chain es (.failed error) rest

theorem DrainedInPieces.cons {h : Handle} {chain next rest : Chain} {piece : Bytes}
    {es : List Entry} {progress : Progress} (hpieces : chain.pieces = piece :: next.pieces)
    (hdrained : DrainedInPieces h next es progress rest) :
    DrainedInPieces h chain (.command (.send h piece) (.accepted ()) :: es) progress rest := by
  cases hdrained with
  | done =>
    have hall : acceptances h chain.pieces =
        .command (.send h piece) (.accepted ()) :: acceptances h next.pieces := by
      rw [hpieces]
      rfl
    rw [← hall]
    exact .done
  | blocked pieces split next solid =>
    exact .blocked (piece :: pieces) (by rw [hpieces, split]; rfl) next solid
  | failed fails => exact .failed (fails.mono (List.subset_cons_self ..))

theorem drainedInPieces {σ : Type} [Chip σ] (bus : Bus σ) (h : Handle) {chain : Chain}
    (hsolid : chain.Solid) : ∃ es, (bus.drain h chain).2.2.journal = bus.journal ++ es ∧
      DrainedInPieces h chain es (bus.drain h chain).1 (bus.drain h chain).2.1 := by
  fun_induction Bus.drain bus h chain with
  | case1 bus chain hpiece =>
    refine ⟨[], (List.append_nil _).symm, ?_⟩
    have hnone : acceptances h chain.pieces = [] := by
      rw [Chain.pieces_of_no_piece hpiece]
      rfl
    rw [← hnone]
    exact .done
  | case2 bus chain piece hpiece _ bus' hi ih =>
    obtain ⟨es, hjournal, hdrained⟩ := ih (hsolid.advance _)
    exact ⟨_, by rw [hjournal, Bus.journal_of_issue hi, List.append_assoc]; rfl,
      hdrained.cons (Chain.pieces_of_piece hsolid hpiece)⟩
  | case3 bus chain piece hpiece bus' hi =>
    exact ⟨_, Bus.journal_of_issue hi, .blocked [] rfl (Chain.pieces_of_piece hsolid hpiece) hsolid⟩
  | case4 bus chain piece hpiece status bus' hi hne =>
    exact ⟨_, Bus.journal_of_issue hi, .failed ⟨_, List.mem_singleton_self _,
      by simpa [Entry.fails] using hne⟩⟩

/-! ### A chain under way -/

/-- How far the pieces of a chain have come, by what was entered since it was given: the chip took
them in order up to those that are left. -/
structure Sends (h : Handle) (pieces : List Bytes) (es : List Entry) (left : List Bytes) :
    Prop where
  sums : piecesTaken h es ++ left = pieces
  /-- What is left waits for a report of progress since a piece was refused. -/
  waits : left ≠ [] → ∃ before piece after,
    es = before ++ .command (.send h piece) (.refused .bufferFull) :: after ∧
      ∀ e ∈ after, e.reports h = false
  /-- The application is told once, with the last piece, and just if one was refused. -/
  told : left = [] → (∃ e ∈ es, e.refuses h = true) → ∃ before last queued after,
    es = before ++ .command (.send h last) (.accepted ()) ::
        .event (.writable h none) queued :: after ∧
      piecesTaken h before ++ [last] = pieces ∧ ∀ e ∈ before ++ after, e.tells h = false
  silent : left ≠ [] ∨ (∀ e ∈ es, e.refuses h = false) → ∀ e ∈ es, e.tells h = false

namespace Sends
variable {h : Handle} {pieces left : List Bytes} {es more : List Entry}

theorem left_eq_nil (hsends : Sends h pieces es left) : left = [] ↔ piecesTaken h es = pieces := by
  rw [← hsends.sums, List.self_eq_append_right]

/-- Nothing is given to the chip. -/
theorem idle (hsends : Sends h pieces es left) (hmore : ∀ e ∈ more, e.Idle h)
    (hreports : left ≠ [] → ∀ e ∈ more, e.reports h = false) :
    Sends h pieces (es ++ more) left := by
  refine ⟨?_, fun hleft => ?_, fun hleft hrefused => ?_, fun hquiet => ?_⟩
  · rw [piecesTaken_append, piecesTaken_idle hmore, List.append_nil]
    exact hsends.sums
  · obtain ⟨before, piece, after, rfl, hafter⟩ := hsends.waits hleft
    exact ⟨before, piece, after ++ more, by simp,
      List.forall_mem_append.mpr ⟨hafter, hreports hleft⟩⟩
  · have hbefore : ∃ e ∈ es, e.refuses h = true := by
      obtain ⟨e, he, hrefuses⟩ := hrefused
      rcases List.mem_append.mp he with he | he
      · exact ⟨e, he, hrefuses⟩
      · cases (hmore e he).refuses.symm.trans hrefuses
    obtain ⟨before, last, queued, after, rfl, hlast, htells⟩ := hsends.told hleft hbefore
    refine ⟨before, last, queued, after ++ more, by simp, hlast, ?_⟩
    rw [← List.append_assoc]
    exact List.forall_mem_append.mpr ⟨htells, fun e he => (hmore e he).tells⟩
  · have hbefore := hsends.silent (hquiet.imp_right fun h e he => h e (List.mem_append_left _ he))
    exact List.forall_mem_append.mpr ⟨hbefore, fun e he => (hmore e he).tells⟩

/-- While pieces are left, one was refused and the application was told nothing. -/
theorem resumes (hsends : Sends h pieces es left) (hleft : left ≠ []) {e : Entry} (he : e.Idle h) :
    piecesTaken h (es ++ [e]) ++ left = pieces ∧ (∀ x ∈ es ++ [e], x.tells h = false) ∧
      ∃ x ∈ es ++ [e], x.refuses h = true := by
  refine ⟨?_, ?_, ?_⟩
  · rw [piecesTaken_append, piecesTaken_idle (List.forall_mem_singleton.mpr he), List.append_nil]
    exact hsends.sums
  · exact List.forall_mem_append.mpr
      ⟨hsends.silent (.inl hleft), List.forall_mem_singleton.mpr he.tells⟩
  · obtain ⟨before, piece, after, rfl, -⟩ := hsends.waits hleft
    exact ⟨.command (.send h piece) (.refused .bufferFull), by simp, beq_self_eq_true h⟩

end Sends

section Drains
variable {h : Handle} {pieces : List Bytes} {es more : List Entry} {chain rest : Chain}

/-- The chip has no room for all that is left. -/
theorem DrainedInPieces.sends_blocked (hdrained : DrainedInPieces h chain more .blocked rest)
    (hsums : piecesTaken h es ++ chain.pieces = pieces) (hsilent : ∀ e ∈ es, e.tells h = false) :
    Sends h pieces (es ++ more) rest.pieces := by
  cases hdrained with
  | @blocked taken left piece _ split next solid =>
    refine ⟨?_, fun _ => ⟨es ++ acceptances h taken, piece, [], by simp, by simp⟩,
      fun hleft => ?_, fun _ => ?_⟩
    · rw [piecesTaken_append, piecesTaken_append, piecesTaken_acceptances, ← hsums, split]
      simp [piecesTaken, Entry.piece?]
    · rw [next] at hleft
      cases hleft
    · refine List.forall_mem_append.mpr ⟨hsilent, List.forall_mem_append.mpr ⟨?_, ?_⟩⟩
      · exact fun e he => (of_mem_acceptances he).2
      · simp [Entry.tells]

/-- The chip takes all pieces at once. -/
theorem sends_done : Sends h pieces (acceptances h pieces) [] := by
  have hnone : ∀ e ∈ acceptances h pieces, e.refuses h = false ∧ e.tells h = false :=
    fun e he => of_mem_acceptances he
  refine ⟨by simp, nofun, ?_, fun _ e he => (hnone e he).2⟩
  rintro - ⟨e, he, hrefuses⟩
  cases (hnone e he).1.symm.trans hrefuses

/-- The chip takes the rest after a refusal, and the application is told. -/
theorem sends_told {left : List Bytes} (hleft : left ≠ [])
    (hsums : piecesTaken h es ++ left = pieces) (hsilent : ∀ e ∈ es, e.tells h = false)
    (hrefused : ∃ e ∈ es, e.refuses h = true) (queued : Bool) :
    Sends h pieces (es ++ (acceptances h left ++ [.event (.writable h none) queued])) [] := by
  obtain ⟨init, last, rfl⟩ := (List.eq_nil_or_concat left).resolve_left hleft
  rw [List.concat_eq_append] at hsums ⊢
  have hsplit : acceptances h (init ++ [last]) =
      acceptances h init ++ [.command (.send h last) (.accepted ())] := List.map_append
  have htaken : piecesTaken h (es ++ acceptances h init) ++ [last] = pieces := by
    rw [piecesTaken_append, piecesTaken_acceptances, List.append_assoc, hsums]
  refine ⟨?_, nofun, fun _ _ => ⟨es ++ acceptances h init, last, queued, [], ?_, htaken, ?_⟩, ?_⟩
  · rw [piecesTaken_append, piecesTaken_append, piecesTaken_acceptances, ← hsums]
    simp [piecesTaken, Entry.piece?]
  · rw [hsplit]
    simp
  · rw [List.append_nil]
    exact List.forall_mem_append.mpr ⟨hsilent, fun e he => (of_mem_acceptances he).2⟩
  · rintro (hne | hquiet)
    · exact absurd rfl hne
    · obtain ⟨e, he, hrefuses⟩ := hrefused
      cases (hquiet e (List.mem_append_left _ he)).symm.trans hrefuses

end Drains

namespace Adapter
variable {σ : Type}

/-- A stream that a chain is under way for. -/
structure Shipping (h : Handle) (pieces : List Bytes) (es : List Entry) (r : SocketRecord) :
    Prop where
  kind : r.kind = .stream
  phase : r.phase = .connected
  left : ∀ c ∈ r.pendingTx?, c.Solid ∧ c.pieces ≠ []
  sends : Sends h pieces es ((r.pendingTx?.map (·.pieces)).getD [])

section Shipping
variable {h : Handle} {pieces : List Bytes} {es more : List Entry} {r : SocketRecord}

/-- All pieces were taken. -/
theorem Shipping.of_sent (hkind : r.kind = .stream) (hphase : r.phase = .connected)
    (hpending : r.pendingTx? = none) (hsends : Sends h pieces es []) : Shipping h pieces es r where
  kind := hkind
  phase := hphase
  left := by simp [hpending]
  sends := by rwa [hpending]

/-- What the chip has no room for is left in the record. -/
theorem Shipping.of_blocked {chain rest : Chain} (hkind : r.kind = .stream)
    (hphase : r.phase = .connected) (hdrained : DrainedInPieces h chain more .blocked rest)
    (hsums : piecesTaken h es ++ chain.pieces = pieces) (hsilent : ∀ e ∈ es, e.tells h = false) :
    Shipping h pieces (es ++ more) { r with pendingTx? := some rest } where
  kind := hkind
  phase := hphase
  left := by
    rintro _ ⟨⟩
    cases hdrained with
    | blocked _ split next solid => exact ⟨solid, next ▸ List.cons_ne_nil _ _⟩
  sends := hdrained.sends_blocked hsums hsilent

/-- Nothing of the stream is entered. -/
theorem Shipping.idle (hshipping : Shipping h pieces es r) (hmore : ∀ e ∈ more, e.Idle h)
    (hreports : r.pendingTx? ≠ none → ∀ e ∈ more, e.reports h = false) :
    Shipping h pieces (es ++ more) r where
  kind := hshipping.kind
  phase := hshipping.phase
  left := hshipping.left
  sends := hshipping.sends.idle hmore fun hleft => hreports fun hnone => hleft (by rw [hnone]; rfl)

end Shipping

/-- From one adapter to another a chain is under way, or the chip has failed its stream. -/
def Underway (h : Handle) (pieces : List Bytes) (a b : Adapter σ) : Prop :=
  ∃ es, b.bus.journal = a.bus.journal ++ es ∧
    (FailsIn h es ∨ ∃ r, b.table.get? h = some r ∧ Shipping h pieces es r)

section Underway
variable {h : Handle} {pieces : List Bytes} {a b c : Adapter σ}

/-- A stream that has failed has failed for good. -/
theorem Underway.of_shipping (hab : Underway h pieces a b)
    (hgrows : b.bus.journal <+: c.bus.journal)
    (hship : ∀ es r, b.table.get? h = some r → Shipping h pieces es r → ∃ more,
      c.bus.journal = b.bus.journal ++ more ∧
        (FailsIn h more ∨ ∃ r', c.table.get? h = some r' ∧ Shipping h pieces (es ++ more) r')) :
    Underway h pieces a c := by
  obtain ⟨es, hes, hfails | ⟨r, hr, hshipping⟩⟩ := hab
  · obtain ⟨more, hjournal⟩ := hgrows
    exact ⟨es ++ more, by rw [← hjournal, hes, List.append_assoc],
      .inl (hfails.mono (List.subset_append_left ..))⟩
  · obtain ⟨more, hjournal, hcase⟩ := hship es r hr hshipping
    exact ⟨es ++ more, by rw [hjournal, hes, List.append_assoc],
      hcase.imp_left fun hfails => hfails.mono (List.subset_append_right ..)⟩

variable [Chip σ] {D : Deed → Prop} {site? : Option Handle}

omit [Chip σ] in
theorem Revision.shipping {es : List Entry} {r r' : SocketRecord}
    (hrevision : Revision D site? a h r r') (hD : ¬ D (.transmit h))
    (hshipping : Shipping h pieces es r) : Shipping h pieces es r' := by
  have hpending : r'.pendingTx? = r.pendingTx? := by
    cases hrevision with
    | pending hd => exact absurd hd hD
    | complete _ _ _ starts => cases starts <;> rfl
    | _ => rfl
  exact ⟨hrevision.kind.trans hshipping.kind, hrevision.connected hshipping.phase,
    hpending ▸ hshipping.left, hpending ▸ hshipping.sends⟩

/-- Deeds that do not concern the data of a stream. -/
structure Apart (D : Deed → Prop) (h : Handle) : Prop where
  transmit : ¬ D (.transmit h)
  connect : ¬ D (.connect h)
  shut : ¬ D (.shut h)

omit [Chip σ] in
/-- What may be entered then is nothing of the stream. -/
theorem MayEnter.idle {e : Entry} (he : a.MayEnter D e) (hD : Apart D h) :
    e.Idle h ∧ e.reports h = false := by
  have other {k : Handle} (hk : k = h → False) : (k == h) = false := beq_false_of_ne hk
  cases e with
  | command c answer =>
    cases c with
    | send k data =>
      have hk : k ≠ h := fun hk => hD.transmit (hk ▸ he)
      cases answer with
      | accepted => exact ⟨⟨if_neg hk, rfl, rfl⟩, rfl⟩
      | refused => exact ⟨⟨rfl, other hk, rfl⟩, rfl⟩
    | _ => exact ⟨⟨rfl, rfl, rfl⟩, rfl⟩
  | event e queued =>
    cases e with
    | writable k error? =>
      exact ⟨⟨rfl, rfl, other fun hk => (hk ▸ he).elim hD.connect hD.transmit⟩, rfl⟩
    | _ => exact ⟨⟨rfl, rfl, rfl⟩, rfl⟩
  | handled note expecting? =>
    refine ⟨⟨rfl, rfl, rfl⟩, ?_⟩
    unfold Entry.reports
    split
    · next k _ _ heq =>
      cases heq
      rw [other fun hk => hD.transmit (hk ▸ he.2 k rfl), Bool.false_and]
    · rfl
  | _ => exact ⟨⟨rfl, rfl, rfl⟩, rfl⟩

theorem Underway.step (hab : Underway h pieces a b) (hbc : Step D site? b c) (hb : b.Steady)
    (hD : Apart D h) : Underway h pieces a c := by
  obtain ⟨more, hjournal, hmay⟩ := hbc.enters hb
  refine hab.of_shipping ⟨more, hjournal.symm⟩ fun es r hr hshipping => ⟨more, hjournal, .inr ?_⟩
  rcases hbc.slot hb h with ⟨hfree, -⟩ | ⟨hfree, -, -⟩ | ⟨-, hd, -⟩ | ⟨hr₀, hr', -, hrevision⟩
  · cases hfree.symm.trans hr
  · cases hfree.symm.trans hr
  · exact absurd hd hD.shut
  · cases hr₀.symm.trans hr
    exact ⟨_, hr', (hrevision.shipping hD.transmit hshipping).idle
      (fun e he => ((hmay e he).idle hD).1) fun _ e he => ((hmay e he).idle hD).2⟩

omit [Chip σ] in
theorem idle_handled (h : Handle) (note : Notification) (expecting? : Option Expectation) :
    (Entry.handled note expecting?).Idle h := ⟨rfl, rfl, rfl⟩

omit [Chip σ] in
/-- The record of a stream, after what waits in it was changed. -/
theorem get?_pending {r : SocketRecord} {bus : Bus σ} (hr : b.table.get? h = some r)
    (chain? : Option Chain) :
    ({ b with bus }.modify h fun r => { r with pendingTx? := chain? }).table.get? h =
      some { r with pendingTx? := chain? } := SocketTable.get?_modify_self hr

/-- What waits goes on, in pieces. -/
theorem shipping_onSent {r : SocketRecord} {chain : Chain} {es : List Entry}
    (hr : b.table.get? h = some r) (hkind : r.kind = .stream) (hphase : r.phase = .connected)
    (hchain : r.pendingTx? = some chain) (hsolid : chain.Solid) (hleft : chain.pieces ≠ [])
    (hsums : piecesTaken h es ++ chain.pieces = pieces) (hsilent : ∀ e ∈ es, e.tells h = false)
    (hrefused : ∃ e ∈ es, e.refuses h = true) {status : Status} (hstatus : ¬ status.code < 0) :
    ∃ more, (b.onSent h status).bus.journal = b.bus.journal ++ more ∧
      (FailsIn h more ∨ ∃ r', (b.onSent h status).table.get? h = some r' ∧
        Shipping h pieces (es ++ more) r') := by
  obtain ⟨more, hjournal, hdrained⟩ := drainedInPieces b.bus h hsolid
  unfold onSent
  rw [hr, Option.bind_some, hchain]
  dsimp only
  rw [if_neg hstatus]
  revert hjournal hdrained
  generalize b.bus.drain h chain = drain
  obtain ⟨progress, rest, bus⟩ := drain
  intro hjournal hdrained
  cases progress with
  | done =>
    cases hdrained
    refine ⟨_, (journal_announce ..).trans ((congrArg (· ++ _) hjournal).trans
      (List.append_assoc ..)), .inr ⟨{ r with pendingTx? := none }, ?_, ?_⟩⟩
    · exact (congrArg (·.get? h) (table_announce ..)).trans (get?_pending hr none)
    · exact .of_sent hkind hphase rfl (sends_told hleft hsums hsilent hrefused _)
  | blocked =>
    exact ⟨_, hjournal, .inr ⟨_, get?_pending hr (some rest),
      .of_blocked hkind hphase hdrained hsums hsilent⟩⟩
  | failed error =>
    cases hdrained with
    | failed fails =>
      refine ⟨_, (journal_announce ..).trans ((congrArg (· ++ _) hjournal).trans
        (List.append_assoc ..)), .inl (fails.mono (List.subset_append_left ..))⟩

theorem Step.grows (hbc : Step D site? b c) (hb : b.Steady) : b.bus.journal <+: c.bus.journal := by
  obtain ⟨more, hjournal, -⟩ := hbc.enters hb
  exact ⟨more, hjournal.symm⟩

theorem Steps.grows (hbc : Steps D site? b c) (hb : b.Steady) : b.bus.journal <+: c.bus.journal :=
  hbc.keeps (P := fun c => b.bus.journal <+: c.bus.journal)
    (fun _ _ hs hgrows hstep => hgrows.trans (hstep.grows hs)) hb (List.prefix_refl _)

theorem Leads.grows (hbc : Leads D b c) (hb : b.Steady) : b.bus.journal <+: c.bus.journal :=
  Steps.grows (hbc.yields hb : Steps D none b c) hb

theorem grows_handle (hb : b.Steady) (now : Nat) (note : Notification) :
    b.bus.journal <+: (b.handle now note).bus.journal :=
  (leads_handle_deeds b now note).grows hb

/-- Progress is reported: what waits goes on. -/
theorem Underway.sent (hab : Underway h pieces a b) (hb : b.Steady) (now : Nat) {status : Status}
    (hfine : (⟨b, .socket h (.sent status)⟩ : Moment σ).breaks h = false) :
    Underway h pieces a (b.handle now (.socket h (.sent status))) := by
  let noted := b.noted (.socket h (.sent status))
  have hidle := idle_handled h (.socket h (.sent status)) b.rx.expecting?
  refine hab.of_shipping (grows_handle hb now _) fun es r hr hshipping => ?_
  show ∃ more, (noted.onSent h status).bus.journal = _ ++ more ∧ _
  cases hpending : r.pendingTx? with
  | none =>
    have hsame : noted.onSent h status = noted := by
      unfold onSent
      rw [show noted.table.get? h = some r from hr, Option.bind_some, hpending]
    exact ⟨_, congrArg (·.bus.journal) hsame, .inr ⟨r, (congrArg (·.table.get? h) hsame).trans hr,
      hshipping.idle (List.forall_mem_singleton.mpr hidle) (absurd hpending)⟩⟩
  | some chain =>
    obtain ⟨hsolid, hleft⟩ := hshipping.left chain hpending
    have hstatus : ¬ status.code < 0 := by
      simpa [Moment.breaks, hr, hpending] using hfine
    have hsends := hshipping.sends
    rw [hpending] at hsends
    obtain ⟨hsums, hsilent, hrefused⟩ := hsends.resumes hleft hidle
    obtain ⟨more, hjournal, hcase⟩ := shipping_onSent (b := noted) hr hshipping.kind hshipping.phase
      hpending hsolid hleft hsums hsilent hrefused hstatus
    refine ⟨_ :: more, hjournal.trans (List.append_assoc ..), ?_⟩
    rw [List.append_cons es]
    exact hcase.imp_left fun hfails => hfails.mono (List.subset_cons_self ..)

/-- A connection that is there is not made again. -/
theorem Underway.connected (hab : Underway h pieces a b) (hb : b.Steady) (now : Nat)
    (status : Status) : Underway h pieces a (b.handle now (.socket h (.connected status))) := by
  refine hab.of_shipping (grows_handle hb now _) fun es r hr hshipping => ?_
  let noted := b.noted (.socket h (.connected status))
  have hsame : b.handle now (.socket h (.connected status)) = noted := by
    show noted.onConnect h status = noted
    unfold onConnect
    rw [show noted.table.get? h = some r from hr]
    dsimp only
    rw [hshipping.phase, if_pos (by cases status.isSuccess <;> rfl)]
  rw [hsame]
  have hidle := idle_handled h (.socket h (.connected status)) b.rx.expecting?
  exact ⟨[_], rfl, .inr ⟨r, hr, hshipping.idle (List.forall_mem_singleton.mpr hidle)
    fun _ => List.forall_mem_singleton.mpr rfl⟩⟩

theorem Underway.steps (hab : Underway h pieces a b) (hbc : Steps D site? b c) (hb : b.Steady)
    (hD : Apart D h) : Underway h pieces a c :=
  hbc.keeps (fun _ _ hs hunderway hstep => hunderway.step hstep hs hD) hb hab

theorem Underway.handle (hab : Underway h pieces a b) (hb : b.Steady) (now : Nat)
    (note : Notification) (hfine : (⟨b, note⟩ : Moment σ).breaks h = false) :
    Underway h pieces a (b.handle now note) := by
  by_cases hsent : note.deed? = some (.transmit h)
  · obtain ⟨status, rfl⟩ := Notification.eq_sent hsent
    exact hab.sent hb now hfine
  · by_cases hconnected : note.deed? = some (.connect h)
    · obtain ⟨status, rfl⟩ := Notification.eq_connected hconnected
      exact hab.connected hb now status
    · have hD : Apart note.deeds h := by
        refine ⟨fun hd => hsent (hd.resolve_left nofun),
          fun hd => hconnected (hd.resolve_left nofun), fun hd => ?_⟩
        exact Notification.incoming (hd.resolve_left nofun)
      have hsteps : Steps note.deeds none b (b.handle now note) :=
        (leads_handle_deeds b now note).yields hb
      exact hab.steps hsteps hb hD

theorem Underway.course {now : Nat} {ms : List (Moment σ)} (hab : Underway h pieces a b)
    (hcourse : Course D site? now b ms c) (hb : b.Steady) (hD : Apart D h)
    (hfine : ∀ m ∈ ms, m.breaks h = false) : Underway h pieces a c := by
  induction hcourse with
  | refl => exact hab
  | step hcourse hstep ih => exact (ih hfine).step hstep (hcourse.steady hb) hD
  | @handle ms c hcourse note ih =>
    have hms : ∀ m ∈ ms, m.breaks h = false := fun m hm => hfine m (List.mem_append_left _ hm)
    exact (ih hms).handle (hcourse.steady hb) now note (hfine ⟨c, note⟩ (by simp))
  | @poll ms c hcourse ih =>
    have hpoll : Steps Deed.Asking none c c.pollIdle :=
      (leads_pollIdle (D := Deed.Asking) rfl c).yields (hcourse.steady hb)
    exact (ih hfine).steps hpoll (hcourse.steady hb) ⟨nofun, nofun, nofun⟩

/-! ### Requests of the application -/

omit [Chip σ] in
theorem Shipping.unchanged {es : List Entry} {r : SocketRecord} (hship : Shipping h pieces es r)
    (hr : b.table.get? h = some r) (hsame : c = b) : ∃ more,
      c.bus.journal = b.bus.journal ++ more ∧
        (FailsIn h more ∨ ∃ r', c.table.get? h = some r' ∧ Shipping h pieces (es ++ more) r') := by
  subst hsame
  exact ⟨[], (List.append_nil _).symm, .inr ⟨r, hr, by rwa [List.append_nil]⟩⟩

/-- A connected stream is not connected again. -/
theorem Underway.connect (hab : Underway h pieces a b) (hb : b.Steady) (remote : SocketAddr) :
    Underway h pieces a (b.connect h remote).2 := by
  have hleads := leads_connect (D := Deed.Any) b h remote trivial
  refine hab.of_shipping (hleads.grows hb) fun es r hr hshipping => hshipping.unchanged hr ?_
  unfold Adapter.connect SocketTable.get
  cases remote with
  | v6 => rfl
  | v4 peer =>
    rw [hr]
    dsimp only
    rw [hshipping.kind, hshipping.phase]
    rfl

/-- Nothing else is taken over for the stream. -/
theorem Underway.send (hab : Underway h pieces a b) (hb : b.Steady) (chain : Chain)
    (dest? : Option SocketAddr)
    (hother : (b.send h chain dest?).1 = .ok () → chain.isEmpty = true) :
    Underway h pieces a (b.send h chain dest?).2 := by
  have hleads := leads_send (D := Deed.Any) b h chain dest? trivial trivial
  refine hab.of_shipping (hleads.grows hb) fun es r hr hshipping => ?_
  rw [send_of_stream hr hshipping.kind] at hother ⊢
  revert hother
  unfold sendStream
  cases streamRefusal? r dest? with
  | some error => exact fun _ => hshipping.unchanged hr rfl
  | none =>
    dsimp only
    by_cases hempty : chain.isEmpty = true
    · rw [if_pos hempty]
      exact fun _ => hshipping.unchanged hr rfl
    · rw [if_neg hempty]
      obtain ⟨more, hjournal, hdrained⟩ := drained b.bus h chain
      revert hjournal hdrained
      generalize b.bus.drain h chain = drain
      obtain ⟨progress, rest, bus⟩ := drain
      intro hjournal hdrained hother
      cases progress with
      | done | blocked => exact absurd (hother rfl) hempty
      | failed error => exact ⟨more, hjournal, .inl (hdrained.fails error rfl)⟩

/-- A chain that is given for a stream that can take it gets under way. -/
theorem underway_send {r : SocketRecord} {chain : Chain} (hr : a.table.get? h = some r)
    (hkind : r.kind = .stream) (hready : streamRefusal? r none = none) (hsolid : chain.Solid) :
    Underway h chain.pieces a (a.send h chain none).2 ∧
      ((a.send h chain none).1 = .ok () ∨ ∃ es,
        (a.send h chain none).2.bus.journal = a.bus.journal ++ es ∧ FailsIn h es) := by
  obtain ⟨hphase, -, hpending⟩ := of_streamRefusal? hready
  have hdone {b : Adapter σ} (hb : b.table.get? h = some r)
      (hjournal : b.bus.journal = a.bus.journal ++ acceptances h chain.pieces) :
      Underway h chain.pieces a b :=
    ⟨_, hjournal, .inr ⟨r, hb, .of_sent hkind hphase hpending sends_done⟩⟩
  rw [send_of_stream hr hkind]
  unfold sendStream
  rw [hready]
  dsimp only
  by_cases hempty : chain.isEmpty = true
  · rw [if_pos hempty]
    have hnone : chain.pieces = [] := by
      rw [Chain.pieces, List.isEmpty_iff.mp hempty]
      rfl
    exact ⟨hdone hr (by rw [hnone]; exact (List.append_nil _).symm), .inl rfl⟩
  · rw [if_neg hempty]
    obtain ⟨es, hjournal, hdrained⟩ := drainedInPieces a.bus h hsolid
    revert hjournal hdrained
    generalize a.bus.drain h chain = drain
    obtain ⟨progress, rest, bus⟩ := drain
    intro hjournal hdrained
    cases progress with
    | done =>
      cases hdrained
      exact ⟨hdone hr hjournal, .inl rfl⟩
    | blocked =>
      have hshipping : Shipping h chain.pieces ([] ++ es) { r with pendingTx? := some rest } :=
        .of_blocked hkind hphase hdrained rfl nofun
      exact ⟨⟨es, hjournal, .inr ⟨_, get?_pending hr (some rest), hshipping⟩⟩, .inl rfl⟩
    | failed error =>
      cases hdrained with
      | failed fails => exact ⟨⟨es, hjournal, .inl fails⟩, .inr ⟨es, hjournal, fails⟩⟩

end Underway

end Adapter

/-! ### Histories -/

namespace Session
variable {σ : Type} [Chip σ] {s t : Session σ} {h : Handle} {pieces : List Bytes}

/-- No other chain is taken over for the stream of a socket, but for an empty one. -/
def TakesNoOther (s : Session σ) (h : Handle) (actions : List (Action σ)) : Prop :=
  ∀ past chain dest? rest, actions = past ++ .send h chain dest? :: rest →
    ((s.run past).adapter.send h chain dest?).1 = .ok () → chain.isEmpty = true

theorem underway_perform (hst : Adapter.Underway h pieces s.adapter t.adapter)
    (ht : t.adapter.Steady) {action : Action σ} (hclose : action ≠ .close h)
    (hfine : ∀ m ∈ t.moments action, m.breaks h = false)
    (hother : ∀ chain dest?, action = .send h chain dest? →
      (t.adapter.send h chain dest?).1 = .ok () → chain.isEmpty = true) :
    Adapter.Underway h pieces s.adapter (t.perform action).2.adapter := by
  by_cases hsend : ∃ chain dest?, action = .send h chain dest?
  · obtain ⟨chain, dest?, rfl⟩ := hsend
    exact hst.send ht chain dest? (hother chain dest? rfl)
  · by_cases hconnect : ∃ remote, action = .connect h remote
    · obtain ⟨remote, rfl⟩ := hconnect
      exact hst.connect ht remote
    · have hD : Adapter.Apart (deeds action) h := by
        refine ⟨fun hd => ?_, fun hd => ?_, fun hd => hclose (broughtBy_of_deeds hd)⟩
        · cases action with
          | send k chain dest? =>
            obtain rfl : h = k := by rcases hd with hd | hd <;> cases hd; rfl
            exact hsend ⟨chain, dest?, rfl⟩
          | work | contend => rcases hd with hd | hd <;> cases hd
          | poll => rcases hd with hd | hd | hd <;> cases hd
          | _ => cases hd
        · cases action with
          | connect k remote =>
            cases hd
            exact hconnect ⟨remote, rfl⟩
          | send | work | contend => rcases hd with hd | hd <;> cases hd
          | poll => rcases hd with hd | hd | hd <;> cases hd
          | _ => cases hd
      exact hst.course (passes_perform t action ht) ht hD hfine

theorem underway_run (hst : Adapter.Underway h pieces s.adapter t.adapter) (ht : t.adapter.Steady)
    {actions : List (Action σ)} (hclose : .close h ∉ actions)
    (hfine : ∀ m ∈ t.trail actions, m.breaks h = false) (hother : t.TakesNoOther h actions) :
    Adapter.Underway h pieces s.adapter (t.run actions).adapter := by
  induction actions generalizing t with
  | nil => exact hst
  | cons action rest ih =>
    have hfirst : Adapter.Underway h pieces s.adapter (t.perform action).2.adapter := by
      refine underway_perform hst ht (fun heq => hclose (heq ▸ List.mem_cons_self))
        (fun m hm => hfine m (List.mem_append_left _ hm)) ?_
      rintro chain dest? rfl
      exact hother [] chain dest? rest rfl
    refine ih hfirst (steady_perform ht action) (fun hmem => hclose (List.mem_cons_of_mem _ hmem))
      (fun m hm => hfine m (List.mem_append_right _ hm)) ?_
    rintro past chain dest? later rfl
    exact hother (action :: past) chain dest? later rfl

theorem grows_run (ht : t.adapter.Steady) (actions : List (Action σ)) :
    t.adapter.bus.journal <+: (t.run actions).adapter.bus.journal :=
  (invariant_run (P := fun a => t.adapter.bus.journal <+: a.bus.journal)
    (fun _ _ _ hs hgrows hstep => hgrows.trans (hstep.grows hs)) ht (List.prefix_refl _) actions).1

/-- A chain is given for a stream, and from there on, with what is entered since, the socket is not
closed and nothing else is taken over for its stream. The chip refuses data of it only while its
buffer is full, and reports no failure while data waits. -/
structure OnlyBlocks (s : Session σ) (h : Handle) (chain : Chain) (actions : List (Action σ))
    (es : List Entry) : Prop where
  entered :
    (s.run (.send h chain none :: actions)).adapter.bus.journal = s.adapter.bus.journal ++ es
  unclosed : .close h ∉ actions
  alone : (s.perform (.send h chain none)).2.TakesNoOther h actions
  refusals : ¬ FailsIn h es
  reports : ∀ m ∈ (s.perform (.send h chain none)).2.trail actions, m.breaks h = false

/-- After every refusal of a piece of a stream the chip reported progress. -/
def Relieved (h : Handle) (es : List Entry) : Prop :=
  ∀ i, (hi : i < es.length) → es[i].refuses h = true → ∃ e ∈ es.drop (i + 1), e.reports h = true

instance (h : Handle) (es : List Entry) : Decidable (Relieved h es) :=
  inferInstanceAs (Decidable (∀ i, (hi : i < es.length) → es[i].refuses h = true →
    ∃ e ∈ es.drop (i + 1), e.reports h = true))

theorem Relieved.after {before after : List Entry} {e : Entry}
    (hrelieved : Relieved h (before ++ e :: after)) (hrefuses : e.refuses h = true) :
    ∃ e ∈ after, e.reports h = true := by
  have hreported := hrelieved before.length (by simp) (by simpa using hrefuses)
  rwa [List.drop_length_add_append] at hreported

/-- A chain without empty segments is given for a stream that can take it, in any history, and the
chip does no worse than to refuse data while its buffer is full. Then the send is accepted, and
whatever else happens the chip takes the pieces of the chain in order up to those that wait, each as
it would without any refusal: not empty, no longer than one send takes, and out of one segment.
Nothing waits as soon as it took the last one. The application is told that the stream is writable
once, right after that, if a piece was refused, and is told nothing otherwise. If every refusal was
followed by a report of progress, all pieces were taken. -/
theorem sent_in_pieces (chip : σ) (packets : Nat) (config : Config)
    {before actions : List (Action σ)} {h : Handle} {r : SocketRecord} {chain : Chain}
    {es : List Entry}
    (hr : ((new chip packets config).run before).adapter.table.get? h = some r)
    (hkind : r.kind = .stream) (hready : Adapter.streamRefusal? r none = none)
    (hsolid : chain.Solid)
    (hblocks : ((new chip packets config).run before).OnlyBlocks h chain actions es) :
    let s := (new chip packets config).run before
    (s.perform (.send h chain none)).1 = .sent (.ok ()) ∧
      (∀ piece ∈ chain.pieces, piece ≠ [] ∧ piece.length ≤ maxStreamSegment ∧
        ∃ segment ∈ chain.segments, piece <:+: segment) ∧
      ∃ r', (s.run (.send h chain none :: actions)).adapter.table.get? h = some r' ∧
        Sends h chain.pieces es ((r'.pendingTx?.map (·.pieces)).getD []) ∧
        (r'.pendingTx? = none ↔ piecesTaken h es = chain.pieces) ∧
        (Relieved h es → piecesTaken h es = chain.pieces) := by
  intro s
  have hs : s.adapter.Steady := steady_run (Adapter.steady_new chip packets config) before
  have ht := steady_perform hs (.send h chain none)
  obtain ⟨hstart, hreply⟩ := Adapter.underway_send hr hkind hready hsolid
  have hrun : Adapter.Underway h chain.pieces s.adapter
      (s.run (.send h chain none :: actions)).adapter :=
    underway_run hstart ht hblocks.unclosed hblocks.reports hblocks.alone
  obtain ⟨es', hes', hship⟩ := hrun
  obtain rfl := List.append_cancel_left (hes'.symm.trans hblocks.entered)
  obtain ⟨r', hr', hshipping⟩ := hship.resolve_left hblocks.refusals
  have hsends := hshipping.sends
  refine ⟨?_, fun _ hpiece => Chain.mem_pieces hpiece, r', hr', hsends, ?_, fun hrelieved => ?_⟩
  · rcases hreply with hok | ⟨first, hfirst, hfails⟩
    · exact congrArg Reply.sent hok
    · obtain ⟨rest, hrest⟩ := grows_run ht actions
      have hjournal : s.adapter.bus.journal ++ (first ++ rest) = s.adapter.bus.journal ++ es' := by
        rw [← hes', ← List.append_assoc, ← hfirst]
        exact hrest
      have hes : first ++ rest = es' := List.append_cancel_left hjournal
      exact absurd (hfails.mono (hes ▸ List.subset_append_left ..)) hblocks.refusals
  · rw [← hsends.left_eq_nil]
    cases hpending : r'.pendingTx? with
    | none => exact iff_of_true rfl rfl
    | some rest => exact iff_of_false nofun (hshipping.left rest hpending).2
  · rw [← hsends.left_eq_nil]
    by_contra hleft
    obtain ⟨_, piece, after, rfl, hquiet⟩ := hsends.waits hleft
    obtain ⟨e, he, hreports⟩ := hrelieved.after (beq_self_eq_true h)
    cases (hquiet e he).symm.trans hreports

/-- The chip has room for one piece of three, then for the second one, and then for the third. -/
theorem sent_in_pieces_refused :
    let before := [.create .inet .stream, .connect 0 (.v4 ⟨⟨10, 0, 0, 1⟩, 80⟩),
      .dispatch (.socket 0 (.connected .success)),
      .chip { ScriptedChip.new with budget? := some 1 }]
    let actions := [.chip { ScriptedChip.new with budget? := some 1 },
      .dispatch (.socket 0 (.sent .success)), .chip ScriptedChip.new,
      .dispatch (.socket 0 (.sent .success))]
    let chain : Chain := ⟨[[1, 2], [3, 4], [5]]⟩
    let s := (new ScriptedChip.new 4 .defaults).run before
    ∃ es, s.OnlyBlocks 0 chain actions es ∧ Relieved 0 es ∧ piecesTaken 0 es = chain.pieces ∧
      piecesTaken 0 es = [[1, 2], [3, 4], [5]] := by
  intro before actions chain s
  let es : List Entry := (s.run (.send 0 chain none :: actions)).adapter.bus.journal.drop
    s.adapter.bus.journal.length
  have hrecord : ∃ r, s.adapter.table.get? 0 = some r ∧ r.kind = .stream ∧
      Adapter.streamRefusal? r none = none := by decide +kernel
  obtain ⟨r, hr, hkind, hready⟩ := hrecord
  have hunsent : (s.perform (.send 0 chain none)).2.TakesNoOther 0 actions := by
    intro past other dest? rest hsplit
    have hmem : .send 0 other dest? ∈ actions := by simp [hsplit]
    simp [actions] at hmem
  have hblocks : s.OnlyBlocks 0 chain actions es :=
    ⟨by decide +kernel, by simp [actions], hunsent, by decide +kernel, by decide +kernel⟩
  have hrelieved : Relieved 0 es := by decide +kernel
  obtain ⟨-, -, r', -, -, -, htaken⟩ := sent_in_pieces ScriptedChip.new 4 .defaults hr hkind hready
    (by simp [Chain.Solid, chain]) hblocks
  exact ⟨es, hblocks, hrelieved, htaken hrelieved, by decide +kernel⟩

end Session

end WifiAdapter
