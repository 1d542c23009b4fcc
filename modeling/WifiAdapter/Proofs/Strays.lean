import WifiAdapter.Proofs.Telling
import WifiAdapter.Proofs.Unseen

/-! Messages that nobody waits for.

The chip reports the end of what it was told to do, and meanwhile the socket may have gone on or
may be gone. A report is noted and nothing else comes of it (`Adapter.Loses`) if its socket is in
another phase than the one that expects it, or has nothing left to send (`Adapter.Unawaited`). A
delivery for a socket with no receive outstanding is lost whatever it says, but it is an occasion
to ask again: what follows is the poll that would have followed by itself (`Adapter.Discards`),
since a poll sees neither what the journal holds nor what was discarded before (`Adapter.after`).
`unawaited_messages_lost`: so it is with every adapter, whichever way it came about. -/
namespace WifiAdapter

/-- Only a connect that is under way has an end. -/
theorem Phase.connecting_of_admits {q : Phase} {ok : Bool}
    (h : (q.transition (.connectDone ok)).rejected = false) : q = .connecting := by
  rw [rejected_transition] at h
  cases q <;> first | rfl | cases h

namespace Adapter
variable {σ : Type}

/-! ### Other pasts -/

/-- What the journal held before, and how much was discarded. -/
structure Bygone where
  entries : List Entry
  discarded : Nat

/-- The adapter after something bygone: what it entered itself comes later. -/
def after (b : Bygone) (a : Adapter σ) : Adapter σ :=
  { a with
    bus := { a.bus with journal := b.entries ++ a.bus.journal }
    stats := { a.stats with discarded := b.discarded } }

/-- The adapter as if nothing had been entered before. -/
def fresh (a : Adapter σ) : Adapter σ := { a with bus := { a.bus with journal := [] } }

theorem fresh_after (a : Adapter σ) : a.fresh.after ⟨a.bus.journal, a.stats.discarded⟩ = a := by
  unfold fresh after
  simp only [List.append_nil]

theorem enter_after (b : Bygone) (a : Adapter σ) (e : Entry) :
    (a.after b).enter e = (a.enter e).after b := by
  simp only [enter, after, Bus.enter, List.append_assoc]

theorem emit_after (b : Bygone) (a : Adapter σ) (e : Event) :
    (a.after b).emit e = ((a.emit e).1, (a.emit e).2.after b) := by
  have hevents : (a.after b).events = a.events := rfl
  unfold emit
  rw [hevents, enter_after]
  cases a.events.push? e with
  | none => rfl
  | some events => exact congrArg (Prod.mk true) (enter_after b { a with events } _)

variable [Chip σ]

theorem issue_after (b : Bygone) (a : Adapter σ) (c : Command) :
    (a.after b).issue c = ((a.issue c).1, (a.issue c).2.after b) := by
  simp only [issue, after, Bus.issue, Bus.enter, List.append_assoc]

theorem unseen_after (b : Bygone) : Unseen fun a : Adapter σ => a.after b where
  table _ := rfl
  rx _ := rfl
  pool _ := rfl
  rxPacketSize _ := rfl
  recvTimeout _ := rfl
  enter := enter_after b
  onTable _ _ := rfl
  onRx _ _ := rfl
  lend _ _ := rfl
  count a f hf := by
    unfold onStats after
    rw [hf]
  issue := issue_after b
  emit := emit_after b

/-! ### What comes of a message -/

/-- The message reports on something that is not under way at its socket. -/
def Unawaited (a : Adapter σ) (h : Handle) : SocketMessage → Prop
  | .bound _ => a.table.phase? h ≠ some .binding
  | .listening _ => a.table.phase? h ≠ some .listenPending
  | .connected _ => a.table.phase? h ≠ some .connecting
  | .sent _ => (a.table.get? h).bind (·.pendingTx?) = none
  | .sentTo _ => True
  | .accepted .. | .received _ => False

/-- The notification is entered in the journal, and perhaps it is counted as discarded. Everything
else is as it was. -/
def Loses (note : Notification) (a b : Adapter σ) : Prop :=
  ∃ discarded, (discarded = a.stats.discarded ∨ discarded = saturatingAdd a.stats.discarded 1) ∧
    b = { a with
      bus := a.bus.enter (.handled note a.rx.expecting?)
      stats := { a.stats with discarded } }

/-- The notification is entered in the journal and counted as discarded. Everything else is as it
is after a poll from the beginning. -/
def Discards (note : Notification) (a b : Adapter σ) : Prop :=
  ∃ polled, a.pollIdle.bus.journal = a.bus.journal ++ polled ∧
    b = { a.pollIdle with
      bus := ⟨a.pollIdle.bus.chip, a.bus.journal ++ .handled note a.rx.expecting? :: polled⟩
      stats := { a.pollIdle.stats with discarded := saturatingAdd a.stats.discarded 1 } }

variable (a : Adapter σ) (note : Notification) {h : Handle}

omit [Chip σ] in
theorem loses_noted : Loses note a (a.noted note) := ⟨_, .inl rfl, rfl⟩

omit [Chip σ] in
theorem loses_discard : Loses note a (a.noted note).discard := ⟨_, .inr rfl, rfl⟩

/-- A poll does not see that something was discarded before it. -/
theorem discards_pollIdle : Discards note a (a.noted note).discard.pollIdle := by
  let noted : Bygone :=
    ⟨a.bus.journal ++ [.handled note a.rx.expecting?], saturatingAdd a.stats.discarded 1⟩
  have hpolled : a.pollIdle = a.fresh.pollIdle.after ⟨a.bus.journal, a.stats.discarded⟩ := by
    rw [← (unseen_after _).pollIdle, fresh_after]
  have hnoted : (a.noted note).discard = a.fresh.after noted := by
    unfold fresh after
    simp only [List.append_nil]
    rfl
  refine ⟨a.fresh.pollIdle.bus.journal, congrArg (·.bus.journal) hpolled, ?_⟩
  rw [hnoted, (unseen_after noted).pollIdle, hpolled]
  simp only [after, noted, List.append_assoc, List.singleton_append]

/-- The end of a bind or a listen that is not under way. -/
theorem loses_onCompletion {p : Purpose} (hphase : a.table.phase? h ≠ some p.pending)
    (status : Status) : Loses note a ((a.noted note).onCompletion h p status) := by
  cases hr : a.table.get? h with
  | none =>
    unfold onCompletion
    rw [show (a.noted note).table.get? h = none from hr]
    exact loses_discard a note
  | some r =>
    rcases onCompletion_eq (a := a.noted note) hr p status with ⟨-, heq⟩ | ⟨hadmits, -⟩
    · rw [heq]
      exact loses_noted a note
    · refine absurd (congrArg (Option.map SocketRecord.phase) hr) ?_
      rw [Option.map_some, Purpose.pending_of_admits hadmits]
      exact hphase

/-- The end of a connect that is not under way. -/
theorem loses_onConnect (hphase : a.table.phase? h ≠ some .connecting) (status : Status) :
    Loses note a ((a.noted note).onConnect h status) := by
  unfold onConnect
  cases hr : a.table.get? h with
  | none =>
    rw [show (a.noted note).table.get? h = none from hr]
    exact loses_discard a note
  | some r =>
    rw [show (a.noted note).table.get? h = some r from hr]
    dsimp only
    split
    · exact loses_noted a note
    · next hadmits =>
      refine absurd (congrArg (Option.map SocketRecord.phase) hr) ?_
      rw [Option.map_some, Phase.connecting_of_admits (Bool.eq_false_iff.mpr hadmits)]
      exact hphase

/-- Progress of a stream that has nothing left to send. -/
theorem loses_onSent (hsent : (a.table.get? h).bind (·.pendingTx?) = none) (status : Status) :
    Loses note a ((a.noted note).onSent h status) := by
  unfold onSent
  rw [show ((a.noted note).table.get? h).bind (·.pendingTx?) = none from hsent]
  exact loses_noted a note

/-- A delivery that nobody asked for. -/
theorem discards_onDelivery (hasked : ∀ i, a.rx.outstanding? = some i → i.handle ≠ h)
    (d : Delivery) : Discards note a ((a.noted note).onDelivery h d) := by
  unfold onDelivery
  rw [show (a.noted note).rx.outstanding? = a.rx.outstanding? from rfl]
  cases hout : a.rx.outstanding? with
  | none => exact discards_pollIdle a note
  | some i =>
    dsimp only
    rw [if_neg (hasked i hout)]
    exact discards_pollIdle a note

/-- Whatever state the adapter is in: a report on something that is not under way at its socket is
entered in the journal, may be counted as discarded, and changes nothing else; no command is given.
And a delivery for a socket with no receive outstanding comes to the same as a poll from the
beginning, but for one more notification entered and discarded, whatever was delivered. -/
theorem unawaited_messages_lost (now : Nat) (h : Handle) :
    (∀ m, a.Unawaited h m → Loses (.socket h m) a (a.handle now (.socket h m))) ∧
    ∀ d, (∀ i, a.rx.outstanding? = some i → i.handle ≠ h) →
      Discards (.socket h (.received d)) a (a.handle now (.socket h (.received d))) := by
  refine ⟨fun m hunawaited => ?_, fun d hasked => discards_onDelivery a _ hasked d⟩
  cases m with
  | bound status => exact loses_onCompletion a _ (p := .bind) hunawaited status
  | listening status => exact loses_onCompletion a _ (p := .listen) hunawaited status
  | connected status => exact loses_onConnect a _ hunawaited status
  | sent status => exact loses_onSent a _ hunawaited status
  | sentTo status => exact loses_noted a _
  | accepted => exact hunawaited.elim
  | received => exact hunawaited.elim

/-- The end of a connect and a delivery reach a socket that was closed. -/
theorem unawaited_messages_lost_closed :
    let a := ((Session.new ScriptedChip.new 4 .defaults).run
      [.create .inet .stream, .connect 0 (.v4 ⟨⟨10, 0, 0, 1⟩, 80⟩), .close 0]).adapter
    let d : Delivery := ⟨3, 5, .ofEndpoint ⟨⟨10, 0, 0, 1⟩, 80⟩, [1, 2, 3]⟩
    Loses (.socket 0 (.connected .success)) a (a.handle 0 (.socket 0 (.connected .success))) ∧
      Discards (.socket 0 (.received d)) a (a.handle 0 (.socket 0 (.received d))) := by
  intro a d
  have hphase : a.table.phase? 0 ≠ some .connecting := by decide +kernel
  have hasked : a.rx.outstanding? = none := by decide +kernel
  obtain ⟨hlost, hdiscarded⟩ := unawaited_messages_lost a 0 0
  exact ⟨hlost _ hphase, hdiscarded d (by rw [hasked]; nofun)⟩

end Adapter

end WifiAdapter
