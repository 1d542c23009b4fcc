import WifiAdapter.Proofs.Accounts
import WifiAdapter.ScriptedChip

/-! Where the bytes of a socket are.

Every byte that an answer brought to a socket was read by the application, is queued at
the socket or is in flight for it, and the three together give the bytes in the order
in which they were brought. Only the bytes in flight at the end of the stream are lost
(`Balanced`). The account of a socket is kept in the journal since its slot was taken
into use, and whatever happens to a socket keeps its account (`balanced_kept`). -/
namespace WifiAdapter

/-- The bytes queued at a socket, in order. -/
def SocketRecord.queued (r : SocketRecord) : Bytes := r.inbound.flatMap (·.data)

/-- The account of a socket: its history, its record and the bytes in flight for it. -/
structure Balanced (i : Incarnation) (es : List Entry) (r : SocketRecord) (held : Bytes) : Prop where
  bytes : arrived i es = readOut i es ++ r.queued ++ held ++ (endings i es).flatten
  running : r.peerClosed = false → endings i es = []
  ended : r.peerClosed = true → held = [] ∧ (endings i es).length = 1

section Accounts
variable {i : Incarnation} {es more : List Entry}

theorem arrived_append : arrived i (es ++ more) = arrived i es ++ arrived i more :=
  List.flatMap_append

theorem readOut_append : readOut i (es ++ more) = readOut i es ++ readOut i more :=
  List.flatMap_append

theorem endings_append : endings i (es ++ more) = endings i es ++ endings i more :=
  List.filterMap_append

theorem arrived_silent (h : ∀ e ∈ more, e.Silent i) : arrived i more = [] :=
  List.flatMap_eq_nil_iff.mpr fun e he => (h e he).arrival

theorem readOut_silent (h : ∀ e ∈ more, e.Silent i) : readOut i more = [] :=
  List.flatMap_eq_nil_iff.mpr fun e he => (h e he).reading

theorem endings_silent (h : ∀ e ∈ more, e.Silent i) : endings i more = [] :=
  List.filterMap_eq_nil_iff.mpr fun e he => (h e he).ending

/-- Nothing happens to the bytes of the socket. -/
theorem Balanced.silent {r r' : SocketRecord} {held : Bytes} (h : Balanced i es r held)
    (hmore : ∀ e ∈ more, e.Silent i) (hinbound : r'.inbound = r.inbound)
    (hclosed : r'.peerClosed = r.peerClosed) : Balanced i (es ++ more) r' held := by
  have harrived : arrived i (es ++ more) = arrived i es := by
    rw [arrived_append, arrived_silent hmore, List.append_nil]
  have hread : readOut i (es ++ more) = readOut i es := by
    rw [readOut_append, readOut_silent hmore, List.append_nil]
  have hends : endings i (es ++ more) = endings i es := by
    rw [endings_append, endings_silent hmore, List.append_nil]
  refine ⟨?_, ?_, ?_⟩
  · rw [harrived, hread, hends, SocketRecord.queued, hinbound]
    exact h.bytes
  · rw [hclosed, hends]
    exact h.running
  · rw [hclosed, hends]
    exact h.ended

/-- A slot taken into use has nothing to account for. -/
theorem balanced_new {r : SocketRecord} (hinbound : r.inbound = [])
    (hclosed : r.peerClosed = false) : Balanced i [] r [] := by
  refine ⟨?_, fun _ => rfl, fun h => ?_⟩
  · rw [SocketRecord.queued, hinbound]
    rfl
  · rw [hclosed] at h
    cases h

variable {r : SocketRecord} {held : Bytes} {e : Entry}

/-- An answer brings bytes. -/
theorem Balanced.arrive (h : Balanced i es r held) (hlive : r.peerClosed = false) {bytes : Bytes}
    (harrival : e.arrival i = bytes) (hending : e.ending? i = none) (hreading : e.reading i = []) :
    Balanced i (es ++ [e]) r (held ++ bytes) := by
  have hends : endings i (es ++ [e]) = [] := by
    rw [endings_append, h.running hlive]
    simp [endings, hending]
  refine ⟨?_, fun _ => hends, fun hclosed => ?_⟩
  · have hbytes := h.bytes
    rw [h.running hlive, List.flatten_nil, List.append_nil] at hbytes
    rw [hends, arrived_append, readOut_append, hbytes]
    simp [arrived, readOut, harrival, hreading]
  · rw [hlive] at hclosed
    cases hclosed

/-- The bytes in flight are queued as a packet. -/
theorem Balanced.handOver {packet : Packet} (h : Balanced i es r packet.data)
    (hlive : r.peerClosed = false) :
    Balanced i es { r with inbound := r.inbound ++ [packet] } [] := by
  refine ⟨?_, h.running, fun hclosed => ?_⟩
  · rw [h.bytes]
    simp [SocketRecord.queued]
  · rw [hlive] at hclosed
    cases hclosed

/-- The stream ends, and what was in flight is lost. -/
theorem Balanced.stop (h : Balanced i es r held) (hlive : r.peerClosed = false)
    (harrival : e.arrival i = []) (hending : e.ending? i = some held) (hreading : e.reading i = [])
    {r' : SocketRecord} (hinbound : r'.inbound = r.inbound) (hclosed : r'.peerClosed = true) :
    Balanced i (es ++ [e]) r' [] := by
  have hends : endings i (es ++ [e]) = [held] := by
    rw [endings_append, h.running hlive]
    simp [endings, hending]
  refine ⟨?_, fun hc => ?_, fun _ => ⟨rfl, by rw [hends]; rfl⟩⟩
  · have hbytes := h.bytes
    rw [h.running hlive, List.flatten_nil, List.append_nil] at hbytes
    rw [hends, arrived_append, readOut_append, hbytes]
    simp [arrived, readOut, harrival, hreading, SocketRecord.queued, hinbound]
  · rw [hclosed] at hc
    cases hc

/-- The application reads the oldest packet. -/
theorem Balanced.read (h : Balanced i es r held) {packet : Packet} {rest : List Packet}
    (hin : r.inbound = packet :: rest) :
    Balanced i (es ++ [.read i packet]) { r with inbound := rest } held := by
  have hends : endings i (es ++ [.read i packet]) = endings i es := by
    rw [endings_append]
    exact List.append_nil _
  refine ⟨?_, ?_, ?_⟩
  · rw [hends, arrived_append, readOut_append, h.bytes]
    simp [arrived, readOut, Entry.arrival, Entry.reading, Entry.answer?, SocketRecord.queued, hin]
  · rw [hends]
    exact h.running
  · rw [hends]
    exact h.ended

end Accounts

/-- Accounts are kept. -/
theorem balanced_kept :
    Bookkeeping fun i es r flight? => Balanced i es r ((flight?.map (·.data)).getD []) where
  opened := balanced_new
  silent h hmore _ hinbound hclosed := h.silent hmore hinbound hclosed
  brought {i _ _ _ _ _ _ _ _} h hlive hcarries hd hanswer hfilled := by
    have harrival := Entry.arrival_answer hanswer
    rw [Delivery.bytes_of_data hd] at harrival
    have hending := Entry.ending?_answer hanswer
    rw [Delivery.ends_of_data hd, if_neg Bool.false_ne_true] at hending
    have harrived := h.arrive hlive harrival hending (Entry.reading_answer hanswer i)
    rw [hcarries.data, ← hfilled.data] at harrived
    exact harrived
  queued h hlive := h.handOver hlive
  ended {i _ _ _ _ _ _} h hlive hd hanswer := by
    have harrival := Entry.arrival_answer hanswer
    rw [Delivery.bytes_of_ends hd, List.take_nil] at harrival
    have hending := Entry.ending?_answer hanswer
    rw [if_pos hd] at hending
    exact h.stop hlive harrival hending (Entry.reading_answer hanswer i) rfl rfl
  read h hin := h.read hin

namespace Session
variable {σ : Type} [Chip σ]

/-- The account of every socket is right after every history. -/
theorem balanced_run (chip : σ) (packets : Nat) (config : Config) (actions : List (Action σ))
    {h : Handle} {r : SocketRecord}
    (hr : ((new chip packets config).run actions).adapter.table.get? h = some r) :
    let a := ((new chip packets config).run actions).adapter
    let i := a.table.incarnation h
    Balanced i (a.bus.history h) r (a.rx.held i) := by
  dsimp only
  rw [RxState.held_eq]
  exact ledger_run balanced_kept (Adapter.steady_new chip packets config)
    (Adapter.ledger_new chip packets config) actions h r hr

/-- Every byte that answers brought to a socket was read, is queued or is in flight for it,
in the order in which it came. Only the bytes in flight at the end of its stream are
missing, and a stream ends at most once. -/
theorem delivered_in_order (chip : σ) (packets : Nat) (config : Config) (actions : List (Action σ))
    {h : Handle} {r : SocketRecord}
    (hr : ((new chip packets config).run actions).adapter.table.get? h = some r) :
    let a := ((new chip packets config).run actions).adapter
    let i := a.table.incarnation h
    let es := a.bus.history h
    arrived i es = readOut i es ++ r.queued ++ a.rx.held i ++ (endings i es).flatten ∧
      (endings i es).length ≤ 1 ∧ (endings i es ≠ [] → a.rx.held i = []) := by
  have hb := balanced_run chip packets config actions hr
  cases hclosed : r.peerClosed with
  | false =>
    have hnone := hb.running hclosed
    exact ⟨hb.bytes, by rw [hnone]; exact Nat.zero_le 1, fun hne => absurd hnone hne⟩
  | true =>
    obtain ⟨hheld, hone⟩ := hb.ended hclosed
    exact ⟨hb.bytes, Nat.le_of_eq hone, fun _ => hheld⟩

/-- Three bytes were read and two more are in flight. -/
theorem delivered_in_order_stream :
    let a := ((new ScriptedChip.new 4 .defaults).run
      [.create .inet .stream, .connect 0 (.v4 ⟨⟨10, 0, 0, 1⟩, 80⟩),
        .dispatch (.socket 0 (.connected .success)),
        .dispatch (.socket 0 (.received ⟨3, 0, default, [1, 2, 3]⟩)), .receive 0, .tick,
        .dispatch (.socket 0 (.received ⟨2, 7, default, [4, 5]⟩))]).adapter
    let i := a.table.incarnation 0
    let es := a.bus.history 0
    (∃ r, a.table.get? 0 = some r ∧
      arrived i es = readOut i es ++ r.queued ++ a.rx.held i ++ (endings i es).flatten) ∧
      readOut i es = [1, 2, 3] ∧ a.rx.held i = [4, 5] :=
  ⟨⟨_, rfl, (delivered_in_order ScriptedChip.new 4 .defaults _ rfl).1⟩, by decide, by decide⟩

end Session

end WifiAdapter
