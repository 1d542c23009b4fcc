import WifiAdapter.Proofs.Apart
import WifiAdapter.Proofs.Runs
import WifiAdapter.ScriptedChip

/-! Datagrams go out whole, or not at all.

A datagram is checked, put together in a buffer that every datagram uses, and given to the chip in
one command. `datagramRefusal?` says which check fails first, without the buffer: the settings are
those of the adapter brought into range (`Adapter.Furnished`), so whatever passes the checks fits,
and since the buffer is emptied first, nothing of a datagram before is in it
(`Adapter.sendDatagram_eq`).

`datagram_sent_whole`: what every send on a datagram socket does, after every history. -/
namespace WifiAdapter

/-- Why a datagram is not given to the chip: the first check that fails. -/
def datagramRefusal? (limit : Nat) (chain : Chain) : Option SocketAddr → Option SocketError
  | none => some .destinationRequired
  | some .v6 => some .invalidArgument
  | some (.v4 _) => if limit < chain.bytes.length then some .invalidArgument else none

theorem datagramRefusal?_eq_none_iff {limit : Nat} {chain : Chain} {dest? : Option SocketAddr} :
    datagramRefusal? limit chain dest? = none ↔
      (∃ e, dest? = some (.v4 e)) ∧ chain.bytes.length ≤ limit := by
  unfold datagramRefusal?
  split
  · simp
  · simp
  · next e =>
    rw [ite_eq_right_iff]
    simp

/-- Whatever fits into the buffer is put together in it, and nothing else is. -/
theorem Chain.flattenWithin_of_length_le {capacity : Nat} {chain : Chain}
    (h : chain.bytes.length ≤ capacity) :
    flattenWithin capacity [] chain.segments = some chain.bytes :=
  (flattenWithin_eq_some_iff (Nat.zero_le _)).mpr ⟨rfl, h⟩

/-- What the application is told of a datagram, from the answer of the chip. -/
def Answer.sent (chain : Chain) : Answer Unit → Except Rejected Unit
  | .accepted _ => .ok ()
  | .refused status => .error ⟨status.refusal, chain⟩

namespace Adapter
variable {σ : Type}

/-- The settings are in range, and the buffer of datagrams is not overfull. -/
structure Furnished (config : Config) (a : Adapter σ) : Prop where
  config : a.config = config.sanitized
  scratch : a.scratch.length ≤ datagramCapacity

theorem furnished_new (chip : σ) (packets : Nat) (config : Config) :
    (new chip packets config).Furnished config :=
  ⟨rfl, Nat.zero_le _⟩

theorem Furnished.limit {config : Config} {a : Adapter σ} (ha : a.Furnished config) :
    a.config.maxDatagram = config.sanitized.maxDatagram ∧
      config.sanitized.maxDatagram ≤ datagramCapacity :=
  ⟨congrArg Config.maxDatagram ha.config, clamp_le (by decide) _⟩

variable [Chip σ]

theorem Step.furnished {D : Deed → Prop} {site? : Option Handle} {config : Config}
    {a b : Adapter σ} (hab : Step D site? a b) (ha : a.Furnished config) : b.Furnished config :=
  ⟨hab.config_eq.trans ha.config, hab.fits ha.scratch⟩

theorem send_of_datagram {a : Adapter σ} {h : Handle}
    (hkind : a.table.kind? h = some .datagram) (chain : Chain) (dest? : Option SocketAddr) :
    a.send h chain dest? = a.sendDatagram h chain dest? := by
  obtain ⟨r, hr, hrkind⟩ := Option.map_eq_some_iff.mp hkind
  unfold send SocketTable.get
  rw [hr]
  dsimp only
  rw [hrkind]

/-- A datagram that fails a check changes nothing; any other is given to the chip whole, and
nothing but the buffer changes besides. -/
theorem sendDatagram_eq (a : Adapter σ) (h : Handle) (chain : Chain) (dest? : Option SocketAddr)
    (hlimit : a.config.maxDatagram ≤ datagramCapacity) :
    (∃ error, datagramRefusal? a.config.maxDatagram chain dest? = some error ∧
      a.sendDatagram h chain dest? = (.error ⟨error, chain⟩, a)) ∨
    ∃ e, dest? = some (.v4 e) ∧ chain.bytes.length ≤ a.config.maxDatagram ∧
      let issued := a.bus.issue (.sendTo h chain.bytes (.ofEndpoint e))
      a.sendDatagram h chain dest? =
        (issued.1.sent chain, { a with bus := issued.2, scratch := chain.bytes }) := by
  unfold sendDatagram
  cases dest? with
  | none => exact .inl ⟨_, rfl, rfl⟩
  | some dest =>
    cases dest with
    | v6 => exact .inl ⟨_, rfl, rfl⟩
    | v4 e =>
      dsimp only [SocketAddr.native?]
      rw [Chain.length_eq]
      by_cases hlong : a.config.maxDatagram < chain.bytes.length
      · rw [if_pos hlong]
        exact .inl ⟨.invalidArgument, if_pos hlong, rfl⟩
      · rw [if_neg hlong]
        have hfits : chain.bytes.length ≤ a.config.maxDatagram := Nat.le_of_not_lt hlong
        refine .inr ⟨e, rfl, hfits, ?_⟩
        rw [Chain.flattenWithin_of_length_le (Nat.le_trans hfits hlimit)]
        unfold issue
        dsimp only
        generalize a.bus.issue (.sendTo h chain.bytes (.ofEndpoint e)) = issued
        obtain ⟨answer, bus⟩ := issued
        cases answer <;> rfl

/-- What a send of a datagram comes to. -/
structure Mails (limit : Nat) (a : Adapter σ) (h : Handle) (chain : Chain)
    (dest? : Option SocketAddr) (result : Except Rejected Unit) (b : Adapter σ) : Prop where
  /-- The chip is told to send just if all checks pass. -/
  journal : ∃ es, b.bus.journal = a.bus.journal ++ es ∧
    ((∃ k data address answer, .command (.sendTo k data address) answer ∈ es) ↔
      (∃ e, dest? = some (.v4 e)) ∧ chain.bytes.length ≤ limit)
  /-- It is then told once, and its answer decides. -/
  given : ∀ e, dest? = some (.v4 e) → chain.bytes.length ≤ limit →
    let issued := a.bus.issue (.sendTo h chain.segments.flatten (.ofEndpoint e))
    b.bus = issued.2 ∧ b.bus.journal = a.bus.journal ++
        [.command (.sendTo h chain.segments.flatten (.ofEndpoint e)) issued.1] ∧
      result = issued.1.sent chain
  /-- The first check that fails decides, and nothing changes. -/
  refused : ∀ error, datagramRefusal? limit chain dest? = some error →
    result = .error ⟨error, chain⟩ ∧ b = a
  rest : b = { a with bus := b.bus, scratch := b.scratch }
  fits : a.scratch.length ≤ datagramCapacity → b.scratch.length ≤ datagramCapacity

theorem mails_sendDatagram (a : Adapter σ) (h : Handle) (chain : Chain)
    (dest? : Option SocketAddr) (hlimit : a.config.maxDatagram ≤ datagramCapacity) :
    a.Mails a.config.maxDatagram h chain dest? (a.sendDatagram h chain dest?).1
      (a.sendDatagram h chain dest?).2 := by
  rcases a.sendDatagram_eq h chain dest? hlimit with ⟨error, hrefusal, heq⟩ | ⟨e, rfl, hfits, heq⟩
  · have hunsent : ¬ ((∃ e, dest? = some (.v4 e)) ∧
        chain.bytes.length ≤ a.config.maxDatagram) := fun hgiven => by
      cases hrefusal.symm.trans (datagramRefusal?_eq_none_iff.mpr hgiven)
    rw [heq]
    refine ⟨⟨[], (List.append_nil _).symm, iff_of_false (by simp) hunsent⟩,
      fun e hdest hfits => absurd ⟨⟨e, hdest⟩, hfits⟩ hunsent, fun other hother => ?_, rfl, id⟩
    cases hrefusal.symm.trans hother
    exact ⟨rfl, rfl⟩
  · have hpasses : datagramRefusal? a.config.maxDatagram chain (some (.v4 e)) = none :=
      datagramRefusal?_eq_none_iff.mpr ⟨⟨e, rfl⟩, hfits⟩
    have hjournal := a.bus.journal_issue (.sendTo h chain.bytes (.ofEndpoint e))
    rw [heq]
    refine ⟨⟨_, hjournal, iff_of_true ⟨_, _, _, _, List.mem_singleton_self _⟩ ⟨⟨e, rfl⟩, hfits⟩⟩,
      fun e' hdest _ => ?_, fun error herror => ?_, rfl, fun _ => Nat.le_trans hfits hlimit⟩
    · cases hdest
      exact ⟨rfl, hjournal, rfl⟩
    · cases hpasses.symm.trans herror

end Adapter

namespace Session
variable {σ : Type} [Chip σ]

theorem furnished_run (chip : σ) (packets : Nat) (config : Config) (actions : List (Action σ)) :
    ((new chip packets config).run actions).adapter.Furnished config :=
  (invariant_run (s := new chip packets config) (P := (·.Furnished config))
    (fun _ _ _ _ ha hab => hab.furnished ha) (Adapter.steady_new chip packets config)
    (Adapter.furnished_new chip packets config) actions).1

/-- A datagram is given to the chip just if it has an IPv4 destination and is not longer than the
settings allow, once they are in range: its segments in one run of bytes, to that destination, in
one command, and the answer of the chip decides. Otherwise the chip is told nothing, and the first
check that fails decides. A send that fails hands the whole chain back, and none changes more than
the buffer, which is never overfull. -/
theorem datagram_sent_whole (chip : σ) (packets : Nat) (config : Config) (actions : List (Action σ))
    (h : Handle) (chain : Chain) (dest? : Option SocketAddr)
    (hkind : ((new chip packets config).run actions).adapter.table.kind? h = some .datagram) :
    let a := ((new chip packets config).run actions).adapter
    a.scratch.length ≤ datagramCapacity ∧
      a.Mails config.sanitized.maxDatagram h chain dest? (a.send h chain dest?).1
        (a.send h chain dest?).2 := by
  intro a
  have hfurnished : a.Furnished config := furnished_run chip packets config actions
  obtain ⟨hconfig, hcapacity⟩ := hfurnished.limit
  rw [Adapter.send_of_datagram hkind, ← hconfig]
  exact ⟨hfurnished.scratch, a.mails_sendDatagram h chain dest? (hconfig ▸ hcapacity)⟩

/-- A datagram of two segments, after one whose bytes are still in the buffer. The settings ask for
more than the buffer holds. -/
theorem datagram_sent_whole_second :
    let config : Config := { Config.defaults with maxDatagram := 9000 }
    let a := ((new ScriptedChip.new 4 config).run [.create .inet .datagram,
      .send 7 ⟨[[1, 2, 3, 4]]⟩ (some (.v4 ⟨⟨10, 0, 0, 1⟩, 53⟩))]).adapter
    let sent := a.send 7 ⟨[[5], [6, 7]]⟩ (some (.v4 ⟨⟨10, 0, 0, 2⟩, 300⟩))
    a.table.kind? 7 = some .datagram ∧ a.scratch = [1, 2, 3, 4] ∧
      config.sanitized.maxDatagram = datagramCapacity ∧ sent.1 = .ok () ∧
      sent.2.bus.journal = a.bus.journal ++
        [.command (.sendTo 7 [5, 6, 7] ⟨2, 1, 44, ⟨10, 0, 0, 2⟩⟩) (.accepted ())] ∧
      sent.2.table = a.table := by
  intro config a sent
  have hkind : a.table.kind? 7 = some .datagram := by decide +kernel
  have hanswer :
      (a.bus.issue (.sendTo 7 [5, 6, 7] ⟨2, 1, 44, ⟨10, 0, 0, 2⟩⟩)).1 = .accepted () := by
    decide +kernel
  obtain ⟨-, hmails⟩ := datagram_sent_whole ScriptedChip.new 4 config _ 7 ⟨[[5], [6, 7]]⟩
    (some (.v4 ⟨⟨10, 0, 0, 2⟩, 300⟩)) hkind
  obtain ⟨-, hjournal, hresult⟩ := hmails.given ⟨⟨10, 0, 0, 2⟩, 300⟩ rfl (by decide)
  have htable : sent.2.table = a.table := by rw [show sent.2 = _ from hmails.rest]
  refine ⟨hkind, by decide +kernel, by decide, hresult.trans ?_, hjournal.trans ?_, htable⟩
  · exact congrArg (Answer.sent _) hanswer
  · exact congrArg (fun answer => a.bus.journal ++
      [.command (.sendTo 7 [5, 6, 7] ⟨2, 1, 44, ⟨10, 0, 0, 2⟩⟩) answer]) hanswer

end Session

end WifiAdapter
