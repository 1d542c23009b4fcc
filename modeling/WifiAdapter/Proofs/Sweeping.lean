import WifiAdapter.Proofs.FlowControl
import WifiAdapter.ScriptedChip

/-! A poll asks the sockets that want data, one after the other.

`Adapter.pollFrom` goes up from a slot and asks whoever wants data, until the chip takes a
request or there is no packet to ask with; `Adapter.Concludes` says how that may end and whom it
took to get there. Bytes in flight stay where they are as long as nobody but their socket is
asked, and are handed over before anybody else is (`Adapter.Disposes`). Both hold of a poll of
any list of slots (`Adapter.sweeps_pollEach`), by induction on the list: what comes after a refusal is a
poll of the slots that are left.

`polled_in_order`: so it is for every poll that a session can come to. -/
namespace WifiAdapter

namespace Entry

/-- The socket that is asked for data, and whether the chip takes the request. -/
def inquiry? : Entry → Option (Handle × Bool)
  | .command (.receive h _ _) (.accepted _) => some (h, true)
  | .command (.receive h _ _) (.refused _) => some (h, false)
  | _ => none

/-- The application is told something. -/
def Tells : Entry → Prop
  | .event .. => True
  | _ => False

end Entry

/-- Whoever is asked for data, in order, and whether the chip takes the request. -/
def inquiries (es : List Entry) : List (Handle × Bool) := es.filterMap (·.inquiry?)

theorem inquiries_append (es more : List Entry) :
    inquiries (es ++ more) = inquiries es ++ inquiries more :=
  List.filterMap_append ..

/-- The sockets from `start` on that want data, ascending. -/
def SocketTable.awaiting (t : SocketTable) (start : Nat) : List Handle :=
  (Handle.startingAt start).filter t.awaits

theorem SocketTable.mem_awaiting {t : SocketTable} {start : Nat} {h : Handle} :
    h ∈ t.awaiting start ↔ start ≤ h.val ∧ t.awaits h = true := by
  rw [awaiting, List.mem_filter, Handle.mem_startingAt]

theorem SocketTable.awaiting_ascending (t : SocketTable) (start : Nat) :
    (t.awaiting start).Pairwise (· < ·) :=
  ((List.pairwise_lt_finRange maxSockets).sublist (List.drop_sublist ..)).filter _

/-- Flow control is regulated, nothing else. -/
def FlowOnly (es : List Entry) : Prop :=
  ∀ e ∈ es, ∃ paused answer, e = .command (.flow paused) answer

section FlowOnly
variable {es : List Entry} (h : FlowOnly es)
include h

theorem FlowOnly.inquiries : inquiries es = [] := by
  refine List.filterMap_eq_nil_iff.mpr fun e he => ?_
  obtain ⟨_, _, rfl⟩ := h e he
  rfl

theorem FlowOnly.untold : ∀ e ∈ es, ¬ e.Tells := by
  intro e he
  obtain ⟨_, _, rfl⟩ := h e he
  exact id

end FlowOnly

namespace Adapter
variable {σ : Type}

/-- Nothing is outstanding. -/
def Unasking (b : Adapter σ) : Prop := b.rx.cursor? = none ∧ b.rx.polling = false

/-- How asking those who want data ends: the chip takes a request, there is no packet to ask with,
or every request is refused. -/
inductive Concludes (t : SocketTable) (waiting : List Handle) (asked : List (Handle × Bool))
    (b : Adapter σ) : Prop where
  | taken (before : List Handle) {after : List Handle} {h : Handle}
      (hwaiting : waiting = before ++ h :: after)
      (hasked : asked = before.map (·, false) ++ [(h, true)])
      (hcursor : b.rx.cursor? = some (t.incarnation h)) (hpolling : b.rx.polling = true)
  | dry (before : List Handle) {after : List Handle} (hwaiting : waiting = before ++ after)
      (hasked : asked = before.map (·, false)) (hidle : b.Unasking) (hpacket : b.rx.packet? = none)
      (hpool : b.pool.available = 0) (hpaused : b.rx.paused = true)
  | refused (hasked : asked = waiting.map (·, false)) (hidle : b.Unasking)

/-- What becomes of bytes in flight: they stay with the socket they belong to, and nobody else is
asked, or they are handed over before anybody else is. -/
inductive Disposes (a : Adapter σ) (es : List Entry) (b : Adapter σ) : Prop where
  | keeps (htable : b.table = a.table) (howner : b.rx.owner? = a.rx.owner?)
      (htold : ∀ e ∈ es, ¬ e.Tells)
      (hasked : ∀ i, a.rx.owner? = some i → ∀ x ∈ inquiries es, x.1 = i.handle)
  | handsOver {i : Incarnation} {packet : Packet} (before after : List Entry) (told : Bool)
      (howner : a.rx.owner? = some i) (hpacket : a.rx.packet? = some packet)
      (hentries : es = before ++ .event (.readable i.handle .data) told :: after)
      (hroom : told = true ↔ a.events.items.length < eventCapacity)
      (htold : ∀ e ∈ before ++ after, ¬ e.Tells)
      (hasked : ∀ x ∈ inquiries before, x.1 = i.handle)
      (htable : b.table =
        a.table.modify i.handle fun r => { r with inbound := r.inbound ++ [packet] })

section Concludes
variable {t t' : SocketTable} {waiting : List Handle} {asked : List (Handle × Bool)} {b : Adapter σ}

/-- The first request was refused. -/
theorem Concludes.cons (h : Concludes t waiting asked b) (k : Handle) :
    Concludes t (k :: waiting) ((k, false) :: asked) b := by
  cases h with
  | taken before hwaiting hasked hcursor hpolling =>
    rw [hwaiting, hasked]
    exact .taken (k :: _) rfl rfl hcursor hpolling
  | dry before hwaiting hasked hidle hpacket hpool hpaused =>
    rw [hwaiting, hasked]
    exact .dry (k :: _) rfl rfl hidle hpacket hpool hpaused
  | refused hasked hidle =>
    rw [hasked]
    exact .refused rfl hidle

/-- The table is asked for nothing but the occupancies of slots. -/
theorem Concludes.of_incarnation (h : Concludes t waiting asked b)
    (hsame : ∀ k, t.incarnation k = t'.incarnation k) : Concludes t' waiting asked b := by
  cases h with
  | taken before hwaiting hasked hcursor hpolling =>
    exact .taken before hwaiting hasked (hcursor.trans (congrArg some (hsame _))) hpolling
  | dry before hwaiting hasked hidle hpacket hpool hpaused =>
    exact .dry before hwaiting hasked hidle hpacket hpool hpaused
  | refused hasked hidle => exact .refused hasked hidle

end Concludes

variable [Chip σ]

/-! ### Before a socket is asked -/

/-- A packet is in flight, or there is none to lease and the chip holds back. -/
structure Provides (a : Adapter σ) (provided : Bool × Adapter σ) (es : List Entry) : Prop where
  journal : provided.2.bus.journal = a.bus.journal ++ es
  flows : FlowOnly es
  table : provided.2.table = a.table
  events : provided.2.events = a.events
  owner : provided.2.rx.owner? = a.rx.owner?
  unasking : a.Unasking → provided.2.Unasking
  kept : a.rx.packet?.isSome = true → provided.2.rx.packet? = a.rx.packet?
  packet : provided.1 = true → provided.2.rx.packet?.isSome = true
  dry : provided.1 = false → provided.2.rx.packet? = none ∧ provided.2.pool.available = 0 ∧
    provided.2.rx.paused = true
  fails : provided.1 = false ↔ a.rx.packet? = none ∧ a.pool.available = 0

theorem provides_ensurePacket (a : Adapter σ) : ∃ es, a.Provides a.ensurePacket es := by
  have hunpacked (hp : a.rx.packet? = none) {p : Prop} (hsome : a.rx.packet?.isSome = true) :
      p := by
    rw [hp] at hsome
    cases hsome
  unfold ensurePacket
  cases hp : a.rx.packet? with
  | some packet =>
    obtain ⟨bus, es, heq, hjournal, hes⟩ := resumeFlow_eq a
    dsimp only
    rw [heq]
    exact ⟨es, hjournal, fun e he => ⟨false, hes e he⟩, rfl, rfl, rfl, id,
      fun _ => hp.symm ▸ rfl, fun _ => by simp [hp], nofun, by simp [hp]⟩
  | none =>
    cases hl : a.pool.lease? a.config.rxPacketSize with
    | some leased =>
      obtain ⟨packet, pool⟩ := leased
      obtain ⟨-, hpool⟩ := Pool.available_lease? hl
      obtain ⟨bus, es, heq, hjournal, hes⟩ := resumeFlow_eq
        ({ a with pool }.onRx fun r => { r with packet? := some packet })
      dsimp only
      rw [heq]
      exact ⟨es, hjournal, fun e he => ⟨false, hes e he⟩, rfl, rfl, rfl, id, hunpacked hp,
        fun _ => rfl, nofun, by simp [hp]; omega⟩
    | none =>
      have hpool := (a.pool.lease?_eq_none_iff _).mp hl
      obtain ⟨bus, stats, es, heq, hjournal, hes⟩ := pauseFlow_eq a
      dsimp only
      rw [heq]
      exact ⟨es, hjournal, fun e he => ⟨true, hes e he⟩, rfl, rfl, rfl, id, hunpacked hp,
        nofun, fun _ => ⟨hp, hpool, rfl⟩, by simp [hp, hpool]⟩

omit [Chip σ] in
/-- The application is told of a packet that is handed over, if its queue has room. -/
theorem told_handOver (a : Adapter σ) (h : Handle) (packet : Packet) :
    ∃ told, (a.handOver h packet).bus.journal =
        a.bus.journal ++ [.event (.readable h .data) told] ∧
      (told = true ↔ a.events.items.length < eventCapacity) := by
  refine ⟨_, journal_announce .., (emit_told ..).trans ?_⟩
  have hwithin := a.events.within
  show a.events.items.length ≠ eventCapacity ↔ _
  omega

/-- The packet in flight goes to its owner, and another one may be found. -/
theorem clearFor_of_owned {a : Adapter σ} (ha : a.Steady) {h : Handle} {i : Incarnation}
    (howner : a.rx.owner? = some i) (hother : i ≠ a.table.incarnation h) :
    ∃ packet told es, a.rx.packet? = some packet ∧
      (told = true ↔ a.events.items.length < eventCapacity) ∧
      (((a.onRx .part).handOver i.handle packet)).Provides (a.clearFor h) es ∧
      ((a.onRx .part).handOver i.handle packet).bus.journal =
        a.bus.journal ++ [.event (.readable i.handle .data) told] := by
  obtain ⟨hnone, -⟩ | ⟨j, packet, howner', hpacket, heq⟩ := settlePartial_eq ha
  · cases hnone.symm.trans howner
  · cases howner.symm.trans howner'
    obtain ⟨told, hjournal, hroom⟩ := told_handOver (a.onRx .part) i.handle packet
    obtain ⟨es, hprovides⟩ := provides_ensurePacket ((a.onRx .part).handOver i.handle packet)
    refine ⟨packet, told, es, hpacket, hroom, ?_, hjournal⟩
    have hcleared : a.clearFor h = ((a.onRx .part).handOver i.handle packet).ensurePacket := by
      unfold clearFor
      rw [howner]
      dsimp only
      rw [if_neg hother, heq]
    rw [hcleared]
    exact hprovides

/-! ### Asking -/

/-- A socket is asked: what that enters and what it changes. -/
structure Inquires (a : Adapter σ) (h : Handle) (asked : Bool × Adapter σ) (e : Entry) : Prop where
  journal : asked.2.bus.journal = a.bus.journal ++ [e]
  inquiry : e.inquiry? = some (h, asked.1)
  untold : ¬ e.Tells
  table : asked.2.table = a.table
  events : asked.2.events = a.events
  owner : asked.2.rx.owner? = a.rx.owner?
  taken : asked.1 = true →
    asked.2.rx.cursor? = some (a.table.incarnation h) ∧ asked.2.rx.polling = true
  refused : asked.1 = false → asked.2.rx = a.rx

theorem inquires_ask (a : Adapter σ) (h : Handle) (hpacket : a.rx.packet?.isSome = true) :
    ∃ e, a.Inquires h (a.ask h) e := by
  have hjournal := a.bus.journal_issue (.receive h a.rx.room a.config.recvTimeout)
  rw [ask_eq a h hpacket]
  dsimp only
  cases hanswer : (a.bus.issue (.receive h a.rx.room a.config.recvTimeout)).1 with
  | accepted value =>
    rw [hanswer] at hjournal
    exact ⟨_, hjournal, rfl, id, rfl, rfl, rfl, fun _ => ⟨rfl, rfl⟩, nofun⟩
  | refused status =>
    rw [hanswer] at hjournal
    exact ⟨_, hjournal, rfl, id, rfl, rfl, rfl, nofun, fun _ => rfl⟩

/-- The sockets of a list are asked one after the other, each after the ones before it refused. -/
theorem pollEach_cons (h : Handle) (rest : List Handle) (a : Adapter σ) :
    pollEach (h :: rest) a =
      if a.table.awaits h then
        let c := (a.clearFor h).2
        if (a.clearFor h).1 then
          if (c.ask h).1 then (c.ask h).2 else pollEach rest (c.ask h).2
        else c
      else pollEach rest a := by
  rw [pollEach]
  split
  · obtain ⟨_ | _, c⟩ := a.clearFor h
    · rfl
    · dsimp only
      obtain ⟨_ | _, d⟩ := c.ask h <;> rfl
  · rfl

/-- What a poll of some slots does. -/
structure Sweeps (a : Adapter σ) (waiting : List Handle) (b : Adapter σ) (es : List Entry) :
    Prop where
  journal : b.bus.journal = a.bus.journal ++ es
  concludes : Concludes a.table waiting (inquiries es) b
  disposes : a.Disposes es b

/-- A socket is asked, and the ones after it if it refuses. The bytes in flight are its own, if
there are any. -/
theorem sweeps_of_ask {c : Adapter σ} {h : Handle} {rest waiting : List Handle}
    (hc : c.Steady) (hidle : c.Unasking) (hpacket : c.rx.packet?.isSome = true)
    (hawaits : c.table.awaits h = true)
    (howner : c.rx.owner? = none ∨ c.rx.owner? = some (c.table.incarnation h))
    (hrest : ∀ d : Adapter σ, d.Steady → d.Unasking → d.rx.packet?.isSome = true →
      d.table = c.table → ∃ es, d.Sweeps waiting (pollEach rest d) es) :
    ∃ es, c.Sweeps (h :: waiting)
      (if (c.ask h).1 then (c.ask h).2 else pollEach rest (c.ask h).2) es := by
  have hsteady : (c.ask h).2.Steady := steady_ask hc hpacket hawaits howner
  obtain ⟨e, hinquires⟩ := inquires_ask c h hpacket
  have hown : ∀ i, c.rx.owner? = some i → h = i.handle := by
    intro i hi
    rcases howner with hn | hs
    · cases hn.symm.trans hi
    · cases hs.symm.trans hi
      rfl
  have hinquiry : inquiries [e] = [(h, (c.ask h).1)] := by
    rw [inquiries, List.filterMap_cons, hinquires.inquiry]
    rfl
  revert hsteady hinquires hinquiry
  generalize c.ask h = asked
  obtain ⟨taken, d⟩ := asked
  intro hsteady hinquires hinquiry
  cases taken with
  | true =>
    obtain ⟨hcursor, hpolling⟩ := hinquires.taken rfl
    refine ⟨[e], hinquires.journal, ?_, .keeps hinquires.table hinquires.owner ?_ ?_⟩
    · rw [hinquiry]
      exact .taken [] rfl rfl hcursor hpolling
    · exact List.forall_mem_singleton.mpr hinquires.untold
    · rw [hinquiry]
      exact fun i hi => List.forall_mem_singleton.mpr (hown i hi)
  | false =>
    have hrx : d.rx = c.rx := hinquires.refused rfl
    have htable : d.table = c.table := hinquires.table
    obtain ⟨es, hsweeps⟩ := hrest d hsteady (by rwa [Unasking, hrx]) (by rwa [hrx]) htable
    have hentries : inquiries (e :: es) = (h, false) :: inquiries es := by
      rw [← List.singleton_append, inquiries_append, hinquiry]
      rfl
    refine ⟨e :: es, ?_, ?_, ?_⟩
    · show (pollEach rest d).bus.journal = _
      rw [hsweeps.journal, hinquires.journal, List.append_assoc]
      rfl
    · rw [hentries]
      have hconcludes := hsweeps.concludes
      rw [htable] at hconcludes
      exact hconcludes.cons h
    · cases hsweeps.disposes with
      | keeps htable' howner' htold hasked =>
        refine .keeps (htable'.trans htable) (howner'.trans hinquires.owner)
          (List.forall_mem_cons.mpr ⟨hinquires.untold, htold⟩) fun i hi => ?_
        rw [hentries]
        exact List.forall_mem_cons.mpr ⟨hown i hi, hasked i (hinquires.owner.trans hi)⟩
      | @handsOver i packet before after told howner' hpacket' hes hroom htold hasked htable' =>
        have hi : c.rx.owner? = some i := hinquires.owner.symm.trans howner'
        have hbefore : inquiries (e :: before) = (h, false) :: inquiries before := by
          rw [← List.singleton_append, inquiries_append, hinquiry]
          rfl
        refine .handsOver (e :: before) after told hi (hrx ▸ hpacket') (by rw [hes]; rfl) ?_
          (List.forall_mem_cons.mpr ⟨hinquires.untold, htold⟩) ?_ (htable ▸ htable')
        · rw [← hinquires.events]
          exact hroom
        · rw [hbefore]
          exact List.forall_mem_cons.mpr ⟨hown i hi, hasked⟩

omit [Chip σ] in
/-- Bytes in flight go to whom they belong, and whoever is asked then finds a packet without any. -/
theorem Sweeps.after_handOver {a c b : Adapter σ} {i : Incarnation} {packet : Packet} {told : Bool}
    {waiting : List Handle} {flows es : List Entry} (howner : a.rx.owner? = some i)
    (hpacket : a.rx.packet? = some packet)
    (hroom : told = true ↔ a.events.items.length < eventCapacity)
    (htable : c.table =
      a.table.modify i.handle fun r => { r with inbound := r.inbound ++ [packet] })
    (hjournal : c.bus.journal =
      a.bus.journal ++ .event (.readable i.handle .data) told :: flows)
    (hflows : FlowOnly flows) (hnone : c.rx.owner? = none) (hsweeps : c.Sweeps waiting b es) :
    a.Sweeps waiting b (.event (.readable i.handle .data) told :: (flows ++ es)) where
  journal := by
    rw [hsweeps.journal, hjournal, List.append_assoc]
    rfl
  concludes := by
    have hsame (k : Handle) : c.table.incarnation k = a.table.incarnation k := by
      rw [htable, SocketTable.incarnation_modify]
    have hinquiries : inquiries (.event (.readable i.handle .data) told :: (flows ++ es)) =
        inquiries es := by
      show inquiries (flows ++ es) = _
      rw [inquiries_append, hflows.inquiries, List.nil_append]
    rw [hinquiries]
    exact hsweeps.concludes.of_incarnation hsame
  disposes := by
    cases hsweeps.disposes with
    | keeps htable' _ htold _ =>
      refine .handsOver [] (flows ++ es) told howner hpacket rfl hroom ?_ nofun
        (htable'.trans htable)
      show ∀ e ∈ flows ++ es, ¬ e.Tells
      exact List.forall_mem_append.mpr ⟨hflows.untold, htold⟩
    | handsOver _ _ _ howner' => cases hnone.symm.trans howner'

/-- The socket that is asked is not the one whose bytes are in flight. -/
theorem sweeps_of_owned {a : Adapter σ} {h : Handle} {rest : List Handle} {i : Incarnation}
    (ha : a.Steady) (hidle : a.Unasking) (howner : a.rx.owner? = some i)
    (hother : i ≠ a.table.incarnation h) (hawaits : a.table.awaits h = true)
    (hrest : ∀ d : Adapter σ, d.Steady → d.Unasking → d.rx.packet?.isSome = true →
      ∃ es, d.Sweeps (rest.filter d.table.awaits) (pollEach rest d) es) :
    ∃ es, a.Sweeps (h :: rest.filter a.table.awaits)
      (let c := (a.clearFor h).2
      if (a.clearFor h).1 then
        if (c.ask h).1 then (c.ask h).2 else pollEach rest (c.ask h).2
      else c) es := by
  obtain ⟨packet, told, flows, hpacket, hroom, hprovides, hjournal⟩ :=
    clearFor_of_owned ha howner hother
  have hsteady : (a.clearFor h).2.Steady :=
    (clearFor_spec (D := Deed.None) ha hidle.1 (by rw [hpacket]; rfl) h).1.steady ha
  revert hprovides hsteady
  generalize a.clearFor h = cleared
  obtain ⟨ok, c⟩ := cleared
  intro hprovides hsteady
  have htable : c.table =
      a.table.modify i.handle fun r => { r with inbound := r.inbound ++ [packet] } :=
    hprovides.table.trans (table_handOver ..)
  have hsame (k : Handle) : c.table.awaits k = a.table.awaits k := by
    rw [htable]
    exact SocketTable.awaits_requeue a.table i.handle k (· ++ [packet])
  have hnone : c.rx.owner? = none := hprovides.owner.trans (by rw [rx_handOver]; rfl)
  have hidle' : c.Unasking := hprovides.unasking (by rw [Unasking, rx_handOver]; exact hidle)
  have hentries : c.bus.journal =
      a.bus.journal ++ .event (.readable i.handle .data) told :: flows := by
    rw [hprovides.journal, hjournal, List.append_assoc]
    rfl
  have hhanded {b : Adapter σ} {es : List Entry}
      (hsweeps : c.Sweeps (h :: rest.filter a.table.awaits) b es) :=
    hsweeps.after_handOver howner hpacket hroom htable hentries hprovides.flows hnone
  cases ok with
  | false =>
    obtain ⟨hempty, hpool, hpaused⟩ := hprovides.dry rfl
    have hsweeps : c.Sweeps (h :: rest.filter a.table.awaits) c [] :=
      ⟨(List.append_nil _).symm, .dry [] rfl rfl hidle' hempty hpool hpaused,
        .keeps rfl rfl nofun nofun⟩
    exact ⟨_, hhanded hsweeps⟩
  | true =>
    have hlater (d : Adapter σ) (hd : d.Steady) (hidle : d.Unasking)
        (hpacket : d.rx.packet?.isSome = true) (hsametable : d.table = c.table) :
        ∃ es, d.Sweeps (rest.filter a.table.awaits) (pollEach rest d) es := by
      have hfilter : d.table.awaits = a.table.awaits := by
        rw [hsametable]
        exact funext hsame
      rw [← hfilter]
      exact hrest d hd hidle hpacket
    obtain ⟨es, hsweeps⟩ := sweeps_of_ask hsteady hidle' (hprovides.packet rfl)
      ((hsame h).trans hawaits) (.inl hnone) hlater
    exact ⟨_, hhanded hsweeps⟩

/-- Slot after slot. -/
theorem sweeps_pollEach (l : List Handle) {a : Adapter σ} (ha : a.Steady) (hidle : a.Unasking)
    (hpacket : a.rx.packet?.isSome = true) :
    ∃ es, a.Sweeps (l.filter a.table.awaits) (pollEach l a) es := by
  induction l generalizing a with
  | nil => exact ⟨[], (List.append_nil _).symm, .refused rfl hidle, .keeps rfl rfl nofun nofun⟩
  | cons h rest ih =>
    rw [pollEach_cons]
    by_cases hawaits : a.table.awaits h = true
    · rw [if_pos hawaits, List.filter_cons_of_pos hawaits]
      have hown (howner : a.rx.owner? = none ∨ a.rx.owner? = some (a.table.incarnation h))
          (hcleared : a.clearFor h = (true, a)) :
          ∃ es, a.Sweeps (h :: rest.filter a.table.awaits)
            (let c := (a.clearFor h).2
            if (a.clearFor h).1 then
              if (c.ask h).1 then (c.ask h).2 else pollEach rest (c.ask h).2
            else c) es := by
        rw [hcleared]
        exact sweeps_of_ask ha hidle hpacket hawaits howner fun d hd hidle hpacket hsame =>
          hsame ▸ ih hd hidle hpacket
      cases howner : a.rx.owner? with
      | none => exact hown (.inl howner) (by rw [clearFor, howner])
      | some i =>
        by_cases hi : i = a.table.incarnation h
        · exact hown (.inr (by rw [howner, hi])) (by rw [clearFor, howner]; exact if_pos hi)
        · exact sweeps_of_owned ha hidle howner hi hawaits fun d hd hidle hpacket =>
            ih hd hidle hpacket
    · rw [if_neg hawaits, List.filter_cons_of_neg hawaits]
      exact ih ha hidle hpacket

omit [Chip σ] in
/-- A packet was found before anybody is asked. -/
theorem Sweeps.after_provision {a c b : Adapter σ} {ok : Bool} {waiting : List Handle}
    {flows es : List Entry} (ha : a.Steady) (hprovides : a.Provides (ok, c) flows)
    (hsweeps : c.Sweeps waiting b es) : a.Sweeps waiting b (flows ++ es) := by
  have htable : c.table = a.table := hprovides.table
  have howner : c.rx.owner? = a.rx.owner? := hprovides.owner
  have hinquiries : inquiries (flows ++ es) = inquiries es := by
    rw [inquiries_append, hprovides.flows.inquiries, List.nil_append]
  refine ⟨?_, ?_, ?_⟩
  · rw [hsweeps.journal, hprovides.journal, List.append_assoc]
  · rw [hinquiries, ← htable]
    exact hsweeps.concludes
  · cases hsweeps.disposes with
    | keeps htable' howner' htold hasked =>
      refine .keeps (htable'.trans htable) (howner'.trans howner)
        (List.forall_mem_append.mpr ⟨hprovides.flows.untold, htold⟩) fun i hi => ?_
      rw [hinquiries]
      exact hasked i (howner.trans hi)
    | @handsOver i packet before after told howner' hpacket' hes hroom htold hasked htable' =>
      have hi : a.rx.owner? = some i := howner.symm.trans howner'
      obtain ⟨p, hp, -⟩ := (ha.sound.owned i hi).packet
      have hkept : c.rx.packet? = a.rx.packet? := hprovides.kept (by rw [hp]; rfl)
      refine .handsOver (flows ++ before) after told hi (hkept.symm.trans hpacket') ?_ ?_ ?_ ?_
        (htable ▸ htable')
      · rw [hes, List.append_assoc]
      · rw [← show c.events = a.events from hprovides.events]
        exact hroom
      · rw [List.append_assoc]
        exact List.forall_mem_append.mpr ⟨hprovides.flows.untold, htold⟩
      · rw [inquiries_append, hprovides.flows.inquiries]
        exact hasked

/-- A poll asks whoever wants data from its slot on. Without a packet it asks nobody. -/
theorem sweeps_pollFrom {a : Adapter σ} (ha : a.Steady) (start : Nat) :
    ∃ es, a.Sweeps (a.table.awaiting start) (a.pollFrom start) es ∧
      (a.rx.packet? = none → a.pool.available = 0 →
        inquiries es = [] ∧ (a.pollFrom start).rx.paused = true) := by
  -- The poll begins by forgetting what was outstanding, which nothing here looks at.
  have hwithdrawn := steady_withdraw ha
  have hforgotten {b : Adapter σ} {es : List Entry}
      (h : (a.onRx .withdraw).Sweeps (a.table.awaiting start) b es) :
      a.Sweeps (a.table.awaiting start) b es := by
    refine ⟨h.journal, h.concludes, ?_⟩
    cases h.disposes with
    | keeps htable howner htold hasked => exact .keeps htable howner htold hasked
    | handsOver before after told howner hpacket hes hroom htold hasked htable =>
      exact .handsOver before after told howner hpacket hes hroom htold hasked htable
  obtain ⟨flows, hprovides⟩ := provides_ensurePacket (a.onRx .withdraw)
  have hsteady : (a.onRx .withdraw).ensurePacket.2.Steady :=
    (leads_ensurePacket (D := Deed.None) _ hwithdrawn).steady hwithdrawn
  unfold pollFrom
  revert hprovides hsteady
  dsimp only
  generalize (a.onRx .withdraw).ensurePacket = provided
  obtain ⟨ok, c⟩ := provided
  intro hprovides hsteady
  have hidle : c.Unasking := hprovides.unasking ⟨rfl, rfl⟩
  cases ok with
  | false =>
    obtain ⟨hempty, hpool, hpaused⟩ := hprovides.dry rfl
    have hsweeps : c.Sweeps (a.table.awaiting start) c [] :=
      ⟨(List.append_nil _).symm, .dry [] rfl rfl hidle hempty hpool hpaused,
        .keeps rfl rfl nofun nofun⟩
    refine ⟨_, hforgotten (hsweeps.after_provision hwithdrawn hprovides), fun _ _ => ⟨?_, hpaused⟩⟩
    rw [List.append_nil]
    exact hprovides.flows.inquiries
  | true =>
    obtain ⟨es, hsweeps⟩ := sweeps_pollEach (Handle.startingAt start) hsteady hidle
      (hprovides.packet rfl)
    have hawaiting : (Handle.startingAt start).filter c.table.awaits = a.table.awaiting start := by
      rw [show c.table = a.table from hprovides.table]
      rfl
    rw [show (true, c).2 = c from rfl, hawaiting] at hsweeps
    refine ⟨_, hforgotten (hsweeps.after_provision hwithdrawn hprovides), fun hempty hpool => ?_⟩
    cases hprovides.fails.mpr ⟨hempty, hpool⟩

/-- A poll keeps flow control regulated. -/
theorem regulated_pollFrom {a : Adapter σ} (ha : a.Steady) (hregulated : a.Regulated)
    (start : Nat) : (a.pollFrom start).Regulated := by
  have hwithdrawn : (a.onRx .withdraw).Regulated :=
    ⟨hregulated.alternate, hregulated.paused, hregulated.pauses, hregulated.unasked⟩
  have hsteps : Steps Deed.Any none (a.onRx .withdraw) ((a.onRx .withdraw).pollFrom start) :=
    (leads_pollFrom (D := Deed.Any) trivial rfl start).yields (steady_withdraw ha)
  exact hsteps.keeps (fun _ _ hs h hab => h.step hs hab) (steady_withdraw ha) hwithdrawn

end Adapter

/-! ### In a session -/

namespace Session
variable {σ : Type} [Chip σ]

/-- An adapter that a session traverses: it has one between two actions, or comes to it by steps on
the way, as to every adapter that is about to poll. -/
def Traverses (chip : σ) (packets : Nat) (config : Config) (a : Adapter σ) : Prop :=
  ∃ actions site?,
    Adapter.Steps Deed.Any site? ((new chip packets config).run actions).adapter a

section Traverses
variable {chip : σ} {packets : Nat} {config : Config} {a : Adapter σ}

theorem Traverses.steady (h : Traverses chip packets config a) : a.Steady := by
  obtain ⟨actions, _, hsteps⟩ := h
  exact hsteps.steady (steady_run (Adapter.steady_new chip packets config) actions)

theorem Traverses.regulated (h : Traverses chip packets config a) : a.Regulated := by
  obtain ⟨actions, _, hsteps⟩ := h
  exact hsteps.keeps (fun _ _ hs ha hab => ha.step hs hab)
    (steady_run (Adapter.steady_new chip packets config) actions)
    (regulated_run chip packets config actions).1

/-- After an answer receiving goes on with a poll, from an adapter that the session traverses. -/
theorem Traverses.resumes (h : Traverses chip packets config a) {i : Incarnation}
    (hout : a.rx.outstanding? = some i) (d : Delivery) :
    ∃ c, Traverses chip packets config c ∧
      (a.noted (.socket i.handle (.received d))).onDelivery i.handle d =
        c.pollFrom (Adapter.resumption i.handle d) := by
  obtain ⟨b, c, hresumes, heq⟩ := Adapter.resumes_onDelivery h.steady hout d
  obtain ⟨actions, site?, hsteps⟩ := h
  have hanswer : Adapter.Move Deed.Any a b := .answer hout trivial hresumes.answered
  have hgoes : Adapter.Steps Deed.Any site? b c :=
    (hresumes.leads.mono nofun).yields (hanswer.steady (Traverses.steady ⟨actions, site?, hsteps⟩))
  exact ⟨c, ⟨actions, site?, Relation.ReflTransGen.trans (.tail hsteps (.move hanswer)) hgoes⟩, heq⟩

end Traverses

/-- A poll asks the sockets that want data from its slot on, in ascending order and each once: up
to the first one where the chip takes the request, for which a receive is then outstanding, or to
where there is no packet to ask with, and then the chip was told to hold back, or to the last. It
asks nobody if there is no packet to begin with. Bytes in flight are handed to the socket they
belong to, and the application is told once, before anybody else is asked. -/
theorem polled_in_order (chip : σ) (packets : Nat) (config : Config) {a : Adapter σ}
    (ha : Traverses chip packets config a) (start : Nat) :
    let b := a.pollFrom start
    let waiting := a.table.awaiting start
    (waiting.Pairwise (· < ·) ∧ ∀ h, h ∈ waiting ↔ start ≤ h.val ∧ a.table.awaits h = true) ∧
      ∃ es, b.bus.journal = a.bus.journal ++ es ∧
        Adapter.Concludes a.table waiting (inquiries es) b ∧
        b.rx.paused = (flows b.bus.journal).getLastD false ∧
        (a.rx.packet? = none → a.pool.available = 0 → inquiries es = [] ∧ b.rx.paused = true) ∧
        a.Disposes es b := by
  intro b waiting
  obtain ⟨es, hsweeps, hdry⟩ := Adapter.sweeps_pollFrom ha.steady start
  exact ⟨⟨a.table.awaiting_ascending start, fun h => SocketTable.mem_awaiting⟩, es,
    hsweeps.journal, hsweeps.concludes,
    (Adapter.regulated_pollFrom ha.steady ha.regulated start).paused, hdry, hsweeps.disposes⟩

/-- The chip refuses to read from the lower socket, and the upper one has part of a packet: it is
handed that part before the lower one is asked, and is asked anew. -/
theorem polled_in_order_refused :
    let chip := ScriptedChip.new.script (.receiveOn 7) (some .timeout)
    let a := ((new chip 4 .defaults).run [.create .inet .datagram, .create .inet .datagram,
      .bind 7 (.v4 ⟨⟨0, 0, 0, 0⟩, 68⟩), .dispatch (.socket 7 (.bound .success)),
      .bind 8 (.v4 ⟨⟨0, 0, 0, 0⟩, 69⟩), .dispatch (.socket 8 (.bound .success)),
      .dispatch (.socket 8 (.received ⟨2, 3, default, [1, 2]⟩))]).adapter
    Traverses chip 4 .defaults a ∧ a.rx.owner? = some ⟨8, 1⟩ ∧ a.table.awaiting 0 = [7, 8] ∧
      ∃ es, (a.pollFrom 0).bus.journal = a.bus.journal ++ es ∧
        inquiries es = [(7, false), (8, true)] ∧
        Adapter.Concludes a.table [7, 8] [(7, false), (8, true)] (a.pollFrom 0) ∧
        a.Disposes es (a.pollFrom 0) := by
  intro chip a
  have htraverses : Traverses chip 4 .defaults a := ⟨_, none, .refl⟩
  have hwaiting : a.table.awaiting 0 = [7, 8] := by decide +kernel
  have hjournal : (a.pollFrom 0).bus.journal = a.bus.journal ++
      [.event (.readable 8 .data) true, .command (.receive 7 1500 1) (.refused .timeout),
        .request 8 1500 1] := by
    decide +kernel
  obtain ⟨-, es, hes, hconcludes, -, -, hdisposes⟩ := polled_in_order chip 4 .defaults htraverses 0
  have hinquiries : inquiries es = [(7, false), (8, true)] := by
    rw [List.append_cancel_left (hes.symm.trans hjournal)]
    rfl
  rw [hinquiries, hwaiting] at hconcludes
  exact ⟨htraverses, by decide +kernel, hwaiting, es, hes, hinquiries, hconcludes, hdisposes⟩

end Session

end WifiAdapter
