import WifiAdapter.Proofs.Asking
import WifiAdapter.Proofs.Records

/-! Receiving goes round.

Sockets that want data are asked in turn. Where receiving goes on is known from the answer that is
handled, and from nothing else: with nothing outstanding it starts over at the lowest slot. Seen
from a slot, one of two sockets comes sooner (`Handle.Sooner`), and a socket that comes sooner is
due (`Adapter.Due`): it is asked before the other one is asked again, unless the chip is paused and
the other one is the lower (`Adapter.Respects`).

`Session.receiving_rotates`: after an answer that leaves nothing for a socket at the chip, every
other socket that wants data is asked before the same one is asked again. A lower socket that is
asked again first has been helped by a pause, after which receiving starts over. -/
namespace WifiAdapter

/-! ### The order of turns -/

namespace Handle
variable {a b h : Handle} {start : Nat}

/-- Going up from a slot, and from the last one on to the first, `b` comes before `a`. -/
def Sooner (start : Nat) (b a : Handle) : Prop :=
  start ≤ b.val ∧ b.val < a.val ∨ a.val < start ∧ start ≤ b.val ∨ b.val < a.val ∧ a.val < start

/-- Whoever has had its turn comes last. -/
theorem sooner_next (hne : a ≠ b) : Sooner (a.val + 1) b a := by
  have hval : a.val ≠ b.val := fun h => hne (Fin.ext h)
  unfold Sooner
  omega

theorem sooner_zero (hlt : b < a) : Sooner 0 b a := .inl ⟨Nat.zero_le _, hlt⟩

theorem Sooner.ne (hs : Sooner h.val b a) : h ≠ a := by
  rintro rfl
  unfold Sooner at hs
  omega

theorem Sooner.succ (hs : Sooner h.val b a) (hne : h ≠ b) : Sooner (h.val + 1) b a := by
  have hval : h.val ≠ b.val := fun he => hne (Fin.ext he)
  unfold Sooner at hs ⊢
  omega

/-- Beyond the last slot it is the lower socket that comes sooner. -/
theorem Sooner.lt (hs : Sooner start b a) (hend : maxSockets ≤ start) : b < a := by
  have hb := b.isLt
  unfold Sooner at hs
  show b.val < a.val
  omega

theorem startingAt_val (h : Handle) : startingAt h.val = h :: startingAt (h.val + 1) := by
  unfold startingAt
  rw [List.drop_eq_getElem_cons (by simp)]
  simp

theorem startingAt_end (hend : maxSockets ≤ start) : startingAt start = [] :=
  List.drop_eq_nil_of_le (by simpa using hend)

end Handle

namespace Entry

/-- The socket is asked; or the chip is paused, and the other socket is the lower. -/
def Serves (b a : Handle) : Entry → Prop
  | .command (.receive h _ _) _ => h = b
  | .command (.flow true) _ => a < b
  | _ => False

/-- A socket is answered, and the chip has no more for it. -/
def Spends (a : Handle) (e : Entry) : Prop :=
  ∃ x d, e.answer? = some (x, d) ∧ x.socket.handle = a ∧
    ∀ remaining, d.outcome = .data remaining → remaining = 0

/-- The chip takes no receive for `a` before `b` is served. -/
def InTurn (b a : Handle) (es : List Entry) : Prop :=
  ∀ before room timeout after, es = before ++ .request a room timeout :: after →
    ∃ e ∈ before, e.Serves b a

theorem inTurn_of_none {a b : Handle} {es : List Entry}
    (h : ∀ room timeout, .request a room timeout ∉ es) : InTurn b a es := by
  rintro before room timeout after rfl
  exact absurd (List.mem_append_right _ (List.mem_cons_self ..)) (h room timeout)

end Entry

namespace Adapter
variable {σ : Type} {a b : Handle} {x y z : Adapter σ} {es more : List Entry} {p q : Prop}

/-! ### Being due -/

/-- As things stand, `b` is asked before `a`. -/
structure Due (b a : Handle) (x : Adapter σ) : Prop where
  idle : x.rx.cursor? = none → b < a
  asked : ∀ i, x.rx.cursor? = some i → i.handle ≠ b ∧ Handle.Sooner i.handle.val b a

theorem due_of_idle (hidle : x.rx.cursor? = none) (hlt : b < a) : Due b a x :=
  ⟨fun _ => hlt, fun _ hi => nomatch hidle.symm.trans hi⟩

/-- The turn of `b` is respected while entries are made: it is served before `a` is, or it is still
due. -/
structure Respects (b a : Handle) (es : List Entry) (y : Adapter σ) : Prop where
  turn : Entry.InTurn b a es
  due : (∀ e ∈ es, ¬ e.Serves b a) → Due b a y

theorem Respects.nil (h : Due b a y) : Respects b a [] y :=
  ⟨Entry.inTurn_of_none fun _ _ => List.not_mem_nil, fun _ => h⟩

theorem Respects.append (hes : Entry.InTurn b a es)
    (hmore : (∀ e ∈ es, ¬ e.Serves b a) → Respects b a more y) : Respects b a (es ++ more) y where
  turn before room timeout after hsplit := by
    rcases Entry.split_append hsplit with ⟨after', hbefore, -⟩ | ⟨before', rfl, hsplit'⟩
    · exact hes before room timeout after' hbefore
    · by_cases hnone : ∀ e ∈ es, ¬ e.Serves b a
      · obtain ⟨e, he, hserves⟩ := (hmore hnone).turn before' room timeout after hsplit'
        exact ⟨e, List.mem_append_right _ he, hserves⟩
      · simp only [Classical.not_forall, Classical.not_not] at hnone
        obtain ⟨e, he, hserves⟩ := hnone
        exact ⟨e, List.mem_append_left _ he, hserves⟩
  due hnone := by
    obtain ⟨hnone, hnone'⟩ := List.forall_mem_append.mp hnone
    exact (hmore hnone).due hnone'

theorem Respects.cons {e : Entry} (he : ∀ room timeout, e ≠ .request a room timeout)
    (hmore : ¬ e.Serves b a → Respects b a more y) : Respects b a (e :: more) y := by
  refine Respects.append (Entry.inTurn_of_none fun room timeout hmem => ?_) fun hnone =>
    hmore (hnone e (List.mem_singleton_self e))
  exact he room timeout (List.mem_singleton.mp hmem).symm

/-! ### Asking nobody -/

/-- Nobody is asked and nothing is answered. -/
structure Unasked (x y : Adapter σ) : Prop where
  cursor : y.rx.cursor? = x.rx.cursor?
  journal : ∃ es, y.bus.journal = x.bus.journal ++ es ∧ ∀ e ∈ es, ¬ e.Asks ∧ e.answer? = none

theorem Unasked.refl (x : Adapter σ) : Unasked x x :=
  ⟨rfl, [], (List.append_nil _).symm, List.forall_mem_nil _⟩

theorem Unasked.trans (h : Unasked x y) (h' : Unasked y z) : Unasked x z :=
  ⟨h'.cursor.trans h.cursor, Entry.appended_trans h.journal h'.journal⟩

theorem Unasked.due (h : Unasked x y) (hx : Due b a x) : Due b a y :=
  ⟨fun hidle => hx.idle (h.cursor.symm.trans hidle),
    fun i hi => hx.asked i (h.cursor.symm.trans hi)⟩

theorem inTurn_of_unasked (hes : ∀ e ∈ es, ¬ e.Asks ∧ e.answer? = none) : Entry.InTurn b a es :=
  Entry.inTurn_of_none fun _ _ hmem => (hes _ hmem).1 trivial

/-! ### Wanting data -/

/-- The stream of an open socket has ended. -/
def Ended (h : Handle) (x : Adapter σ) : Prop :=
  ∃ r, x.table.get? h = some r ∧ r.peerClosed = true

/-- A socket goes on wanting data unless its stream ends, and an end is final. -/
structure Retains (h : Handle) (x y : Adapter σ) : Prop where
  ended : Ended h x → Ended h y
  awaits : x.table.awaits h = true → y.table.awaits h = true ∨ Ended h y

theorem Retains.trans (h : Retains b x y) (h' : Retains b y z) : Retains b x z :=
  ⟨fun hx => h'.ended (h.ended hx),
    fun hx => (h.awaits hx).elim h'.awaits fun hy => .inr (h'.ended hy)⟩

/-- What wants data before and after wanted it all along. -/
theorem Retains.between (h : Retains b x y) (h' : Retains b y z) (hx : x.table.awaits b = true)
    (hz : z.table.awaits b = true) : y.table.awaits b = true := by
  refine (h.awaits hx).resolve_right fun hy => ?_
  obtain ⟨r, hr, hended⟩ := h'.ended hy
  cases (SocketTable.live_of_awaits hz hr).symm.trans hended

theorem Revision.retains {D : Deed → Prop} {site? : Option Handle} {r r' : SocketRecord}
    (h : Revision D site? x b r r') :
    (r.peerClosed = true → r'.peerClosed = true) ∧
      (r.awaitingData = true → r'.awaitingData = true ∨ r'.peerClosed = true) := by
  have hkeeps {r' : SocketRecord} (h : r.Keeps r') : (r.peerClosed = true → r'.peerClosed = true) ∧
      (r.awaitingData = true → r'.awaitingData = true ∨ r'.peerClosed = true) :=
    ⟨fun hclosed => h.peerClosed.trans hclosed, fun hawaits => .inl (h.awaiting hawaits)⟩
  cases h with
  | same | read | queue => exact ⟨id, .inl⟩
  | «begin» _ purpose | undo _ purpose => exact hkeeps (r.keeps_apply (by cases purpose <;> nofun))
  | mark _ waiting => exact hkeeps (r.keeps_mark waiting)
  | complete _ purpose ok starts =>
    have hdone := r.keeps_apply (q := purpose.done ok) (by cases purpose <;> nofun)
    cases starts with
    | false => exact hkeeps hdone
    | true => exact hkeeps (hdone.trans (SocketRecord.keeps_poll _))
  | connect _ _ peer =>
    exact hkeeps ((r.keeps_apply (q := .connect) nofun).trans (SocketRecord.keeps_aimedAt _ peer))
  | connectDone => exact hkeeps (r.keeps_apply nofun)
  | aim _ _ peer => exact hkeeps (r.keeps_aimedAt peer)
  | pending _ chain? => exact hkeeps (r.keeps_pending chain?)
  | ended => exact ⟨fun _ => rfl, fun _ => .inr rfl⟩

section Steps
variable [Chip σ] {D : Deed → Prop} {site? : Option Handle}

theorem Step.unasked (hxy : Step D site? x y) (hx : x.Steady) (hask : ¬ D .ask)
    (hanswer : ∀ h, ¬ D (.answer h)) (hshut : ∀ h, ¬ D (.shut h)) : Unasked x y := by
  obtain ⟨es, hjournal, hturn⟩ := hxy.turn hx
  obtain ⟨es', hjournal', hmay⟩ := hxy.enters hx
  obtain rfl := List.append_cancel_left (hjournal.symm.trans hjournal')
  cases hturn with
  | still hcursor _ hasks =>
    refine ⟨hcursor, es, hjournal, fun e he => ⟨hasks e he, ?_⟩⟩
    refine Option.eq_none_iff_forall_ne_some.mpr fun ⟨expected, d⟩ hx => ?_
    cases e with
    | handled => exact hanswer _ ((hmay _ he).1 expected d hx)
    | _ => cases hx
  | answered _ _ _ _ hd => exact absurd hd (hanswer _)
  | closed _ _ _ _ _ hd => exact absurd hd (hshut _)
  | asked _ _ _ _ _ _ _ hd => exact absurd hd hask

theorem Steps.unasked (hxy : Steps D site? x y) (hx : x.Steady) (hask : ¬ D .ask)
    (hanswer : ∀ h, ¬ D (.answer h)) (hshut : ∀ h, ¬ D (.shut h)) : Unasked x y :=
  hxy.keeps (fun _ _ hs h hab => h.trans (hab.unasked hs hask hanswer hshut)) hx (.refl x)

theorem Step.retains (hxy : Step D site? x y) (hx : x.Steady) (hshut : ¬ D (.shut b)) :
    Retains b x y := by
  have hvacant (hfree : x.table.get? b = none) : Retains b x y := by
    constructor
    · rintro ⟨r, hr, _⟩
      cases hfree.symm.trans hr
    · simp [SocketTable.awaits, hfree]
  rcases hxy.slot hx b with ⟨hfree, -⟩ | ⟨hfree, -, -⟩ | ⟨-, hd, -⟩ | ⟨hr, hr', -, hrevision⟩
  · exact hvacant hfree
  · exact hvacant hfree
  · exact absurd hd hshut
  · obtain ⟨hended, hawaits⟩ := hrevision.retains
    constructor
    · rintro ⟨_, hsame, hclosed⟩
      cases hr.symm.trans hsame
      exact ⟨_, hr', hended hclosed⟩
    · rw [SocketTable.awaits, SocketTable.awaits, hr, hr']
      exact fun h => (hawaits h).imp_right fun hclosed => ⟨_, hr', hclosed⟩

theorem Steps.retains (hxy : Steps D site? x y) (hx : x.Steady) (hshut : ¬ D (.shut b)) :
    Retains b x y :=
  hxy.keeps (fun _ _ hs h hab => h.trans (hab.retains hs hshut)) hx ⟨id, .inl⟩

theorem Leads.unasked (hxy : Leads Deed.None x y) (hx : x.Steady) : Unasked x y :=
  have hsteps : Steps Deed.None none x y := hxy.yields hx
  hsteps.unasked hx id (fun _ => id) fun _ => id

theorem Leads.retains (hxy : Leads D x y) (hx : x.Steady) (hshut : ¬ D (.shut b)) :
    Retains b x y :=
  have hsteps : Steps D none x y := hxy.yields hx
  hsteps.retains hx hshut

end Steps

/-! ### A scan -/

/-- No entry up to `y` is an answer, and if `p` holds the turn of `b` is respected. -/
def Honours (p : Prop) (b a : Handle) (x y : Adapter σ) : Prop :=
  ∃ es, y.bus.journal = x.bus.journal ++ es ∧ (∀ e ∈ es, e.answer? = none) ∧
    (p → Respects b a es y)

theorem Honours.refl (h : p → Due b a x) : Honours p b a x x :=
  ⟨[], (List.append_nil _).symm, List.forall_mem_nil _, fun hp => .nil (h hp)⟩

theorem Unasked.honours (h : Unasked x y) (h' : Honours p b a y z) : Honours p b a x z := by
  obtain ⟨es, hjournal, hes⟩ := h.journal
  obtain ⟨more, hjournal', hmore, hrespects⟩ := h'
  refine ⟨es ++ more, by rw [hjournal', hjournal, List.append_assoc], ?_, fun hp => ?_⟩
  · exact List.forall_mem_append.mpr ⟨fun e he => (hes e he).2, hmore⟩
  · exact .append (inTurn_of_unasked hes) fun _ => hrespects hp

/-- A socket is asked, and it is not `a`. -/
theorem Honours.ask {h : Handle} {room timeout : Nat} {answer : Answer Unit}
    (hjournal : y.bus.journal = x.bus.journal ++ [.command (.receive h room timeout) answer])
    (hne : p → h ≠ a) (hrest : Honours q b a y z) (hq : p → h ≠ b → q) : Honours p b a x z := by
  obtain ⟨es, hjournal', hes, hrespects⟩ := hrest
  refine ⟨.command (.receive h room timeout) answer :: es, ?_, List.forall_mem_cons.mpr ⟨rfl, hes⟩,
    fun hp => .cons (fun _ _ hsame => ?_) fun hother => hrespects (hq hp hother)⟩
  · rw [hjournal', hjournal, List.append_assoc]
    rfl
  · cases hsame
    exact hne hp rfl

/-- The chip is paused, and whoever is the lower is due. -/
theorem Honours.pause {answer : Answer Unit}
    (hjournal : y.bus.journal = x.bus.journal ++ [.command (.flow true) answer])
    (hidle : y.rx.cursor? = none) (hne : a ≠ b) : Honours p b a x y := by
  refine ⟨_, hjournal, List.forall_mem_singleton.mpr rfl, fun _ => ⟨?_, fun hnone => ?_⟩⟩
  · exact Entry.inTurn_of_none fun _ _ hmem => nomatch List.mem_singleton.mp hmem
  · have hge : ¬ a < b := hnone _ (List.mem_singleton_self _)
    exact due_of_idle hidle (Nat.lt_of_le_of_ne (Nat.not_lt.mp hge) fun h => hne (Fin.ext h.symm))

section Scans
variable [Chip σ]

/-- No packet can be leased. -/
theorem honours_unpacked (hfailed : x.ensurePacket.1 = false) (hidle : x.rx.cursor? = none)
    (hpaused : p → x.rx.paused = true → b < a) (hne : a ≠ b) : Honours p b a x x.ensurePacket.2 := by
  revert hfailed
  unfold ensurePacket
  cases x.rx.packet? with
  | some packet => exact nofun
  | none =>
    cases x.pool.lease? x.config.rxPacketSize with
    | some leased => exact nofun
    | none =>
      intro _
      dsimp only
      unfold pauseFlow
      by_cases hp : x.rx.paused = true
      · rw [if_pos hp]
        exact .refl fun h => due_of_idle hidle (hpaused h hp)
      · rw [if_neg hp]
        exact .pause rfl hidle hne

/-- No packet can be leased for a socket after the one in flight was handed over. -/
theorem honours_uncleared (hx : x.Steady) (hidle : x.rx.cursor? = none)
    (hpacket : x.rx.packet?.isSome = true) {h : Handle} (hfailed : (x.clearFor h).1 = false)
    (hne : a ≠ b) : Honours p b a x (x.clearFor h).2 := by
  obtain ⟨hcursor, hpaused, -⟩ := settlePartial_spec hx
  have hsettled : Unasked x x.settlePartial := (leads_settlePartial hidle).unasked hx
  have hflows : x.rx.paused ≠ true := fun hp => by
    rw [(hx.sound.paused hp).1] at hpacket
    cases hpacket
  revert hfailed
  unfold clearFor
  cases x.rx.owner? with
  | none => exact nofun
  | some owner =>
    dsimp only
    split
    · exact nofun
    · intro hfailed
      refine hsettled.honours (honours_unpacked hfailed (hcursor.trans hidle) ?_ hne)
      exact fun _ hp => absurd (hpaused.symm.trans hp) hflows

/-- What asking a socket enters, and what it leaves outstanding. -/
theorem ask_spec (x : Adapter σ) (h : Handle) (hpacket : x.rx.packet?.isSome = true) :
    ∃ room timeout answer,
      (x.ask h).2.bus.journal = x.bus.journal ++ [.command (.receive h room timeout) answer] ∧
      (x.ask h).2.table = x.table ∧
      ((x.ask h).1 = true → (x.ask h).2.rx.cursor? = some (x.table.incarnation h)) ∧
      ((x.ask h).1 = false → (x.ask h).2.rx = x.rx) := by
  refine ⟨x.rx.room, x.config.recvTimeout,
    (x.bus.issue (.receive h x.rx.room x.config.recvTimeout)).1, ?_⟩
  rw [ask_eq x h hpacket]
  dsimp only
  split
  · exact ⟨rfl, rfl, fun _ => rfl, nofun⟩
  · exact ⟨rfl, rfl, nofun, fun _ => rfl⟩

/-- Going up from a slot respects the turn of whoever comes sooner. -/
theorem honours_pollEach (hne : a ≠ b) (start : Nat) (hx : x.Steady) (hidle : x.rx.cursor? = none)
    (hpacket : x.rx.packet?.isSome = true) (hb : x.table.awaits b = true) :
    Honours (Handle.Sooner start b a) b a x (pollEach (Handle.startingAt start) x) := by
  induction hn : maxSockets - start generalizing x start with
  | zero =>
    have hend : maxSockets ≤ start := Nat.sub_eq_zero_iff_le.mp hn
    rw [Handle.startingAt_end hend]
    exact .refl fun hs => due_of_idle hidle (hs.lt hend)
  | succ n ih =>
    obtain ⟨h, rfl⟩ : ∃ h : Handle, h.val = start := ⟨⟨start, by omega⟩, rfl⟩
    rw [Handle.startingAt_val]
    unfold pollEach
    by_cases hawaits : x.table.awaits h = true
    · rw [if_pos hawaits]
      obtain ⟨hmoves, hcursor, hready⟩ := clearFor_spec (D := Deed.None) hx hidle hpacket h
      have hcleared : Unasked x (x.clearFor h).2 := Leads.unasked (fun _ => hmoves) hx
      have hfailed (hfalse : (x.clearFor h).1 = false) :
          Honours (Handle.Sooner h.val b a) b a x (x.clearFor h).2 :=
        honours_uncleared hx hidle hpacket hfalse hne
      revert hmoves hcursor hready hcleared hfailed
      generalize x.clearFor h = cleared
      obtain ⟨ok, c⟩ := cleared
      intro hmoves hcursor hready hcleared hfailed
      cases ok with
      | false => exact hfailed rfl
      | true =>
        obtain ⟨hpacket', howner, hsame⟩ := hready rfl
        have hc : c.Steady := hmoves.steady hx
        have hasked : Move Deed.Asking c (c.ask h).2 :=
          .ask c hcursor hpacket' ((hsame h).trans hawaits) howner rfl
        have hd := hasked.steady hc
        obtain ⟨room, timeout, answer, hjournal, htable, htaken, hrefused⟩ := ask_spec c h hpacket'
        refine hcleared.honours ?_
        revert hd hjournal htable htaken hrefused
        dsimp only
        generalize c.ask h = asked
        obtain ⟨taken, d⟩ := asked
        intro hd hjournal htable htaken hrefused
        cases taken with
        | true =>
          refine .ask hjournal Handle.Sooner.ne (.refl (p := Handle.Sooner h.val b a ∧ h ≠ b) ?_) .intro
          rintro ⟨hs, hother⟩
          refine ⟨fun hnone => ?_, fun i hi => ?_⟩
          · cases (htaken rfl).symm.trans hnone
          · cases (htaken rfl).symm.trans hi
            exact ⟨hother, hs⟩
        | false =>
          have hrx : d.rx = c.rx := hrefused rfl
          refine .ask hjournal Handle.Sooner.ne (ih (h.val + 1) hd ?_ ?_ ?_ (by omega)) .succ
          · rw [hrx]
            exact hcursor
          · rw [hrx]
            exact hpacket'
          · rw [htable]
            exact (hsame b).trans hb
    · rw [if_neg hawaits]
      obtain ⟨es, hjournal, hes, hrespects⟩ := ih (h.val + 1) hx hidle hpacket hb (by omega)
      refine ⟨es, hjournal, hes, fun hs => hrespects (hs.succ ?_)⟩
      rintro rfl
      exact hawaits hb

theorem honours_pollFrom (hne : a ≠ b) (start : Nat) (hx : x.Steady) (hidle : x.rx.cursor? = none)
    (hb : x.table.awaits b = true) :
    Honours (Handle.Sooner start b a ∧ (x.rx.paused = true → b < a)) b a x (x.pollFrom start) := by
  have hleads := leads_ensurePacket (D := Deed.None) x
  have hensured : Unasked x x.ensurePacket.2 := hleads.unasked hx
  have hsteady := (hleads hx).steady hx
  have hfailed (hfalse : x.ensurePacket.1 = false) :
      Honours (Handle.Sooner start b a ∧ (x.rx.paused = true → b < a)) b a x x.ensurePacket.2 :=
    honours_unpacked hfalse hidle (fun hp => hp.2) hne
  obtain ⟨htable, hcursor, _, hpacket⟩ := ensurePacket_spec x
  unfold pollFrom
  rw [withdraw_of_idle hx hidle]
  revert hensured hsteady hfailed htable hcursor hpacket
  dsimp only
  generalize x.ensurePacket = ensured
  obtain ⟨ok, c⟩ := ensured
  intro hensured hsteady hfailed htable hcursor hpacket
  cases ok with
  | false => exact hfailed rfl
  | true =>
    have hscan := honours_pollEach hne start hsteady (hcursor.trans hidle) (hpacket rfl)
      ((congrArg (·.awaits b) htable).trans hb)
    obtain ⟨es, hjournal, hes, hrespects⟩ := hensured.honours hscan
    exact ⟨es, hjournal, hes, fun hp => hrespects hp.1⟩

end Scans

/-! ### Going round -/

/-- Between two adapters the turn of `b` is respected: if it is due, and from every answer to `a`
that leaves nothing. -/
structure Rotates (b a : Handle) (x y : Adapter σ) : Prop where
  retains : Retains b x y
  entries : x.table.awaits b = true → y.table.awaits b = true → ∃ es,
    y.bus.journal = x.bus.journal ++ es ∧ (Due b a x → Respects b a es y) ∧
      ∀ before e after, es = before ++ e :: after → e.Spends a → Respects b a after y

theorem Rotates.trans (h : Rotates b a x y) (h' : Rotates b a y z) : Rotates b a x z := by
  refine ⟨h.retains.trans h'.retains, fun hx hz => ?_⟩
  have hy := h.retains.between h'.retains hx hz
  obtain ⟨es, hjournal, hdue, hspent⟩ := h.entries hx hy
  obtain ⟨more, hjournal', hdue', hspent'⟩ := h'.entries hy hz
  have hgoes {before : List Entry} (hrespects : Respects b a before y) :
      Respects b a (before ++ more) z :=
    .append hrespects.turn fun hnone => hdue' (hrespects.due hnone)
  refine ⟨es ++ more, by rw [hjournal', hjournal, List.append_assoc], fun hd => hgoes (hdue hd),
    fun before e after hsplit hspends => ?_⟩
  rcases Entry.split_append hsplit with ⟨after', hbefore, rfl⟩ | ⟨before', -, hsplit'⟩
  · exact hgoes (hspent before e after' hbefore hspends)
  · exact hspent' before' e after hsplit' hspends

/-- Entries that are no answers. -/
theorem Honours.rotates (hretains : Retains b x y)
    (h : x.table.awaits b = true → Honours (Due b a x) b a x y) : Rotates b a x y := by
  refine ⟨hretains, fun hx _ => ?_⟩
  obtain ⟨es, hjournal, hes, hrespects⟩ := h hx
  refine ⟨es, hjournal, hrespects, ?_⟩
  rintro before e after rfl ⟨_, _, hanswer, _⟩
  cases (hes e (List.mem_append_right _ (List.mem_cons_self ..))).symm.trans hanswer

theorem Rotates.refl (x : Adapter σ) : Rotates b a x x :=
  Honours.rotates ⟨id, .inl⟩ fun _ => .refl id

section Rounds
variable [Chip σ] {D : Deed → Prop} {site? : Option Handle}

theorem Steps.rotates (hxy : Steps D site? x y) (hx : x.Steady) (hask : ¬ D .ask)
    (hanswer : ∀ h, ¬ D (.answer h)) (hshut : ∀ h, ¬ D (.shut h)) : Rotates b a x y :=
  have hunasked := hxy.unasked hx hask hanswer hshut
  Honours.rotates (hxy.retains hx (hshut b)) fun _ => hunasked.honours (.refl hunasked.due)

/-- A poll from the beginning begins with the lowest slot. -/
theorem rotates_pollIdle (hne : a ≠ b) (hx : x.Steady) : Rotates b a x x.pollIdle := by
  have hleads := leads_pollIdle (D := Deed.Asking) rfl x
  refine Honours.rotates (hleads.retains hx nofun) fun hb => ?_
  unfold pollIdle
  split
  · exact .refl id
  · next hidle =>
    have hcursor : x.rx.cursor? = none :=
      Option.not_isSome_iff_eq_none.mp fun hsome => hidle (hx.sound.polling.mpr hsome)
    obtain ⟨es, hjournal, hes, hrespects⟩ := honours_pollFrom (a := a) hne 0 hx hcursor hb
    refine ⟨es, hjournal, hes, fun hdue => hrespects ⟨?_, fun _ => ?_⟩⟩
    · exact Handle.sooner_zero (hdue.idle hcursor)
    · exact hdue.idle hcursor

omit [Chip σ] in
/-- What an answer enters. -/
theorem Answered.journal {i : Incarnation} {d : Delivery} (h : x.Answered i d y) (hx : x.Steady)
    (hout : x.rx.outstanding? = some i) :
    ∃ es, y.bus.journal =
        x.bus.journal ++ .handled (.socket i.handle (.received d)) x.rx.expecting? :: es ∧
      ∀ e ∈ es, ¬ e.Asks ∧ e.answer? = none := by
  cases h with
  | noData | keep => exact ⟨[], rfl, List.forall_mem_nil _⟩
  | finish =>
    obtain ⟨told, hjournal⟩ := journal_handOver
      ((x.noted (.socket i.handle (.received d))).onRx (·.part.withdraw)) i.handle _
    exact ⟨_, hjournal.trans (List.append_assoc ..), by simp [Entry.Asks, Entry.answer?]⟩
  | ended =>
    have hopen : ((x.noted (.socket i.handle (.received d))).onRx .withdraw).table.isOpen i.handle =
        true := hx.isOpen hout
    obtain ⟨told, hjournal⟩ := journal_endStream _ hopen _ _
    exact ⟨_, hjournal.trans (List.append_assoc ..), by simp [Entry.Asks, Entry.answer?]⟩

omit [Chip σ] in
theorem resumption_of_spent {h : Handle} {d : Delivery}
    (hspent : ∀ remaining, d.outcome = .data remaining → remaining = 0) :
    resumption h d = h.val + 1 := by
  unfold resumption
  split
  · next remaining hd => rw [hspent remaining hd, if_neg (Nat.lt_irrefl 0)]
  · rfl

omit [Chip σ] in
/-- Receiving goes on at the socket that was answered or at the next, and whoever comes sooner from
the one comes sooner from the other. -/
theorem sooner_resumption {h : Handle} (hs : Handle.Sooner h.val b a) (hne : h ≠ b) (d : Delivery) :
    Handle.Sooner (resumption h d) b a := by
  unfold resumption
  split
  · split
    · exact hs
    · exact hs.succ hne
  · exact hs.succ hne

/-- An answer, and where receiving goes on. -/
theorem rotates_answer (hne : a ≠ b) (hx : x.Steady) {i : Incarnation} {d : Delivery}
    (hout : x.rx.outstanding? = some i) (hresumes : x.Resumes i d y z) :
    Rotates b a x (z.pollFrom (resumption i.handle d)) := by
  have hcursor := RxState.cursor_of_outstanding hout
  have hy := hresumes.answered.steady hx hout
  have hz : z.Steady := (hresumes.leads hy).steady hy
  have hunasked : Unasked y z := hresumes.leads.unasked hy
  have hfirst : Step (fun d => ∀ h, d ≠ .shut h) none x y :=
    .move (.answer hout (fun _ => nofun) hresumes.answered)
  have hretains : Retains b x z :=
    (hfirst.retains hx fun h => h _ rfl).trans (hresumes.leads.retains hy id)
  have hleads := leads_pollFrom (D := Deed.Asking) rfl hresumes.idle (resumption i.handle d)
  have hscan : Retains b z (z.pollFrom (resumption i.handle d)) := hleads.retains hz nofun
  refine ⟨hretains.trans hscan, fun hb hb' => ?_⟩
  have hflows : z.rx.paused = true → b < a := fun hp => by
    rw [hresumes.paused] at hp
    cases (hx.sound.paused hp).2.2.symm.trans hcursor
  obtain ⟨told, htold, hsilent⟩ := hresumes.answered.journal hx hout
  -- All that comes after the answer asks by the order of turns.
  obtain ⟨es, hjournal, hes, hrespects⟩ :=
    hunasked.honours (honours_pollFrom (a := a) hne (resumption i.handle d) hz hresumes.idle
      (hretains.between hscan hb hb'))
  have hafter (hs : Handle.Sooner (resumption i.handle d) b a) :
      Respects b a (told ++ es) (z.pollFrom (resumption i.handle d)) :=
    .append (inTurn_of_unasked hsilent) fun _ => hrespects ⟨hs, hflows⟩
  refine ⟨_ :: (told ++ es), by rw [hjournal, htold, List.append_assoc]; rfl, fun hdue => ?_, ?_⟩
  · obtain ⟨hother, hs⟩ := hdue.asked i hcursor
    exact .cons nofun fun _ => hafter (sooner_resumption hs hother d)
  · rintro before e after hsplit ⟨expected, d', hanswer, hhandle, hspent⟩
    cases before with
    | nil =>
      obtain ⟨rfl, rfl⟩ := List.cons.inj hsplit
      rw [Entry.answer?_of_outstanding hout] at hanswer
      cases hanswer
      subst hhandle
      refine hafter ?_
      rw [resumption_of_spent hspent]
      exact Handle.sooner_next hne
    | cons first before =>
      obtain ⟨-, hsplit'⟩ := List.cons.inj hsplit
      have hmem : e ∈ told ++ es := hsplit' ▸ List.mem_append_right _ (List.mem_cons_self ..)
      rcases List.mem_append.mp hmem with hmem | hmem
      · cases (hsilent e hmem).2.symm.trans hanswer
      · cases (hes e hmem).symm.trans hanswer

theorem rotates_handle (hne : a ≠ b) (hx : x.Steady) (now : Nat) (note : Notification) :
    Rotates b a x (x.handle now note) := by
  rcases handle_cases hx now note with ⟨i, d, y, z, -, hout, hresumes, heq⟩ | ⟨y, hleads, hend⟩
  · rw [heq]
    exact rotates_answer hne hx hout hresumes
  · have hsteps : Steps _ none x y := hleads.yields hx
    have hy : Rotates b a x y := by
      refine hsteps.rotates hx ?_ (fun h hd => hd.2 h rfl) fun h => ?_
      · rintro ⟨hd, -⟩
        exact Notification.incoming hd
      · rintro ⟨hd, -⟩
        exact Notification.incoming hd
    rcases hend with heq | heq
    · rw [heq]
      exact hy
    · rw [heq]
      exact hy.trans (rotates_pollIdle hne (hsteps.steady hx))

theorem Course.rotates (hne : a ≠ b) {now : Nat} {ms : List (Moment σ)}
    (h : Course D site? now x ms y) (hx : x.Steady) (hask : ¬ D .ask)
    (hanswer : ∀ h, ¬ D (.answer h)) (hshut : ∀ h, ¬ D (.shut h)) : Rotates b a x y := by
  induction h with
  | refl => exact Rotates.refl x
  | step hcourse hstep ih =>
    exact ih.trans (Steps.rotates (.single hstep) (hcourse.steady hx) hask hanswer hshut)
  | handle hcourse note ih => exact ih.trans (rotates_handle hne (hcourse.steady hx) now note)
  | poll hcourse ih => exact ih.trans (rotates_pollIdle hne (hcourse.steady hx))

end Rounds

end Adapter

/-! ### Histories -/

namespace Session
variable {σ : Type} [Chip σ] {s : Session σ} {a b : Handle}

theorem rotates_perform (hne : a ≠ b) (hs : s.adapter.Steady) {action : Action σ}
    (hclose : ∀ h, action ≠ .close h) :
    Adapter.Rotates b a s.adapter (s.perform action).2.adapter :=
  (passes_perform s action hs).rotates hne hs (fun hd => broughtBy_of_deeds hd)
    (fun _ hd => broughtBy_of_deeds hd) fun h hd => hclose h (broughtBy_of_deeds hd)

theorem rotates_run (hne : a ≠ b) (hs : s.adapter.Steady) {actions : List (Action σ)}
    (hclose : ∀ h, .close h ∉ actions) : Adapter.Rotates b a s.adapter (s.run actions).adapter := by
  induction actions generalizing s with
  | nil => exact .refl _
  | cons action rest ih =>
    have hfirst : ∀ h, action ≠ .close h := fun h heq => hclose h (heq ▸ List.mem_cons_self)
    have hrest : ∀ h, .close h ∉ rest := fun h hmem => hclose h (List.mem_cons_of_mem _ hmem)
    exact (rotates_perform hne hs hfirst).trans (ih (steady_perform hs action) hrest)

/-- Let no socket be closed for a while in which `b` wants data, and let a receive of another socket
be answered then with nothing left for that socket at the chip. Before the chip takes the next
receive for it, `b` is asked, whether the chip takes that or not. Only if the other one is the lower
of the two may the chip have been paused instead, because no packet could be leased: receiving then
starts over at the lowest slot. -/
theorem receiving_rotates (chip : σ) (packets : Nat) (config : Config)
    {before during : List (Action σ)} (hne : a ≠ b) (hclose : ∀ h, .close h ∉ during)
    (hb : ((new chip packets config).run before).adapter.table.awaits b = true)
    (hb' : ((new chip packets config).run (before ++ during)).adapter.table.awaits b = true)
    {earlier middle later : List Entry} {e : Entry} {room timeout : Nat}
    (hjournal : ((new chip packets config).run (before ++ during)).adapter.bus.journal =
      ((new chip packets config).run before).adapter.bus.journal ++
        (earlier ++ e :: (middle ++ .request a room timeout :: later)))
    (hspent : e.Spends a) :
    (∃ room timeout answer, .command (.receive b room timeout) answer ∈ middle) ∨
      a < b ∧ ∃ answer, .command (.flow true) answer ∈ middle := by
  have hs := steady_run (s := new chip packets config) (Adapter.steady_new ..) before
  rw [run_append] at hb' hjournal
  obtain ⟨es, hjournal', -, hrespects⟩ := (rotates_run hne hs hclose).entries hb hb'
  obtain rfl := List.append_cancel_left (hjournal'.symm.trans hjournal)
  obtain ⟨served, hmem, hserves⟩ :=
    (hrespects earlier e _ rfl hspent).turn middle room timeout later rfl
  unfold Entry.Serves at hserves
  split at hserves
  · subst hserves
    exact .inl ⟨_, _, _, hmem⟩
  · exact .inr ⟨hserves, _, hmem⟩
  · exact hserves.elim

/-- Two datagram sockets that want data. The lower one is asked. -/
def neighbours (lower upper : Handle) : List (Action ScriptedChip) :=
  [.create .inet .datagram, .create .inet .datagram,
    .bind lower (.v4 ⟨⟨0, 0, 0, 0⟩, 68⟩), .dispatch (.socket lower (.bound .success)),
    .bind upper (.v4 ⟨⟨0, 0, 0, 0⟩, 69⟩), .dispatch (.socket upper (.bound .success))]

/-- The chip has nothing, for the one or for the other, and a tick begins again. -/
def fruitless (lower upper : Handle) : List (Action ScriptedChip) :=
  [.dispatch (.socket lower (.received ⟨Status.timeout.code, 0, default, []⟩)),
    .dispatch (.socket upper (.received ⟨Status.timeout.code, 0, default, []⟩)), .tick]

/-- The upper socket is asked before the lower one is asked again. -/
theorem receiving_rotates_fruitless :
    ∃ room timeout answer, .command (.receive 8 room timeout) answer ∈
      ((new ScriptedChip.new 1 .defaults).run (neighbours 7 8 ++ fruitless 7 8)).adapter.bus.journal := by
  let nothing : Delivery := ⟨Status.timeout.code, 0, default, []⟩
  let answer : Entry := .handled (.socket 7 (.received nothing)) (some ⟨⟨7, 1⟩, 1500, []⟩)
  let middle : List Entry := [.request 8 1500 1,
    .handled (.socket 8 (.received nothing)) (some ⟨⟨8, 1⟩, 1500, []⟩)]
  have hclose (h : Handle) : .close h ∉ fruitless 7 8 := by simp [fruitless]
  have hb : ((new ScriptedChip.new 1 .defaults).run (neighbours 7 8)).adapter.table.awaits 8 =
      true := by decide +kernel
  have hb' : ((new ScriptedChip.new 1 .defaults).run
      (neighbours 7 8 ++ fruitless 7 8)).adapter.table.awaits 8 = true := by decide +kernel
  have hjournal : ((new ScriptedChip.new 1 .defaults).run
        (neighbours 7 8 ++ fruitless 7 8)).adapter.bus.journal =
      ((new ScriptedChip.new 1 .defaults).run (neighbours 7 8)).adapter.bus.journal ++
        ([] ++ answer :: (middle ++ .request 7 1500 1 :: [])) := by decide +kernel
  have hspent : answer.Spends 7 := ⟨_, _, rfl, rfl, nofun⟩
  have hrotates :=
    receiving_rotates ScriptedChip.new 1 .defaults (by decide) hclose hb hb' hjournal hspent
  rcases hrotates with ⟨room, timeout, answer, hmem⟩ | ⟨-, answer, hmem⟩
  · refine ⟨room, timeout, answer, ?_⟩
    rw [hjournal]
    simp [hmem]
  · simp [middle, Entry.request] at hmem

/-- A packet comes for the lower socket, and the application takes it and drops it. -/
def exhausting (lower upper : Handle) : List (Action ScriptedChip) :=
  fruitless lower upper ++
    [.dispatch (.socket lower (.received ⟨2, 0, default, [1, 2]⟩)), .receive lower, .drop 0, .tick]

/-- The pool has one packet, and it is queued when the answer has come: the chip is paused. When the
application has dropped it, a tick asks the lower socket again, and the upper one, that wants data
all along, is passed over. -/
theorem receiving_rotates_exhausting :
    let s := (new ScriptedChip.new 1 .defaults).run (neighbours 7 8)
    let during := exhausting 7 8
    (∀ h, .close h ∉ during) ∧
    (∀ n ≤ during.length, (s.run (during.take n)).adapter.table.awaits 7 = true ∧
      (s.run (during.take n)).adapter.table.awaits 8 = true) ∧
    ∃ earlier e middle expected d,
      (s.run during).adapter.bus.journal = s.adapter.bus.journal ++
        (earlier ++ .request 7 1500 1 :: e :: (middle ++ [.request 7 1500 1])) ∧
      e.answer? = some (expected, d) ∧ expected.socket.handle = 7 ∧ d.outcome = .data 0 ∧
      ∀ e ∈ middle, ∀ room timeout answer, e ≠ .command (.receive 8 room timeout) answer := by
  intro s during
  refine ⟨by simp [during, exhausting, fruitless], by decide +kernel, ?_⟩
  let nothing : Delivery := ⟨Status.timeout.code, 0, default, []⟩
  let packet : Packet := ⟨[1, 2], 1500, some ⟨⟨0, 0, 0, 0⟩, 0⟩⟩
  refine ⟨[.handled (.socket 7 (.received nothing)) (some ⟨⟨7, 1⟩, 1500, []⟩), .request 8 1500 1,
      .handled (.socket 8 (.received nothing)) (some ⟨⟨8, 1⟩, 1500, []⟩)],
    .handled (.socket 7 (.received ⟨2, 0, default, [1, 2]⟩)) (some ⟨⟨7, 1⟩, 1500, []⟩),
    [.event (.readable 7 .data) true, .command (.flow true) (.accepted ()), .read ⟨7, 1⟩ packet,
      .command (.flow false) (.accepted ())],
    _, _, ?_, rfl, rfl, rfl, by simp⟩
  decide +kernel

end Session

end WifiAdapter
