import WifiAdapter.Proofs.Courses

/-! What a step may enter in the journal.

Some entries are made under certain conditions only: a socket is asked for data while it wants
data, its receive is answered where answers are allowed, it becomes readable by bytes that are its
own or by that answer, data of a stream goes out and progress is reported where it may be transmitted,
and what the application is told of the link and what the radio is told comes from the link
(`Adapter.MayEnter`). A step does one thing, so what it enters can be said of the adapter it starts
from (`Adapter.Step.enters`). -/
namespace WifiAdapter

/-- The socket has bytes in flight, or it is the one that is asked. -/
def RxState.Names (x : RxState) (h : Handle) : Prop :=
  ∃ i, (x.owner? = some i ∨ x.cursor? = some i) ∧ i.handle = h

namespace Adapter
variable {σ : Type}

/-- Entries that are made under certain conditions only are made under them. -/
def MayEnter (D : Deed → Prop) (a : Adapter σ) : Entry → Prop
  | .event (.link _) _ => D .link
  | .event (.readable h _) _ => a.rx.Names h
  | .event (.writable h _) _ => D (.connect h) ∨ D (.transmit h)
  | .command (.receive h _ _) _ => D .ask ∧ a.table.awaits h = true
  | .command (.send h _) _ => D (.transmit h)
  | .command c _ => c.Radio → D .link
  | .read i _ => D (.read i.handle)
  | .handled note expecting? =>
    (∀ x d, (Entry.handled note expecting?).answer? = some (x, d) → D (.answer x.socket.handle)) ∧
      ∀ h ∈ note.progress?, D (.transmit h)
  | _ => True

variable {D : Deed → Prop} {a b : Adapter σ}

/-- Nothing is entered that may not be. -/
def Enters (D : Deed → Prop) (a b : Adapter σ) : Prop :=
  ∃ es, b.bus.journal = a.bus.journal ++ es ∧ ∀ e ∈ es, a.MayEnter D e

theorem Enters.of_same (h : b.bus.journal = a.bus.journal) : Enters D a b :=
  ⟨[], h.trans (List.append_nil _).symm, List.forall_mem_nil _⟩

theorem Enters.snoc {c : Adapter σ} (hab : Enters D a b) {e : Entry}
    (h : c.bus.journal = b.bus.journal ++ [e]) (he : a.MayEnter D e) : Enters D a c := by
  obtain ⟨es, hjournal, hes⟩ := hab
  refine ⟨es ++ [e], by rw [h, hjournal, List.append_assoc], ?_⟩
  exact List.forall_mem_append.mpr ⟨hes, List.forall_mem_singleton.mpr he⟩

theorem Enters.single {e : Entry} (h : b.bus.journal = a.bus.journal ++ [e])
    (he : a.MayEnter D e) : Enters D a b :=
  .snoc (.of_same rfl) h he

variable [Chip σ]

theorem Chore.enters (hab : Chore D a b) : Enters D a b := by
  cases hab with
  | opening => exact .single rfl trivial
  | note hn hd hprogress => exact .single rfl ⟨fun x d hx => (nomatch hn.symm.trans hx), hprogress⟩
  | @command c hc hd =>
    refine .single rfl ?_
    cases c with
    | receive | send => cases hc
    | _ => exact hd
  | turnAway | connect => exact .single rfl nofun
  | transmit h data hd => exact .single rfl hd
  | complete => exact .single (journal_complete ..) trivial
  | writable h error? hd => exact .single (journal_announce ..) hd
  | linkEvent e hd => exact .single (journal_announce ..) hd
  | _ => exact .of_same rfl

omit [Chip σ] in
theorem Answered.enters {i : Incarnation} {d : Delivery} (hab : a.Answered i d b) (ha : a.Steady)
    (hout : a.rx.outstanding? = some i) (hanswer : D (.answer i.handle)) : Enters D a b := by
  have hcursor := RxState.cursor_of_outstanding hout
  have hentry : a.MayEnter D (.handled (.socket i.handle (.received d)) a.rx.expecting?) := by
    refine ⟨fun x d' hx => ?_, nofun⟩
    obtain ⟨-, hhandle, -⟩ := Entry.answer?_eq_some_iff.mp hx
    rw [hhandle]
    exact hanswer
  have hnoted : Enters D a (a.noted (.socket i.handle (.received d))) := .single rfl hentry
  have hreadable {read : ReadStatus} {told : Bool}
      (h : b.bus.journal = (a.noted (.socket i.handle (.received d))).bus.journal ++
        [.event (.readable i.handle read) told]) : Enters D a b :=
    hnoted.snoc (e := .event (.readable i.handle read) told) h ⟨i, .inr hcursor, rfl⟩
  cases hab with
  | noData | keep => exact .single rfl hentry
  | finish =>
    obtain ⟨told, h⟩ := journal_handOver
      ((a.noted (.socket i.handle (.received d))).onRx (·.part.withdraw)) i.handle _
    exact hreadable h
  | ended =>
    have hopen : ((a.noted (.socket i.handle (.received d))).onRx .withdraw).table.isOpen i.handle =
        true := ha.isOpen hout
    obtain ⟨told, h⟩ := journal_endStream _ hopen _ _
    exact hreadable h

theorem Move.enters (hab : Move D a b) (ha : a.Steady) : Enters D a b := by
  have hflow {es : List Entry} {on : Bool} (h : b.bus.journal = a.bus.journal ++ es)
      (hes : ∀ e ∈ es, ∃ answer, e = .command (.flow on) answer) : Enters D a b := by
    refine ⟨es, h, fun e he => ?_⟩
    obtain ⟨answer, rfl⟩ := hes e he
    exact nofun
  cases hab with
  | chore hab => exact hab.enters
  | @create kind h _ _ hd =>
    exact (Chore.opening a kind hd).enters.snoc rfl trivial
  | @register listener child r _ _ peer _ =>
    have hopened : Enters D a (a.occupied child (.accepted r.kind peer)) :=
      .single (e := .opened _) rfl trivial
    have htold := hopened.snoc (journal_announce _ (.newConnection listener child)) trivial
    rw [register_eq]
    dsimp only
    split
    · exact htold
    · exact htold.snoc rfl nofun
  | read h hd =>
    rcases a.receive_cases h with ⟨_, heq⟩ | ⟨_, _, _, _, _, _, heq⟩
    · rw [heq]
      exact .of_same rfl
    · rw [heq]
      exact .single rfl hd
  | resume =>
    obtain ⟨bus, es, heq, hjournal, hes⟩ := resumeFlow_eq a
    rw [heq] at hflow ⊢
    exact hflow hjournal hes
  | @lease packet pool =>
    obtain ⟨bus, es, heq, hjournal, hes⟩ := resumeFlow_eq
      ({ a with pool }.onRx fun x => { x with packet? := some packet })
    rw [heq] at hflow ⊢
    exact hflow hjournal hes
  | pause =>
    obtain ⟨bus, stats, es, heq, hjournal, hes⟩ := pauseFlow_eq a
    rw [heq] at hflow ⊢
    exact hflow hjournal hes
  | settle _ howner =>
    obtain ⟨told, h⟩ := journal_handOver (a.onRx .part) _ _
    exact .single h ⟨_, .inl howner, rfl⟩
  | ask _ hpacket hawaits _ hd =>
    rw [ask_eq a _ hpacket]
    dsimp only
    split <;> exact .single rfl ⟨hd, hawaits⟩
  | answer hout hd hab => exact hab.enters ha hout hd

theorem Step.enters {site? : Option Handle} (hab : Step D site? a b) (ha : a.Steady) :
    Enters D a b := by
  cases hab with
  | move hab => exact hab.enters ha
  | @close h _ _ =>
    cases hr : a.table.get? h with
    | none =>
      rw [close_none a h hr]
      exact .of_same rfl
    | some r =>
      obtain ⟨answer, hjournal⟩ := journal_close a hr
      exact .single hjournal nofun
  | call _ hcall =>
    cases hcall with
    | park | take => exact .single rfl trivial
    | _ => exact .of_same rfl

end Adapter

end WifiAdapter
