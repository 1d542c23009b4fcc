import WifiAdapter.Session.Action

/-! Reading the journal.

An answer is a delivery that comes while the receive it belongs to is outstanding
(`Entry.answer?`). A history is often read from some point on: `Entry.since` gives
what came after the last entry of a kind. -/
namespace WifiAdapter

/-- Commands that neither move the data of a socket nor control its flow nor connect or close it. -/
def Command.Plain : Command → Prop
  | .receive .. | .send .. | .flow _ | .connect .. | .close _ => False
  | _ => True

/-- A delivery that brings no bytes and ends nothing. -/
def Delivery.Void (d : Delivery) : Prop := d.outcome = .noData

/-- The bytes that a delivery brings. -/
def Delivery.bytes (d : Delivery) : Bytes :=
  match d.outcome with
  | .data _ => d.payload
  | _ => []

/-- The stream is over, whether by its end or by a failure. -/
def Delivery.ends (d : Delivery) : Bool :=
  match d.outcome with
  | .closed | .failed _ => true
  | _ => false

theorem Delivery.bytes_of_data {d : Delivery} {remaining : Nat} (h : d.outcome = .data remaining) :
    d.bytes = d.payload := by
  unfold Delivery.bytes
  rw [h]

theorem Delivery.ends_of_data {d : Delivery} {remaining : Nat} (h : d.outcome = .data remaining) :
    d.ends = false := by
  unfold Delivery.ends
  rw [h]

theorem Delivery.ends_of_end {d : Delivery} {status : Status}
    (h : d.outcome = .closed ∧ status = .connectionAborted ∨ d.outcome = .failed status) :
    d.ends = true := by
  unfold Delivery.ends
  rcases h with ⟨h, _⟩ | h
  · rw [h]
  · rw [h]

theorem Delivery.bytes_of_ends {d : Delivery} (h : d.ends = true) : d.bytes = [] := by
  unfold Delivery.ends at h
  unfold Delivery.bytes
  split at h
  · next ho => rw [ho]
  · next ho => rw [ho]
  · cases h

theorem Delivery.Void.bytes {d : Delivery} (h : d.Void) : d.bytes = [] := by
  unfold Delivery.bytes
  rw [show d.outcome = .noData from h]

theorem Delivery.Void.ends {d : Delivery} (h : d.Void) : d.ends = false := by
  unfold Delivery.ends
  rw [show d.outcome = .noData from h]

namespace Entry

/-- The receive that is answered by a handled notification, with the answer. -/
def answer? : Entry → Option (Expectation × Delivery)
  | .handled (.socket h (.received d)) (some e) =>
    if e.socket.handle = h then some (e, d) else none
  | _ => none

theorem answer?_eq_some_iff {h : Handle} {d d' : Delivery} {x : Expectation}
    {expecting? : Option Expectation} :
    answer? (.handled (.socket h (.received d)) expecting?) = some (x, d') ↔
      expecting? = some x ∧ x.socket.handle = h ∧ d = d' := by
  cases expecting? with
  | none => simp [answer?]
  | some y =>
    by_cases hy : y.socket.handle = h
    · simp only [answer?, if_pos hy, Option.some.injEq, Prod.mk.injEq]
      exact ⟨fun ⟨hx, hd⟩ => ⟨hx, hx ▸ hy, hd⟩, fun ⟨hx, _, hd⟩ => ⟨hx, hd⟩⟩
    · simp only [answer?, if_neg hy, Option.some.injEq, reduceCtorEq, false_iff]
      rintro ⟨rfl, hx, _⟩
      exact hy hx

/-- A delivery for the socket that is asked. -/
theorem answer?_of_outstanding {x : RxState} {i : Incarnation} (h : x.outstanding? = some i)
    (d : Delivery) :
    answer? (.handled (.socket i.handle (.received d)) x.expecting?) =
      some (⟨i, x.room, x.held i⟩, d) := by
  refine answer?_eq_some_iff.mpr ⟨?_, rfl, rfl⟩
  unfold RxState.expecting?
  rw [h]
  rfl

/-- Entries of no account to receiving: nothing is asked for, brought, ended, handed
over or read, and no slot is taken into use. -/
def Quiet : Entry → Prop
  | .handled note expecting? =>
    ∀ x d, (Entry.handled note expecting?).answer? = some (x, d) → d.Void
  | .command (.receive ..) _ | .command (.flow _) _ => False
  | .event (.readable ..) _ => False
  | .read .. | .opened _ | .unexpected _ => False
  | _ => True

/-- What is no answer to a receive is of no account. -/
theorem quiet_handled {note : Notification} {expecting? : Option Expectation}
    (h : (Entry.handled note expecting?).answer? = none) : (Entry.handled note expecting?).Quiet := by
  intro x d hx
  rw [h] at hx
  cases hx

/-- What came after the last entry with a property; everything, if there is no such entry. -/
def since (p : Entry → Bool) (es : List Entry) : List Entry :=
  (es.reverse.takeWhile fun e => !p e).reverse

variable {p : Entry → Bool}

@[simp] theorem since_nil : since p [] = [] := rfl

theorem since_concat (es : List Entry) (e : Entry) :
    since p (es ++ [e]) = if p e then [] else since p es ++ [e] := by
  unfold since
  rw [List.reverse_append, List.reverse_singleton, List.singleton_append, List.takeWhile_cons]
  cases p e <;> simp

/-- Entries without the property only add to what came since. -/
theorem since_append {es more : List Entry} (h : ∀ e ∈ more, p e = false) :
    since p (es ++ more) = since p es ++ more := by
  induction more generalizing es with
  | nil => simp
  | cons e rest ih =>
    have he : p e = false := h e (List.mem_cons_self ..)
    rw [List.append_cons es e rest, ih fun x hx => h x (List.mem_cons_of_mem e hx), since_concat, he]
    simp

/-- Entries with a property were added, and then more of them. -/
theorem appended_trans {P : Entry → Prop} {es es' es'' : List Entry}
    (h : ∃ more, es' = es ++ more ∧ ∀ e ∈ more, P e)
    (h' : ∃ more, es'' = es' ++ more ∧ ∀ e ∈ more, P e) :
    ∃ more, es'' = es ++ more ∧ ∀ e ∈ more, P e := by
  obtain ⟨more, rfl, hmore⟩ := h
  obtain ⟨more', rfl, hmore'⟩ := h'
  refine ⟨more ++ more', List.append_assoc .., fun e hmem => ?_⟩
  rcases List.mem_append.mp hmem with hm | hm
  · exact hmore e hm
  · exact hmore' e hm

/-! ### The bytes of a socket -/

/-- The bytes that an answer to a socket brought, as far as they fit. -/
def arrival (i : Incarnation) (e : Entry) : Bytes :=
  match e.answer? with
  | some (x, d) => if x.socket = i then d.bytes.take x.room else []
  | none => []

/-- The bytes that were in flight for a socket when an answer ended its stream. -/
def ending? (i : Incarnation) (e : Entry) : Option Bytes :=
  match e.answer? with
  | some (x, d) => if x.socket = i ∧ d.ends = true then some x.held else none
  | none => none

/-- The bytes of a packet that the application took from a socket. -/
def reading (i : Incarnation) : Entry → Bytes
  | .read j packet => if j = i then packet.data else []
  | _ => []

/-- Whether a slot was taken into use. -/
def opens (h : Handle) : Entry → Bool
  | .opened i => i.handle == h
  | _ => false

/-- Nothing happens to the bytes of a socket. -/
structure Silent (i : Incarnation) (e : Entry) : Prop where
  arrival : e.arrival i = []
  ending : e.ending? i = none
  reading : e.reading i = []

section Answers
variable {e : Entry} {i : Incarnation} {room : Nat} {held : Bytes} {d : Delivery}
  (h : e.answer? = some (⟨i, room, held⟩, d))
include h

theorem arrival_answer : e.arrival i = d.bytes.take room := by
  unfold arrival
  rw [h]
  exact if_pos rfl

theorem ending?_answer : e.ending? i = if d.ends then some held else none := by
  unfold ending?
  rw [h]
  simp

/-- An answer is no packet that the application takes. -/
theorem reading_answer (j : Incarnation) : e.reading j = [] := by
  cases e with
  | handled => rfl
  | _ => cases h

theorem silent_answer {j : Incarnation} (hj : j ≠ i) : e.Silent j := by
  refine ⟨?_, ?_, reading_answer h j⟩
  · unfold arrival
    rw [h]
    exact if_neg hj.symm
  · unfold ending?
    rw [h]
    exact if_neg fun hi => hj hi.1.symm

end Answers

theorem silent_event (i : Incarnation) (event : Event) (told : Bool) :
    (Entry.event event told).Silent i := ⟨rfl, rfl, rfl⟩

theorem silent_command (i : Incarnation) (c : Command) (answer : Answer Unit) :
    (Entry.command c answer).Silent i := ⟨rfl, rfl, rfl⟩

theorem Quiet.silent {e : Entry} (he : e.Quiet) (i : Incarnation) : e.Silent i := by
  have hvoid : ∀ x d, e.answer? = some (x, d) → d.Void := by
    cases e with
    | handled note expecting? => exact he
    | _ => nofun
  refine ⟨?_, ?_, ?_⟩
  · unfold arrival
    split
    · next x d hx =>
      rw [(hvoid x d hx).bytes, List.take_nil, ite_self]
    · rfl
  · unfold ending?
    split
    · next x d hx =>
      rw [(hvoid x d hx).ends, if_neg (by simp)]
    · rfl
  · cases e <;> first | rfl | exact he.elim

theorem Quiet.opens {e : Entry} (he : e.Quiet) (h : Handle) : e.opens h = false := by
  cases e <;> first | rfl | exact he.elim

end Entry

/-- All bytes that answers brought to a socket, in order. -/
def arrived (i : Incarnation) (es : List Entry) : Bytes := es.flatMap (·.arrival i)

/-- All bytes that the application took from a socket, in order. -/
def readOut (i : Incarnation) (es : List Entry) : Bytes := es.flatMap (·.reading i)

/-- For every end of the stream of a socket, the bytes that were in flight then. -/
def endings (i : Incarnation) (es : List Entry) : List Bytes := es.filterMap (·.ending? i)

/-- What was entered since the slot was last taken into use. -/
def Bus.history {σ : Type} (b : Bus σ) (h : Handle) : List Entry := Entry.since (Entry.opens h) b.journal

theorem Bus.history_append {σ : Type} {a b : Bus σ} {h : Handle} {es : List Entry}
    (hjournal : b.journal = a.journal ++ es) (hopens : ∀ e ∈ es, e.opens h = false) :
    b.history h = a.history h ++ es := by
  unfold Bus.history
  rw [hjournal, Entry.since_append hopens]

/-! ### Taking turns -/

/-- `true` and `false` take turns, and `true` comes first. -/
def Alternates (l : List Bool) : Prop := ∀ i b, l[i]? = some b → b = decide (i % 2 = 0)

theorem alternates_nil : Alternates [] := nofun

/-- It is the turn of whichever was not last. -/
theorem Alternates.concat {l : List Bool} {b : Bool} (h : Alternates l) (hb : l.getLastD false = !b) :
    Alternates (l ++ [b]) := by
  have hturn : b = decide (l.length % 2 = 0) := by
    rcases List.eq_nil_or_concat l with rfl | ⟨before, last, rfl⟩
    · simpa using hb
    · rw [List.concat_eq_append] at h hb ⊢
      have hlast := h before.length last (by simp)
      rw [List.getLastD_concat] at hb
      rw [← Bool.not_not b, ← hb, hlast, List.length_append, List.length_singleton, ← decide_not]
      exact decide_eq_decide.mpr (by omega)
  intro i c hi
  rcases Nat.lt_or_ge i l.length with hlt | hge
  · rw [List.getElem?_append_left hlt] at hi
    exact h i c hi
  · rw [List.getElem?_append_right hge, List.getElem?_singleton] at hi
    split at hi
    · next hzero =>
      cases hi
      rw [hturn, show i = l.length by omega]
    · cases hi

end WifiAdapter
