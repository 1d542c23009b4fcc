import WifiAdapter.Proofs.Journal

/-! What a parked caller hears.

Two kinds of entries post a status for a socket: the end of a bind or a listen, and an
answer that ends the stream (`Entry.posted?`). The cell for completions holds one status,
so of several only the last is left when the caller comes to take it (`heard`). -/
namespace WifiAdapter

/-- The status with which a delivery that ends the stream wakes whoever waits. -/
def Delivery.verdict? (d : Delivery) : Option Status :=
  match d.outcome with
  | .closed => some .connectionAborted
  | .failed status => some status
  | _ => none

theorem Delivery.Void.verdict? {d : Delivery} (h : d.Void) : d.verdict? = none := by
  unfold Delivery.verdict?
  rw [show d.outcome = .noData from h]

theorem Delivery.verdict?_of_end {d : Delivery} {status : Status}
    (h : d.outcome = .closed ∧ status = .connectionAborted ∨ d.outcome = .failed status) :
    d.verdict? = some status := by
  unfold Delivery.verdict?
  rcases h with ⟨h, rfl⟩ | h
  · rw [h]
  · rw [h]

theorem Delivery.ends_of_verdict? {d : Delivery} {status : Status}
    (h : d.verdict? = some status) : d.ends = true := by
  unfold Delivery.verdict? at h
  unfold Delivery.ends
  cases ho : d.outcome with
  | closed | failed => rfl
  | _ =>
    rw [ho] at h
    cases h

theorem Delivery.verdict?_of_data {d : Delivery} {remaining : Nat}
    (h : d.outcome = .data remaining) : d.verdict? = none := by
  unfold Delivery.verdict?
  rw [h]

namespace Entry

/-- The status that is posted for a socket. -/
def posted? (i : Incarnation) : Entry → Option Status
  | .completed j _ status => if j = i then some status else none
  | e =>
    match e.answer? with
    | some (x, d) => if x.socket = i then d.verdict? else none
    | none => none

/-- The operation that came to its end on a socket, with its status. -/
def outcome? (i : Incarnation) : Entry → Option (Purpose × Status)
  | .completed j purpose status => if j = i then some (purpose, status) else none
  | _ => none

/-- A caller takes what is posted for a socket. -/
def takes (i : Incarnation) : Entry → Bool
  | .taken j _ => j == i
  | _ => false

/-- A caller begins to wait on a socket. -/
def parks (i : Incarnation) : Entry → Bool
  | .parked j => j == i
  | _ => false

/-- Nothing that concerns whoever waits on a socket. -/
structure Mute (i : Incarnation) (e : Entry) : Prop where
  posted : e.posted? i = none
  outcome : e.outcome? i = none
  takes : e.takes i = false
  parks : e.parks i = false

theorem mute_event (i : Incarnation) (event : Event) (told : Bool) :
    (Entry.event event told).Mute i := ⟨rfl, rfl, rfl, rfl⟩

theorem mute_command (i : Incarnation) (c : Command) (answer : Answer Unit) :
    (Entry.command c answer).Mute i := ⟨rfl, rfl, rfl, rfl⟩

theorem Mute.singleton {i : Incarnation} {e : Entry} (h : e.Mute i) : ∀ x ∈ [e], x.Mute i := by
  simpa using h

/-- A notification that does not end the stream of a socket. -/
theorem mute_handled {i : Incarnation} {note : Notification} {expecting? : Option Expectation}
    (h : ∀ x d, (Entry.handled note expecting?).answer? = some (x, d) → x.socket = i →
      d.verdict? = none) : (Entry.handled note expecting?).Mute i where
  posted := by
    show (match (Entry.handled note expecting?).answer? with | some (x, d) => _ | none => _) = _
    cases hanswer : (Entry.handled note expecting?).answer? with
    | none => rfl
    | some answer =>
      obtain ⟨x, d⟩ := answer
      show (if x.socket = i then d.verdict? else none) = none
      by_cases hi : x.socket = i
      · rw [if_pos hi, h x d hanswer hi]
      · rw [if_neg hi]
  outcome := rfl
  takes := rfl
  parks := rfl

/-- The end of the stream of a socket is posted for it. -/
theorem posted?_handled {i : Incarnation} {note : Notification} {expecting? : Option Expectation}
    {room : Nat} {held : Bytes} {d : Delivery}
    (h : (Entry.handled note expecting?).answer? = some (⟨i, room, held⟩, d)) :
    (Entry.handled note expecting?).posted? i = d.verdict? := by
  show (match (Entry.handled note expecting?).answer? with | some (x, d) => _ | none => _) = _
  rw [h]
  exact if_pos rfl

theorem posted?_completed (i : Incarnation) (p : Purpose) (status : Status) :
    (Entry.completed i p status).posted? i = some status := if_pos rfl

theorem mem_of_outcome? {i : Incarnation} {e : Entry} {p : Purpose} {status : Status}
    (h : e.outcome? i = some (p, status)) : e = .completed i p status := by
  cases e with
  | completed j q t =>
    by_cases hj : j = i
    · subst hj
      cases (if_pos rfl).symm.trans h
      rfl
    · cases (if_neg hj).symm.trans h
  | _ => cases h

/-- What posts a status for a socket: the end of an operation, or an answer that ends its stream. -/
theorem source_of_posted? {i : Incarnation} {e : Entry} {status : Status}
    (h : e.posted? i = some status) :
    (∃ p, e = .completed i p status) ∨
      ∃ x d, e.answer? = some (x, d) ∧ x.socket = i ∧ d.verdict? = some status := by
  have hanswered (h : (match e.answer? with
      | some (x, d) => if x.socket = i then d.verdict? else none
      | none => none) = some status) :
      ∃ x d, e.answer? = some (x, d) ∧ x.socket = i ∧ d.verdict? = some status := by
    cases hanswer : e.answer? with
    | none =>
      rw [hanswer] at h
      cases h
    | some answer =>
      obtain ⟨x, d⟩ := answer
      rw [hanswer] at h
      dsimp only at h
      by_cases hi : x.socket = i
      · rw [if_pos hi] at h
        exact ⟨x, d, rfl, hi, h⟩
      · rw [if_neg hi] at h
        cases h
  cases e with
  | completed j p t =>
    by_cases hj : j = i
    · subst hj
      cases (if_pos rfl).symm.trans h
      exact .inl ⟨p, rfl⟩
    · cases (if_neg hj).symm.trans h
  | _ => exact .inr (hanswered h)

/-- What is posted for a socket is the end of an operation or of its stream. -/
theorem posted?_cases {i : Incarnation} {e : Entry} {status : Status}
    (h : e.posted? i = some status) :
    (∃ p, e = .completed i p status) ∨ (e.ending? i).isSome = true := by
  rcases source_of_posted? h with hcompleted | ⟨x, d, hanswer, hi, hverdict⟩
  · exact .inl hcompleted
  · refine .inr ?_
    unfold ending?
    rw [hanswer]
    dsimp only
    rw [if_pos ⟨hi, Delivery.ends_of_verdict? hverdict⟩]
    rfl

end Entry

/-- The status posted last. -/
def lastPosted (i : Incarnation) (es : List Entry) : Option Status :=
  (es.filterMap (·.posted? i)).getLast?

/-- What a caller hears: the status posted last before it took one. -/
def heard (i : Incarnation) (es : List Entry) : Option Status :=
  lastPosted i (es.takeWhile fun e => !e.takes i)

/-- The operations that came to their end on a socket. -/
def outcomes (i : Incarnation) (es : List Entry) : List (Purpose × Status) :=
  es.filterMap (·.outcome? i)

/-- What was entered since the latest caller began to wait on a socket. -/
def Bus.vigil {σ : Type} (b : Bus σ) (i : Incarnation) : List Entry :=
  Entry.since (Entry.parks i) b.journal

section Hearing
variable {i : Incarnation} {es more : List Entry}

theorem lastPosted_append :
    lastPosted i (es ++ more) = (lastPosted i more).or (lastPosted i es) := by
  unfold lastPosted
  rw [List.filterMap_append, List.getLast?_append]

theorem lastPosted_mute (h : ∀ e ∈ more, e.Mute i) : lastPosted i more = none := by
  unfold lastPosted
  rw [List.filterMap_eq_nil_iff.mpr fun e he => (h e he).posted]
  rfl

theorem outcomes_append : outcomes i (es ++ more) = outcomes i es ++ outcomes i more :=
  List.filterMap_append

theorem outcomes_mute (h : ∀ e ∈ more, e.Mute i) : outcomes i more = [] :=
  List.filterMap_eq_nil_iff.mpr fun e he => (h e he).outcome

/-- Up to where nothing was taken everything is heard. -/
theorem heard_append (h : ∀ e ∈ es, e.takes i = false) (more : List Entry) :
    heard i (es ++ more) = lastPosted i (es ++ more.takeWhile fun e => !e.takes i) := by
  unfold heard
  rw [List.takeWhile_append_of_pos fun e he => by rw [h e he]; rfl]

theorem heard_of_untaken (h : ∀ e ∈ es, e.takes i = false) : heard i es = lastPosted i es := by
  have happend := heard_append h []
  rwa [List.append_nil, List.takeWhile_nil, List.append_nil] at happend

theorem heard_take (h : ∀ e ∈ es, e.takes i = false) (status : Status) :
    heard i (es ++ [.taken i status]) = lastPosted i es := by
  have htakes : (!(Entry.taken i status).takes i) = false := by simp [Entry.takes]
  rw [heard_append h, List.takeWhile_cons, htakes]
  simp

/-- What comes after something was taken is not heard. -/
theorem heard_append_of_taken (h : ∃ e ∈ es, e.takes i = true) :
    heard i (es ++ more) = heard i es := by
  unfold heard
  congr 1
  induction es with
  | nil => simp at h
  | cons e rest ih =>
    rw [List.cons_append, List.takeWhile_cons, List.takeWhile_cons]
    by_cases he : e.takes i = true
    · simp [he]
    · rw [if_pos (by simpa using he), if_pos (by simpa using he), ih]
      simpa [he] using h

theorem mem_outcomes_iff {p : Purpose} {status : Status} :
    (p, status) ∈ outcomes i es ↔ .completed i p status ∈ es := by
  unfold outcomes
  rw [List.mem_filterMap]
  constructor
  · rintro ⟨e, he, houtcome⟩
    exact Entry.mem_of_outcome? houtcome ▸ he
  · exact fun h => ⟨_, h, if_pos rfl⟩

/-- What is heard was posted. -/
theorem exists_posted_of_heard {status : Status} (h : heard i es = some status) :
    ∃ e ∈ es, e.posted? i = some status := by
  obtain ⟨e, he, hposted⟩ := List.mem_filterMap.mp (List.mem_of_getLast? h)
  exact ⟨e, (List.takeWhile_sublist _).subset he, hposted⟩

theorem lastPosted_isSome {e : Entry} {status : Status} (he : e ∈ es)
    (hposted : e.posted? i = some status) : (lastPosted i es).isSome = true := by
  have hmem := List.mem_filterMap.mpr ⟨e, he, hposted⟩
  unfold lastPosted
  rw [List.getLast?_isSome]
  exact List.ne_nil_of_mem hmem

end Hearing

end WifiAdapter
