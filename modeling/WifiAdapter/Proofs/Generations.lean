import WifiAdapter.Proofs.Receiving
import WifiAdapter.ScriptedChip

/-! The generation of a slot names its occupant.

Of all that is done to the table (`SocketTable.Change`) only a new socket and an accepted connection
open a slot, and only one that is free (`SocketTable.Turns`); the generation counts how often
(`SocketTable.generation_changed`). So an occupancy that was seen is the present one just if its
slot is open and has been opened a multiple of 2³² times since
(`SocketTable.isCurrent_changed_iff`): all the time until the slot is freed, and then not before the
counter has gone all the way round (`SocketTable.generation_names_occupant`). -/
namespace WifiAdapter.SocketTable

/-- What is done to a table: the chip, in some state, is asked for a socket, an accepted connection
is registered, a slot is freed, or the record of an open socket changes. -/
inductive Change (σ : Type) where
  | allocate (bus : Bus σ) (kind : SocketKind)
  | adopt (h : Handle) (kind : SocketKind) (peer : Endpoint)
  | release (pool : Pool) (h : Handle)
  | modify (h : Handle) (f : SocketRecord → SocketRecord)

/-- The slot is freed, or was free. -/
def Change.Frees {σ : Type} (h : Handle) : Change σ → Prop
  | .release _ k => k = h
  | _ => False

variable {σ : Type} [Chip σ]

/-- The table after a change. One that fails leaves it as it was. -/
def change (t : SocketTable) : Change σ → SocketTable
  | .allocate bus kind => (t.allocate bus kind).2.1
  | .adopt h kind peer =>
    match t.adopt h kind peer with
    | .ok adopted => adopted
    | .error _ => t
  | .release pool h => (t.release pool h).2.1
  | .modify h f => t.modify h f

/-- The slot that a change opens. -/
def opening? (t : SocketTable) : Change σ → Option Handle
  | .allocate bus kind => (t.allocate bus kind).1.toOption
  | .adopt h kind peer => (t.adopt h kind peer).toOption.map fun _ => h
  | _ => none

/-- The table after changes one after the other. -/
def changed (t : SocketTable) : List (Change σ) → SocketTable
  | [] => t
  | c :: rest => (t.change c).changed rest

/-- How often the changes open a slot. -/
def openings (h : Handle) (t : SocketTable) : List (Change σ) → Nat
  | [] => 0
  | c :: rest => (if t.opening? c = some h then 1 else 0) + openings h (t.change c) rest

/-! ### One change -/

theorem allocate_eq (t : SocketTable) (bus : Bus σ) (kind : SocketKind) :
    t.allocate bus kind =
      match (bus.openSocket kind).1 with
      | .refused _ => (.error .outOfResources, t, (bus.openSocket kind).2)
      | .accepted h =>
        if t.isOpen h then (.error .outOfResources, t, (bus.openSocket kind).2)
        else (.ok h, t.occupy h (.new kind), (bus.openSocket kind).2) := by
  unfold allocate
  generalize bus.openSocket kind = answered
  obtain ⟨_ | _, _⟩ := answered <;> rfl

/-- Whether a socket can be allocated is up to the chip and to the slot it names. -/
theorem allocate_fails_iff (t : SocketTable) (bus : Bus σ) (kind : SocketKind) :
    (∃ error, (t.allocate bus kind).1 = .error error) ↔
      (∃ status, (bus.openSocket kind).1 = .refused status) ∨
        ∃ h, (bus.openSocket kind).1 = .accepted h ∧ t.isOpen h = true := by
  rw [allocate_eq]
  cases (bus.openSocket kind).1 with
  | refused status => simp
  | accepted h => cases ho : t.isOpen h <;> simp [ho]

theorem allocate_fails (t : SocketTable) (bus : Bus σ) (kind : SocketKind) {error : SocketError}
    (hfail : (t.allocate bus kind).1 = .error error) : (t.allocate bus kind).2.1 = t := by
  rw [allocate_eq] at hfail ⊢
  cases hanswer : (bus.openSocket kind).1 with
  | refused status => rfl
  | accepted h =>
    rw [hanswer] at hfail
    dsimp only at hfail ⊢
    split at hfail
    · next ho => rw [if_pos ho]
    · cases hfail

omit [Chip σ] in
theorem adopt_fails_iff (t : SocketTable) (h : Handle) (kind : SocketKind) (peer : Endpoint) :
    (∃ error, t.adopt h kind peer = .error error) ↔ t.isOpen h = true := by
  unfold adopt
  cases ho : t.isOpen h <;> simp

/-- What a change makes of a table: it opens a free slot, frees one, or leaves all slots open or
free as they were. -/
inductive Turns (t : SocketTable) (c : Change σ) : SocketTable → Prop where
  | opens {h : Handle} (hopening : t.opening? c = some h) (hfree : t.isOpen h = false)
      (hfrees : ∀ k, ¬ c.Frees k) (r : SocketRecord) : Turns t c (t.occupy h r)
  | frees {pool : Pool} {h : Handle} (hopening : t.opening? c = none)
      (hfrees : ∀ k, c.Frees k ↔ h = k) : Turns t c (t.release pool h).2.1
  | keeps {t' : SocketTable} (hopening : t.opening? c = none) (hfrees : ∀ k, ¬ c.Frees k)
      (hopen : ∀ k, t'.isOpen k = t.isOpen k)
      (hgeneration : ∀ k, t'.generation k = t.generation k) : Turns t c t'

theorem turns_change (t : SocketTable) (c : Change σ) : Turns t c (t.change c) := by
  have hsame (hopening : t.opening? c = none) (hfrees : ∀ k, ¬ c.Frees k) : Turns t c t :=
    .keeps hopening hfrees (fun _ => rfl) fun _ => rfl
  cases c with
  | allocate bus kind =>
    show Turns t _ (t.allocate bus kind).2.1
    have hallocate := t.allocate_eq bus kind
    cases hanswer : (bus.openSocket kind).1 with
    | refused status =>
      rw [hanswer] at hallocate
      rw [hallocate]
      exact hsame (by rw [opening?, hallocate]; rfl) (fun _ => id)
    | accepted h =>
      rw [hanswer] at hallocate
      dsimp only at hallocate
      cases ho : t.isOpen h with
      | true =>
        rw [if_pos ho] at hallocate
        rw [hallocate]
        exact hsame (by rw [opening?, hallocate]; rfl) (fun _ => id)
      | false =>
        rw [ho, if_neg Bool.false_ne_true] at hallocate
        rw [hallocate]
        exact .opens (by rw [opening?, hallocate]; rfl) ho (fun _ => id) _
  | adopt h kind peer =>
    cases ho : t.isOpen h with
    | true =>
      have hadopt : t.adopt h kind peer = .error .addressInUse := if_pos ho
      have hchange : t.change (.adopt h kind peer : Change σ) = t := by rw [change, hadopt]
      rw [hchange]
      exact hsame (by rw [opening?, hadopt]; rfl) (fun _ => id)
    | false =>
      have hadopt : t.adopt h kind peer = .ok (t.occupy h (.accepted kind peer)) :=
        if_neg (by rw [ho]; exact Bool.false_ne_true)
      have hchange : t.change (.adopt h kind peer : Change σ) =
          t.occupy h (.accepted kind peer) := by rw [change, hadopt]
      rw [hchange]
      exact .opens (by rw [opening?, hadopt]; rfl) ho (fun _ => id) _
  | release pool h => exact .frees rfl fun k => Iff.rfl
  | modify h f => exact .keeps rfl (fun _ => id) (t.isOpen_modify h · f) (t.generation_modify h · f)

section Change
variable (t : SocketTable) (c : Change σ) (h : Handle)

/-- Only a free slot is opened. -/
theorem free_of_opening (hopening : t.opening? c = some h) : t.isOpen h = false := by
  have hturns := t.turns_change c
  generalize t.change c = t' at hturns
  cases hturns with
  | opens hopening' hfree =>
    cases hopening.symm.trans hopening'
    exact hfree
  | frees hnone | keeps hnone => cases hopening.symm.trans hnone

theorem isOpen_change : (t.change c).isOpen h = true ↔
    t.opening? c = some h ∨ t.isOpen h = true ∧ ¬ c.Frees h := by
  have hturns := t.turns_change c
  generalize t.change c = t' at hturns ⊢
  cases hturns with
  | @opens k hopening hfree hfrees r =>
    rw [isOpen_occupy, hopening, Option.some.injEq]
    split <;> simp_all
  | @frees pool k hopening hfrees =>
    rw [isOpen_release, hopening, hfrees h]
    split <;> simp_all
  | keeps hopening hfrees hopen => simp [hopen, hopening, hfrees h]

/-- The generation counts the openings. -/
theorem generation_change : (t.change c).generation h =
    t.generation h + UInt32.ofNat (if t.opening? c = some h then 1 else 0) := by
  have hturns := t.turns_change c
  generalize t.change c = t' at hturns ⊢
  cases hturns with
  | @opens k hopening _ _ r =>
    rw [generation_occupy, hopening]
    split <;> simp_all
  | frees hopening => simp [hopening]
  | keeps hopening _ _ hgeneration => simp [hopening, hgeneration]

end Change

/-! ### Changes in a row -/

section Changed
variable {t : SocketTable} {h : Handle} {cs : List (Change σ)}

theorem changed_append (t : SocketTable) (cs more : List (Change σ)) :
    t.changed (cs ++ more) = (t.changed cs).changed more := by
  induction cs generalizing t with
  | nil => rfl
  | cons c rest ih => exact ih _

theorem openings_append (h : Handle) (t : SocketTable) (cs more : List (Change σ)) :
    t.openings h (cs ++ more) = t.openings h cs + (t.changed cs).openings h more := by
  induction cs generalizing t with
  | nil => exact (Nat.zero_add _).symm
  | cons c rest ih => simp only [List.cons_append, openings, changed, ih, Nat.add_assoc]

theorem generation_changed (t : SocketTable) (h : Handle) (cs : List (Change σ)) :
    (t.changed cs).generation h = t.generation h + UInt32.ofNat (t.openings h cs) := by
  induction cs generalizing t with
  | nil => exact (UInt32.add_zero _).symm
  | cons c rest ih =>
    rw [changed, ih, generation_change, openings, UInt32.ofNat_add, UInt32.add_assoc]

/-- Without an opening, a slot is open just if it was and was never freed. -/
theorem isOpen_changed (hnone : t.openings h cs = 0) : (t.changed cs).isOpen h = true ↔
    t.isOpen h = true ∧ ∀ c ∈ cs, ¬ c.Frees h := by
  induction cs generalizing t with
  | nil => simp [changed]
  | cons c rest ih =>
    rw [openings] at hnone
    have hopening : t.opening? c ≠ some h := fun hopening => by
      rw [if_pos hopening] at hnone
      omega
    rw [changed, ih (by omega), isOpen_change, List.forall_mem_cons, or_iff_right hopening,
      and_assoc]

/-- An open slot is not opened until it has been freed. -/
theorem openings_eq_zero (hopen : t.isOpen h = true) (hkept : ∀ c ∈ cs, ¬ c.Frees h) :
    t.openings h cs = 0 := by
  induction cs generalizing t with
  | nil => rfl
  | cons c rest ih =>
    obtain ⟨hc, hrest⟩ := List.forall_mem_cons.mp hkept
    have hopening : t.opening? c ≠ some h := fun hopening => by
      cases hopen.symm.trans (t.free_of_opening c h hopening)
    rw [openings, if_neg hopening, ih ((t.isOpen_change c h).mpr (.inr ⟨hopen, hc⟩)) hrest]

/-- An occupancy is the present one again when the counter has gone round, and the slot is open. -/
theorem isCurrent_changed_iff (t : SocketTable) (h : Handle) (cs : List (Change σ)) :
    (t.changed cs).isCurrent (t.incarnation h) = true ↔
      (t.changed cs).isOpen h = true ∧ UInt32.size ∣ t.openings h cs := by
  rw [isCurrent_iff]
  refine and_congr_right' ?_
  show (t.changed cs).generation h = t.generation h ↔ _
  rw [generation_changed, UInt32.add_eq_left, ← UInt32.toNat_inj, UInt32.toNat_ofNat',
    UInt32.toNat_zero, Nat.dvd_iff_mod_eq_zero]

end Changed

/-- **A generation names one occupancy.** Read while the slot is open, it is current as long as the
slot is not freed, whatever else happens, and never again before the slot has been opened 2³² times
more, by whichever operation; each time the counter has gone round, and then only, an open slot is
taken for what it was. A socket is not allocated if the chip refuses or names an open slot, a
connection is not registered on an open slot, and either way the table is what it was. -/
theorem generation_names_occupant (t : SocketTable) {h : Handle} (hopen : t.isOpen h = true) :
    (∀ cs : List (Change σ), (∀ c ∈ cs, ¬ c.Frees h) →
      (t.changed cs).isCurrent (t.incarnation h) = true) ∧
    (∀ cs : List (Change σ), (∃ c ∈ cs, c.Frees h) → t.openings h cs < UInt32.size →
      (t.changed cs).isCurrent (t.incarnation h) = false) ∧
    (∀ (cs : List (Change σ)) (c : Change σ), (t.changed cs).opening? c = some h →
      t.openings h (cs ++ [c]) < UInt32.size →
      (t.changed (cs ++ [c])).isOpen h = true ∧
        (t.changed (cs ++ [c])).isCurrent (t.incarnation h) = false) ∧
    (∀ cs : List (Change σ), (t.changed cs).isCurrent (t.incarnation h) = true ↔
      (t.changed cs).isOpen h = true ∧ UInt32.size ∣ t.openings h cs) ∧
    (∀ (u : SocketTable) (bus : Bus σ) (kind : SocketKind),
      ((∃ error, (u.allocate bus kind).1 = .error error) ↔
        (∃ status, (bus.openSocket kind).1 = .refused status) ∨
          ∃ k, (bus.openSocket kind).1 = .accepted k ∧ u.isOpen k = true) ∧
      ∀ error, (u.allocate bus kind).1 = .error error → (u.allocate bus kind).2.1 = u) ∧
    ∀ (u : SocketTable) (k : Handle) (kind : SocketKind) (peer : Endpoint),
      ((∃ error, u.adopt k kind peer = .error error) ↔ u.isOpen k = true) ∧
      ∀ error, u.adopt k kind peer = .error error →
        u.change (.adopt k kind peer : Change σ) = u := by
  have hcurrent := isCurrent_changed_iff (σ := σ) t h
  -- Below 2³² openings the counter is back only if there was none.
  have hstale {cs : List (Change σ)} (hfew : t.openings h cs < UInt32.size)
      (hchanged : ¬ (t.openings h cs = 0 ∧ (t.changed cs).isOpen h = true)) :
      (t.changed cs).isCurrent (t.incarnation h) = false := by
    rw [Bool.eq_false_iff, ne_eq, hcurrent]
    rintro ⟨hopen', hround⟩
    exact hchanged ⟨Nat.eq_zero_of_dvd_of_lt hround hfew, hopen'⟩
  refine ⟨fun cs hkept => ?_, fun cs ⟨c, hc, hfrees⟩ hfew => ?_, fun cs c hopening hfew => ⟨?_, ?_⟩,
    hcurrent, fun u bus kind => ⟨u.allocate_fails_iff bus kind, fun _ => u.allocate_fails bus kind⟩,
    fun u k kind peer => ⟨u.adopt_fails_iff k kind peer, fun error hfail => by rw [change, hfail]⟩⟩
  · have hnone := openings_eq_zero hopen hkept
    exact (hcurrent cs).mpr ⟨(isOpen_changed hnone).mpr ⟨hopen, hkept⟩, hnone ▸ Nat.dvd_zero _⟩
  · refine hstale hfew fun ⟨hnone, hopen'⟩ => ?_
    exact ((isOpen_changed hnone).mp hopen').2 c hc hfrees
  · rw [changed_append]
    exact ((t.changed cs).isOpen_change c h).mpr (.inl hopening)
  · refine hstale hfew fun ⟨hnone, _⟩ => ?_
    rw [openings_append, openings, if_pos hopening] at hnone
    omega

/-- A connection is closed and another one accepted on its slot. -/
theorem generation_names_occupant_reopened :
    let peer : Endpoint := ⟨⟨10, 0, 0, 2⟩, 4000⟩
    let accepting : Change ScriptedChip := .adopt 2 .stream peer
    let t := SocketTable.empty.change accepting
    let reopening := [.release ⟨1⟩ 2] ++ [accepting]
    t.isOpen 2 = true ∧ t.openings 2 reopening = 1 ∧
      (t.changed reopening).isOpen 2 = true ∧
      (t.changed reopening).isCurrent (t.incarnation 2) = false := by
  intro peer accepting t reopening
  have hopen : t.isOpen 2 = true := by decide +kernel
  have honce : t.openings 2 reopening = 1 := by decide +kernel
  obtain ⟨-, -, hreopened, -⟩ := t.generation_names_occupant (σ := ScriptedChip) hopen
  exact ⟨hopen, honce, hreopened _ _ (by decide +kernel) (by rw [honce]; decide)⟩

end WifiAdapter.SocketTable
