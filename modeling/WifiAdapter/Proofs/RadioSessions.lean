import WifiAdapter.Proofs.Joining

/-! The sessions of the radio.

A session begins with an `init` that the radio took and ends with the next `deinit`; all other
commands belong inside. One action of a settled link stays inside a session, or outside of any,
or it opens one, or it closes the one that is open (`Station.Passage`); of the moves that settle
the link only the last can do either.

`radio_in_sessions`: over any radio and after any history of actions, the commands to the radio
are a row of sessions, of which at most the last is still open. Sessions are opened by `start`
alone, and a session is closed with or without a `disassociate` by whether the link was on a
network or on the way onto one. -/
namespace WifiAdapter

/-- Commands that belong inside a session, whether it ends or goes on. -/
def Command.Inner : Command → Prop
  | .scanRegion _ | .scan | .scanResult _ | .associate .. => True
  | _ => False

/-- Such a command, with whatever the radio answered. -/
def Entry.Inner : Entry → Prop
  | .command c _ => c.Inner
  | _ => False

/-- Traffic that is a row of sessions, by whether one is open before it and after it. -/
inductive RadioSessions : Bool → Bool → List Entry → Prop where
  | nil (up : Bool) : RadioSessions up up []
  /-- The radio does not come up. -/
  | refused {up : Bool} {status : Status} {rest : List Entry} (h : RadioSessions false up rest) :
      RadioSessions false up (.command .init (.refused status) :: rest)
  | opens {up : Bool} {rest : List Entry} (h : RadioSessions true up rest) :
      RadioSessions false up (.command .init (.accepted ()) :: rest)
  | inner {up : Bool} {e : Entry} {rest : List Entry} (he : e.Inner)
      (h : RadioSessions true up rest) : RadioSessions true up (e :: rest)
  | leaves {up : Bool} {left lowered : Answer Unit} {rest : List Entry}
      (h : RadioSessions false up rest) :
      RadioSessions true up (.command .disassociate left :: .command .deinit lowered :: rest)
  | closes {up : Bool} {lowered : Answer Unit} {rest : List Entry}
      (h : RadioSessions false up rest) : RadioSessions true up (.command .deinit lowered :: rest)

section Traffic
variable {up up' up'' : Bool} {es more : List Entry}

theorem RadioSessions.append (h : RadioSessions up up' es) (h' : RadioSessions up' up'' more) :
    RadioSessions up up'' (es ++ more) := by
  induction h with
  | nil => exact h'
  | refused _ ih => exact .refused (ih h')
  | opens _ ih => exact .opens (ih h')
  | inner he _ ih => exact .inner he (ih h')
  | leaves _ ih => exact .leaves (ih h')
  | closes _ ih => exact .closes (ih h')

/-- Commands inside a session leave it open. -/
theorem radioSessions_inner (hes : ∀ e ∈ es, e.Inner) : RadioSessions true true es := by
  induction es with
  | nil => exact .nil true
  | cons e rest ih =>
    exact .inner (hes e List.mem_cons_self) (ih fun x hx => hes x (List.mem_cons_of_mem _ hx))

end Traffic

namespace Link

/-- The radio is up. -/
def up (l : Link) : Bool := l.state != .stopped

theorem up_iff (l : Link) : l.up = true ↔ l.state ≠ .stopped := by simp [up]

theorem Ready.up {l : Link} (h : l.Ready) : l.state ≠ .stopped := by
  rcases h with h | h <;> simp [h]

/-- How a session is closed from where the link is. -/
def closing (l : Link) (left lowered : Answer Unit) : List Entry :=
  if l.Associated then [.command .disassociate left, .command .deinit lowered]
  else [.command .deinit lowered]

section Closing
variable (l : Link) (left lowered : Answer Unit)

theorem closing_of_associated (h : l.Associated) :
    l.closing left lowered = [.command .disassociate left, .command .deinit lowered] := if_pos h

theorem closing_of_apart (h : ¬ l.Associated) :
    l.closing left lowered = [.command .deinit lowered] := if_neg h

theorem radioSessions_closing : RadioSessions true false (l.closing left lowered) := by
  unfold closing
  split
  · exact .leaves (.nil false)
  · exact .closes (.nil false)

end Closing

end Link

namespace Station

/-- What an action does to the sessions on its way from one link to another, with its traffic. As
long as the link has not settled it is still where the action found it. -/
inductive Passage (l l' : Link) : List Entry → Prop where
  | within {es : List Entry} (hes : ∀ e ∈ es, e.Inner) (open? : es = [] ∨ l.up = true)
      (kept : l'.up = l.up) (still : ¬ l'.Settled → l'.state = l.state) : Passage l l' es
  | opens (down : l.state = .stopped) (up : l'.state ≠ .stopped) (settled : l'.Settled) :
      Passage l l' [.command .init (.accepted ())]
  | refused {status : Status} (down : l.state = .stopped) (down' : l'.state = .stopped)
      (settled : l'.Settled) : Passage l l' [.command .init (.refused status)]
  | closes {es : List Entry} (hes : ∀ e ∈ es, e.Inner) (left lowered : Answer Unit)
      (up : l.state ≠ .stopped) (down : l'.state = .stopped) (settled : l'.Settled) :
      Passage l l' (es ++ l.closing left lowered)

section Passage
variable {l l' l'' : Link} {es : List Entry} {now : Nat}

theorem Passage.sessions (h : Passage l l' es) : RadioSessions l.up l'.up es := by
  cases h with
  | within hes hopen kept =>
    rw [kept]
    rcases hopen with rfl | hup
    · exact .nil _
    · rw [hup]
      exact radioSessions_inner hes
  | opens down up =>
    rw [show l.up = false by simp [Link.up, down], l'.up_iff.mpr up]
    exact .opens (.nil true)
  | refused down down' =>
    rw [show l.up = false by simp [Link.up, down], show l'.up = false by simp [Link.up, down']]
    exact .refused (.nil false)
  | closes hes left lowered up down =>
    rw [l.up_iff.mpr up, show l'.up = false by simp [Link.up, down]]
    exact (radioSessions_inner hes).append (l.radioSessions_closing left lowered)

/-- One more move of a link that has not settled. -/
theorem Passage.advance {more : List Entry} (h : Passage l l' es) (unsettled : ¬ l'.Settled)
    (ha : l'.Advance now more l'') : Passage l l'' (es ++ more) := by
  cases h with
  | opens _ _ settled | refused _ _ settled | closes _ _ _ _ _ settled =>
    exact absurd settled unsettled
  | within hes hopen kept still =>
    have state := still unsettled
    have settles (target : l'.target ≠ .connecting) : l''.Settled := ha.settles target
    -- A move that leaves the radio up, with commands that belong inside the session.
    have move (up : l'.state ≠ .stopped) (up' : l''.state ≠ .stopped) (hmore : ∀ e ∈ more, e.Inner)
        (still : ¬ l''.Settled → l''.state = l'.state) : Passage l l'' (es ++ more) := by
      have hup : l.up = true := kept ▸ l'.up_iff.mpr up
      refine .within (fun e he => (List.mem_append.mp he).elim (hes e) (hmore e)) (.inr hup) ?_
        fun h => (still h).trans state
      rw [hup, l''.up_iff.mpr up']
    have stopped (down : l'.state = .stopped) : es = [] ∧ l.state = .stopped := by
      refine ⟨hopen.resolve_right fun hup => ?_, state.symm.trans down⟩
      exact l'.up_iff.mp (kept.trans hup) down
    have home (target : l'.target = .stopped) : l.state ≠ .stopped := fun down =>
      unsettled ((state.trans down).trans target.symm)
    cases ha with
    | @leave left lowered target away =>
      have hleft : l.Associated := by rwa [Link.Associated, ← state]
      rw [← l.closing_of_associated left lowered hleft]
      exact .closes hes left lowered (home target) rfl (settles (by simp [target]))
    | @down lowered target apart =>
      have hleft : ¬ l.Associated := by rwa [Link.Associated, ← state]
      rw [← l.closing_of_apart (.accepted ()) lowered hleft]
      exact .closes hes _ lowered (home target) rfl (settles (by simp [target]))
    | up target down =>
      obtain ⟨rfl, hdown⟩ := stopped down
      exact .opens hdown (by simp [Link.enter]) (settles (by simp [target]))
    | upRefused target down =>
      obtain ⟨rfl, hdown⟩ := stopped down
      exact .refused hdown down (settles (by simp [target]))
    | back target up =>
      exact move up (by simp [Link.enter]) (by simp) (absurd (settles (by simp [target])))
    | scan target ready =>
      exact move (by simp [ready]) (by simp [Link.enter]) (by simp [Entry.Inner, Command.Inner])
        (absurd (settles (by simp [target])))
    | regionRefused target ready | scanRefused target ready =>
      have hstate : (scanRefused now l').state = l'.state := by
        unfold scanRefused Link.retryIfWanted
        split <;> rfl
      exact move (by simp [ready]) (by simp [hstate, ready]) (by simp [Entry.Inner, Command.Inner])
        fun _ => hstate
    | associate target ready =>
      exact move ready.up (by simp [Link.enter]) (by simp [Entry.Inner, Command.Inner])
        (absurd target.symm)
    | associateRefused _ ready =>
      exact move ready.up ready.up (by simp [Entry.Inner, Command.Inner]) fun _ => rfl
    | seek _ ready => exact move ready.up ready.up (by simp) fun _ => rfl
    | await target up =>
      exact move (by simp [up]) (by simp [Link.enter]) (by simp) (absurd target.symm)
    | connect target up =>
      exact move (by simp [up]) (by simp [Link.enter]) (by simp) (absurd target.symm)
    | giveUp =>
      rw [List.append_nil]
      exact .within hes hopen kept fun h => (h rfl).elim

/-- What an action makes of the link before it converges. -/
theorem Reacts.passage {a : Action} {es : List Entry} (h : Reacts now l a es l') :
    Passage l l' es := by
  have hcomplete (l : Link) : (completeScan now l).state = l.state := by
    unfold completeScan Link.retryIfWanted
    dsimp only
    split
    · rfl
    · split <;> rfl
  have silent (state : l'.state = l.state) : Passage l l' [] :=
    .within (by simp) (.inl rfl) (by rw [Link.up, Link.up, state]) fun _ => state
  -- Results are fetched while the link scans.
  have fetch {n : Nat} {answer : Answer Unit} (scanning : l.state = .scanning)
      (state : l'.state = l.state) : Passage l l' [.command (.scanResult n) answer] :=
    .within (by simp [Entry.Inner, Command.Inner]) (.inr (by simp [Link.up, scanning]))
      (by rw [Link.up, Link.up, state]) fun _ => state
  cases h with
  | nothingFound | allFetched => exact silent (hcomplete _)
  | fetch scanning | fetchNext scanning => exact fetch scanning rfl
  | fetchRefused scanning | fetchNextRefused scanning => exact fetch scanning (hcomplete _)
  | lost =>
    refine silent ?_
    unfold Link.lose
    dsimp only
    split <;> rfl
  | _ => exact silent rfl

end Passage

variable {σ : Type} [Chip σ] {s : Station σ} (now : Nat)

theorem passage_perform (settled : s.link.Settled) (a : Action) :
    ∃ traffic, (s.perform now a).2.bus.journal = s.bus.journal ++ traffic ∧
      Passage s.link (s.perform now a).2.link traffic := by
  obtain ⟨first, l, bus, hr, hbus, heq⟩ := converges_perform now settled a
  rw [heq]
  refine converge_induct_unsettled now ⟨l, bus⟩
    (p := fun t => ∃ traffic, t.bus.journal = s.bus.journal ++ traffic ∧
      Passage s.link t.link traffic) ⟨first, hbus, hr.passage⟩ ?_
  rintro t u unsettled ⟨last, hlast, ha⟩ ⟨traffic, htraffic, h⟩
  exact ⟨traffic ++ last, by rw [hlast, htraffic, List.append_assoc], h.advance unsettled ha⟩

/-- With the radio down nothing but `start` does anything. -/
theorem perform_of_stopped (settled : s.link.Settled) (down : s.link.state = .stopped) {a : Action}
    (other : a ≠ .start) : (s.perform now a).2.bus.journal = s.bus.journal ∧
      (s.perform now a).2.link.state = .stopped := by
  obtain ⟨first, l, bus, hr, hbus, heq⟩ := converges_perform now settled a
  have away {state : LinkState} (h : s.link.state = state) (hne : state ≠ .stopped) : False :=
    hne (h.symm.trans down)
  have stays (htraffic : first = []) (state : l.state = .stopped) (target : l.target = .stopped) :
      (s.perform now a).2.bus.journal = s.bus.journal ∧
        (s.perform now a).2.link.state = .stopped := by
    rw [heq, converge_of_settled now ⟨l, bus⟩ (state.trans target.symm)]
    exact ⟨by simpa [htraffic] using hbus, state⟩
  have target : s.link.target = .stopped := settled.symm.trans down
  cases hr with
  | start | startRefused => exact absurd rfl other
  | stop => exact stays rfl down rfl
  | join _ idle => exact (away (s.link.idle_iff.mp idle).1 nofun).elim
  | retry due => exact (away (s.link.idle_iff.mp due.1).1 nofun).elim
  | scan ready => exact (away ready nofun).elim
  | joinLater | joinRefused | scanRefused | wait | ignored => exact stays rfl down target
  | nothingFound state | fetch state | fetchRefused state | fetchNext state
  | fetchNextRefused state | allFetched state | associated state | rejected state
  | assigned state => exact (away state nofun).elim
  | lost state => rcases state with state | state <;> exact (away state nofun).elim

/-! ### Histories -/

section Run
variable (coherent : s.link.Coherent) (settled : s.link.Settled)
include coherent settled

theorem radioSessions_run (history : List (Nat × Action)) :
    ∃ traffic, (s.run history).bus.journal = s.bus.journal ++ traffic ∧
      RadioSessions s.link.up (s.run history).link.up traffic := by
  induction history generalizing s with
  | nil => exact ⟨[], (List.append_nil _).symm, .nil _⟩
  | cons entry rest ih =>
    obtain ⟨hnext, hsettled⟩ := coherent_perform entry.1 coherent settled entry.2
    obtain ⟨first, hfirst, hpassage⟩ := passage_perform entry.1 settled entry.2
    obtain ⟨more, hmore, hsessions⟩ := ih hnext hsettled
    exact ⟨first ++ more, by rw [run, hmore, hfirst, List.append_assoc],
      hpassage.sessions.append hsessions⟩

theorem run_of_stopped (down : s.link.state = .stopped) (history : List (Nat × Action))
    (other : ∀ entry ∈ history, entry.2 ≠ .start) :
    (s.run history).bus.journal = s.bus.journal ∧ (s.run history).link.state = .stopped := by
  induction history generalizing s with
  | nil => exact ⟨rfl, down⟩
  | cons entry rest ih =>
    obtain ⟨hnext, hsettled⟩ := coherent_perform entry.1 coherent settled entry.2
    obtain ⟨hjournal, hdown⟩ :=
      perform_of_stopped entry.1 settled down (other entry List.mem_cons_self)
    obtain ⟨hjournal', hdown'⟩ :=
      ih hnext hsettled hdown fun e he => other e (List.mem_cons_of_mem _ he)
    exact ⟨hjournal'.trans hjournal, hdown'⟩

end Run

/-- A command to come up is given by `start` alone, which takes the request. -/
theorem start_of_init (settled : s.link.Settled) {a : Action} {traffic : List Entry}
    (htraffic : (s.perform now a).2.bus.journal = s.bus.journal ++ traffic)
    (h : Passage s.link (s.perform now a).2.link traffic) {answer : Answer Unit}
    (hinit : .command .init answer ∈ traffic) : a = .start ∧ (s.perform now a).1 = .ok () := by
  have down : s.link.state = .stopped := by
    cases h with
    | opens down | refused down => exact down
    | within hes => exact (hes _ hinit).elim
    | closes hes =>
      rcases List.mem_append.mp hinit with hinit | hinit
      · exact (hes _ hinit).elim
      · unfold Link.closing at hinit
        split at hinit <;> simp at hinit
  have starts : a = .start := by
    refine Decidable.of_not_not fun other => ?_
    have hsame := (perform_of_stopped now settled down other).1
    obtain rfl : traffic = [] := List.append_right_eq_self.mp (htraffic.symm.trans hsame)
    cases hinit
  refine ⟨starts, ?_⟩
  subst starts
  show (s.start now).1 = .ok ()
  unfold start
  rw [if_pos ⟨down, settled.symm.trans down⟩]

/-- A session is closed as it has to be from where the action found the link. -/
theorem closes_of_deinit {l l' : Link} {traffic : List Entry} (h : Passage l l' traffic)
    {answer : Answer Unit} (hdeinit : .command .deinit answer ∈ traffic) :
    l'.state = .stopped ∧ ∃ inner left lowered, (∀ e ∈ inner, e.Inner) ∧
      traffic = inner ++ l.closing left lowered := by
  cases h with
  | opens | refused => simp at hdeinit
  | within hes => exact (hes _ hdeinit).elim
  | closes hes left lowered up down => exact ⟨down, _, left, lowered, hes, rfl⟩

/-- A new link, over any radio, after any history of actions. Its commands to the radio are a row
of sessions, and one is open just if the link is not stopped: between two commands to come up that
the radio took there is one to go down, there is none to go down without one to come up before it,
and everything else is inside. A command to come up is given by `start` alone, which then answers
that the request was taken. An action that closes the session leaves the link stopped; it ends
with the command to go down, right after one to disassociate if the link was connecting, waiting
for an address or connected, and without one if it was not. While the link is stopped, nothing but
`start` gives the radio a command or changes that. -/
theorem radio_in_sessions (policy : LinkPolicy) (bus : Bus σ) (history : List (Nat × Action)) :
    let s : Station σ := ⟨.new policy, bus⟩
    (∃ traffic, (s.run history).bus.journal = bus.journal ++ traffic ∧
      RadioSessions false (s.run history).link.up traffic) ∧
    (∀ entry traffic,
      (s.run (history ++ [entry])).bus.journal = (s.run history).bus.journal ++ traffic →
      (∀ answer, .command .init answer ∈ traffic →
        entry.2 = .start ∧ ((s.run history).perform entry.1 entry.2).1 = .ok ()) ∧
      ∀ answer, .command .deinit answer ∈ traffic →
        (s.run (history ++ [entry])).link.state = .stopped ∧
          ∃ inner left lowered, (∀ e ∈ inner, e.Inner) ∧
            traffic = inner ++ (s.run history).link.closing left lowered) ∧
    ((s.run history).link.state = .stopped → ∀ more, (∀ entry ∈ more, entry.2 ≠ .start) →
      (s.run (history ++ more)).bus.journal = (s.run history).bus.journal ∧
        (s.run (history ++ more)).link.state = .stopped) := by
  intro s
  have coherent : s.link.Coherent := .new policy
  have settled : s.link.Settled := rfl
  obtain ⟨hcoherent, hsettled⟩ := coherent_run history coherent settled
  refine ⟨radioSessions_run coherent settled history, fun entry traffic htraffic => ?_,
    fun down more other => ?_⟩
  · rw [run_snoc] at htraffic ⊢
    obtain ⟨traffic', htraffic', hpassage⟩ := passage_perform entry.1 hsettled entry.2
    obtain rfl : traffic = traffic' := List.append_cancel_left (htraffic.symm.trans htraffic')
    exact ⟨fun _ hinit => start_of_init entry.1 hsettled htraffic hpassage hinit,
      fun _ hdeinit => closes_of_deinit hpassage hdeinit⟩
  · rw [run_append]
    exact run_of_stopped hcoherent hsettled down more other

end Station

end WifiAdapter
