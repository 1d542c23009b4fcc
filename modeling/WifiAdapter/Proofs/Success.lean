import Mathlib.Data.List.Induction
import WifiAdapter.Proofs.Lineage
import WifiAdapter.Proofs.Reopening
import WifiAdapter.Proofs.Telling
import WifiAdapter.ScriptedChip

/-! What a parked caller is told, whatever becomes of its slot.

Slots may be closed and taken into use again while callers are parked on them. Every parked
call whose socket is still the one it parked on is attended to, and a success at hand for it
was reported while it was parked (`Session.Minded`). So a caller that is told of a success was
told the truth, and one whose socket was closed is told of that (`Session.told_truly`). The
generation tells the occupants of a slot apart, as long as it does not go all the way round
during a wait (`Session.Brief`). -/
namespace WifiAdapter

namespace Session
variable {σ : Type} [Chip σ]

/-! ### Histories with callers -/

/-- While a call is parked its slot is not taken into use as often as a word has values. -/
def Brief (s : Session σ) (actions : List (Action σ)) : Prop :=
  ∀ before during after, actions = before ++ during ++ after → ∀ id c d,
    (s.run before).find? id = some (.call c) →
    (s.run (before ++ during)).find? id = some (.call d) →
    (s.run (before ++ during)).adapter.bus.openings c.socket.handle <
      (s.run before).adapter.bus.openings c.socket.handle + UInt32.size

/-- While a call was parked on a socket, a notification was handled that reports that the
operation went well there. -/
def Told (s : Session σ) (actions : List (Action σ)) (id : Nat) (i : Incarnation) (p : Purpose) :
    Prop :=
  ∃ before action after, actions = before ++ action :: after ∧
    (∃ c, (s.run before).find? id = some (.call c) ∧ c.socket = i) ∧
    ∃ m ∈ (s.run before).moments action, m.Fulfils (s.run before).clock i p

/-- A call that is parked after a history. -/
structure Tended (s : Session σ) (actions : List (Action σ)) (id : Nat) (c : Call) : Prop where
  purpose : ∃ p, c.purpose? = some p
  /-- At some time it was parked on its socket, and the socket was the present occupant. -/
  began : ∃ before after, actions = before ++ after ∧
    (∃ d, (s.run before).find? id = some (.call d) ∧ d.socket = c.socket) ∧
    (s.run before).adapter.table.isCurrent c.socket = true
  /-- It is attended to if this still is so, and then it was told of any success at hand. -/
  attends : ∀ p, c.purpose? = some p →
    (s.run actions).adapter.table.isCurrent c.socket = true →
    (s.run actions).adapter.Attends c p ∧
      (c.Assured (s.run actions).adapter → s.Told actions id c.socket p)

/-- Every call that is parked after a history is tended, and no two on the same socket that is
still open. -/
structure Minded (s : Session σ) (actions : List (Action σ)) : Prop where
  tended : ∀ id c, (s.run actions).find? id = some (.call c) → s.Tended actions id c
  apart : ∀ id k c d, (s.run actions).find? id = some (.call c) →
    (s.run actions).find? k = some (.call d) → c.socket = d.socket →
    (s.run actions).adapter.table.isCurrent c.socket = true → id = k

section Histories
variable {s : Session σ} {actions rest : List (Action σ)} {action : Action σ} {id : Nat}
  {c d : Call} {p : Purpose} {i : Incarnation}

theorem Brief.prefix (h : s.Brief (actions ++ rest)) : s.Brief actions := by
  rintro before during after rfl
  exact h before during (after ++ rest) (by simp)

theorem Told.append (h : s.Told actions id i p) (rest : List (Action σ)) :
    s.Told (actions ++ rest) id i p := by
  obtain ⟨before, action, after, rfl, hparked, hm⟩ := h
  exact ⟨before, action, after ++ rest, by simp, hparked, hm⟩

/-- What is current while a call is parked on it was current before. -/
theorem Tended.current_before (h : s.Tended actions id c) (hs : s.adapter.Steady)
    (hbrief : s.Brief (actions ++ rest)) (hfind : (s.run (actions ++ rest)).find? id = some (.call d))
    (hcurrent : (s.run (actions ++ rest)).adapter.table.isCurrent c.socket = true) :
    (s.run actions).adapter.table.isCurrent c.socket = true := by
  obtain ⟨before, after, rfl, ⟨e, he, hsocket⟩, hbegan⟩ := h.began
  have hbefore := ages_run (steady_run hs before) after c.socket.handle
  have hafter := ages_run (steady_run hs (before ++ after)) rest c.socket.handle
  have hopenings := hbrief before (after ++ rest) [] (by simp) id e d he
    (by rwa [← List.append_assoc])
  rw [← run_append] at hbefore hafter
  rw [hsocket, ← List.append_assoc] at hopenings
  exact hbefore.current_between hafter hbegan hcurrent hopenings

end Histories

/-- Histories in which no slot is taken into use as often as a word has values. -/
theorem brief_of_openings {s : Session σ} (hs : s.adapter.Steady) {actions : List (Action σ)}
    (h : ∀ k, (s.run actions).adapter.bus.openings k < UInt32.size) : s.Brief actions := by
  rintro before during after rfl id c d - -
  have hlater := ages_run (steady_run hs (before ++ during)) after c.socket.handle
  rw [← run_append] at hlater
  have hle := hlater.le
  have hall := h c.socket.handle
  omega

/-! ### One action -/

section Actions
variable {s : Session σ} {action : Action σ} {id k : Nat} {c : Call} {p : Purpose}

omit [Chip σ] in
/-- The socket of a poll is that of the call that is polled. -/
theorem exists_call_of_site {h : Handle} (hsite : (s.find? k).bind Task.site? = some h) :
    ∃ d, s.find? k = some (.call d) ∧ d.socket.handle = h := by
  obtain ⟨t, ht, hcall⟩ := Option.bind_eq_some_iff.mp hsite
  cases t with
  | call d => exact ⟨d, ht, Option.some.inj hcall⟩
  | _ => cases hcall

omit [Chip σ] in
/-- Nobody begins to wait where a call is attended to. -/
theorem carries_begun {told : Prop} {x : Call.Outcome × Adapter σ}
    (hbegun : Call.Begun c.socket.handle s.adapter x) : Adapter.Carries c p told s.adapter x.2 := by
  intro hattends
  obtain ⟨r, hr, hwaiting, _⟩ := hattends.record
  have hsame := (hbegun.busy (by rw [hr]; exact hwaiting)).1
  rw [hsame]
  exact ⟨hattends, .inl⟩

/-- An action that neither polls a call nor closes its socket. -/
theorem carries_perform (hs : s.adapter.Steady)
    (hpurpose : ∀ k d, s.find? k = some (.call d) → ∃ q, d.purpose? = some q)
    (hapart : ∀ k d, s.find? k = some (.call d) → d.socket = c.socket → k = id)
    (hpoll : action ≠ .poll id) (hclose : action ≠ .close c.socket.handle) :
    Adapter.Carries c p (∃ m ∈ s.moments action, m.Fulfils s.clock c.socket p) s.adapter
      (s.perform action).2.adapter := by
  intro hattends
  by_cases hsite : s.site? action = some c.socket.handle
  · cases action with
    | close h => exact absurd (congrArg Action.close (Option.some.inj hsite)) hclose
    | bind h address =>
      cases hsite
      have hbegun := Call.begun_bind c.socket.handle address s.clock s.adapter
      rw [show (s.perform (.bind c.socket.handle address)).2.adapter = _ from adapter_ofBegun s _]
      exact carries_begun hbegun hattends
    | listen h backlog =>
      cases hsite
      have hbegun := Call.begun_listen c.socket.handle backlog s.clock s.adapter
      rw [show (s.perform (.listen c.socket.handle backlog)).2.adapter = _ from adapter_ofBegun s _]
      exact carries_begun hbegun hattends
    | poll k =>
      obtain ⟨d, hd, hhandle⟩ := exists_call_of_site hsite
      obtain ⟨q, hq⟩ := hpurpose k d hd
      have hstale : s.adapter.table.isCurrent d.socket = false := by
        refine Bool.eq_false_iff.mpr fun hcurrent' => hpoll ?_
        have hsocket : d.socket = c.socket := by
          rw [← SocketTable.incarnation_of_current hcurrent', hhandle,
            SocketTable.incarnation_of_current hattends.current]
        rw [hapart k d hd hsocket]
      rw [adapter_poll_call hd]
      exact Adapter.carries_poll_stale hq hstale hhandle s.clock hattends
    | contend k =>
      obtain ⟨d, hd, _⟩ := exists_call_of_site hsite
      rw [show (s.perform (.contend k)).2.adapter = _ from adapter_ofPolled _ s k, hd]
      exact Adapter.carries_look d s.clock s.adapter hattends
    | _ => cases hsite
  · refine (passes_perform s action hs).carries hs hsite ?_ hattends
    cases action <;> nofun

end Actions

/-! ### Histories -/

section Histories
variable {s : Session σ} {actions : List (Action σ)} {action : Action σ} {id : Nat} {c d : Call}

/-- A call that goes on waiting is tended as before. -/
theorem Tended.goOn (h : s.Tended actions id d) (hs : s.adapter.Steady)
    (hbrief : s.Brief (actions ++ [action])) (hd : (s.run actions).find? id = some (.call d))
    (hc : (s.run (actions ++ [action])).find? id = some (.call c)) (hsocket : d.socket = c.socket)
    (hpurpose : d.purpose? = c.purpose?)
    (hcarries : ∀ p, (s.run actions).adapter.Attends d p →
      ((s.run actions).perform action).2.adapter.table.isCurrent c.socket = true →
      ((s.run actions).perform action).2.adapter.Attends c p ∧
        (c.Assured ((s.run actions).perform action).2.adapter → d.Assured (s.run actions).adapter ∨
          ∃ m ∈ (s.run actions).moments action, m.Fulfils (s.run actions).clock c.socket p)) :
    s.Tended (actions ++ [action]) id c where
  purpose := hpurpose ▸ h.purpose
  began := by
    obtain ⟨before, after, heq, ⟨e, he, hsame⟩, hbegan⟩ := h.began
    exact ⟨before, after ++ [action], by rw [heq, List.append_assoc],
      ⟨e, he, hsame.trans hsocket⟩, hsocket ▸ hbegan⟩
  attends p hp hcurrent := by
    have hbefore := h.current_before hs hbrief hc (hsocket ▸ hcurrent)
    obtain ⟨hattends, htold⟩ := h.attends p (hpurpose.trans hp) hbefore
    rw [hsocket] at htold
    rw [run_snoc] at hcurrent ⊢
    obtain ⟨hafter, hback⟩ := hcarries p hattends hcurrent
    refine ⟨hafter, fun hassured => ?_⟩
    rcases hback hassured with hd' | hm
    · exact (htold hd').append [action]
    · exact ⟨actions, action, [], rfl, ⟨d, hd, hsocket⟩, hm⟩

/-- A call that begins is attended to, and nothing is at hand for it. -/
theorem tended_begun {h : Handle} (hc : (s.run (actions ++ [action])).find? id = some (.call c))
    (hbegun : Call.Begun h (s.run actions).adapter
      (.waiting c, ((s.run actions).perform action).2.adapter)) :
    s.Tended (actions ++ [action]) id c := by
  rw [← run_snoc] at hbegun
  obtain ⟨hhandle, hwaits⟩ := hbegun.waits c rfl
  obtain ⟨hseen, hposted⟩ := hbegun.fresh c rfl
  have hnone : ¬ c.Assured (s.run (actions ++ [action])).adapter := by
    rintro (h | h)
    · cases hseen.symm.trans h
    · rw [hhandle] at h
      cases hposted.symm.trans h
  obtain ⟨p, hp, hattends⟩ := hwaits.attends hnone
  refine ⟨⟨p, hp⟩, ⟨_, [], (List.append_nil _).symm, ⟨c, hc, rfl⟩, hwaits.current⟩, fun q hq _ => ?_⟩
  cases hp.symm.trans hq
  exact ⟨hattends, fun hassured => absurd hassured hnone⟩

/-- Nobody begins to wait where a call is attended to. -/
theorem Minded.not_begun (h : s.Minded actions) (hs : s.adapter.Steady)
    (hbrief : s.Brief (actions ++ [action])) (hd : (s.run actions).find? id = some (.call d))
    (hd' : (s.run (actions ++ [action])).find? id = some (.call c)) (hsocket : d.socket = c.socket)
    (hcurrent : (s.run (actions ++ [action])).adapter.table.isCurrent c.socket = true) {e : Call}
    {b : Adapter σ} : ¬ Call.Begun c.socket.handle (s.run actions).adapter (.waiting e, b) := by
  intro hbegun
  have htended := h.tended id d hd
  obtain ⟨p, hp⟩ := htended.purpose
  have hbefore := htended.current_before hs hbrief hd' (hsocket ▸ hcurrent)
  obtain ⟨r, hr, hwaiting, _⟩ := (htended.attends p hp hbefore).1.record
  rw [hsocket] at hr
  obtain ⟨_, result, hfinished⟩ := hbegun.busy (by rw [hr]; exact hwaiting)
  cases hfinished

theorem Minded.perform (h : s.Minded actions) (hs : s.adapter.Steady)
    (hbrief : s.Brief (actions ++ [action])) : s.Minded (actions ++ [action]) := by
  have hsteady := steady_run hs actions
  have hpurpose (k : Nat) (d : Call) (hd : (s.run actions).find? k = some (.call d)) :=
    (h.tended k d hd).purpose
  refine ⟨fun id c hc => ?_, fun id k c d hc hd hsocket hcurrent => ?_⟩
  · have hc' := hc
    rw [run_snoc] at hc'
    cases origin_perform action hc' with
    | kept hold hpoll =>
      refine (h.tended id c hold).goOn hs hbrief hold hc rfl rfl fun p hattends hcurrent => ?_
      refine carries_perform hsteady hpurpose (fun k d hd hsocket => ?_) hpoll ?_ hattends
      · exact h.apart k id d c hd hold hsocket (hsocket ▸ hattends.current)
      · rintro rfl
        have hopen := (SocketTable.isCurrent_iff.mp hcurrent).1
        exact absurd ((Adapter.isOpen_close _ _).symm.trans hopen) Bool.false_ne_true
    | polled _ hold hrest =>
      obtain ⟨rfl, hsame⟩ := Task.call_of_poll hrest
      refine (h.tended id c hold).goOn hs hbrief hold hc rfl rfl fun p hattends _ => ?_
      rw [hsame]
      exact ⟨hattends, .inl⟩
    | contended _ hold hrest =>
      obtain ⟨d, rfl, hsocket, hpurpose, hrest, hadapter⟩ := Task.call_of_contend hrest
      refine (h.tended id d hold).goOn hs hbrief hold hc hsocket hpurpose fun p hattends _ => ?_
      have hlook : Adapter.Carries c p False (s.run actions).adapter _ :=
        Adapter.carries_look d (s.run actions).clock (s.run actions).adapter
      have hattends : (s.run actions).adapter.Attends c p :=
        hattends.of_assured hsocket fun hassured => .of_looked _ (hrest ▸ hassured)
      rw [hadapter]
      exact ⟨(hlook hattends).1, fun hassured => .inl (Call.Assured.of_look _ (hrest ▸ hassured))⟩
    | begun _ _ hcall =>
      obtain ⟨k, hbegun⟩ := hcall c rfl
      exact tended_begun hc hbegun
  · have hc' := hc
    have hd' := hd
    rw [run_snoc] at hc' hd'
    rcases parked_or_begun hc' with ⟨c₀, hc₀, hsame, -⟩ | ⟨hid, hbegun⟩
    · rcases parked_or_begun hd' with ⟨d₀, hd₀, hsame', -⟩ | ⟨hk, hbegun⟩
      · refine h.apart id k c₀ d₀ hc₀ hd₀ (by rw [hsame, hsame', hsocket]) ?_
        exact (h.tended id c₀ hc₀).current_before hs hbrief hc (hsame ▸ hcurrent)
      · rw [← hsocket] at hbegun
        exact absurd hbegun (h.not_begun hs hbrief hc₀ hc hsame hcurrent)
    · rcases parked_or_begun hd' with ⟨d₀, hd₀, hsame', -⟩ | ⟨hk, _⟩
      · rw [hsocket] at hbegun hcurrent
        exact absurd hbegun (h.not_begun hs hbrief hd₀ hd hsame' hcurrent)
      · rw [hid, hk]

theorem minded_run (chip : σ) (packets : Nat) (config : Config) {actions : List (Action σ)}
    (hbrief : (new chip packets config).Brief actions) :
    (new chip packets config).Minded actions := by
  induction actions using List.reverseRecOn with
  | nil => exact ⟨fun _ _ h => (by cases h), fun _ _ _ _ h => (by cases h)⟩
  | append_singleton actions action ih =>
    exact (ih hbrief.prefix).perform (Adapter.steady_new chip packets config) hbrief

end Histories

/-! ### What callers are told -/

section Replies
variable {s : Session σ} {result : TaskResult}

omit [Chip σ] in
theorem finished_of_begin {f : Nat → Adapter σ → Task.Outcome × Adapter σ}
    (h : (Reply.ofBegun (s.begin f)).1 = .finished result) :
    (f s.clock s.adapter).1 = .finished result := by
  unfold begin at h
  revert h
  generalize f s.clock s.adapter = first
  obtain ⟨outcome, b⟩ := first
  intro h
  cases outcome with
  | waiting t => cases h
  | finished value =>
    cases h
    rfl

omit [Chip σ] in
theorem finished_of_pollWith {f : Task → Nat → Adapter σ → Task.Outcome × Adapter σ} {k : Nat}
    (h : (Reply.ofPolled (s.pollWith f k)).1 = .finished result) :
    ∃ t, s.find? k = some t ∧ (f t s.clock s.adapter).1 = .finished result := by
  unfold pollWith at h
  cases hfind : s.find? k with
  | none =>
    rw [hfind] at h
    cases h
  | some t =>
    rw [hfind] at h
    refine ⟨t, rfl, ?_⟩
    revert h
    dsimp only
    generalize f t s.clock s.adapter = polled
    obtain ⟨outcome, b⟩ := polled
    intro h
    cases outcome with
    | waiting t => cases h
    | finished value =>
      cases h
      rfl

omit [Chip σ] in
/-- No bind and no listen succeeds at once. -/
theorem not_ok_of_begun {h : Handle} {f : Nat → Adapter σ → Call.Outcome × Adapter σ}
    (hbegun : Call.Begun h s.adapter (f s.clock s.adapter)) :
    (Reply.ofBegun (s.begin fun now a => (Task.ofCall (f now a).1, (f now a).2))).1 ≠
      .finished (.call (.ok ())) := by
  intro hok
  have hfirst := finished_of_begin hok
  dsimp only at hfirst
  cases houtcome : (f s.clock s.adapter).1 with
  | waiting c =>
    rw [houtcome] at hfirst
    cases hfirst
  | finished value =>
    rw [houtcome] at hfirst
    obtain ⟨error, rfl⟩ := hbegun.failed value houtcome
    cases hfirst

omit [Chip σ] in
theorem no_result_of_post (note : Notification) (a : Adapter σ) (result : Except SocketError Unit) :
    (Task.pollPost note a).1 ≠ .finished (.call result) := by
  unfold Task.pollPost
  split <;> nofun

omit [Chip σ] in
theorem no_result_of_event (a : Adapter σ) (result : Except SocketError Unit) :
    (Task.pollEvent a).1 ≠ .finished (.call result) := by
  unfold Task.pollEvent
  split <;> nofun

/-- Only a call that is polled has the result of a call. -/
theorem call_of_result {id : Nat} {result : Except SocketError Unit}
    (h : (s.perform (.poll id)).1 = .finished (.call result)) :
    ∃ c, s.find? id = some (.call c) ∧ (c.poll s.clock s.adapter).1 = .finished result := by
  obtain ⟨t, ht, hresult⟩ := finished_of_pollWith h
  cases t with
  | call c =>
    refine ⟨c, ht, ?_⟩
    change Task.ofCall (c.poll s.clock s.adapter).1 = _ at hresult
    cases houtcome : (c.poll s.clock s.adapter).1 with
    | waiting d =>
      rw [houtcome] at hresult
      cases hresult
    | finished value =>
      rw [houtcome] at hresult
      cases hresult
      rfl
  | post note => exact absurd hresult (no_result_of_post note _ _)
  | nextEvent => exact absurd hresult (no_result_of_event _ _)
  | work w => cases hresult

/-- What the poll of a call replies when the call is finished. -/
theorem reply_of_result {id : Nat} {c : Call} {result : Except SocketError Unit}
    (hc : s.find? id = some (.call c)) (h : (c.poll s.clock s.adapter).1 = .finished result) :
    (s.perform (.poll id)).1 = .finished (.call result) :=
  Reply.ofPolled_fst ((poll_call hc).2 result |>.mpr h)

/-- Only a poll finishes a call with success, and only if the call has a success at hand. -/
theorem poll_of_ok {action : Action σ} (h : (s.perform action).1 = .finished (.call (.ok ()))) :
    ∃ id c, action = .poll id ∧ s.find? id = some (.call c) ∧
      s.adapter.table.isCurrent c.socket = true ∧ c.Assured s.adapter := by
  cases action with
  | bind k address => exact absurd h (not_ok_of_begun (Call.begun_bind k address _ _))
  | listen k backlog => exact absurd h (not_ok_of_begun (Call.begun_listen k backlog _ _))
  | post note => exact absurd (finished_of_begin h) (no_result_of_post note _ _)
  | nextEvent => exact absurd (finished_of_begin h) (no_result_of_event _ _)
  | work => cases finished_of_begin h
  | poll id =>
    obtain ⟨c, hc, hresult⟩ := call_of_result h
    exact ⟨id, c, rfl, hc, Call.ok_of_poll s.clock hresult⟩
  | contend id =>
    obtain ⟨t, _, hresult⟩ := finished_of_pollWith h
    cases t with
    | call c => cases hresult
    | post note => exact absurd hresult (no_result_of_post note _ _)
    | nextEvent => exact absurd hresult (no_result_of_event _ _)
    | work w => cases hresult
  | _ => cases h

end Replies

/-- The socket of a call is gone if it was closed while the call was parked. -/
theorem stale_of_closed {s : Session σ} (hs : s.adapter.Steady) {before after : List (Action σ)}
    {id : Nat} {c d : Call} (hnumbered : s.Numbered)
    (hbrief : s.Brief (before ++ .close c.socket.handle :: after))
    (hminded : s.Minded (before ++ [.close c.socket.handle]))
    (hc : (s.run before).find? id = some (.call c))
    (hd : (s.run (before ++ .close c.socket.handle :: after)).find? id = some (.call d)) :
    (s.run (before ++ .close c.socket.handle :: after)).adapter.table.isCurrent d.socket = false := by
  have hsocket : c.socket = d.socket := by
    rw [run_append] at hd
    obtain ⟨e, he, hsame⟩ := parked_before (numbered_run hnumbered before id _ hc) hd
    cases hc.symm.trans he
    exact hsame
  have hclosed : (s.run (before ++ [.close c.socket.handle])).find? id = some (.call c) := by
    rw [run_snoc]
    exact hc
  rw [List.append_cons] at hbrief hd ⊢
  refine Bool.eq_false_iff.mpr fun hcurrent => ?_
  have hstill := (hminded.tended id c hclosed).current_before hs hbrief hd (hsocket ▸ hcurrent)
  rw [run_snoc] at hstill
  exact absurd ((Adapter.isOpen_close _ _).symm.trans (SocketTable.isCurrent_iff.mp hstill).1)
    Bool.false_ne_true

/-- A call is told of a success only by a poll, and only if it was told the truth: while it
was parked a notification reported that its operation went well, and took its socket from
where it waited to where the operation leads. A call whose socket was closed while it was
parked is told of that by the first poll at which it is due, whoever is in the slot now. -/
theorem told_truly (chip : σ) (packets : Nat) (config : Config) (actions : List (Action σ))
    (hbrief : (new chip packets config).Brief actions) :
    let s := (new chip packets config).run actions
    (∀ action, (s.perform action).1 = .finished (.call (.ok ())) →
      ∃ id c p, action = .poll id ∧ s.find? id = some (.call c) ∧ c.purpose? = some p ∧
        (new chip packets config).Told actions id c.socket p) ∧
    (∀ before after id c d, actions = before ++ .close c.socket.handle :: after →
      ((new chip packets config).run before).find? id = some (.call c) →
      s.find? id = some (.call d) →
      (s.poll id).1 =
        if d.Due s.clock s.adapter then some (.call (.error .connectionAborted)) else none) := by
  intro s
  have hminded := minded_run chip packets config hbrief
  refine ⟨fun action hok => ?_, fun before after id c d hactions hc hd => ?_⟩
  · obtain ⟨id, c, rfl, hc, hcurrent, hassured⟩ := poll_of_ok hok
    have htended := hminded.tended id c hc
    obtain ⟨p, hp⟩ := htended.purpose
    exact ⟨id, c, p, rfl, hc, hp, (htended.attends p hp hcurrent).2 hassured⟩
  · subst hactions
    have hclosed := hbrief
    rw [List.append_cons] at hclosed
    have hstale := stale_of_closed (Adapter.steady_new chip packets config)
      (numbered_new chip packets config) hbrief
      (minded_run chip packets config hclosed.prefix) hc hd
    obtain ⟨p, hp⟩ := (hminded.tended id d hd).purpose
    obtain ⟨_, houtcome, _⟩ := Call.poll_stale hp hstale s.clock
    rw [poll_call_fst hd, houtcome]
    by_cases hdue : d.Due s.clock s.adapter
    · rw [if_pos hdue, if_pos hdue]
    · rw [if_neg hdue, if_neg hdue]

/-- A slot is closed under the caller of a bind and taken into use again, and the bind of its
new occupant succeeds: the first caller is aborted, and the second is told the truth. -/
theorem told_truly_reopened :
    let actions := [.create .inet .stream, .bind 0 (.v4 ⟨⟨10, 0, 0, 1⟩, 80⟩), .close 0,
      .create .inet .stream, .bind 0 (.v4 ⟨⟨10, 0, 0, 1⟩, 80⟩),
      .dispatch (.socket 0 (.bound .success))]
    let s := (new ScriptedChip.new 4 .defaults).run actions
    (new ScriptedChip.new 4 .defaults).Brief actions ∧
      (s.poll 0).1 = some (.call (.error .connectionAborted)) ∧
      (s.poll 1).1 = some (.call (.ok ())) ∧
      (new ScriptedChip.new 4 .defaults).Told actions 1 ⟨0, 2⟩ .bind := by
  intro actions s
  have hbrief : (new ScriptedChip.new 4 .defaults).Brief actions :=
    brief_of_openings (Adapter.steady_new ..) (by decide)
  have htold := told_truly ScriptedChip.new 4 .defaults actions hbrief
  refine ⟨hbrief, ?_, rfl, ?_⟩
  · exact htold.2 [.create .inet .stream, .bind 0 (.v4 ⟨⟨10, 0, 0, 1⟩, 80⟩)] _ 0
      ⟨some .bind, ⟨0, 1⟩, 1000, none⟩ _ rfl rfl rfl
  · obtain ⟨id, c, p, hid, hc, hp, htold⟩ := htold.1 (.poll 1) rfl
    cases hid
    cases hc
    cases hp
    exact htold

end Session

end WifiAdapter
