import WifiAdapter.Proofs.Exclusion

/-! What is left of a close by the time a parked caller comes back.

Closing a socket posts an abort for the caller that waits on it. The cell that holds it belongs
to the slot, so the next occupant uses it too, and a bind or a listen that begins there starts
with an empty cell. Other than that, only callers of the slot take away what is posted
(`Session.Withdraws`); everything else at most posts something new (`Adapter.Posts`).
`woken_by_close_iff` says from this exactly when the caller of a closed socket is told by its
next poll: as long as what is posted was not withdrawn, or the caller's own time is up. -/
namespace WifiAdapter

namespace Adapter
variable {σ : Type} {a b c : Adapter σ} {h : Handle}

/-! ### What posts a status -/

/-- The cells for completions are as they were, or a status was put in one of them. -/
def Posts (a b : Adapter σ) : Prop :=
  b.completions = a.completions ∨
    ∃ h status, b.completions = a.completions.set h (some status)

theorem Posts.of_ite {p : Prop} [Decidable p] {status : Status}
    (hposted : b.completions =
      if p then a.completions.set h (some status) else a.completions) : Posts a b := by
  by_cases hp : p
  · rw [if_pos hp] at hposted
    exact .inr ⟨h, status, hposted⟩
  · rw [if_neg hp] at hposted
    exact .inl hposted

/-- Wherever something is posted, something still is. -/
theorem Posts.isSome (hab : Posts a b) (hposted : (a.completions.get h).isSome = true) :
    (b.completions.get h).isSome = true := by
  rcases hab with hsame | ⟨k, status, hset⟩
  · rwa [hsame]
  · rw [hset, Slots.get_set]
    split
    · rfl
    · exact hposted

theorem posts_handOver (a : Adapter σ) (h : Handle) (packet : Packet) :
    Posts a (a.handOver h packet) := by
  unfold handOver
  exact .inl (completions_announce _ _)

theorem Answered.posts {i : Incarnation} {d : Delivery} (hab : a.Answered i d b) (ha : a.Steady)
    (hout : a.rx.outstanding? = some i) : Posts a b := by
  cases hab with
  | noData | keep => exact .inl rfl
  | finish hd hpacket => exact posts_handOver _ _ _
  | ended =>
    refine .of_ite (completions_endStream _ ?_ _ _)
    exact ha.isOpen hout

section Moves
variable [Chip σ] {D : Deed → Prop} {site? : Option Handle}

theorem completions_resumeFlow (a : Adapter σ) : a.resumeFlow.completions = a.completions := by
  obtain ⟨_, _, heq, _⟩ := resumeFlow_eq a
  rw [heq]

theorem Chore.posts (hab : Chore D a b) : Posts a b := by
  cases hab with
  | complete => exact .of_ite (completions_complete ..)
  | writable | linkEvent => exact .inl (completions_announce ..)
  | _ => exact .inl rfl

theorem Move.posts (hab : Move D a b) (ha : a.Steady) : Posts a b := by
  cases hab with
  | chore hab => exact hab.posts
  | create => exact .inl rfl
  | register =>
    rw [register_eq]
    dsimp only
    split <;> exact .inl (completions_announce ..)
  | read h =>
    rcases a.receive_cases h with ⟨_, heq⟩ | ⟨_, _, _, _, _, _, heq⟩ <;> rw [heq] <;> exact .inl rfl
  | resume | lease =>
    exact .inl (completions_resumeFlow _)
  | pause =>
    obtain ⟨_, _, _, heq, _⟩ := pauseFlow_eq a
    rw [heq]
    exact .inl rfl
  | settle => exact posts_handOver _ _ _
  | ask _ hpacket =>
    rw [ask_eq a _ hpacket]
    dsimp only
    split <;> exact .inl rfl
  | answer hout _ hab => exact hab.posts ha hout

theorem posts_close (a : Adapter σ) (h : Handle) : Posts a (a.close h) := by
  cases hr : a.table.get? h with
  | none =>
    rw [close_none a h hr]
    exact .inl rfl
  | some r => exact .of_ite (completions_close a hr)

omit [Chip σ] in
/-- A call at another slot. -/
theorem CallStep.completions {k : Handle} (hab : CallStep k a b) (hne : k ≠ h) :
    b.completions.get h = a.completions.get h := by
  cases hab with
  | disarm => exact Slots.get_set_of_ne _ _ hne
  | _ => rfl

/-- What is posted for a slot stays until the slot is called on. -/
theorem Step.posted (hab : Step D site? a b) (ha : a.Steady) (hsite : site? ≠ some h)
    (hposted : (a.completions.get h).isSome = true) : (b.completions.get h).isSome = true := by
  cases hab with
  | move hab => exact (hab.posts ha).isSome hposted
  | close => exact (posts_close a _).isSome hposted
  | call hk hcall =>
    rw [hcall.completions fun heq => hsite (hk.trans (congrArg some heq))]
    exact hposted

/-! ### Beginning to wait -/

/-- An operation may begin on a socket: it is open, nobody waits there, and its phase admits
the operation. -/
def Admits (a : Adapter σ) (h : Handle) (p : Purpose) : Prop :=
  ∃ r, a.table.get? h = some r ∧ r.waiting = false ∧
    (r.phase.transition p.request).rejected = false

/-- What may not begin is turned away without a trace. -/
theorem beginCall_refused {p : Purpose} (hno : ¬ a.Admits h p) (command : Command) :
    ∃ error, a.beginCall h p command = (.error error, a) := by
  unfold beginCall SocketTable.get
  cases hr : a.table.get? h with
  | none => exact ⟨_, rfl⟩
  | some r =>
    dsimp only
    by_cases hwaiting : r.waiting = true
    · rw [if_pos hwaiting]
      exact ⟨_, rfl⟩
    · rw [if_neg hwaiting, if_pos]
      · exact ⟨_, rfl⟩
      · refine Decidable.of_not_not fun hrejected => hno ⟨r, hr, ?_, ?_⟩
        · exact Bool.eq_false_iff.mpr hwaiting
        · exact Bool.eq_false_iff.mpr hrejected

end Moves

end Adapter

namespace Call
variable {σ : Type} [Chip σ] {a : Adapter σ} {h : Handle}

theorem bind_refused (address : SocketAddr)
    (hno : ∀ peer, address = .v4 peer → ¬ a.Admits h .bind) (now : Nat) :
    (bind h address now a).2 = a := by
  unfold bind
  cases address with
  | v6 => rfl
  | v4 peer =>
    dsimp only [SocketAddr.native?]
    obtain ⟨error, heq⟩ := Adapter.beginCall_refused (hno peer rfl) (.bind h (.ofEndpoint peer))
    rw [heq]

theorem listen_refused (backlog : UInt8)
    (hno : a.table.kind? h = some .stream → ¬ a.Admits h .listen) (now : Nat) :
    (listen h backlog now a).2 = a := by
  unfold listen SocketTable.get
  cases hr : a.table.get? h with
  | none => rfl
  | some r =>
    dsimp only
    by_cases hkind : r.kind = .stream
    · rw [if_neg (not_not_intro hkind)]
      have hstream : a.table.kind? h = some .stream := by
        unfold SocketTable.kind?
        rw [hr, Option.map_some, hkind]
      obtain ⟨error, heq⟩ := Adapter.beginCall_refused (hno hstream) (.listen h backlog)
      rw [heq]
    · rw [if_pos hkind]

section Looking
omit [Chip σ]

/-- A call that is not due goes on as before. -/
theorem poll_of_not_due {c : Call} {now : Nat} (hearly : ¬ c.Due now a) :
    c.poll now a = (.waiting c, a) := by
  obtain ⟨hseen, hposted, hclock⟩ :
      c.seen? = none ∧ a.completions.get c.socket.handle = none ∧ ¬ c.deadline ≤ now := by
    simpa [Due] using hearly
  rw [poll_eq, look_none now hseen hposted, if_neg hclock, conclude_unseen hseen]

end Looking

end Call

namespace Session
variable {σ : Type} [Chip σ] {s : Session σ} {h : Handle} {action : Action σ}
  {actions : List (Action σ)}

/-! ### What takes away what is posted -/

/-- Takes away whatever is posted for a slot: a bind or a listen that begins there, or a caller
of the slot that comes back or has a look. -/
inductive Withdraws (s : Session σ) (h : Handle) : Action σ → Prop where
  | bind (address : Endpoint) (hadmits : s.adapter.Admits h .bind) :
      Withdraws s h (.bind h (.v4 address))
  | listen (backlog : UInt8) (hkind : s.adapter.table.kind? h = some .stream)
      (hadmits : s.adapter.Admits h .listen) : Withdraws s h (.listen h backlog)
  | poll {id : Nat} {c : Call} (hc : s.find? id = some (.call c)) (hhandle : c.socket.handle = h) :
      Withdraws s h (.poll id)
  | contend {id : Nat} {c : Call} (hc : s.find? id = some (.call c))
      (hhandle : c.socket.handle = h) (hseen : c.seen? = none) : Withdraws s h (.contend id)

/-- Something is posted for a slot. -/
def Posted (s : Session σ) (h : Handle) : Prop := (s.adapter.completions.get h).isSome = true

instance (s : Session σ) (h : Handle) : Decidable (s.Posted h) :=
  inferInstanceAs (Decidable (_ = _))

/-- What is posted stays, unless it is withdrawn. -/
theorem posted_perform (hs : s.adapter.Steady) (hposted : s.Posted h)
    (hno : ¬ s.Withdraws h action) : (s.perform action).2.Posted h := by
  have hsame (heq : (s.perform action).2.adapter = s.adapter) : (s.perform action).2.Posted h := by
    unfold Posted
    rwa [heq]
  by_cases hsite : s.site? action = some h
  · cases action with
    | close k => exact (Adapter.posts_close s.adapter k).isSome hposted
    | bind k address =>
      cases hsite
      refine hsame ?_
      rw [show (s.perform (.bind h address)).2.adapter = _ from adapter_ofBegun s _]
      refine Call.bind_refused address ?_ s.clock
      rintro peer rfl hadmits
      exact hno (.bind peer hadmits)
    | listen k backlog =>
      cases hsite
      refine hsame ?_
      rw [show (s.perform (.listen h backlog)).2.adapter = _ from adapter_ofBegun s _]
      exact Call.listen_refused backlog (fun hkind hadmits => hno (.listen backlog hkind hadmits))
        s.clock
    | poll id =>
      obtain ⟨c, hc, hhandle⟩ := exists_call_of_site hsite
      exact absurd (.poll hc hhandle) hno
    | contend id =>
      obtain ⟨c, hc, hhandle⟩ := exists_call_of_site hsite
      have hseen : c.seen?.isSome = true := by
        refine Decidable.of_not_not fun hunseen => hno (.contend hc hhandle ?_)
        simpa using hunseen
      refine hsame ?_
      rw [show (s.perform (.contend id)).2.adapter = _ from adapter_ofPolled _ s id, hc]
      show (c.look s.clock s.adapter).2 = s.adapter
      rw [Call.look_seen s.clock hseen]
    | _ => cases hsite
  · exact (yields_perform s action hs).keeps (P := fun a => (a.completions.get h).isSome = true)
      (fun _ _ ha hp hab => hab.posted ha hsite hp) hs hposted

/-- Somebody withdrew what is posted for a slot, and nothing was posted there since. -/
def Withdrawn (s : Session σ) (h : Handle) (actions : List (Action σ)) : Prop :=
  ∃ before action after, actions = before ++ action :: after ∧
    (s.run before).Withdraws h action ∧
    ∀ since, since <+: after → ¬ (s.run (before ++ action :: since)).Posted h

theorem Withdrawn.snoc (h' : s.Withdrawn h actions)
    (hgone : ¬ (s.run (actions ++ [action])).Posted h) : s.Withdrawn h (actions ++ [action]) := by
  obtain ⟨before, first, after, rfl, hwithdraws, hsince⟩ := h'
  rw [List.append_assoc, List.cons_append] at hgone ⊢
  refine ⟨before, first, after ++ [action], rfl, hwithdraws, fun since hpre => ?_⟩
  rcases List.prefix_concat_iff.mp hpre with rfl | hpre
  · exact hgone
  · exact hsince since hpre

/-- Something is posted as long as what was posted was not withdrawn. -/
theorem posted_iff_not_withdrawn (hs : s.adapter.Steady) (hposted : s.Posted h)
    (actions : List (Action σ)) : (s.run actions).Posted h ↔ ¬ s.Withdrawn h actions := by
  constructor
  · rintro hstill ⟨before, action, after, rfl, -, hsince⟩
    exact hsince after (List.prefix_refl _) hstill
  · induction actions using List.reverseRecOn with
    | nil => exact fun _ => hposted
    | append_singleton actions action ih =>
      intro hno
      refine Decidable.of_not_not fun hgone => hno ?_
      by_cases hbefore : (s.run actions).Posted h
      · -- It was there up to the last action, so that one withdrew it.
        refine ⟨actions, action, [], rfl, ?_, fun since hpre => ?_⟩
        · refine Classical.byContradiction fun hkept => hgone ?_
          rw [run_snoc]
          exact posted_perform (steady_run hs actions) hbefore hkept
        · rw [List.prefix_nil.mp hpre]
          exact hgone
      · exact (Classical.byContradiction fun h' => hbefore (ih h')).snoc hgone

/-! ### The poll after the close -/

/-- The close of a socket on which a caller waits posts an abort. -/
theorem posted_close (hmarked : (s.adapter.table.get? h).any (·.waiting) = true) :
    (s.perform (.close h)).2.Posted h := by
  obtain ⟨r, hr, hwaiting⟩ := (Option.any_eq_true _ _).mp hmarked
  show ((s.adapter.close h).completions.get h).isSome = true
  rw [Adapter.completions_close s.adapter hr, if_pos hwaiting, Slots.get_set_self]
  rfl

/-- The poll of a call that is not due changes nothing. -/
theorem perform_poll_of_not_due {id : Nat} {c : Call} (hc : s.find? id = some (.call c))
    (hearly : ¬ c.Due s.clock s.adapter) :
    (s.perform (.poll id)).1 = .nothing ∧ (s.perform (.poll id)).2.adapter = s.adapter ∧
      (s.perform (.poll id)).2.find? id = some (.call c) := by
  have hpoll : (Task.call c).poll s.clock s.adapter = (.waiting (.call c), s.adapter) := by
    show (Task.ofCall (c.poll s.clock s.adapter).1, (c.poll s.clock s.adapter).2) = _
    rw [Call.poll_of_not_due hearly]
    rfl
  have heq : s.poll id = (none, s.replace id (.call c)) := by
    unfold poll pollWith
    rw [hc]
    dsimp only
    rw [hpoll]
  refine ⟨?_, ?_, ?_⟩
  · show (Reply.ofPolled (s.poll id)).1 = _
    rw [heq]
    rfl
  · show (Reply.ofPolled (s.poll id)).2.adapter = _
    rw [heq]
    rfl
  · show (Reply.ofPolled (s.poll id)).2.find? id = _
    rw [heq]
    show (s.replace id (.call c)).find? id = _
    rw [find?_replace, hc, Option.map_some, if_pos rfl]

/-- A socket is closed while a caller is parked on it, and anything may happen after that, also to
a new occupant of the slot. The caller's next poll tells it that the connection was aborted just
if it has seen an outcome by then, or what was posted for the slot was not withdrawn, or its time is
up. Otherwise the poll changes nothing and the caller goes on waiting. -/
theorem woken_by_close_iff (chip : σ) (packets : Nat) (config : Config)
    {before after : List (Action σ)} {id : Nat} {c d : Call}
    (hbrief : (new chip packets config).Brief (before ++ .close c.socket.handle :: after))
    (hc : ((new chip packets config).run before).find? id = some (.call c))
    (hcurrent : ((new chip packets config).run before).adapter.table.isCurrent c.socket = true)
    (hd : ((new chip packets config).run (before ++ .close c.socket.handle :: after)).find? id =
      some (.call d)) :
    let closed := (new chip packets config).run (before ++ [.close c.socket.handle])
    let s := (new chip packets config).run (before ++ .close c.socket.handle :: after)
    let told := d.seen?.isSome = true ∨ ¬ closed.Withdrawn c.socket.handle after ∨
      d.deadline ≤ s.clock
    ((s.perform (.poll id)).1 = .finished (.call (.error .connectionAborted)) ↔ told) ∧
      (¬ told → (s.perform (.poll id)).1 = .nothing ∧
        (s.perform (.poll id)).2.adapter = s.adapter ∧
        (s.perform (.poll id)).2.find? id = some (.call d)) := by
  intro closed s told
  have hbrief' := hbrief
  rw [List.append_cons] at hbrief'
  have hclosed := minded_run chip packets config hbrief'.prefix
  -- At the close somebody waited, so an abort was posted for the caller.
  have hposted : closed.Posted c.socket.handle := by
    have hmarked := (minded_run chip packets config hbrief'.prefix.prefix).marked hc hcurrent
    show ((new chip packets config).run (before ++ [_])).Posted _
    rw [run_snoc]
    exact posted_close hmarked
  have hsocket : c.socket = d.socket := by
    have hlater := hd
    rw [run_append] at hlater
    obtain ⟨e, he, hsame⟩ := parked_before
      (numbered_run (numbered_new chip packets config) before id _ hc) hlater
    cases hc.symm.trans he
    exact hsame
  have hrun : s = closed.run after := by
    show (new chip packets config).run (before ++ _ :: after) = _
    rw [List.append_cons, run_append]
  have hdue : d.Due s.clock s.adapter ↔ told := by
    have hstill := posted_iff_not_withdrawn
      (steady_run (Adapter.steady_new chip packets config) _) hposted after
    rw [← hrun] at hstill
    show d.Due s.clock s.adapter ↔ _ ∨ _ ∨ _
    rw [← hstill, hsocket]
    rfl
  have hstale := stale_of_closed (Adapter.steady_new chip packets config)
    (numbered_new chip packets config) hbrief hclosed hc hd
  obtain ⟨p, hp⟩ := ((minded_run chip packets config hbrief).tended id d hd).purpose
  obtain ⟨-, houtcome, -⟩ := Call.poll_stale hp hstale s.clock
  rw [← hdue]
  refine ⟨⟨fun htold => ?_, fun htold => ?_⟩, perform_poll_of_not_due hd⟩
  · refine Decidable.of_not_not fun hearly => ?_
    cases (perform_poll_of_not_due hd hearly).1.symm.trans htold
  · have hfinished : (s.poll id).1 = some (.call (.error .connectionAborted)) := by
      rw [poll_call_fst hd, houtcome, if_pos htold]
    exact Reply.ofPolled_fst hfinished

/-- The slot is taken into use again, but its new occupant is not bound yet, so no listen begins
there: the abort is still posted when the caller comes. -/
theorem woken_by_close_reopened :
    let before := [.create .inet .stream, .bind 0 (.v4 ⟨⟨10, 0, 0, 1⟩, 80⟩)]
    let after := [.create .inet .stream, .listen 0 4]
    let s := (new ScriptedChip.new 4 .defaults).run (before ++ .close 0 :: after)
    (new ScriptedChip.new 4 .defaults).Brief (before ++ .close 0 :: after) ∧
      s.adapter.table.isOpen 0 = true ∧ s.clock < 1000 ∧
      (s.perform (.poll 0)).1 = .finished (.call (.error .connectionAborted)) := by
  intro before after s
  have hbrief : (new ScriptedChip.new 4 .defaults).Brief (before ++ .close 0 :: after) :=
    brief_of_openings (Adapter.steady_new ..) (by decide)
  let closed := (new ScriptedChip.new 4 .defaults).run (before ++ [.close 0])
  have hkept : ¬ closed.Withdrawn 0 after :=
    (posted_iff_not_withdrawn (steady_run (Adapter.steady_new ..) _) (by decide) after).mp (by decide)
  let c : Call := ⟨some .bind, ⟨0, 1⟩, 1000, none⟩
  have hc : ((new ScriptedChip.new 4 .defaults).run before).find? 0 = some (.call c) := rfl
  have hd : s.find? 0 = some (.call c) := rfl
  have hwoken := woken_by_close_iff ScriptedChip.new 4 .defaults hbrief hc rfl hd
  exact ⟨hbrief, rfl, by decide, hwoken.1.mpr (.inr (.inl hkept))⟩

/-- A caller waits for the end of a listen when its socket is closed. The new occupant of the slot
is to be bound before the caller comes back, and the bind starts by emptying the cell: the caller
is not told, and goes on waiting. -/
theorem woken_by_close_rebound :
    ¬ ∀ (before after : List (Action ScriptedChip)) (id : Nat) (c d : Call),
      let start := new ScriptedChip.new 4 .defaults
      let s := start.run (before ++ .close c.socket.handle :: after)
      start.Brief (before ++ .close c.socket.handle :: after) →
      (start.run before).find? id = some (.call c) →
      (start.run before).adapter.table.isCurrent c.socket = true →
      s.find? id = some (.call d) →
      (s.perform (.poll id)).1 = .finished (.call (.error .connectionAborted)) := by
  intro halways
  let bind : Action ScriptedChip := .bind 0 (.v4 ⟨⟨10, 0, 0, 1⟩, 80⟩)
  let before := [.create .inet .stream, bind, .dispatch (.socket 0 (.bound .success)), .poll 0,
    .listen 0 4]
  let after := [.create .inet .stream, bind]
  let c : Call := ⟨some .listen, ⟨0, 1⟩, 1000, none⟩
  have hbrief : (new ScriptedChip.new 4 .defaults).Brief (before ++ .close 0 :: after) :=
    brief_of_openings (Adapter.steady_new ..) (by decide)
  have hc : ((new ScriptedChip.new 4 .defaults).run before).find? 1 = some (.call c) := by decide
  let s := (new ScriptedChip.new 4 .defaults).run (before ++ .close 0 :: after)
  have hd : s.find? 1 = some (.call c) := by decide
  have htold := halways before after 1 c c hbrief hc (by decide) hd
  have hsilent : (s.perform (.poll 1)).1 = .nothing :=
    (perform_poll_of_not_due hd (by decide)).1
  cases hsilent.symm.trans htold

end Session

end WifiAdapter
