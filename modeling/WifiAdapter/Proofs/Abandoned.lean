import WifiAdapter.Proofs.Expiring
import WifiAdapter.Proofs.Records
import WifiAdapter.Proofs.Refusals
import WifiAdapter.Proofs.Starving

/-! A mark that outlives its caller.

A caller that begins to wait marks the slot, and takes the mark away when it learns its result.
Nothing else in a history sets a mark or takes one away, but for a close, which frees the slot
(`Session.Marking`). A caller that is dropped while it waits never learns its result: its mark
stays, and it keeps away everybody who could take it away (`Session.Deserted`).

`turned_away_iff`: a bind or a listen is turned away just if a call is parked on the socket, or one
that was parked on it was dropped and the socket was not closed since. -/
namespace WifiAdapter

namespace SocketTable
variable {t t' : SocketTable} {h : Handle} {i : Incarnation}

/-- The slot is marked as waited on. -/
def Marked (t : SocketTable) (h : Handle) : Prop := (t.get? h).any (·.waiting) = true

theorem marked_of_get? {r : SocketRecord} (hr : t.get? h = some r) :
    t.Marked h ↔ r.waiting = true := by
  unfold Marked
  rw [hr]
  rfl

theorem not_marked_of_free (hfree : t.get? h = none) : ¬ t.Marked h := by
  unfold Marked
  rw [hfree]
  nofun

theorem Marked.isOpen (hmarked : t.Marked h) : t.isOpen h = true := by
  obtain ⟨r, hr, -⟩ := (Option.any_eq_true _ _).mp hmarked
  unfold SocketTable.isOpen
  rw [hr]
  rfl

/-- The mark of a slot stays as it is, and so does who is in the slot. -/
structure Retains (t : SocketTable) (h : Handle) (t' : SocketTable) : Prop where
  marked : t'.Marked h ↔ t.Marked h
  occupant : t.isOpen h = true → t'.isOpen h = true ∧ t'.generation h = t.generation h

theorem Retains.refl (t : SocketTable) (h : Handle) : t.Retains h t :=
  ⟨.rfl, fun hopen => ⟨hopen, rfl⟩⟩

theorem Retains.of_eq (heq : t' = t) : t.Retains h t' := heq ▸ .refl t h

/-- Nobody is in the slot, and there is no mark afterwards. -/
theorem Retains.of_free (hfree : t.get? h = none) (hunmarked : ¬ t'.Marked h) : t.Retains h t' where
  marked := iff_of_false hunmarked (not_marked_of_free hfree)
  occupant hopen := by
    rw [SocketTable.isOpen, hfree] at hopen
    cases hopen

theorem Retains.trans {t'' : SocketTable} (hfirst : t.Retains h t') (hthen : t'.Retains h t'') :
    t.Retains h t'' where
  marked := hthen.marked.trans hfirst.marked
  occupant hopen := by
    obtain ⟨hopen', hgeneration⟩ := hfirst.occupant hopen
    obtain ⟨hopen'', hgeneration'⟩ := hthen.occupant hopen'
    exact ⟨hopen'', hgeneration'.trans hgeneration⟩

theorem Retains.isCurrent (hretains : t.Retains h t') (hopen : t.isOpen h = true)
    (hi : i.handle = h) : t'.isCurrent i = t.isCurrent i := by
  obtain ⟨hopen', hgeneration⟩ := hretains.occupant hopen
  unfold SocketTable.isCurrent
  rw [hi, hopen, hopen', hgeneration]

/-- A change of a record that leaves the mark alone. -/
theorem retains_modify (t : SocketTable) (h k : Handle) {f : SocketRecord → SocketRecord}
    (hf : ∀ r, (f r).waiting = r.waiting) : t.Retains k (t.modify h f) where
  marked := by
    unfold Marked
    rw [get?_modify]
    split
    · cases t.get? k with
      | none => rfl
      | some r => simp [hf]
    · rfl
  occupant hopen := by simpa using hopen

end SocketTable

/-- The chip refuses commands for causes of its own. -/
theorem Status.refusal_ne_again (s : Status) : s.refusal ≠ .again := by
  unfold Status.refusal Status.error?
  split <;> nofun

/-! ### Steps -/

namespace Adapter
variable {σ : Type} {D : Deed → Prop} {site? : Option Handle} {a b : Adapter σ} {h : Handle}
  {r r' : SocketRecord}

theorem Revision.waiting (hrevision : Revision D site? a h r r') (hsite : site? ≠ some h) :
    r'.waiting = r.waiting := by
  cases hrevision with
  | mark hsite' => exact absurd hsite' hsite
  | complete _ _ _ starts => cases starts <;> rfl
  | _ => rfl

theorem Fresh.unmarked (hfresh : a.Fresh r) : r.waiting = false := by
  cases hfresh <;> rfl

section Steps
variable [Chip σ]

/-- Only a call on the socket, or a close of it, touches its mark or changes who is in the slot. -/
theorem Step.retains_mark (hab : Step D site? a b) (ha : a.Steady) (hsite : site? ≠ some h) :
    a.table.Retains h b.table := by
  cases hab.slot ha h with
  | free hfree hfree' => exact .of_free hfree (SocketTable.not_marked_of_free hfree')
  | opened hfree hr hfresh =>
    refine .of_free hfree fun hmarked => ?_
    rw [SocketTable.marked_of_get? hr, hfresh.unmarked] at hmarked
    cases hmarked
  | closed hsite' => exact absurd hsite' hsite
  | revised hr hr' hgeneration hrevision =>
    refine ⟨?_, fun _ => ⟨?_, hgeneration⟩⟩
    · rw [SocketTable.marked_of_get? hr, SocketTable.marked_of_get? hr', hrevision.waiting hsite]
    · rw [SocketTable.isOpen, hr']
      rfl

theorem Steps.retains_mark (hab : Steps D site? a b) (ha : a.Steady) (hsite : site? ≠ some h) :
    a.table.Retains h b.table := by
  induction hab with
  | refl => exact .refl _ _
  | tail hsteps hstep ih => exact ih.trans (hstep.retains_mark (Steps.steady hsteps ha) hsite)

end Steps

/-! ### Calls -/

theorem retains_settleCall (a : Adapter σ) (c : Call) (result : Except SocketError Unit)
    (h : Handle) : a.table.Retains h (a.settleCall c result).table := by
  unfold settleCall
  split
  · exact SocketTable.retains_modify _ _ _ fun _ => rfl
  · exact .refl _ _

/-- A call takes the mark of its own socket away with its result, and that of no other. -/
theorem mark_finishCall (a : Adapter σ) (c : Call) (outcome : Option Status) :
    if a.table.isCurrent c.socket then
      ¬ (a.finishCall c outcome).2.table.Marked c.socket.handle
    else a.table.Retains c.socket.handle (a.finishCall c outcome).2.table := by
  unfold finishCall
  dsimp only
  cases hcurrent : a.table.isCurrent c.socket with
  | false => exact retains_settleCall (a.disarm c.socket.handle) c _ _
  | true =>
    simp only [if_true]
    rw [(retains_settleCall _ c _ c.socket.handle).marked]
    obtain ⟨r, hr⟩ := Option.isSome_iff_exists.mp (SocketTable.isCurrent_iff.mp hcurrent).1
    have hmodified : ((a.disarm c.socket.handle).modify c.socket.handle
        fun r => { r with waiting := false }).table.get? c.socket.handle =
          some { r with waiting := false } := SocketTable.get?_modify_self hr
    rw [SocketTable.marked_of_get? hmodified]
    nofun

/-- Nobody is told to try again but for a mark. -/
theorem marked_of_again [Chip σ] {purpose : Purpose} {command : Command}
    (hagain : a.beginCall h purpose command = (.error .again, b)) : a.table.Marked h := by
  unfold beginCall SocketTable.get at hagain
  cases hr : a.table.get? h with
  | none =>
    rw [hr] at hagain
    cases hagain
  | some r =>
    rw [hr] at hagain
    dsimp only at hagain
    split at hagain
    · next hwaiting => exact (SocketTable.marked_of_get? hr).mpr hwaiting
    · split at hagain
      · cases hagain
      · split at hagain
        · cases hagain
        · exact absurd (Except.error.inj (congrArg Prod.fst hagain)) (Status.refusal_ne_again _)

end Adapter

namespace Call
variable {σ : Type} {a : Adapter σ} {c : Call} {now : Nat} {h : Handle}

theorem seen_of_due (hdue : c.Due now a) : ∃ outcome, (c.look now a).1.seen? = some outcome := by
  refine Option.ne_none_iff_exists'.mp fun hunseen => ?_
  obtain ⟨hseen, hposted, hsame⟩ := look_unseen now hunseen
  rcases hdue with hdue | hdue | hdue
  · rw [hseen] at hdue
    cases hdue
  · rw [hposted] at hdue
    cases hdue
  · rw [look_none now hseen hposted, if_pos hdue] at hunseen
    cases hunseen

/-- So it is with the poll at which a call is due. -/
theorem mark_poll (hdue : c.Due now a) :
    if a.table.isCurrent c.socket then ¬ (c.poll now a).2.table.Marked c.socket.handle
    else a.table.Retains c.socket.handle (c.poll now a).2.table := by
  obtain ⟨outcome, hseen⟩ := seen_of_due hdue
  obtain ⟨hsocket, -, htable⟩ := c.look_keeps now (a := a)
  have hmark := (c.look now a).2.mark_finishCall (c.look now a).1 outcome
  rw [hsocket, htable] at hmark
  rw [poll_eq, conclude_seen hseen]
  exact hmark

variable [Chip σ]

theorem marked_of_begin {p : Purpose} {command : Command} (deadline : Adapter σ → Nat)
    (hagain : (match a.beginCall h p command with
      | (.error error, a) => ((.finished (.error error), a) : Outcome × Adapter σ)
      | (.ok _, a) => start (some p) h (deadline a) a).1 = .finished (.error .again)) :
    a.table.Marked h := by
  cases hbegin : a.beginCall h p command with
  | mk began b =>
    rw [hbegin] at hagain
    cases began with
    | ok value =>
      obtain ⟨c, hwaiting, -⟩ := waits_start hbegin (deadline b)
      cases hwaiting.symm.trans hagain
    | error error =>
      cases hagain
      exact Adapter.marked_of_again hbegin

theorem marked_of_bind {address : SocketAddr}
    (hagain : (bind h address now a).1 = .finished (.error .again)) : a.table.Marked h := by
  unfold bind at hagain
  split at hagain
  · cases hagain
  · exact marked_of_begin (fun a => now + a.config.bindTimeout) hagain

theorem marked_of_listen {backlog : UInt8}
    (hagain : (listen h backlog now a).1 = .finished (.error .again)) : a.table.Marked h := by
  unfold listen at hagain
  split at hagain
  · next error hget =>
    unfold SocketTable.get at hget
    split at hget <;> cases hget
    cases hagain
  · split at hagain
    · cases hagain
    · exact marked_of_begin (fun a => now + a.config.listenTimeout) hagain

end Call

/-! ### Actions -/

namespace Session
variable {σ : Type} {s : Session σ} {h : Handle}

/-- A call is parked on the socket that is in the slot now. -/
def WaitedOn (s : Session σ) (h : Handle) : Prop :=
  ∃ id c, s.find? id = some (.call c) ∧ c.socket.handle = h ∧
    s.adapter.table.isCurrent c.socket = true

theorem Numbered.find?_nextTask (hs : s.Numbered) : s.find? s.nextTask = none :=
  Option.eq_none_iff_forall_ne_some.mpr fun t ht => Nat.lt_irrefl _ (hs _ t ht)

/-- A bind or a listen either leaves the mark alone, or parks its caller where there was none. -/
theorem retains_or_parks (hs : s.Numbered) {f : Nat → Adapter σ → Call.Outcome × Adapter σ}
    (hbegun : Call.Begun h s.adapter (f s.clock s.adapter))
    (habstains : Call.Abstains s.adapter (f s.clock s.adapter)) :
    let s' := (Reply.ofBegun (s.begin fun now a => (Task.ofCall (f now a).1, (f now a).2))).2
    s.adapter.table.Retains h s'.adapter.table ∨ (¬ s.adapter.table.Marked h ∧ s'.WaitedOn h) := by
  intro s'
  have hs' : s' = (s.begin fun now a => (Task.ofCall (f now a).1, (f now a).2)).2 :=
    Reply.ofBegun_snd _
  rw [hs']
  unfold begin
  revert hbegun habstains
  dsimp only
  generalize f s.clock s.adapter = first
  obtain ⟨outcome, b⟩ := first
  intro hbegun habstains
  cases outcome with
  | finished result => exact .inl (.of_eq (habstains result rfl).table)
  | waiting c =>
    obtain ⟨hhandle, hwaits⟩ := hbegun.waits c rfl
    refine .inr ⟨fun hmarked => ?_, s.nextTask, c, ?_, hhandle, hwaits.current⟩
    · obtain ⟨-, result, hfinished⟩ := hbegun.busy hmarked
      cases hfinished
    · exact (find?_park _ _ _).trans
        ((congrArg (Option.or · _) hs.find?_nextTask).trans (if_pos rfl))

variable [Chip σ] {action : Action σ} {id : Nat} {c : Call}

/-- What an action other than a close does to the mark of a slot. -/
inductive Marking (s : Session σ) (action : Action σ) (h : Handle) : Prop where
  | kept (hretains : s.adapter.table.Retains h (s.perform action).2.adapter.table)
  /-- A caller begins to wait where there was no mark. -/
  | set (hfree : ¬ s.adapter.table.Marked h) (hafter : (s.perform action).2.WaitedOn h)
  /-- The caller that waits there learns its result. -/
  | taken (hbefore : s.WaitedOn h) (hafter : ¬ (s.perform action).2.adapter.table.Marked h)

theorem marking_perform (hs : s.adapter.Steady) (hnumbered : s.Numbered)
    (hclose : action ≠ .close h) : s.Marking action h := by
  by_cases hsite : s.site? action = some h
  · cases action with
    | close k => exact absurd (congrArg Action.close (Option.some.inj hsite)) hclose
    | bind k address =>
      cases hsite
      rcases retains_or_parks hnumbered (Call.begun_bind h address s.clock s.adapter)
        (Call.abstains_bind h address _ _) with hkept | ⟨hfree, hafter⟩
      · exact .kept hkept
      · exact .set hfree hafter
    | listen k backlog =>
      cases hsite
      rcases retains_or_parks hnumbered (Call.begun_listen h backlog s.clock s.adapter)
        (Call.abstains_listen h backlog _ _) with hkept | ⟨hfree, hafter⟩
      · exact .kept hkept
      · exact .set hfree hafter
    | poll id =>
      obtain ⟨c, hc, rfl⟩ := exists_call_of_site hsite
      by_cases hdue : c.Due s.clock s.adapter
      · have hmark := Call.mark_poll hdue
        rw [← adapter_poll_call hc] at hmark
        split at hmark
        · next hcurrent => exact .taken ⟨id, c, hc, rfl, hcurrent⟩ hmark
        · exact .kept hmark
      · exact .kept (.of_eq (congrArg Adapter.table (perform_poll_of_not_due hc hdue).2.1))
    | contend id =>
      obtain ⟨c, hc, rfl⟩ := exists_call_of_site hsite
      exact .kept (.of_eq (table_contend_call hc))
    | _ => cases hsite
  · exact .kept ((yields_perform s action hs).retains_mark hs hsite)

/-- A call stays parked until a poll at which it is due, if it is not dropped. -/
theorem find?_call_perform (hc : s.find? id = some (.call c)) (hcancel : action ≠ .cancel id) :
    (∃ d, (s.perform action).2.find? id = some (.call d) ∧ d.socket = c.socket) ∨
      action = .poll id ∧ c.Due s.clock s.adapter := by
  by_cases htends : action.Tends id
  · cases action with
    | poll k =>
      cases htends
      by_cases hdue : c.Due s.clock s.adapter
      · exact .inr ⟨rfl, hdue⟩
      · exact .inl ⟨c, (perform_poll_of_not_due hc hdue).2.2, rfl⟩
    | contend k =>
      cases htends
      exact .inl ⟨_, (perform_contend_call hc).2, (c.look_keeps s.clock (a := s.adapter)).1⟩
    | cancel k =>
      cases htends
      exact absurd rfl hcancel
    | _ => cases htends
  · exact .inl ⟨c, find?_perform_of_find? htends hc, rfl⟩

/-- As long as there is a mark, the call that waits there stays parked if it is not dropped. -/
theorem waitedOn_perform (hc : s.find? id = some (.call c))
    (hcurrent : s.adapter.table.isCurrent c.socket = true) (hcancel : action ≠ .cancel id)
    (hretains : s.adapter.table.Retains c.socket.handle (s.perform action).2.adapter.table)
    (hmarked : (s.perform action).2.adapter.table.Marked c.socket.handle) :
    (s.perform action).2.WaitedOn c.socket.handle := by
  rcases find?_call_perform hc hcancel with ⟨d, hd, hsocket⟩ | ⟨rfl, hdue⟩
  · refine ⟨id, d, hd, congrArg Incarnation.handle hsocket, ?_⟩
    rw [hsocket, hretains.isCurrent (SocketTable.isCurrent_iff.mp hcurrent).1 rfl]
    exact hcurrent
  · -- The call is finished, and its mark is gone.
    have hmark := Call.mark_poll hdue
    rw [if_pos hcurrent, ← adapter_poll_call hc] at hmark
    exact absurd hmarked hmark

/-! ### Histories -/

/-- A call that was parked on the socket in a slot was dropped, and the slot was not closed
since. -/
def Abandoned (s : Session σ) (actions : List (Action σ)) (h : Handle) : Prop :=
  ∃ before id after c, actions = before ++ .cancel id :: after ∧
    (s.run before).find? id = some (.call c) ∧ c.socket.handle = h ∧
    (s.run before).adapter.table.isCurrent c.socket = true ∧ .close h ∉ after

theorem Abandoned.snoc {actions : List (Action σ)} (habandoned : s.Abandoned actions h)
    (hclose : action ≠ .close h) : s.Abandoned (actions ++ [action]) h := by
  obtain ⟨before, id, after, c, rfl, hc, hhandle, hcurrent, hopen⟩ := habandoned
  refine ⟨before, id, after ++ [action], c, by simp, hc, hhandle, hcurrent, fun hmem => ?_⟩
  rcases List.mem_append.mp hmem with hmem | hmem
  · exact hopen hmem
  · exact hclose (List.mem_singleton.mp hmem).symm

theorem unmarked_close (s : Session σ) (h : Handle) :
    ¬ (s.perform (.close h)).2.adapter.table.Marked h := fun hmarked =>
  Bool.false_ne_true ((Adapter.isOpen_close s.adapter h).symm.trans hmarked.isOpen)

/-- Where there is a mark, a caller is parked or one was dropped. -/
theorem waited_or_abandoned (hs : s.adapter.Steady) (hnumbered : s.Numbered)
    (hnone : ∀ h, ¬ s.adapter.table.Marked h) (actions : List (Action σ))
    (hmarked : (s.run actions).adapter.table.Marked h) :
    (s.run actions).WaitedOn h ∨ s.Abandoned actions h := by
  induction actions using List.reverseRecOn with
  | nil => exact absurd hmarked (hnone h)
  | append_singleton actions action ih =>
    rw [run_snoc] at hmarked ⊢
    by_cases hclose : action = .close h
    · subst hclose
      exact absurd hmarked (unmarked_close _ h)
    · cases marking_perform (steady_run hs actions) (numbered_run hnumbered actions) hclose with
      | set _ hafter => exact .inl hafter
      | taken _ hafter => exact absurd hmarked hafter
      | kept hretains =>
        rcases ih (hretains.marked.mp hmarked) with ⟨id, c, hc, rfl, hcurrent⟩ | habandoned
        · by_cases hcancel : action = .cancel id
          · subst hcancel
            exact .inr ⟨actions, id, [], c, rfl, hc, rfl, hcurrent, List.not_mem_nil⟩
          · exact .inl (waitedOn_perform hc hcurrent hcancel hretains hmarked)
        · exact .inr (habandoned.snoc hclose)

/-- The slot is marked, and nobody waits there. -/
structure Deserted (s : Session σ) (h : Handle) : Prop where
  marked : s.adapter.table.Marked h
  alone : ¬ s.WaitedOn h

/-- Only a close of the slot ends this. -/
theorem Deserted.perform (hdeserted : s.Deserted h) (hs : s.adapter.Steady)
    (hnumbered : s.Numbered) (hclose : action ≠ .close h) :
    (s.perform action).2.Deserted h := by
  cases marking_perform hs hnumbered hclose with
  | set hfree => exact absurd hdeserted.marked hfree
  | taken hbefore => exact absurd hbefore hdeserted.alone
  | kept hretains =>
    refine ⟨hretains.marked.mpr hdeserted.marked, ?_⟩
    rintro ⟨id, c, hc, rfl, hcurrent⟩
    rcases parked_or_begun hc with ⟨d, hd, hsocket, -⟩ | ⟨-, hbegun⟩
    · refine hdeserted.alone ⟨id, d, hd, congrArg Incarnation.handle hsocket, ?_⟩
      rw [hsocket, ← hretains.isCurrent hdeserted.marked.isOpen rfl]
      exact hcurrent
    · obtain ⟨-, result, hfinished⟩ := hbegun.busy hdeserted.marked
      cases hfinished

theorem Deserted.run (hdeserted : s.Deserted h) (hs : s.adapter.Steady) (hnumbered : s.Numbered)
    {actions : List (Action σ)} (hclose : .close h ∉ actions) : (s.run actions).Deserted h := by
  induction actions generalizing s with
  | nil => exact hdeserted
  | cons action rest ih =>
    have hfirst : action ≠ .close h := (List.ne_of_not_mem_cons hclose).symm
    exact ih (hdeserted.perform hs hnumbered hfirst) (steady_perform hs action)
      (numbered_perform hnumbered action) (List.not_mem_of_not_mem_cons hclose)

/-- A call is dropped that waits on the socket in a slot. -/
theorem Minded.deserted {actions : List (Action σ)} (hminded : s.Minded actions)
    (hc : (s.run actions).find? id = some (.call c))
    (hcurrent : (s.run actions).adapter.table.isCurrent c.socket = true) :
    ((s.run actions).perform (.cancel id)).2.Deserted c.socket.handle := by
  refine ⟨hminded.marked hc hcurrent, ?_⟩
  rintro ⟨k, d, hd, hhandle, hcurrent'⟩
  change ((s.run actions).remove id).find? k = some (.call d) at hd
  rw [find?_remove] at hd
  split at hd
  · cases hd
  · next hne =>
    have hsocket : c.socket = d.socket := by
      rw [← SocketTable.incarnation_of_current hcurrent, ← hhandle]
      exact SocketTable.incarnation_of_current hcurrent'
    exact hne (hminded.apart id k c d hc hd hsocket hcurrent).symm

/-- Where a caller was dropped there is a mark, as long as the slot is not closed. -/
theorem deserted_of_abandoned (chip : σ) (packets : Nat) (config : Config)
    {actions : List (Action σ)} (hbrief : (new chip packets config).Brief actions)
    (habandoned : (new chip packets config).Abandoned actions h) :
    ((new chip packets config).run actions).Deserted h := by
  obtain ⟨before, id, after, c, rfl, hc, rfl, hcurrent, hclose⟩ := habandoned
  have hs : ∀ actions, ((new chip packets config).run actions).adapter.Steady :=
    steady_run (Adapter.steady_new chip packets config)
  have hnumbered : ∀ actions, ((new chip packets config).run actions).Numbered :=
    numbered_run (numbered_new chip packets config)
  have hdropped := (minded_run chip packets config hbrief.prefix).deserted hc hcurrent
  rw [run_append]
  exact hdropped.run (steady_perform (hs before) _) (numbered_perform (hnumbered before) _) hclose

omit [Chip σ] in
/-- A caller that is turned away is told so by the first poll. -/
theorem result_of_turnedAway {f : Nat → Adapter σ → Call.Outcome × Adapter σ}
    (haway : (Reply.ofBegun
      (s.begin fun now a => (Task.ofCall (f now a).1, (f now a).2))).1 = turnedAway) :
    (f s.clock s.adapter).1 = .finished (.error .again) := by
  have hfirst := finished_of_begin haway
  dsimp only at hfirst
  cases houtcome : (f s.clock s.adapter).1 with
  | waiting c =>
    rw [houtcome] at hfirst
    cases hfirst
  | finished result =>
    rw [houtcome] at hfirst
    cases hfirst
    rfl

/-- A bind or a listen is turned away only if a call is parked on the socket in the slot, or one
that was parked there was dropped and the slot was not closed since. And in both cases every bind
to an address of the fourth version, and every listen on a stream, is turned away at once and
changes nothing, as long as no generation comes round during a wait. -/
theorem turned_away_iff (chip : σ) (packets : Nat) (config : Config)
    (actions : List (Action σ)) (h : Handle) :
    let s := (new chip packets config).run actions
    let busy := s.WaitedOn h ∨ (new chip packets config).Abandoned actions h
    (∀ address, (s.perform (.bind h address)).1 = turnedAway → busy) ∧
    (∀ backlog, (s.perform (.listen h backlog)).1 = turnedAway → busy) ∧
    ((new chip packets config).Brief actions → busy →
      (∀ address, s.perform (.bind h (.v4 address)) = (turnedAway, s)) ∧
      (s.adapter.table.kind? h = some .stream →
        ∀ backlog, s.perform (.listen h backlog) = (turnedAway, s))) := by
  intro s busy
  have hbusy (hmarked : s.adapter.table.Marked h) : busy := by
    refine waited_or_abandoned (Adapter.steady_new chip packets config)
      (numbered_new chip packets config) (fun h => SocketTable.not_marked_of_free ?_) actions
      hmarked
    simp [new, Adapter.new, SocketTable.empty, SocketTable.get?, Slot.free]
  refine ⟨fun address haway => hbusy ?_, fun backlog haway => hbusy ?_, fun hbrief hwaits => ?_⟩
  · exact Call.marked_of_bind (result_of_turnedAway haway)
  · exact Call.marked_of_listen (result_of_turnedAway haway)
  · have hmarked : s.adapter.table.Marked h := by
      rcases hwaits with ⟨id, c, hc, rfl, hcurrent⟩ | habandoned
      · exact (minded_run chip packets config hbrief).marked hc hcurrent
      · exact (deserted_of_abandoned chip packets config hbrief habandoned).marked
    exact ⟨fun address => bind_marked address hmarked,
      fun hkind backlog => listen_marked backlog hkind hmarked⟩

/-- The caller of a bind is dropped, and then the bind succeeds: the socket is bound, and it cannot
be made to listen. -/
theorem turned_away_bound :
    let actions := [.create .inet .stream, .bind 0 (.v4 ⟨⟨10, 0, 0, 1⟩, 80⟩), .cancel 0,
      .dispatch (.socket 0 (.bound .success))]
    let s := (new ScriptedChip.new 4 .defaults).run actions
    (new ScriptedChip.new 4 .defaults).Brief actions ∧
      (new ScriptedChip.new 4 .defaults).Abandoned actions 0 ∧
      s.adapter.table.phase? 0 = some .bound ∧
      ∀ backlog, s.perform (.listen 0 backlog) = (turnedAway, s) := by
  intro actions s
  have hbrief : (new ScriptedChip.new 4 .defaults).Brief actions :=
    brief_of_openings (Adapter.steady_new ..) (by decide)
  have habandoned : (new ScriptedChip.new 4 .defaults).Abandoned actions 0 :=
    ⟨[.create .inet .stream, .bind 0 (.v4 ⟨⟨10, 0, 0, 1⟩, 80⟩)], 0,
      [.dispatch (.socket 0 (.bound .success))], ⟨some .bind, ⟨0, 1⟩, 1000, none⟩,
      rfl, rfl, rfl, rfl, by simp⟩
  obtain ⟨-, -, haway⟩ := turned_away_iff ScriptedChip.new 4 .defaults actions 0
  exact ⟨hbrief, habandoned, rfl, (haway hbrief (.inr habandoned)).2 rfl⟩

/-- A listen is turned away from a socket on which nobody waits. -/
theorem turned_away_alone :
    ¬ ∀ (actions : List (Action ScriptedChip)) (h : Handle) (backlog : UInt8),
      let s := (new ScriptedChip.new 4 .defaults).run actions
      (s.perform (.listen h backlog)).1 = turnedAway → s.WaitedOn h := by
  intro hnever
  obtain ⟨id, c, hc, -⟩ := hnever [.create .inet .stream, .bind 0 (.v4 ⟨⟨10, 0, 0, 1⟩, 80⟩),
    .cancel 0, .dispatch (.socket 0 (.bound .success))] 0 4 rfl
  cases hc

end Session

end WifiAdapter
