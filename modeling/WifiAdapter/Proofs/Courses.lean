import WifiAdapter.Proofs.Operations
import WifiAdapter.Worker

/-! Steps in a row, and the notifications handled on the way.

A tick and a turn of the worker handle notifications, as many as the chip and the queue
hold. Their moments are these notifications, each with the adapter that is to handle it; a
course (`Adapter.Course`) is made of such moments, of polls and of steps in between. -/
namespace WifiAdapter

/-- A notification about to be handled, and the adapter that is to handle it. -/
structure Moment (σ : Type) where
  adapter : Adapter σ
  note : Notification

namespace Adapter
variable {σ : Type} [Chip σ]

/-! ### Steps in a row -/

def Steps (D : Deed → Prop) (site? : Option Handle) : Adapter σ → Adapter σ → Prop :=
  Relation.ReflTransGen (Step D site?)

/-- From a steady adapter, steps lead to `b`. -/
def Yields (D : Deed → Prop) (site? : Option Handle) (a b : Adapter σ) : Prop :=
  a.Steady → Steps D site? a b

section Yields
variable {a b c : Adapter σ} {D : Deed → Prop} {site? : Option Handle}

theorem Steps.steady (h : Steps D site? a b) (ha : a.Steady) : b.Steady := by
  induction h with
  | refl => exact ha
  | tail _ hstep ih => exact hstep.steady ih

/-- What every step keeps is kept by steps in a row. -/
theorem Steps.keeps {P : Adapter σ → Prop} (h : Steps D site? a b)
    (hstep : ∀ a b : Adapter σ, a.Steady → P a → Step D site? a b → P b) (ha : a.Steady) (hp : P a) :
    P b := by
  induction h with
  | refl => exact hp
  | tail hbefore hlast ih => exact hstep _ _ (Steps.steady hbefore ha) ih hlast

theorem Yields.refl (a : Adapter σ) : Yields D site? a a := fun _ => .refl

theorem Yields.trans (h : Yields D site? a b) (h' : Yields D site? b c) : Yields D site? a c :=
  fun ha =>
    have hab := h ha
    Relation.ReflTransGen.trans hab (h' (hab.steady ha))

theorem Yields.call {h : Handle} (hcall : CallStep h a b) : Yields D (some h) a b :=
  fun _ => .single (.call rfl hcall)

theorem Leads.yields (h : Leads D a b) : Yields D site? a b := fun ha =>
  Relation.ReflTransGen.mono (fun _ _ => Step.move) _ _ (h ha)

end Yields

/-! ### Courses -/

/-- Steps from one adapter to another, with the notifications handled and the polls from the
beginning that are made on the way. -/
inductive Course (D : Deed → Prop) (site? : Option Handle) (now : Nat) (a : Adapter σ) :
    List (Moment σ) → Adapter σ → Prop where
  | refl : Course D site? now a [] a
  | step {ms : List (Moment σ)} {b c : Adapter σ} (h : Course D site? now a ms b)
      (hstep : Step D site? b c) : Course D site? now a ms c
  | handle {ms : List (Moment σ)} {b : Adapter σ} (h : Course D site? now a ms b)
      (note : Notification) : Course D site? now a (ms ++ [⟨b, note⟩]) (b.handle now note)
  | poll {ms : List (Moment σ)} {b : Adapter σ} (h : Course D site? now a ms b) :
      Course D site? now a ms b.pollIdle

/-- From a steady adapter, a course leads to `b`. -/
def Passes (D : Deed → Prop) (site? : Option Handle) (now : Nat) (ms : List (Moment σ))
    (a b : Adapter σ) : Prop :=
  a.Steady → Course D site? now a ms b

section Passes
variable {a b c : Adapter σ} {D : Deed → Prop} {site? : Option Handle} {now : Nat}
  {ms ms' : List (Moment σ)}

theorem Course.steady (h : Course D site? now a ms b) (ha : a.Steady) : b.Steady := by
  induction h with
  | refl => exact ha
  | step _ hstep ih => exact hstep.steady ih
  | handle _ note ih =>
    exact (leads_handle (D := Deed.Any) _ now note (fun _ _ => trivial) trivial ih).steady ih
  | poll _ ih => exact (leads_pollIdle (D := Deed.Any) trivial _ ih).steady ih

theorem Course.trans (h : Course D site? now a ms b) (h' : Course D site? now b ms' c) :
    Course D site? now a (ms ++ ms') c := by
  induction h' with
  | refl => simpa using h
  | step _ hstep ih => exact .step ih hstep
  | handle _ note ih =>
    rw [← List.append_assoc]
    exact .handle ih note
  | poll _ ih => exact .poll ih

theorem Passes.refl (a : Adapter σ) : Passes D site? now [] a a := fun _ => .refl

theorem Passes.trans (h : Passes D site? now ms a b) (h' : Passes D site? now ms' b c) :
    Passes D site? now (ms ++ ms') a c := fun ha =>
  have hab := h ha
  hab.trans (h' (hab.steady ha))

theorem Yields.passes (h : Yields D site? a b) : Passes D site? now [] a b := fun ha => by
  have hsteps := h ha
  clear h
  induction hsteps with
  | refl => exact .refl
  | tail _ hstep ih => exact .step ih hstep

theorem Leads.passes (h : Leads D a b) : Passes D site? now [] a b := h.yields.passes

theorem passes_handle (a : Adapter σ) (note : Notification) :
    Passes D site? now [⟨a, note⟩] a (a.handle now note) := fun _ => .handle .refl note

theorem passes_pollIdle (a : Adapter σ) : Passes D site? now [] a a.pollIdle := fun _ => .poll .refl

theorem Step.mono {D' : Deed → Prop} (h : Step D site? a b) (hD : ∀ d, D d → D' d) :
    Step D' site? a b := by
  cases h with
  | move h => exact .move (h.mono hD)
  | close hsite hd => exact .close _ hsite (hD _ hd)
  | call hsite hcall => exact .call hsite hcall

section Deeds
variable {D' : Deed → Prop} (hD : ∀ d, D d → D' d)
  (hnotes : ∀ note : Notification, ∀ d ∈ note.deed?, D' d) (hask : D' .ask)
include hD hnotes hask

/-- A course is made of steps that allow what it allows and what the notifications bring about. -/
theorem Course.steps_of (h : Course D site? now a ms b) (ha : a.Steady) : Steps D' site? a b := by
  induction h with
  | refl => exact .refl
  | step _ hstep ih => exact .tail ih (hstep.mono hD)
  | handle hcourse note ih =>
    exact Relation.ReflTransGen.trans ih
      ((leads_handle _ now note (hnotes note) hask).yields (hcourse.steady ha))
  | poll hcourse ih =>
    exact Relation.ReflTransGen.trans ih ((leads_pollIdle hask _).yields (hcourse.steady ha))

/-- The adapters that handle the notifications of a course are reached by such steps. -/
theorem Course.reaches_of (h : Course D site? now a ms b) (ha : a.Steady) {m : Moment σ}
    (hm : m ∈ ms) : Steps D' site? a m.adapter := by
  induction h with
  | refl => cases hm
  | step _ _ ih | poll _ ih => exact ih hm
  | handle hcourse note ih =>
    rcases List.mem_append.mp hm with hm | hm
    · exact ih hm
    · rw [List.mem_singleton.mp hm]
      exact hcourse.steps_of hD hnotes hask ha

/-- From where a notification has been handled such steps lead to the end of the course. -/
theorem Course.goes_on_of (h : Course D site? now a ms b) (ha : a.Steady) {m : Moment σ}
    (hm : m ∈ ms) : Steps D' site? (m.adapter.handle now m.note) b := by
  induction h with
  | refl => cases hm
  | step _ hstep ih => exact .tail (ih hm) (hstep.mono hD)
  | handle hcourse note ih =>
    rcases List.mem_append.mp hm with hm | hm
    · exact Relation.ReflTransGen.trans (ih hm)
        ((leads_handle _ now note (hnotes note) hask).yields (hcourse.steady ha))
    · rw [List.mem_singleton.mp hm]
      exact .refl
  | poll hcourse ih =>
    exact Relation.ReflTransGen.trans (ih hm) ((leads_pollIdle hask _).yields (hcourse.steady ha))

end Deeds

/-- Every course is made of steps that allow anything. -/
theorem Course.steps (h : Course D site? now a ms b) (ha : a.Steady) : Steps Deed.Any site? a b :=
  h.steps_of (fun _ _ => trivial) (fun _ _ _ => trivial) trivial ha

/-- The adapters that handle the notifications of a course are reached by steps. -/
theorem Course.reaches (h : Course D site? now a ms b) (ha : a.Steady) {m : Moment σ} (hm : m ∈ ms) :
    Steps Deed.Any site? a m.adapter :=
  h.reaches_of (fun _ _ => trivial) (fun _ _ _ => trivial) trivial ha hm

end Passes

/-! ### The tick -/

/-- The notifications that draining the chip handles. -/
def drainMoments (now : Nat) : Nat → Adapter σ → List (Moment σ)
  | 0, _ => []
  | n + 1, a =>
    match a.bus.poll with
    | none => []
    | some (note, bus) =>
      ⟨{ a with bus }, note⟩ :: drainMoments now n ({ a with bus }.handle now note)

/-- The notifications that a tick handles. -/
def tickMoments (a : Adapter σ) (now : Nat) : List (Moment σ) :=
  if a.link.armed then a.drainMoments now tickDrainMax else []

variable {D : Deed → Prop} {site? : Option Handle}

theorem passes_drainChip (now n : Nat) (a : Adapter σ) :
    Passes D site? now (a.drainMoments now n) a (drainChip now n a) := by
  induction n generalizing a with
  | zero => exact .refl a
  | succ n ih =>
    unfold drainChip drainMoments
    cases hpoll : a.bus.poll with
    | none => exact .refl a
    | some polled =>
      obtain ⟨note, bus⟩ := polled
      obtain ⟨⟨_, chip⟩, _, heq⟩ := Option.map_eq_some_iff.mp hpoll
      cases heq
      have htaken : Passes D site? now [] a { a with bus := { a.bus with chip } } :=
        (Leads.chore (.chip a chip)).passes
      exact htaken.trans ((passes_handle _ note).trans (ih _))

/-- The adapter that has handled what the chip held, about to look at the link. -/
def caughtUp (a : Adapter σ) (now : Nat) : Adapter σ :=
  if a.link.armed then a.drainChip now tickDrainMax else a

theorem passes_caughtUp (a : Adapter σ) (now : Nat) :
    Passes D site? now (a.tickMoments now) a (a.caughtUp now) := by
  unfold tickMoments caughtUp
  split
  · exact passes_drainChip now _ a
  · exact .refl a

/-- The adapter is steady before a tick turns to receiving. -/
theorem steady_looked {a : Adapter σ} (ha : a.Steady) (now : Nat) :
    ((a.caughtUp now).withStation fun s => ((), s.tick now)).2.Steady := by
  have hcourse : Course Deed.Any none now a (a.tickMoments now) (a.caughtUp now) :=
    passes_caughtUp a now ha
  have hlook : Leads Deed.Any (a.caughtUp now)
      ((a.caughtUp now).withStation fun s => ((), s.tick now)).2 :=
    leads_withStation _ (fun s => s.acts_tick now) trivial
  exact (hlook (hcourse.steady ha)).steady (hcourse.steady ha)

theorem passes_tick (a : Adapter σ) (now : Nat) (hd : D .link) :
    Passes D site? now (a.tickMoments now) a (a.tick now) := by
  have hdrained : Passes D site? now (a.tickMoments now) a (a.caughtUp now) := passes_caughtUp a now
  have hlook : Leads D (a.caughtUp now) ((a.caughtUp now).withStation fun s => ((), s.tick now)).2 :=
    leads_withStation _ (fun s => s.acts_tick now) hd
  have hrest : Passes D site? now [] (a.caughtUp now) (a.tick now) :=
    hlook.passes.trans (passes_pollIdle _)
  have := hdrained.trans hrest
  rwa [List.append_nil] at this

end Adapter

/-! ### The worker -/

namespace Worker
variable {σ : Type} [Chip σ]

/-- What the turns of a worker contribute, one after another. -/
def gather {α : Type} (f : Worker → Adapter σ → List α) (now : Nat) :
    Nat → Worker → Adapter σ → List α
  | 0, _, _ => []
  | n + 1, w, a =>
    match turn now w a with
    | some (w', b) => f w a ++ gather f now n w' b
    | none => []

/-- The notifications that a turn handles. -/
def turnMoments (now : Nat) (w : Worker) (a : Adapter σ) : List (Moment σ) :=
  match w with
  | .handling _ note => [⟨a, note⟩]
  | .ticking => a.tickMoments now
  | _ => []

/-- The notifications that a worker handles when it is polled. -/
def pollMoments (w : Worker) (now : Nat) (a : Adapter σ) : List (Moment σ) :=
  gather (turnMoments now) now (enough a) w a

/-- The adapter after a turn, if the turn is a tick. -/
def turnTicks (now : Nat) (w : Worker) (a : Adapter σ) : List (Adapter σ) :=
  match w with
  | .ticking => [a.tick now]
  | _ => []

/-- The adapter after every tick that a worker makes when it is polled. -/
def pollTicks (w : Worker) (now : Nat) (a : Adapter σ) : List (Adapter σ) :=
  gather (turnTicks now) now (enough a) w a

variable {D : Deed → Prop} {site? : Option Handle}

omit [Chip σ] in
/-- What is taken in hand is the oldest notification, or without any it is a tick. -/
theorem take?_cases {now nextTick : Nat} {looked : Bool} {a b : Adapter σ} {w : Worker}
    (h : take? now nextTick looked a = some (w, b)) :
    (∃ note notifications, a.notifications.pop? = some (note, notifications) ∧
      w = .handling nextTick note ∧ b = { a with notifications }) ∨
    a.notifications.pop? = none ∧ w = .ticking ∧ ∃ kicked, b = { a with kicked } := by
  unfold take? at h
  split at h
  · next note notifications hpop =>
    cases h
    exact .inl ⟨note, notifications, hpop, rfl, rfl⟩
  · next hpop =>
    split at h
    · cases h
      exact .inr ⟨hpop, rfl, false, rfl⟩
    · split at h
      · cases h
        exact .inr ⟨hpop, rfl, a.kicked, rfl⟩
      · cases h

omit [Chip σ] in
theorem take?_eq {now nextTick : Nat} {looked : Bool} {a b : Adapter σ} {w : Worker}
    (h : take? now nextTick looked a = some (w, b)) :
    ∃ notifications kicked, b = { a with notifications, kicked } := by
  rcases take?_cases h with ⟨_, notifications, _, _, rfl⟩ | ⟨_, _, kicked, rfl⟩
  · exact ⟨notifications, a.kicked, rfl⟩
  · exact ⟨a.notifications, kicked, rfl⟩

omit [Chip σ] in
theorem contend_eq (w : Worker) (now : Nat) (a : Adapter σ) :
    ∃ notifications kicked, (w.contend now a).2 = { a with notifications, kicked } := by
  have hsame : ∃ notifications kicked, a = { a with notifications, kicked } :=
    ⟨a.notifications, a.kicked, rfl⟩
  cases w with
  | waiting nextTick looked =>
    show ∃ notifications kicked, ((take? now nextTick looked a).getD _).2 = _
    cases h : take? now nextTick looked a with
    | none => exact hsame
    | some taken => exact take?_eq h
  | fresh | handling | ticking => exact hsame

/-- A poll that finds the adapter busy changes the queue and the kick at most. -/
theorem yields_contend (w : Worker) (now : Nat) (a : Adapter σ) (hqueue : D .queue) :
    Adapter.Yields D site? a (w.contend now a).2 := by
  obtain ⟨notifications, kicked, heq⟩ := w.contend_eq now a
  rw [heq]
  exact (Adapter.Leads.chore (.queues a notifications kicked _ (.inl hqueue))).yields

theorem passes_turn {now : Nat} {a b : Adapter σ} {w w' : Worker} (hd : D .link)
    (hqueue : D .queue) (h : turn now w a = some (w', b)) :
    Adapter.Passes D site? now (turnMoments now w a) a b := by
  cases w with
  | fresh =>
    cases h
    exact .refl a
  | waiting nextTick looked =>
    obtain ⟨notifications, kicked, rfl⟩ := take?_eq h
    exact (Adapter.Leads.chore (.queues a notifications kicked _ (.inl hqueue))).passes
  | handling nextTick note =>
    cases h
    exact Adapter.passes_handle a note
  | ticking =>
    cases h
    exact Adapter.passes_tick a now hd

variable (site?) in
/-- What a poll contributes is contributed by one of its turns. -/
theorem mem_gather {α : Type} {f : Worker → Adapter σ → List α} {now n : Nat} {w : Worker}
    {a : Adapter σ} {x : α} (hx : x ∈ gather f now n w a) :
    ∃ w' b, Adapter.Yields Deed.Any site? a b ∧ x ∈ f w' b := by
  induction n generalizing w a with
  | zero => cases hx
  | succ n ih =>
    rw [gather] at hx
    cases hturn : turn now w a with
    | none =>
      rw [hturn] at hx
      cases hx
    | some next =>
      obtain ⟨w', b⟩ := next
      rw [hturn] at hx
      rcases List.mem_append.mp hx with hx | hx
      · exact ⟨w, a, .refl a, hx⟩
      · have hfirst : Adapter.Yields Deed.Any site? a b := fun ha =>
          (passes_turn (D := Deed.Any) trivial trivial hturn ha).steps ha
        obtain ⟨w'', c, hrest, hx⟩ := ih hx
        exact ⟨w'', c, hfirst.trans hrest, hx⟩

theorem passes_turns (now n : Nat) (w : Worker) (a : Adapter σ) (hd : D .link)
    (hqueue : D .queue) :
    Adapter.Passes D site? now (gather (turnMoments now) now n w a) a (turns now n w a).2 := by
  fun_induction turns now n w a with
  | case1 => exact .refl _
  | case2 n w a w' b h ih =>
    rw [gather, h]
    exact (passes_turn hd hqueue h).trans ih
  | case3 n w a h =>
    rw [gather, h]
    exact .refl _

theorem passes_poll (w : Worker) (now : Nat) (a : Adapter σ) (hd : D .link)
    (hqueue : D .queue) :
    Adapter.Passes D site? now (w.pollMoments now a) a (w.poll now a).2 :=
  passes_turns now _ w a hd hqueue

end Worker

end WifiAdapter
