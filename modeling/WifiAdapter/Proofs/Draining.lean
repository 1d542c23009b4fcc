import WifiAdapter.Proofs.Backdrop
import WifiAdapter.Proofs.Runs
import WifiAdapter.ScriptedChip

/-! A tick and the notifications it takes from the chip.

A chip keeps what it has pulled in until it is asked for, and no command has to do with that
(`Inbox`). So what is still in the inbox is a backdrop to the notifications handled before it
(`Adapter.handleAll_stocked`), and a tick of an adapter whose radio is up takes the oldest sixteen
notifications as if each had been dispatched before a tick with nothing to take
(`Session.tick_eq_dispatches`): also where one of them takes the radio down. -/
namespace WifiAdapter

/-- The chip hands out the notifications of an inbox, oldest first. No other command looks at
the inbox or touches it. -/
class Inbox (σ : Type) [Chip σ] where
  inbox : σ → List Notification
  /-- The chip with another inbox. -/
  stock : List Notification → σ → σ
  inbox_stock : ∀ notes s, inbox (stock notes s) = notes
  stock_inbox : ∀ s, stock (inbox s) s = s
  stock_stock : ∀ notes notes' s, stock notes (stock notes' s) = stock notes s
  poll_eq : ∀ s, Chip.poll s =
    match inbox s with
    | [] => none
    | note :: rest => some (note, stock rest s)
  execute_stock : ∀ notes (c : Command) s,
    Chip.execute c (stock notes s) = ((Chip.execute c s).1, stock notes (Chip.execute c s).2)

namespace ScriptedChip

theorem obey_stock (notes : List Notification) (name : ScriptedCommand) (c : ScriptedChip) :
    ({ c with inbox := notes }).obey name =
      ((c.obey name).1, { (c.obey name).2 with inbox := notes }) := by
  have hrefusal : ({ c with inbox := notes } : ScriptedChip).refusal? name = c.refusal? name := rfl
  unfold obey
  rw [hrefusal]
  cases c.refusal? name <;> rfl

theorem spend_stock (notes : List Notification) (c : ScriptedChip) :
    ({ c with inbox := notes }).spend = (c.spend.1, { c.spend.2 with inbox := notes }) := by
  obtain ⟨refusals, budget?, forced?, taken, inbox⟩ := c
  rcases budget? with _ | _ | _ <;> rfl

theorem execute_stock (notes : List Notification) (command : Command) (c : ScriptedChip) :
    ({ c with inbox := notes }).execute command =
      ((c.execute command).1, { (c.execute command).2 with inbox := notes }) := by
  have hrefusal (name : ScriptedCommand) :
    ({ c with inbox := notes } : ScriptedChip).refusal? name = c.refusal? name := rfl
  cases command with
  | send h data =>
    simp only [execute, hrefusal]
    cases c.refusal? (.sendOn h) with
    | some status => rfl
    | none => exact spend_stock notes c
  | receive h room timeout =>
    simp only [execute, hrefusal]
    cases c.refusal? (.receiveOn h) with
    | some status => rfl
    | none => exact obey_stock notes .receive c
  | close | flow | deinit => rfl
  | _ => exact obey_stock notes _ c

instance : Inbox ScriptedChip where
  inbox := ScriptedChip.inbox
  stock notes c := { c with inbox := notes }
  inbox_stock _ _ := rfl
  stock_inbox _ := rfl
  stock_stock _ _ _ := rfl
  poll_eq c := by
    change c.poll = _
    unfold poll
    cases c.inbox <;> rfl
  execute_stock := execute_stock

end ScriptedChip

variable {σ : Type} [Chip σ] [Inbox σ]

/-! ### The inbox as a backdrop -/

/-- Another inbox, before the same desk. -/
def Backdrop.stocking (notes : List Notification) (d : Desk) : Backdrop σ where
  toDesk := d
  chip := Inbox.stock notes
  execute := Inbox.execute_stock notes

namespace Adapter
variable (now : Nat) (notes : List Notification) (a : Adapter σ)

def inbox (a : Adapter σ) : List Notification := Inbox.inbox a.bus.chip

/-- The adapter with another inbox at its chip. -/
def stocked (notes : List Notification) (a : Adapter σ) : Adapter σ :=
  { a with bus := { a.bus with chip := Inbox.stock notes a.bus.chip } }

theorem stocked_eq_against : a.stocked notes = a.against (.stocking notes a.desk) := rfl

@[simp] theorem inbox_stocked : (a.stocked notes).inbox = notes := Inbox.inbox_stock notes _

@[simp] theorem stocked_inbox : a.stocked a.inbox = a := by
  unfold stocked inbox
  rw [Inbox.stock_inbox]

@[simp] theorem stocked_stocked (notes' : List Notification) :
    (a.stocked notes').stocked notes = a.stocked notes := by
  unfold stocked
  rw [Inbox.stock_stock]

/-- What does the same before every backdrop has nothing to do with the inbox. -/
theorem stocked_of_against {f : Adapter σ → Adapter σ}
    (hf : ∀ (w : Backdrop σ) (a : Adapter σ), f (a.against w) = (f a).against w) :
    f (a.stocked notes) = (f a).stocked notes := by
  rw [stocked_eq_against, hf, stocked_eq_against, desk_of_against a hf]

theorem handle_stocked (note : Notification) :
    (a.stocked notes).handle now note = (a.handle now note).stocked notes :=
  stocked_of_against notes a (f := (·.handle now note)) fun w a => handle_against w a now note

theorem handleAll_stocked (notes' : List Notification) :
    (a.stocked notes).handleAll now notes' = (a.handleAll now notes').stocked notes :=
  stocked_of_against notes a (f := (·.handleAll now notes')) fun w a =>
    handleAll_against w now notes' a

theorem attend_stocked : (a.stocked notes).attend now = (a.attend now).stocked notes :=
  stocked_of_against notes a (f := (·.attend now)) fun w a => attend_against w a now

/-! ### Draining -/

/-- The chip hands out the oldest notification. -/
theorem poll_inbox :
    a.bus.poll = match a.inbox with
      | [] => none
      | note :: rest => some (note, (a.stocked rest).bus) := by
  rw [Bus.poll, Inbox.poll_eq]
  unfold inbox
  cases Inbox.inbox a.bus.chip <;> rfl

/-- So many notifications of the inbox are handled in their order, and the others stay. -/
theorem drainChip_eq (n : Nat) (a : Adapter σ) :
    a.drainChip now n = (a.handleAll now (a.inbox.take n)).stocked (a.inbox.drop n) := by
  induction n generalizing a with
  | zero => exact (stocked_inbox a).symm
  | succ n ih =>
    have hpoll := poll_inbox a
    rw [drainChip]
    cases hinbox : a.inbox with
    | nil =>
      rw [hinbox] at hpoll
      rw [hpoll]
      have hsame := stocked_inbox a
      rw [hinbox] at hsame
      exact hsame.symm
    | cons note rest =>
      rw [hinbox] at hpoll
      rw [hpoll]
      calc ((a.stocked rest).handle now note).drainChip now n
        _ = (((a.handle now note).stocked rest).handleAll now (rest.take n)).stocked
            (rest.drop n) := by rw [handle_stocked, ih, inbox_stocked]
        _ = ((a.handle now note).handleAll now (rest.take n)).stocked (rest.drop n) := by
            rw [handleAll_stocked, stocked_stocked]

theorem notes_drainMoments (n : Nat) (a : Adapter σ) :
    (a.drainMoments now n).map (·.note) = a.inbox.take n := by
  induction n generalizing a with
  | zero => rfl
  | succ n ih =>
    have hpoll := poll_inbox a
    rw [drainMoments]
    cases hinbox : a.inbox with
    | nil =>
      rw [hinbox] at hpoll
      rw [hpoll]
      rfl
    | cons note rest =>
      rw [hinbox] at hpoll
      rw [hpoll]
      have hrest : (((a.stocked rest).handle now note).drainMoments now n).map (·.note) =
          rest.take n := by rw [ih, handle_stocked, inbox_stocked]
      exact congrArg (note :: ·) hrest

/-- A tick handles the oldest notifications and then attends to the link. -/
theorem tick_stocked (harmed : a.link.armed = true) :
    (a.stocked notes).tick now =
      ((a.handleAll now (notes.take tickDrainMax)).attend now).stocked
        (notes.drop tickDrainMax) := by
  have harmed' : (a.stocked notes).link.armed = true := harmed
  rw [tick_eq, if_pos harmed', drainChip_eq, inbox_stocked, handleAll_stocked, stocked_stocked,
    attend_stocked]

/-- With nothing in the inbox a tick only attends to the link, whether the radio is up or not. -/
theorem tick_unstocked : (a.stocked []).tick now = (a.attend now).stocked [] := by
  have hdrain : (a.stocked []).drainChip now tickDrainMax = a.stocked [] := by
    rw [drainChip_eq, inbox_stocked]
    exact stocked_stocked ..
  rw [tick_eq, hdrain, ite_self, attend_stocked]

end Adapter

/-! ### Sessions -/

namespace Session
variable (s : Session σ) (notes : List Notification)

/-- The session with another inbox at its chip. -/
def stocked : Session σ := { s with adapter := s.adapter.stocked notes }

omit [Inbox σ] in
theorem run_dispatch :
    s.run (notes.map .dispatch) = { s with adapter := s.adapter.handleAll s.clock notes } := by
  induction notes generalizing s with
  | nil => rfl
  | cons note rest ih => exact ih (s.perform (.dispatch note)).2

/-- Notifications dispatched before a tick that has nothing to take. -/
theorem run_dispatch_tick :
    (s.stocked []).run (notes.map .dispatch ++ [.tick]) =
      { s with
        adapter := ((s.adapter.handleAll s.clock notes).attend s.clock).stocked [] } := by
  have htick : ((s.adapter.stocked []).handleAll s.clock notes).tick s.clock =
      ((s.adapter.handleAll s.clock notes).attend s.clock).stocked [] := by
    rw [Adapter.handleAll_stocked, Adapter.tick_unstocked]
  rw [run_append, run_dispatch]
  exact congrArg (fun adapter => { s with adapter }) htick

theorem notes_moments_tick (harmed : s.adapter.link.armed = true) :
    ((s.stocked notes).moments .tick).map (·.note) = notes.take 16 := by
  have harmed' : (s.adapter.stocked notes).link.armed = true := harmed
  have hmoments : (s.stocked notes).moments .tick =
    (s.adapter.stocked notes).tickMoments s.clock := rfl
  rw [hmoments, Adapter.tickMoments, if_pos harmed', Adapter.notes_drainMoments,
    Adapter.inbox_stocked]
  rfl

/-- **A tick takes from the chip what could have been dispatched.** Its first sixteen notifications
are handled in their order, and the others stay. All else is as if each of these had been
dispatched before a tick with an empty inbox. -/
theorem tick_eq_dispatches (harmed : s.adapter.link.armed = true) :
    ((s.stocked notes).moments .tick).map (·.note) = notes.take 16 ∧
      ((s.stocked notes).run [.tick]).adapter.inbox = notes.drop 16 ∧
      (s.stocked notes).run [.tick] =
        ((s.stocked []).run ((notes.take 16).map .dispatch ++ [.tick])).stocked (notes.drop 16) ∧
      (notes.length ≤ 16 →
        (s.stocked notes).run [.tick] = (s.stocked []).run (notes.map .dispatch ++ [.tick])) := by
  have hrun : (s.stocked notes).run [.tick] =
      { s with
        adapter := ((s.adapter.handleAll s.clock (notes.take 16)).attend s.clock).stocked
          (notes.drop 16) } :=
    congrArg (fun adapter => { s with adapter })
      (Adapter.tick_stocked s.clock notes s.adapter harmed)
  refine ⟨notes_moments_tick s notes harmed, ?_, ?_, fun hlength => ?_⟩
  · rw [hrun]
    exact Adapter.inbox_stocked ..
  · rw [hrun, run_dispatch_tick, stocked, Adapter.stocked_stocked]
  · rw [hrun, run_dispatch_tick, List.take_of_length_le hlength, List.drop_eq_nil_of_le hlength]

/-- The network is found, and because the chip refuses to join it the radio goes down in the middle
of the tick. The last notification is handled all the same. -/
theorem tick_eq_dispatches_radio_down :
    let chip := ScriptedChip.new.script .associate (some ⟨-1⟩)
    let s := (new chip 4 .defaults).run [.start, .join "home" "password"]
    let notes : List Notification := [.radio (.scanDone .success 1),
      .radio (.scanResult ⟨"home", [], -40, .wpaPsk, 6⟩), .socket 0 (.connected .success)]
    s.adapter.link.armed = true ∧ notes.length ≤ 16 ∧
      ((s.stocked notes).moments .tick).map (·.note) = notes ∧
      (s.stocked notes).run [.tick] = (s.stocked []).run (notes.map .dispatch ++ [.tick]) ∧
      ((s.stocked notes).run [.tick]).adapter.link.armed = false := by
  intro chip s notes
  have harmed : s.adapter.link.armed = true := by decide +kernel
  obtain ⟨hmoments, -, -, hsame⟩ := tick_eq_dispatches s notes harmed
  exact ⟨harmed, by decide, hmoments, hsame (by decide), by decide +kernel⟩

end Session

end WifiAdapter
