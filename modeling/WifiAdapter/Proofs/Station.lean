import Mathlib.Logic.Relation
import WifiAdapter.Link.Settling

/-! What a link does, one thing at a time: it changes, or its radio gets a command. -/
namespace WifiAdapter

/-- Commands to the radio. -/
def Command.Radio : Command → Prop
  | .init | .deinit | .scanRegion _ | .scan | .scanResult _ | .associate .. | .disassociate => True
  | _ => False

namespace Station
variable {σ : Type} [Chip σ]

inductive Act : Station σ → Station σ → Prop where
  | link (s : Station σ) (f : Link → Link) : Act s (s.onLink f)
  | command (s : Station σ) {c : Command} (hc : c.Radio) : Act s (s.order c)

def Acts : Station σ → Station σ → Prop := Relation.ReflTransGen Act

section Acts
variable {s t : Station σ}

theorem Acts.link (h : s.Acts t) (f : Link → Link) : s.Acts (t.onLink f) :=
  Relation.ReflTransGen.tail h (.link t f)

theorem Acts.order (h : s.Acts t) {c : Command} (hc : c.Radio) : s.Acts (t.order c) :=
  Relation.ReflTransGen.tail h (.command t hc)

theorem Acts.issue (h : s.Acts t) {c : Command} {answer : Answer Unit} {u : Station σ}
    (hi : t.issue c = (answer, u)) (hc : c.Radio) : s.Acts u := by
  have hu : u = t.order c := (congrArg Prod.snd hi).symm
  rw [hu]
  exact h.order hc

theorem Acts.refl (s : Station σ) : s.Acts s := Relation.ReflTransGen.refl

theorem Acts.trans {u : Station σ} (h : s.Acts t) (h' : t.Acts u) : s.Acts u :=
  Relation.ReflTransGen.trans h h'

theorem Acts.ite {u : Station σ} {p : Prop} [Decidable p] (h : s.Acts t) (h' : s.Acts u) :
    s.Acts (if p then t else u) := by
  split
  · exact h
  · exact h'

end Acts

variable (s : Station σ) (now : Nat)

/-! ### Settling -/

theorem acts_powerDown : s.Acts s.powerDown := by
  unfold powerDown
  exact (Acts.order (.ite ((Acts.refl s).order (c := .disassociate) trivial) (.refl s))
    (c := .deinit) trivial).link _

theorem acts_settleIdle : s.Acts s.settleIdle := by
  unfold settleIdle powerUp
  split
  · split
    · next h => exact ((Acts.refl s).issue h trivial).link _
    · next h => exact ((Acts.refl s).issue h trivial).link _
  · exact (Acts.refl s).link _

theorem acts_beginScan : s.Acts (s.beginScan now) := by
  unfold beginScan
  split
  · exact (Acts.refl s).link _
  · split
    · next h => exact ((Acts.refl s).issue h trivial).link _
    · next h =>
      split
      · next h' => exact (((Acts.refl s).issue h trivial).issue h' trivial).link _
      · next h' => exact (((Acts.refl s).issue h trivial).issue h' trivial).link _

theorem acts_beginConnecting : s.Acts s.beginConnecting := by
  unfold beginConnecting
  split
  · exact (Acts.refl s).link _
  · split
    · split
      · next h => exact ((Acts.refl s).issue h trivial).link _
      · next h => exact ((Acts.refl s).issue h trivial).link _
    · exact (Acts.refl s).link _

theorem acts_step : s.Acts (s.step now) := by
  unfold step
  split
  · exact acts_powerDown s
  · exact acts_settleIdle s
  · exact acts_beginScan s now
  · exact acts_beginConnecting s
  · split <;> exact (Acts.refl s).link _
  · split <;> exact (Acts.refl s).link _

theorem acts_convergeWithin (moves : Nat) (s : Station σ) : s.Acts (s.convergeWithin now moves) := by
  induction moves generalizing s with
  | zero =>
    unfold convergeWithin
    split
    · exact .refl s
    · exact (Acts.refl s).link _
  | succ moves ih =>
    unfold convergeWithin
    split
    · exact .refl s
    · exact (acts_step s now).trans (ih _)

theorem Acts.converge {s t : Station σ} (h : s.Acts t) (now : Nat) : s.Acts (t.converge now) :=
  h.trans (acts_convergeWithin now 8 t)

/-! ### Requests and messages -/

theorem acts_start : s.Acts (s.start now).2 := by
  unfold start
  split
  · exact ((Acts.refl s).link _).converge now
  · exact .refl s

theorem acts_stop : s.Acts (s.stop now) := ((Acts.refl s).link _).converge now

theorem acts_join (ssid key : String) : s.Acts (s.join now ssid key).2 := by
  unfold join
  split
  · exact .refl s
  · dsimp only
    split
    · exact (((Acts.refl s).link _).link _).converge now
    · exact (Acts.refl s).link _

theorem acts_scan : s.Acts (s.scan now).2 := by
  unfold scan
  split
  · exact ((Acts.refl s).link _).converge now
  · exact .refl s

theorem acts_tick : s.Acts (s.tick now) := by
  unfold tick
  exact Acts.converge (.ite ((Acts.refl s).link _) (.refl s)) now

theorem Acts.fetchResult {s t : Station σ} (h : s.Acts t) : s.Acts (t.fetchResult now) := by
  unfold Station.fetchResult
  split
  · next hi => exact h.issue hi trivial
  · next hi => exact (h.issue hi trivial).link _

theorem acts_onRadio (m : RadioMessage) : s.Acts (s.onRadio now m) := by
  unfold onRadio
  refine Acts.converge ?_ now
  cases m with
  | scanDone status found =>
    show s.Acts (s.onScanDone now status found)
    unfold onScanDone
    split
    · exact .refl s
    · split
      · exact (Acts.refl s).link _
      · exact ((Acts.refl s).link _).fetchResult now
  | scanResult ap =>
    show s.Acts (s.onScanResult now ap)
    unfold onScanResult
    split
    · exact .refl s
    · dsimp only
      split
      · exact ((Acts.refl s).link _).fetchResult now
      · exact ((Acts.refl s).link _).link _
  | association connected reason => exact (Acts.refl s).link _
  | addressAssigned address => exact (Acts.refl s).link _

theorem acts_perform (a : Action) : s.Acts (s.perform now a).2 := by
  cases a with
  | start => exact s.acts_start now
  | stop => exact s.acts_stop now
  | join ssid key => exact s.acts_join now ssid key
  | scan => exact s.acts_scan now
  | tick => exact s.acts_tick now
  | radio m => exact s.acts_onRadio now m

end Station

end WifiAdapter
