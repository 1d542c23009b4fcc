import WifiAdapter.Proofs.Occupancy
import WifiAdapter.Proofs.Runs

/-! Slots that are closed and taken into use again.

The generation of a slot counts how often it was taken into use, as far as a word can count
(`Adapter.Ages`). An incarnation that is current now and is current later, with fewer
openings in between than a word has values, was current all the time
(`Adapter.Ages.current_between`). -/
namespace WifiAdapter

/-- How often a slot was taken into use. -/
def Bus.openings {σ : Type} (b : Bus σ) (h : Handle) : Nat := b.journal.countP (Entry.opens h)

theorem Bus.openings_append {σ : Type} {a b : Bus σ} {h : Handle} {es : List Entry}
    (hjournal : b.journal = a.journal ++ es) :
    b.openings h = a.openings h + es.countP (Entry.opens h) := by
  unfold Bus.openings
  rw [hjournal, List.countP_append]

namespace Adapter
variable {σ : Type}

/-- A slot was taken into use so many times. If it never was, whoever is there was there. -/
structure AgesBy (h : Handle) (n : Nat) (a b : Adapter σ) : Prop where
  journal : ∃ es, b.bus.journal = a.bus.journal ++ es ∧ es.countP (Entry.opens h) = n
  generation : b.table.generation h = a.table.generation h + UInt32.ofNat n
  record : n = 0 → ∀ r', b.table.get? h = some r' → ∃ r, a.table.get? h = some r ∧ r'.kind = r.kind

/-- What becomes of a slot, by how often it was taken into use. -/
def Ages (h : Handle) (a b : Adapter σ) : Prop := ∃ n, AgesBy h n a b

section Ages
variable {D : Deed → Prop} {h : Handle} {a b c : Adapter σ} {site? : Option Handle}

theorem AgesBy.openings {n : Nat} (hab : AgesBy h n a b) :
    b.bus.openings h = a.bus.openings h + n := by
  obtain ⟨es, hjournal, rfl⟩ := hab.journal
  exact Bus.openings_append hjournal

theorem Ages.refl (a : Adapter σ) : Ages h a a :=
  ⟨0, ⟨[], (List.append_nil _).symm, rfl⟩, by simp, fun _ r hr => ⟨r, hr, rfl⟩⟩

theorem Ages.trans (hab : Ages h a b) (hbc : Ages h b c) : Ages h a c := by
  obtain ⟨n, hn⟩ := hab
  obtain ⟨m, hm⟩ := hbc
  refine ⟨n + m, ?_, ?_, fun hzero r' hr' => ?_⟩
  · obtain ⟨es, hes, rfl⟩ := hn.journal
    obtain ⟨es', hes', rfl⟩ := hm.journal
    exact ⟨es ++ es', by rw [hes', hes, List.append_assoc], List.countP_append⟩
  · rw [hm.generation, hn.generation, UInt32.ofNat_add, UInt32.add_assoc]
  · obtain ⟨r₁, hr₁, hkind₁⟩ := hm.record (by omega) r' hr'
    obtain ⟨r, hr, hkind⟩ := hn.record (by omega) r₁ hr₁
    exact ⟨r, hr, hkind₁.trans hkind⟩

theorem Ages.le (hab : Ages h a b) : a.bus.openings h ≤ b.bus.openings h := by
  obtain ⟨n, hn⟩ := hab
  rw [hn.openings]
  exact Nat.le_add_right ..

theorem Touch.ages (hab : Touch D h a b) : Ages h a b := by
  -- Without an opening nothing is counted.
  have hkept (hgeneration : b.table.generation h = a.table.generation h)
      (hrecord : ∀ r', b.table.get? h = some r' → ∃ r, a.table.get? h = some r ∧ r'.kind = r.kind)
      {es : List Entry} (hjournal : b.bus.journal = a.bus.journal ++ es)
      (hes : ∀ e ∈ es, e.opens h = false) : Ages h a b := by
    have hnone : es.countP (Entry.opens h) = 0 :=
      List.countP_eq_zero.mpr fun e he => by simp [hes e he]
    exact ⟨0, ⟨es, hjournal, hnone⟩, by simpa using hgeneration, fun _ => hrecord⟩
  cases hab with
  | still hgeneration hrecord hjournal =>
    obtain ⟨es, hjournal, hes⟩ := hjournal
    refine hkept hgeneration (fun r' hr' => ?_) hjournal fun e he => (hes e he).opens
    obtain ⟨r, hr, hkind, _⟩ := hrecord r' hr'
    exact ⟨r, hr, hkind⟩
  | transmit _ hgeneration hrecord hjournal =>
    obtain ⟨es, hjournal, hes⟩ := hjournal
    exact hkept hgeneration hrecord hjournal hes
  | opened hgeneration _ _ hjournal =>
    obtain ⟨e, hjournal, he⟩ := hjournal
    exact ⟨1, ⟨[e], hjournal, by simp [he]⟩, hgeneration, nofun⟩

theorem Touches.ages (hab : Touches D h a b) : Ages h a b := by
  induction hab with
  | refl => exact .refl a
  | tail _ htouch ih => exact ih.trans htouch.ages

theorem Steps.ages [Chip σ] (hab : Steps D site? a b) (ha : a.Steady) : Ages h a b := by
  induction hab with
  | refl => exact .refl a
  | tail hsteps hstep ih => exact ih.trans (hstep.touches (Steps.steady hsteps ha)).ages

/-- Whoever is in a slot that was not taken into use was there before. -/
theorem Ages.record_of_eq (hab : Ages h a b) (hsame : b.bus.openings h = a.bus.openings h)
    {r' : SocketRecord} (hr' : b.table.get? h = some r') :
    ∃ r, a.table.get? h = some r ∧ r'.kind = r.kind := by
  obtain ⟨n, hn⟩ := hab
  have hopenings := hn.openings
  exact hn.record (by omega) r' hr'

/-- The history of a slot that was not taken into use goes on. -/
theorem Ages.history_of_eq (hab : Ages h a b) (hsame : b.bus.openings h = a.bus.openings h) :
    ∃ es, b.bus.history h = a.bus.history h ++ es := by
  obtain ⟨n, hn⟩ := hab
  have hopenings := hn.openings
  obtain ⟨es, hjournal, hcount⟩ := hn.journal
  have hnone : ∀ e ∈ es, Entry.opens h e = false := by
    have hzero : es.countP (Entry.opens h) = 0 := by omega
    simpa using List.countP_eq_zero.mp hzero
  exact ⟨es, Bus.history_append hjournal hnone⟩

/-- What is current, and is current later, was current in between. -/
theorem Ages.current_between {i : Incarnation} (hab : Ages i.handle a b) (hbc : Ages i.handle b c)
    (ha : a.table.isCurrent i = true) (hc : c.table.isCurrent i = true)
    (hbrief : c.bus.openings i.handle < a.bus.openings i.handle + UInt32.size) :
    b.table.isCurrent i = true := by
  obtain ⟨n, hn⟩ := hab
  obtain ⟨m, hm⟩ := hbc
  rw [SocketTable.isCurrent_iff] at ha hc ⊢
  have hsum : UInt32.ofNat (n + m) = 0 := by
    have hgeneration := hc.2
    rw [hm.generation, hn.generation, ha.2, UInt32.add_assoc, ← UInt32.ofNat_add] at hgeneration
    simpa using hgeneration
  have hlt : n + m < UInt32.size := by
    have hopenings := hm.openings
    rw [hn.openings] at hopenings
    omega
  have hnone : n + m = 0 := by
    have hnat := congrArg UInt32.toNat hsum
    rwa [UInt32.toNat_ofNat', UInt32.toNat_zero, Nat.mod_eq_of_lt hlt] at hnat
  have hn0 : n = 0 := by omega
  have hm0 : m = 0 := by omega
  subst hn0 hm0
  obtain ⟨r', hr'⟩ := Option.isSome_iff_exists.mp hc.1
  obtain ⟨r, hr, _⟩ := hm.record rfl r' hr'
  exact ⟨Option.isSome_iff_exists.mpr ⟨r, hr⟩, by rw [hn.generation, ha.2]; simp⟩

end Ages

end Adapter

namespace Session
variable {σ : Type} [Chip σ]

theorem ages_run {s : Session σ} (hs : s.adapter.Steady) (actions : List (Action σ)) (h : Handle) :
    Adapter.Ages h s.adapter (s.run actions).adapter := by
  induction actions generalizing s with
  | nil => exact .refl _
  | cons action rest ih =>
    have hsteps := yields_perform s action hs
    exact (hsteps.ages hs).trans (ih (hsteps.steady hs))

end Session

end WifiAdapter
