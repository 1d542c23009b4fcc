import Mathlib.Logic.Function.Iterate
import WifiAdapter.Adapter.Sending
import WifiAdapter.ScriptedChip

/-! The chains that can be built, and how they are used up.

Chains are made by a few operations only (`Chain.Built`). None of them leaves an empty segment, and
every chain without one can be made (`Chain.built_iff_solid`). So whatever is sent off takes
something away, and a chain is used up after at most as many sends as it has bytes, whatever each of
them takes (`Chain.Built.isEmpty_iterate`). The drain of a stream is one way to use a chain up
(`Bus.drain_spends`). `Chain.built_chains` sums up what the operations do. -/
namespace WifiAdapter

namespace Chain

/-- A chain that is made by the operations on chains. -/
inductive Built : Chain → Prop where
  | empty : Built .empty
  | ofBytes (data : Bytes) (size : Nat) : Built (.ofBytes data size)
  | push {c : Chain} (h : Built c) (segment : Bytes) : Built (c.push segment)
  | advance {c : Chain} (h : Built c) (count : Nat) : Built (c.advance count)

section Built
variable {c : Chain}

/-- No operation leaves an empty segment. -/
theorem Built.solid (h : c.Built) : c.Solid := by
  induction h with
  | empty => exact solid_empty
  | ofBytes data size => exact solid_ofBytes data size
  | push _ segment ih => exact ih.push segment
  | advance _ count ih => exact ih.advance count

/-- What is pushed is kept as it is, unless it is empty. -/
theorem segments_foldl_push {pieces : List Bytes} (h : ∀ p ∈ pieces, p ≠ []) (c : Chain) :
    (pieces.foldl push c).segments = c.segments ++ pieces := by
  induction pieces generalizing c with
  | nil => exact (List.append_nil _).symm
  | cons p rest ih =>
    obtain ⟨hp, hrest⟩ := List.forall_mem_cons.mp h
    have hpush : c.push p = ⟨c.segments ++ [p]⟩ :=
      if_neg fun hempty => hp (List.isEmpty_iff.mp hempty)
    rw [List.foldl_cons, ih hrest, hpush, List.append_assoc]
    rfl

theorem Built.foldl_push (h : c.Built) (pieces : List Bytes) :
    (pieces.foldl Chain.push c).Built := by
  induction pieces generalizing c with
  | nil => exact h
  | cons p rest ih => exact ih (h.push p)

/-- The chains that can be built are those without an empty segment. -/
theorem built_iff_solid : c.Built ↔ c.Solid := by
  refine ⟨Built.solid, fun h => ?_⟩
  have hpushed : c.segments.foldl push .empty = c := by
    obtain ⟨segments⟩ := c
    exact congrArg Chain.mk (segments_foldl_push h .empty)
  rw [← hpushed]
  exact Built.empty.foldl_push _

theorem segments_ofBytes (data : Bytes) (size : Nat) :
    (ofBytes data size).segments = cut size data :=
  segments_foldl_push (fun _ hp => (mem_cut hp).1) .empty

theorem front?_eq_none_iff (c : Chain) : c.front? = none ↔ c.isEmpty = true := by
  rw [front?, isEmpty, List.head?_eq_none_iff, List.isEmpty_iff]

theorem length_advance (c : Chain) (count : Nat) :
    (c.advance count).length + min count (c.front?.getD []).length = c.length := by
  have hfront : (c.front?.getD []).length ≤ c.bytes.length := by
    obtain ⟨_ | ⟨segment, rest⟩⟩ := c
    · exact Nat.zero_le _
    · simp [front?, bytes]
  rw [length_eq, length_eq, bytes_advance, List.length_drop]
  omega

/-- A chain of which nothing is left stays as it is. -/
theorem advance_of_isEmpty (h : c.isEmpty = true) (count : Nat) : c.advance count = c := by
  obtain ⟨_ | ⟨segment, rest⟩⟩ := c
  · rfl
  · cases h

/-- A send that takes something shortens the chain. -/
theorem Built.length_advance_lt (h : c.Built) (hleft : c.isEmpty = false) {count : Nat}
    (hcount : 0 < count) : (c.advance count).length < c.length := by
  have hfront : 0 < (c.front?.getD []).length := by
    have hsolid := h.solid
    obtain ⟨_ | ⟨segment, rest⟩⟩ := c
    · cases hleft
    · exact List.length_pos_iff.mpr (hsolid segment List.mem_cons_self)
  have hlength := c.length_advance count
  omega

/-- However much each send takes, nothing is left after as many sends as there were bytes. -/
theorem Built.isEmpty_iterate {take : Chain → Nat}
    (htake : ∀ d : Chain, d.Built → d.isEmpty = false → 0 < take d) (h : c.Built) {n : Nat}
    (hn : c.length ≤ n) : ((fun d => d.advance (take d))^[n] c).isEmpty = true := by
  induction n generalizing c with
  | zero => exact h.solid.isEmpty_iff.mpr (Nat.le_zero.mp hn)
  | succ n ih =>
    rw [Function.iterate_succ_apply]
    refine ih (h.advance _) ?_
    cases hleft : c.isEmpty with
    | true =>
      rw [advance_of_isEmpty hleft, h.solid.isEmpty_iff.mp hleft]
      exact Nat.zero_le n
    | false =>
      have hless := h.length_advance_lt hleft (htake c h hleft)
      omega

/-! ### Sends in a row -/

/-- Sends one after the other, each of which takes something of what is left. -/
inductive Spends : Chain → List Nat → Chain → Prop where
  | nil (c : Chain) : Spends c [] c
  | cons {c rest : Chain} {count : Nat} {counts : List Nat} (left : c.isEmpty = false)
      (some : 0 < count) (h : Spends (c.advance count) counts rest) :
      Spends c (count :: counts) rest

/-- Every send takes at least a byte. -/
theorem Built.spends_le {counts : List Nat} {rest : Chain} (hc : c.Built)
    (h : c.Spends counts rest) : counts.length + rest.length ≤ c.length := by
  induction h with
  | nil => exact Nat.le_of_eq (Nat.zero_add _)
  | @cons c rest count counts left some h ih =>
    have hless := hc.length_advance_lt left some
    have hrest := ih (hc.advance count)
    rw [List.length_cons]
    omega

end Built

end Chain

/-- The chip takes these pieces one after the other. -/
def acceptances (h : Handle) (pieces : List Bytes) : List Entry :=
  pieces.map fun piece => .command (.send h piece) (.accepted ())

/-- How a drain ends: the chain is used up, or the chip has refused a piece of what is left. -/
inductive Bus.Drained (h : Handle) (rest : Chain) : Progress → List Entry → Prop where
  | done (hempty : rest.isEmpty = true) : Drained h rest .done []
  | refused {progress : Progress} (hprogress : progress ≠ .done) (hleft : rest.isEmpty = false)
      (piece : Bytes) (status : Status) :
      Drained h rest progress [.command (.send h piece) (.refused status)]

/-- A drain sends off pieces, each of which takes something, and then it ends. -/
theorem Bus.drain_spends {σ : Type} [Chip σ] (bus : Bus σ) (h : Handle) {c : Chain}
    (hc : c.Built) : ∃ pieces last,
      (bus.drain h c).2.2.journal = bus.journal ++ (acceptances h pieces ++ last) ∧
      c.Spends (pieces.map List.length) (bus.drain h c).2.1 ∧
      Bus.Drained h (bus.drain h c).2.1 (bus.drain h c).1 last := by
  have hleft {c : Chain} {piece : Bytes} (hpiece : c.piece? maxStreamSegment = some piece) :
      c.isEmpty = false := by
    obtain ⟨_ | ⟨segment, rest⟩⟩ := c
    · cases hpiece
    · rfl
  fun_induction Bus.drain bus h c with
  | case1 bus c hpiece =>
    have hempty : c.isEmpty = true :=
      c.front?_eq_none_iff.mp (Option.map_eq_none_iff.mp hpiece)
    exact ⟨[], [], (List.append_nil _).symm, .nil c, .done hempty⟩
  | case2 bus c piece hpiece _ bus' hi ih =>
    obtain ⟨pieces, last, hjournal, hspends, hdrained⟩ := ih (hc.advance _)
    have hsome : 0 < piece.length := by
      obtain ⟨segment, hfront, rfl⟩ := Option.map_eq_some_iff.mp hpiece
      have hne := List.length_pos_iff.mpr (hc.solid segment (List.mem_of_head? hfront))
      have hmax := maxStreamSegment_pos
      rw [List.length_take]
      omega
    refine ⟨piece :: pieces, last, ?_, .cons (hleft hpiece) hsome hspends, hdrained⟩
    rw [hjournal, Bus.journal_of_issue hi, List.append_assoc]
    rfl
  | case3 bus c piece hpiece bus' hi =>
    have hblocked : Progress.blocked ≠ .done := nofun
    exact ⟨[], _, Bus.journal_of_issue hi, .nil c, .refused hblocked (hleft hpiece) piece _⟩
  | case4 bus c piece hpiece status bus' hi hne =>
    have hfailed : Progress.failed status.refusal ≠ .done := nofun
    exact ⟨[], _, Bus.journal_of_issue hi, .nil c, .refused hfailed (hleft hpiece) piece status⟩

/-- **What the operations on chains do.** In a chain that can be built no segment is empty, so a
chain without bytes is one without segments and has no front. Cutting keeps the bytes and the bound,
pushing adds at the end, and advancing takes off the front what was asked for, but no more than the
front segment has; of nothing it takes nothing. So a chain is used up by any sends that take
something each, at the latest when there were as many as bytes. The drain of a stream is made of
such sends, and it stops only when nothing is left or the chip refuses a piece. -/
theorem Chain.built_chains {σ : Type} [Chip σ] (bus : Bus σ) (h : Handle) {c : Chain}
    (hc : c.Built) :
    (∀ segment ∈ c.segments, segment ≠ []) ∧
    (c.isEmpty = true ↔ c.length = 0) ∧
    (c.front? = none ↔ c.length = 0) ∧
    (∀ data size, (ofBytes data size).bytes = data ∧
      ∀ segment ∈ (ofBytes data size).segments, segment.length ≤ max size 1) ∧
    (∀ segment, (c.push segment).bytes = c.bytes ++ segment) ∧
    (∀ count, c.segments = [] → c.advance count = c) ∧
    (∀ front rest count, c.segments = front :: rest →
      (c.advance count).bytes = c.bytes.drop (min count front.length) ∧
      (c.advance count).length + min count front.length = c.length) ∧
    (∀ take : Chain → Nat, (∀ d : Chain, d.Built → d.isEmpty = false → 0 < take d) →
      ((fun d => d.advance (take d))^[c.length] c).isEmpty = true) ∧
    ∃ pieces last,
      (bus.drain h c).2.2.journal = bus.journal ++ (acceptances h pieces ++ last) ∧
      c.Spends (pieces.map List.length) (bus.drain h c).2.1 ∧
      pieces.length + (bus.drain h c).2.1.length ≤ c.length ∧
      Bus.Drained h (bus.drain h c).2.1 (bus.drain h c).1 last := by
  have hempty := hc.solid.isEmpty_iff
  refine ⟨hc.solid, hempty, c.front?_eq_none_iff.trans hempty, fun data size => ⟨bytes_ofBytes ..,
    fun segment hsegment => ?_⟩, bytes_push c, fun count hnil => ?_,
    fun front rest count hcons => ?_, fun take htake => ?_, ?_⟩
  · rw [segments_ofBytes] at hsegment
    exact (mem_cut hsegment).2.1
  · exact advance_of_isEmpty (List.isEmpty_iff.mpr hnil) count
  · have hfront : c.front?.getD [] = front := by rw [front?, hcons]; rfl
    have hbytes := c.bytes_advance count
    have hlength := c.length_advance count
    rw [hfront] at hbytes hlength
    exact ⟨hbytes, hlength⟩
  · exact hc.isEmpty_iterate htake (Nat.le_refl _)
  · obtain ⟨pieces, last, hjournal, hspends, hdrained⟩ := bus.drain_spends h hc
    have hle := hc.spends_le hspends
    rw [List.length_map] at hle
    exact ⟨pieces, last, hjournal, hspends, hle, hdrained⟩

/-- Three of the bytes of the front are gone, and the empty segment left no trace. The chip has room
for two pieces. -/
theorem Chain.built_chains_trimmed :
    let c := (((ofBytes [1, 2, 3, 4, 5, 6] 4).push []).push [7]).advance 3
    let bus : Bus ScriptedChip := ⟨{ ScriptedChip.new with budget? := some 2 }, []⟩
    c.Built ∧ c.segments = [[4], [5, 6], [7]] ∧ (bus.drain 0 c).1 = .blocked ∧
      ∃ pieces last,
        (bus.drain 0 c).2.2.journal = bus.journal ++ (acceptances 0 pieces ++ last) ∧
        pieces.length + (bus.drain 0 c).2.1.length ≤ 4 := by
  intro c bus
  have hbuilt : c.Built := .advance (.push (.push (.ofBytes ..) _) _) 3
  have hsegments : c.segments = [[4], [5, 6], [7]] := by decide +kernel
  have hlength : c.length = 4 := by decide +kernel
  obtain ⟨-, -, -, -, -, -, -, -, pieces, last, hjournal, -, hle, -⟩ :=
    built_chains bus 0 hbuilt
  rw [hlength] at hle
  exact ⟨hbuilt, hsegments, by decide +kernel, pieces, last, hjournal, hle⟩

end WifiAdapter
