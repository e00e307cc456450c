/-
  PreSeQL.Lib.Ledger — the blocks a program owns.

  For code that only passes blocks on, the contents of memory are the values of the model,
  and what is left of the heap is the list of the blocks in use.  `Spec own x Q` accounts for
  them exactly: `x` starts with the blocks `own`, whatever else is in use stays in use, and
  what `x` leaves is what `Q` says.  Nothing is freed twice, and a block that `Q` does not
  mention is gone.

    • `Spec.bind`, `Spec.mono` — composition,
    • `Spec.malloc`, `Spec.free`, `Spec.realloc` — the calls,
    • `Spec.forM_free` — a loop that gives blocks back,
    • `Faults.bind`, `Spec.faults` — computations without a result,
    • `Faults.free_twice` — one of them.
-/
import Mathlib.Algebra.Order.Group.Multiset

namespace PreSeQL.Lib

/-! ## §1. The ledger. -/

/-- A block: its address and its size. -/
structure Cell where
  addr : Nat
  size : Nat
  deriving DecidableEq

/-- The blocks in use, of which no two have one address; `next` is behind all addresses that
have been in use. -/
structure Ledger where
  next : Nat
  live : List Cell
  below : ∀ c ∈ live, c.addr < next
  distinct : (live.map Cell.addr).Nodup

namespace Ledger

/-- Nothing is in use. -/
def empty : Ledger := ⟨0, [], nofun, List.nodup_nil⟩

def add (L : Ledger) (size : Nat) : Ledger where
  next := L.next + 1
  live := ⟨L.next, size⟩ :: L.live
  below := by
    intro c hc
    rcases List.mem_cons.mp hc with rfl | hc
    · exact Nat.lt_succ_self _
    · exact Nat.lt_succ_of_lt (L.below c hc)
  distinct := by
    rw [List.map_cons, List.nodup_cons]
    refine ⟨fun hmem => ?_, L.distinct⟩
    obtain ⟨c, hc, heq⟩ := List.mem_map.mp hmem
    exact absurd heq (Nat.ne_of_lt (L.below c hc))

/-- The ledger without the block at an address. -/
def drop (L : Ledger) (addr : Nat) : Ledger where
  next := L.next
  live := L.live.filter fun c => c.addr ≠ addr
  below c hc := L.below c (List.mem_filter.mp hc).1
  distinct := L.distinct.sublist (List.filter_sublist.map _)

end Ledger

/-! ## §2. Calls. -/

/-- A computation on the ledger; there is no result where it frees what is not in use or
reads past an array. -/
abbrev Alloc (α : Type) := StateT Ledger Option α

namespace Alloc

variable {α β : Type}

/-- The address of a new block. -/
def malloc (size : Nat) : Alloc Nat := fun L => some (L.next, L.add size)

/-- `none` is `NULL`. -/
def free : Option Nat → Alloc Unit
  | none => pure ()
  | some addr => fun L =>
      if addr ∈ L.live.map Cell.addr then some ((), L.drop addr) else none

/-- The new address of a block that grows or shrinks. -/
def realloc (p : Option Nat) (size : Nat) : Alloc Nat := do
  free p
  malloc size

/-- An access outside of what is in use. -/
def fault : Alloc α := fun _ => none

end Alloc

/-! ## §3. What a computation owns. -/

/-- The computation has a result; of the blocks `own` and what it allocates it leaves what
`Q` says. -/
def Spec {α : Type} (own : Multiset Cell) (x : Alloc α) (Q : α → Multiset Cell → Prop) : Prop :=
  ∀ (L : Ledger) (frame : Multiset Cell), (L.live : Multiset Cell) = own + frame →
    ∃ v L' left, x L = some (v, L') ∧ (L'.live : Multiset Cell) = left + frame ∧ Q v left

namespace Spec

variable {α β : Type} {own own' : Multiset Cell} {x : Alloc α} {f : α → Alloc β}
  {Q Q' : α → Multiset Cell → Prop} {R : β → Multiset Cell → Prop}

theorem pure {v : α} (h : Q v own) : Spec own (Pure.pure v) Q :=
  fun L _ hL => ⟨v, L, own, rfl, hL, h⟩

theorem mono (hx : Spec own x Q) (h : ∀ v left, Q v left → Q' v left) : Spec own x Q' := by
  intro L frame hL
  obtain ⟨v, L', left, hrun, hleft, hQ⟩ := hx L frame hL
  exact ⟨v, L', left, hrun, hleft, h v left hQ⟩

theorem bind (hx : Spec own x Q) (hf : ∀ v left, Q v left → Spec left (f v) R) :
    Spec own (x >>= f) R := by
  intro L frame hL
  obtain ⟨v, L', left, hrun, hleft, hQ⟩ := hx L frame hL
  obtain ⟨w, L'', left', hrun', hleft', hR⟩ := hf v left hQ L' frame hleft
  refine ⟨w, L'', left', ?_, hleft', hR⟩
  show (x L).bind (fun p => f p.1 p.2) = _
  rw [hrun, Option.bind_some]
  exact hrun'

theorem of_eq {total : Multiset Cell} (htotal : total = own) (hx : Spec own x Q) :
    Spec total x Q :=
  htotal ▸ hx

theorem malloc (own : Multiset Cell) (size : Nat) :
    Spec own (Alloc.malloc size) fun addr left => left = {⟨addr, size⟩} + own := by
  intro L frame hL
  refine ⟨L.next, L.add size, {⟨L.next, size⟩} + own, rfl, ?_, rfl⟩
  show ((⟨L.next, size⟩ :: L.live : List Cell) : Multiset Cell) = _
  rw [← Multiset.cons_coe, hL, add_assoc, Multiset.singleton_add]

/-- The block is the only one at its address. -/
theorem free (c : Cell) (own : Multiset Cell) :
    Spec ({c} + own) (Alloc.free (some c.addr)) fun _ left => left = own := by
  intro L frame hL
  have hmem : c ∈ L.live := by
    rw [← Multiset.mem_coe, hL, add_assoc, Multiset.singleton_add]
    exact Multiset.mem_cons_self _ _
  have hin : c.addr ∈ L.live.map Cell.addr := List.mem_map_of_mem hmem
  refine ⟨(), L.drop c.addr, own, if_pos hin, ?_, rfl⟩
  have hkeep : L.live.filter (fun c' => c'.addr ≠ c.addr) = L.live.erase c := by
    have hnodup : L.live.Nodup := List.Nodup.of_map _ L.distinct
    rw [hnodup.erase_eq_filter]
    refine List.filter_congr fun c' hc' => ?_
    by_cases heq : c' = c
    · simp [heq]
    · have hne : c'.addr ≠ c.addr := fun haddr =>
        heq (List.inj_on_of_nodup_map L.distinct hc' hmem haddr)
      simp [heq, hne]
  show ((L.live.filter fun c' => c'.addr ≠ c.addr : List Cell) : Multiset Cell) = _
  rw [hkeep, ← Multiset.coe_erase, hL, add_assoc, Multiset.singleton_add, Multiset.erase_cons_head]

theorem free_null (own : Multiset Cell) :
    Spec own (Alloc.free none) fun _ left => left = own :=
  pure rfl

theorem realloc (c : Cell) (size : Nat) (own : Multiset Cell) :
    Spec ({c} + own) (Alloc.realloc (some c.addr) size) fun addr left =>
      left = {⟨addr, size⟩} + own := by
  refine (Spec.free c own).bind ?_
  rintro _ _ rfl
  exact malloc _ size

theorem realloc_null (size : Nat) (own : Multiset Cell) :
    Spec own (Alloc.realloc none size) fun addr left => left = {⟨addr, size⟩} + own := by
  refine (Spec.free_null own).bind ?_
  rintro _ _ rfl
  exact malloc _ size

/-- **A loop that gives back** what its elements own. -/
theorem forM_free {γ : Type} {cells : γ → Multiset Cell} {body : γ → Alloc PUnit}
    (hbody : ∀ a own, Spec (cells a + own) (body a) fun _ left => left = own) (as : List γ)
    (own : Multiset Cell) :
    Spec ((as.map cells).sum + own) (as.forM body) fun _ left => left = own := by
  induction as with
  | nil =>
      rw [List.map_nil, List.sum_nil, zero_add]
      exact pure rfl
  | cons a as ih =>
      rw [List.map_cons, List.sum_cons, add_assoc]
      refine (hbody a _).bind ?_
      rintro _ _ rfl
      exact ih

end Spec

/-! ## §4. Faults. -/

/-- The computation has no result where the blocks `own` are in use. -/
def Faults {α : Type} (own : Multiset Cell) (x : Alloc α) : Prop :=
  ∀ (L : Ledger) (frame : Multiset Cell), (L.live : Multiset Cell) = own + frame → x L = none

section Faults

variable {α β : Type} {own : Multiset Cell} {x : Alloc α} {f : α → Alloc β}

theorem Faults.fault (own : Multiset Cell) : Faults own (Alloc.fault : Alloc α) :=
  fun _ _ _ => rfl

/-- A block that is freed is not in use. -/
theorem Faults.free_twice (own : Multiset Cell) (addr : Nat) :
    Faults own (do Alloc.free (some addr); Alloc.free (some addr)) := by
  intro L _ _
  have hgone : addr ∉ (L.drop addr).live.map Cell.addr := by
    intro hmem
    obtain ⟨c, hc, heq⟩ := List.mem_map.mp hmem
    exact of_decide_eq_true (List.mem_filter.mp hc).2 heq
  show (Alloc.free (some addr) L).bind (fun p => Alloc.free (some addr) p.2) = none
  by_cases hin : addr ∈ L.live.map Cell.addr
  · have hfree : Alloc.free (some addr) L = some ((), L.drop addr) := if_pos hin
    rw [hfree, Option.bind_some]
    exact if_neg hgone
  · have hfree : Alloc.free (some addr) L = none := if_neg hin
    rw [hfree, Option.bind_none]

theorem Faults.bind (h : Faults own x) : Faults own (x >>= f) := by
  intro L frame hL
  show (x L).bind (fun p => f p.1 p.2) = none
  rw [h L frame hL, Option.bind_none]

/-- What follows has no result. -/
theorem Spec.faults {Q : α → Multiset Cell → Prop} (hx : Spec own x Q)
    (hf : ∀ v left, Q v left → Faults left (f v)) : Faults own (x >>= f) := by
  intro L frame hL
  obtain ⟨v, L', left, hrun, hleft, hQ⟩ := hx L frame hL
  show (x L).bind (fun p => f p.1 p.2) = none
  rw [hrun, Option.bind_some]
  exact hf v left hQ L' frame hleft

end Faults

end PreSeQL.Lib
