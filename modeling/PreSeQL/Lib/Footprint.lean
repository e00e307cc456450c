/-
  PreSeQL.Lib.Footprint — the bytes a computation uses.

  `ActsOn S f m` says that `f`, run from `m`, neither reads nor writes a byte outside `S`:
  in every memory with the same bytes in `S` it leaves the same bytes there, and the other
  bytes alone.

    • `ActsOn.comp` — one computation after another,
    • `ActsOn.congr` — a computation whose branches and values depend on bytes of `S`,
    • `actsOn_fill` — a write.
-/
import PreSeQL.Lib.ByteMem
import Mathlib.Data.Set.Function
import Mathlib.Order.Interval.Set.Defs

namespace PreSeQL.Lib

/-- Run from `m`, the computation uses bytes of `S` only. -/
def ActsOn (S : Set Nat) (f : Mem → Mem) (m : Mem) : Prop :=
  ∀ m', Set.EqOn m' m S → Set.EqOn (f m') (f m) S ∧ Set.EqOn (f m') m' Sᶜ

variable {S T : Set Nat} {f g : Mem → Mem} {m : Mem}

theorem actsOn_id (S : Set Nat) (m : Mem) : ActsOn S (fun m => m) m :=
  fun m' h => ⟨h, Set.eqOn_refl m' Sᶜ⟩

theorem ActsOn.comp (hf : ActsOn S f m) (hg : ActsOn S g (f m)) :
    ActsOn S (fun m => g (f m)) m := by
  intro m' h
  obtain ⟨hin, hout⟩ := hf m' h
  obtain ⟨hin', hout'⟩ := hg (f m') hin
  exact ⟨hin', hout'.trans hout⟩

/-- What is computed from bytes of `S` is the same in every memory with these bytes. -/
theorem ActsOn.congr (hg : ActsOn S g m) (h : ∀ m', Set.EqOn m' m S → f m' = g m') :
    ActsOn S f m := by
  intro m' heq
  rw [h m' heq, h m (Set.eqOn_refl m S)]
  exact hg m' heq

theorem ActsOn.mono (h : ActsOn S f m) (hsub : S ⊆ T) : ActsOn T f m := by
  intro m' heq
  obtain ⟨hin, hout⟩ := h m' (heq.mono hsub)
  refine ⟨fun i hi => ?_, hout.mono (Set.compl_subset_compl.mpr hsub)⟩
  by_cases hs : i ∈ S
  · exact hin hs
  · -- outside `S` both are as they were
    rw [hout hs, (h m (Set.eqOn_refl m S)).2 hs]
    exact heq hi

theorem actsOn_fill {a n : Nat} (h : Set.Ico a (a + n) ⊆ S) (v : Nat → UInt8) :
    ActsOn S (fun m => m.fill a n v) m := by
  intro m' heq
  constructor
  · intro i hi
    by_cases hin : a ≤ i ∧ i < a + n
    · exact (Mem.fill_inside m' v hin.1 hin.2).trans (Mem.fill_inside m v hin.1 hin.2).symm
    · have hout : i < a ∨ a + n ≤ i := by omega
      exact (Mem.fill_outside m' _ hout).trans ((heq hi).trans (Mem.fill_outside m _ hout).symm)
  · intro i hi
    refine Mem.fill_outside m' _ ?_
    by_contra hin
    exact hi (h ⟨by omega, by omega⟩)

theorem actsOn_memset {a n : Nat} (h : Set.Ico a (a + n) ⊆ S) (v : UInt8) :
    ActsOn S (fun m => m.memset a v n) m := actsOn_fill h fun _ => v

theorem actsOn_store8 {a : Nat} (h : Set.Ico a (a + 1) ⊆ S) (v : UInt8) :
    ActsOn S (fun m => m.store8 a v) m :=
  actsOn_fill h fun j => UInt8.ofNat (v.toNat / 256 ^ j)

theorem actsOn_store16 {a : Nat} (h : Set.Ico a (a + 2) ⊆ S) (v : UInt16) :
    ActsOn S (fun m => m.store16 a v) m :=
  actsOn_fill h fun j => UInt8.ofNat (v.toNat / 256 ^ j)

theorem load16_eqOn {m' : Mem} {a : Nat} (heq : Set.EqOn m' m S)
    (h : Set.Ico a (a + 2) ⊆ S) : m'.load16 a = m.load16 a :=
  congrArg UInt16.ofNat (Mem.load_congr 2 a fun _ hlo hhi => heq (h ⟨hlo, hhi⟩))

end PreSeQL.Lib
