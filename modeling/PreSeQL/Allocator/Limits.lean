/-
  PreSeQL.Allocator.Limits — the largest request an arena can serve.

  `arena_alloc` computes with `size_t`.  A request of `2^64 - 7` bytes or more is rounded up to
  no words at all; one of more than `2^64 - 32` bytes makes `new_region` ask for the few bytes
  that are left of the size of the region, and write a header behind them.

    • `new_region_wrapped` — the region of a size that has run over,
    • `arena_alloc_wrapped` — what becomes of such a request,
    • `arena_alloc_safe_iff` — the requests that are served or refused in order.
-/
import PreSeQL.Allocator.Copy

namespace PreSeQL.Allocator

open PreSeQL.Lib

/-! ## §1. Results out of reach. -/

/-- The call fails outside live blocks, or returns an address too high for `n` bytes. -/
def Misplaced (n : Nat) (x : Checked (Nat × Arena × Heap)) : Prop :=
  match x with
  | .ok v => 2 ^ 64 < v.1 + n
  | .error .assertion => False
  | .error .invalid => True

theorem Misplaced.not_safe {n : Nat} {x : Checked (Nat × Arena × Heap)} (h : Misplaced n x)
    {D : Prop} : ¬ Safe D x fun v => v.2.2.Valid v.1 n := by
  intro hsafe
  match x with
  | .ok v =>
      obtain ⟨b, hb, hholds⟩ := hsafe
      have hplaced := (v.2.2.placed b hb).2
      have hhigh : 2 ^ 64 < v.1 + n := h
      unfold Block.Holds at hholds
      omega
  | .error .assertion => exact h
  | .error .invalid => exact hsafe

/-- Words that are taken in a region at `r` stand behind its header. -/
theorem take_words_misplaced {n r : Nat} (hn : 2 ^ 64 < r + 24 + n) (h : Heap) (a : Arena)
    (size : Nat) : Misplaced n (take_words h a r size) := by
  unfold take_words Heap.load
  split
  next =>
    rw [ok_bind]
    unfold Heap.store
    split
    next =>
      show 2 ^ 64 < data_at r _ + n
      unfold data_at
      omega
    next => trivial
  next => trivial

/-! ## §2. Sizes that run over. -/

section

variable {h : Heap} (M : Malloc) {size : Nat} (hlow : 2 ^ 61 - 3 ≤ size) (hhigh : size < 2 ^ 61)
  (hserves : ∀ k ≤ 24 + 8 * ARENA_REGION_DEFAULT_CAPACITY, M.address h.live k ≠ 0)

include hlow hhigh hserves

/-- **The region is too small for its header**: either a word of it is in no block, or all three
are written, whoever they belong to. -/
theorem new_region_wrapped : new_region M h size = .error .invalid
    ∨ ∃ r h', new_region M h size = .ok (r, h') ∧ 16 ≤ r
      ∧ h'.load (count_at r) 8 = .ok 0 ∧ h'.load (capacity_at r) 8 = .ok size := by
  have hwrap : size_t (24 + 8 * size) ≤ 24 + 8 * ARENA_REGION_DEFAULT_CAPACITY := by
    unfold size_t
    simp only [ARENA_REGION_DEFAULT_CAPACITY]
    omega
  have hne := hserves _ hwrap
  obtain ⟨haddr, -, -⟩ := Heap.malloc_of_ne hne
  have haligned := M.aligned h.live (size_t (24 + 8 * size))
  unfold new_region
  generalize h.malloc M (size_t (24 + 8 * size)) = v at haddr ⊢
  obtain ⟨r, h₁⟩ := v
  simp only at haddr ⊢
  rw [if_neg (by omega)]
  by_cases hnext : h₁.Valid (next_at r) 8
  · rw [Heap.store_of_valid hnext, ok_bind]
    by_cases hcount : h₁.Valid (count_at r) 8
    · rw [Heap.store_setMem hcount, ok_bind]
      by_cases hcapacity : h₁.Valid (capacity_at r) 8
      · rw [Heap.store_setMem hcapacity, ok_bind]
        refine .inr ⟨r, _, rfl, by omega, ?_, ?_⟩
        · rw [Heap.load_setMem hcount, Mem.load_store_of_disjoint, load_store_word _ _ (by omega)]
          simp only [count_at, capacity_at]
          omega
        · rw [Heap.load_setMem hcapacity, load_store_word _ _ (by omega)]
      · rw [Heap.store_setMem_invalid hcapacity]
        exact .inl rfl
    · rw [Heap.store_setMem_invalid hcount]
      exact .inl rfl
  · rw [Heap.store, if_neg hnext]
    exact .inl rfl

variable {a : Arena} {s : Space} (hh : Held h a s)

include hh

omit hhigh hserves in
/-- No region has room for such a size. -/
theorem Held.firstFit_wrapped : firstFit size s.count (s.regions.drop s.cur) = none := by
  by_contra hne
  obtain ⟨k, hk⟩ := Option.ne_none_iff_exists'.mp hne
  obtain ⟨r, hr, hle⟩ := firstFit_eq_some _ hk
  rw [List.getElem?_drop] at hr
  have hblock := block_le (hh.laid.live _ r hr)
  have haddr := addr_ne_zero (hh.laid.live _ r hr)
  omega

theorem arena_alloc_wrapped {n : Nat} (hsize : size_t (n + 8 - 1) / 8 = size)
    (hn : 2 ^ 64 < 40 + n) : Misplaced n (arena_alloc M h a n) := by
  have hmax : max ARENA_REGION_DEFAULT_CAPACITY size = size := by
    simp only [ARENA_REGION_DEFAULT_CAPACITY]
    omega
  unfold arena_alloc
  simp only [hsize]
  rcases hh.cur_lt with hcur | rfl
  · -- behind the last region comes the one that is too small
    have hr : s.regions[s.cur]? = some s.regions[s.cur] := List.getElem?_eq_getElem hcur
    have hend : a.end_ ≠ 0 := by
      rw [hh.end_eq, addrAt_of_getElem? hr]
      exact addr_ne_zero (hh.laid.live _ _ hr)
    have hfirst : first_region M h a size = .ok (a, h) := if_pos hend
    have hne : s.regions.drop s.cur ≠ [] := by
      rw [ne_eq, List.drop_eq_nil_iff]
      omega
    have hfuel := hh.laid.drop_length_le s.cur
    have hused : s.used s.cur = s.count := if_pos rfl
    have hskip := hh.skip_full_eq (show size < 2 ^ 62 by omega) _ s.cur (h.live.length + 1)
      (Nat.le_refl _) rfl hne (by omega)
    rw [hused, hh.firstFit_wrapped hlow, Option.elim_none, ← hh.end_eq] at hskip
    have hlast : s.regions[s.regions.length - 1]? = some s.regions[s.regions.length - 1] :=
      List.getElem?_eq_getElem (by omega)
    obtain ⟨hnext, hcapacity, hcount⟩ := hh.loads hlast
    have hblock := block_le (hh.laid.live _ _ hlast)
    have haddr := addr_ne_zero (hh.laid.live _ _ hlast)
    rw [hfirst, ok_bind]
    simp only [arena_take, hskip, ok_bind, addrAt_of_getElem? hlast, append_region, hcapacity,
      hcount (by omega), hnext, hh.size_t_used hlast (show size < 2 ^ 62 by omega)]
    rw [if_neg (by omega), addrAt_of_le (by omega), if_neg (not_not.mpr rfl), hmax]
    rcases new_region_wrapped M hlow hhigh hserves with hnew | ⟨r, h', hnew, hr16, -⟩
    · rw [hnew]
      trivial
    · rw [hnew, ok_bind]
      simp only
      unfold Heap.store
      split
      next => exact take_words_misplaced (by omega) _ _ _
      next => trivial
  · -- the first region is too small
    have hend : a.end_ = 0 := hh.end_eq
    have hbegin : a.begin_ = 0 := hh.begin_eq
    rw [first_region, if_neg (not_not.mpr hend), if_neg (not_not.mpr hbegin), hmax]
    rcases new_region_wrapped M hlow hhigh hserves with
      hnew | ⟨r, h', hnew, hr16, hcount, hcapacity⟩
    · rw [hnew]
      trivial
    · have hzero : size_t (0 + size) = size := by
        rw [Nat.zero_add, size_t_of_lt (by omega)]
      have hskip : skip_full h' size (h'.live.length + 1) r = .ok r := by
        rw [skip_full, hcount, ok_bind, hcapacity, ok_bind, hzero, if_pos (Nat.le_refl _)]
        rfl
      have happend : append_region M h' r size = .ok (r, h') := by
        rw [append_region, hcount, ok_bind, hcapacity, ok_bind, hzero, if_pos (Nat.le_refl _)]
        rfl
      rw [hnew]
      show Misplaced n (arena_take M h' ⟨r, r⟩ size)
      rw [arena_take, hskip, ok_bind, happend, ok_bind]
      exact take_words_misplaced (by omega) _ _ _

end

/-! ## §3. Every size. -/

/-- **Exactly the requests of at most `2^64 - 32` bytes are served or refused in order**, while
`malloc` has a region of the usual size. -/
theorem arena_alloc_safe_iff (M : Malloc) {h : Heap} {a : Arena} {s : Space} (hh : Held h a s)
    {n : Nat} (hn : n < 2 ^ 64)
    (hserves : ∀ k ≤ 24 + 8 * ARENA_REGION_DEFAULT_CAPACITY, M.address h.live k ≠ 0) :
    (Safe True (arena_alloc M h a n) fun v => v.2.2.Valid v.1 n) ↔ n + 32 ≤ 2 ^ 64 := by
  constructor
  · intro hsafe
    by_contra hlarge
    by_cases hround : n + 7 < 2 ^ 64
    · have hsize : size_t (n + 8 - 1) / 8 = (n + 7) / 8 := by
        rw [size_t_of_lt (by omega)]
        rfl
      exact (arena_alloc_wrapped M (by omega) (by omega) hserves hh hsize (by omega)).not_safe hsafe
    · -- no words at all
      have hzero : arena_alloc M h a n = arena_alloc M h a 0 := by
        have hsize : size_t (n + 8 - 1) / 8 = size_t (0 + 8 - 1) / 8 := by
          unfold size_t
          omega
        unfold arena_alloc
        rw [hsize]
      have hspec := arena_alloc_spec hh M (show 0 + 32 ≤ 2 ^ 64 by decide)
      obtain ⟨v, hv, halloc⟩ := hspec.returns fun hrefused => hserves _ (by decide) hrefused.2
      rw [hzero, hv] at hsafe
      have hmisplaced : Misplaced n (.ok v) := by
        obtain ⟨r, hr, -⟩ := Space.alloc_inside s (words 0) (fresh_region M h (words 0))
        have haddr := addr_ne_zero (halloc.held.laid.live _ r hr)
        show 2 ^ 64 < v.1 + n
        rw [halloc.result, addrAt_of_getElem? hr, data_at]
        omega
      exact hmisplaced.not_safe hsafe
  · intro hle
    refine (arena_alloc_pushed hh M hle).mono (fun _ => trivial) fun v hv => ?_
    have hs : Stacked s [] := ⟨by simp, by simp, List.Pairwise.nil⟩
    have hvalid := (hs.alloc hh.cur_lt n (fresh_region M h (words n))).valid hv.held.laid
      (List.mem_append_right _ (List.mem_singleton_self _))
    have hblock := hv.block_eq
    rw [Space.top] at hblock
    rwa [hblock] at hvalid

/-- A heap in which nothing is in use. -/
def unused_heap : Heap := ⟨fun _ => 0, [], List.Pairwise.nil, fun _ hb => nomatch hb⟩

/-- The first request of an arena, too large by 22 bytes. -/
theorem arena_alloc_safe_iff_witness :
    (Safe True (arena_alloc .bump unused_heap ⟨0, 0⟩ (2 ^ 64 - 10)) fun v =>
      v.2.2.Valid v.1 (2 ^ 64 - 10)) ↔ 2 ^ 64 - 10 + 32 ≤ 2 ^ 64 := by
  refine arena_alloc_safe_iff .bump (held_empty unused_heap) (by decide) fun k hk => ?_
  have htop : Block.top unused_heap.live = 0 := rfl
  simp only [Malloc.bump, htop, ARENA_REGION_DEFAULT_CAPACITY] at hk ⊢
  rw [if_pos (by omega)]
  decide

end PreSeQL.Allocator
