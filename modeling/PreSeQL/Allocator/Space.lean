/-
  PreSeQL.Allocator.Space — what an arena is, and what its functions do to it.

  `Space` forgets the bytes: the regions in order, the current one and how many of its
  words are handed out; the regions behind the current one are empty.  `Held h a s` says
  that the arena `a` lays out `s` in the heap `h`.  Allocation is first fit from the
  current region on, with a further region when nothing fits (`Space.alloc`).

    • `arena_alloc_spec` — `arena_alloc` is `Space.alloc`,
    • `Held.take`, `Held.append` — its two cases: words of a region in use, and a new region,
    • `new_region_spec` — a region fresh from `malloc`.
-/
import PreSeQL.Allocator.Arena
import Mathlib.Data.List.Nodup
import Mathlib.Data.List.Perm.Subperm

namespace PreSeQL.Allocator

open PreSeQL.Lib

/-! ## §1. Arithmetic of the machine. -/

theorem size_t_of_lt {n : Nat} (h : n < 2 ^ 64) : size_t n = n := Nat.mod_eq_of_lt h

/-- A word that was written reads back. -/
theorem load_store_word (m : Mem) (a : Nat) {v : Nat} (h : v < 2 ^ 64) :
    (m.store a 8 v).load a 8 = v :=
  (Mem.load_store_same m a 8 v).trans (Nat.mod_eq_of_lt h)

/-! ## §2. Spaces. -/

/-- A region by its address and the number of its data words. -/
structure Region where
  addr : Nat
  capacity : Nat
  deriving DecidableEq, Repr

/-- What `malloc` handed out for the region. -/
def Region.block (r : Region) : Block := ⟨r.addr, 24 + 8 * r.capacity⟩

/-- The three header words. -/
def Region.header (r : Region) : Block := ⟨r.addr, 24⟩

structure Space where
  regions : List Region
  cur : Nat
  count : Nat

/-- The first region with `size` free words, of which the head has `used` handed out. -/
def firstFit (size : Nat) : Nat → List Region → Option Nat
  | _, [] => none
  | used, r :: rs =>
      if used + size ≤ r.capacity then some 0 else (firstFit size 0 rs).map (· + 1)

/-- The address of region `i`, `NULL` behind the last one. -/
def addrAt (rs : List Region) (i : Nat) : Nat := (rs[i]?).elim 0 Region.addr

theorem addrAt_of_getElem? {rs : List Region} {i : Nat} {r : Region} (hr : rs[i]? = some r) :
    addrAt rs i = r.addr := by
  simp [addrAt, hr]

theorem addrAt_of_le {rs : List Region} {i : Nat} (hi : rs.length ≤ i) : addrAt rs i = 0 := by
  simp [addrAt, List.getElem?_eq_none hi]

theorem addrAt_drop (rs : List Region) (n i : Nat) : addrAt (rs.drop n) i = addrAt rs (n + i) := by
  rw [addrAt, addrAt, List.getElem?_drop]

theorem addrAt_append {rs : List Region} {i : Nat} (hi : i < rs.length) (rs' : List Region) :
    addrAt (rs ++ rs') i = addrAt rs i := by
  rw [addrAt, addrAt, List.getElem?_append_left hi]

namespace Space

/-- The arena before its first allocation. -/
def empty : Space := ⟨[], 0, 0⟩

/-- The words of region `i` that are handed out, from the current region on. -/
def used (s : Space) (i : Nat) : Nat := if i = s.cur then s.count else 0

/-- **Allocation of `size` words**: where they are (region and word), and the space
afterwards; `fresh` is the address of a further region. -/
def alloc (s : Space) (size fresh : Nat) : (Nat × Nat) × Space :=
  match firstFit size s.count (s.regions.drop s.cur) with
  | some k => ((s.cur + k, s.used (s.cur + k)),
      { s with cur := s.cur + k, count := s.used (s.cur + k) + size })
  | none => ((s.regions.length, 0),
      ⟨s.regions ++ [⟨fresh, max ARENA_REGION_DEFAULT_CAPACITY size⟩], s.regions.length, size⟩)

end Space

/-! ## §3. The arena in the heap. -/

/-- The regions `rs` are live blocks of the heap, linked in this order. -/
structure Laid (h : Heap) (rs : List Region) : Prop where
  live : ∀ (i : Nat) (r : Region), rs[i]? = some r → r.block ∈ h.live
  next : ∀ (i : Nat) (r : Region), rs[i]? = some r →
    h.mem.load (next_at r.addr) 8 = addrAt rs (i + 1)
  capacity : ∀ (i : Nat) (r : Region), rs[i]? = some r →
    h.mem.load (capacity_at r.addr) 8 = r.capacity
  distinct : ∀ (i j : Nat) (r : Region), rs[i]? = some r → rs[j]? = some r → i = j

/-- The arena `a` lays out `s` in the heap `h`. -/
structure Held (h : Heap) (a : Arena) (s : Space) : Prop where
  laid : Laid h s.regions
  begin_eq : a.begin_ = addrAt s.regions 0
  end_eq : a.end_ = addrAt s.regions s.cur
  cur_lt : s.cur < s.regions.length ∨ s = Space.empty
  count : ∀ (i : Nat) (r : Region), s.regions[i]? = some r → s.cur ≤ i →
    h.mem.load (count_at r.addr) 8 = s.used i
  count_le : ∀ r : Region, s.regions[s.cur]? = some r → s.count ≤ r.capacity

section Region

variable {h : Heap} {r : Region}

theorem addr_ne_zero (hr : r.block ∈ h.live) : r.addr ≠ 0 := (h.placed _ hr).1

theorem block_le (hr : r.block ∈ h.live) : r.addr + (24 + 8 * r.capacity) ≤ 2 ^ 64 :=
  (h.placed _ hr).2

/-- The three header words can be read and written. -/
theorem valid_header (hr : r.block ∈ h.live) :
    h.Valid (next_at r.addr) 8 ∧ h.Valid (count_at r.addr) 8 ∧ h.Valid (capacity_at r.addr) 8 := by
  refine ⟨⟨_, hr, ?_⟩, ⟨_, hr, ?_⟩, ⟨_, hr, ?_⟩⟩ <;>
    simp only [Block.Holds, Region.block, next_at, count_at, capacity_at] <;> omega

theorem Region.block_ne {r r' : Region} (hne : r ≠ r') : r.block ≠ r'.block := by
  rintro heq
  apply hne
  cases r
  cases r'
  simp only [Region.block, Block.mk.injEq] at heq
  simp only [Region.mk.injEq]
  omega

/-- Writing one header field leaves every other one. -/
theorem load_store_field {r' : Region} (hr : r.block ∈ h.live) (hr' : r'.block ∈ h.live)
    {o q : Nat} (ho : o + 8 ≤ 24) (hq : q + 8 ≤ 24)
    (hne : r = r' → o + 8 ≤ q ∨ q + 8 ≤ o) (m : Mem) (v : Nat) :
    (m.store (r.addr + o) 8 v).load (r'.addr + q) 8 = m.load (r'.addr + q) 8 := by
  apply Mem.load_store_of_disjoint
  by_cases heq : r = r'
  · subst heq
    have := hne rfl
    omega
  · have hdisjoint := (Heap.apart_of_ne hr hr' (Region.block_ne heq)).2
    simp only [Block.Disjoint, Region.block] at hdisjoint
    omega

end Region

/-! ## §4. A new region. -/

/-- `h'` is `h` with the fresh, empty and unlinked region `r`. -/
structure NewRegion (h : Heap) (r : Region) (h' : Heap) : Prop where
  live : h'.live = r.block :: h.live
  next : h'.mem.load (next_at r.addr) 8 = 0
  count : h'.mem.load (count_at r.addr) 8 = 0
  capacity : h'.mem.load (capacity_at r.addr) 8 = r.capacity
  within : Within [r.header] h.mem h'.mem

theorem new_region_spec (M : Malloc) (h : Heap) {capacity : Nat}
    (hcap : 24 + 8 * capacity < 2 ^ 64) :
    Safe (M.address h.live (24 + 8 * capacity) = 0) (new_region M h capacity) fun v =>
      v.1 = M.address h.live (24 + 8 * capacity) ∧ NewRegion h ⟨v.1, capacity⟩ v.2 := by
  unfold new_region
  rw [size_t_of_lt hcap]
  by_cases hz : M.address h.live (24 + 8 * capacity) = 0
  · rw [Heap.malloc_of_eq hz]
    exact hz
  · obtain ⟨haddr, hlive, hmem⟩ := Heap.malloc_of_ne hz
    generalize hv : h.malloc M (24 + 8 * capacity) = v at haddr hlive hmem
    obtain ⟨r, h'⟩ := v
    have hr : (Region.mk r capacity).block ∈ h'.live := by
      rw [hlive, Region.block, ← haddr]
      exact List.mem_cons_self
    obtain ⟨hnext, hcount, hcapacity⟩ := valid_header hr
    show Safe _ (if r = 0 then _ else _) _
    rw [if_neg (addr_ne_zero hr)]
    simp only [Heap.store_of_valid hnext, Heap.store_setMem hcount, Heap.store_setMem hcapacity,
      ok_bind]
    refine ⟨haddr, hlive.trans (by rw [← haddr]; rfl), ?_, ?_, ?_, ?_⟩
    · rw [Heap.setMem_mem, Mem.load_store_of_disjoint _ (by simp [next_at, capacity_at]),
        Mem.load_store_of_disjoint _ (by simp [next_at, count_at]), load_store_word _ _ (by decide)]
    · rw [Heap.setMem_mem, Mem.load_store_of_disjoint _ (by simp [count_at, capacity_at]),
        load_store_word _ _ (by decide)]
    · rw [Heap.setMem_mem, load_store_word _ _ (by omega)]
    · have hin : ∀ o, o + 8 ≤ 24 → (Region.mk r capacity).header.Holds (r + o) 8 := by
        intro o ho
        simp only [Block.Holds, Region.header]
        omega
      rw [Heap.setMem_mem, ← hmem]
      exact (((Within.refl _ _).store (List.mem_singleton_self _) (hin 0 (by decide)) _).store
        (List.mem_singleton_self _) (hin 8 (by decide)) _).store
        (List.mem_singleton_self _) (hin 16 (by decide)) _

namespace NewRegion

variable {h h' : Heap} {r : Region} (hn : NewRegion h r h')

include hn

theorem mem_live {b : Block} : b ∈ h'.live ↔ b = r.block ∨ b ∈ h.live := by
  rw [hn.live, List.mem_cons]

theorem apart {b : Block} (hb : b ∈ h.live) : r.block.Apart b := by
  have hpairwise := h'.apart
  rw [hn.live, List.pairwise_cons] at hpairwise
  exact hpairwise.1 b hb

/-- The blocks that were there keep their contents. -/
theorem load_eq {b : Block} (hb : b ∈ h.live) {a n : Nat} (hin : b.Holds a n) :
    h'.mem.load a n = h.mem.load a n := by
  refine hn.within.load_of_disjoint (fun c hc => ?_) hin
  obtain rfl := List.mem_singleton.mp hc
  have hdisjoint := (hn.apart hb).2
  simp only [Block.Disjoint, Region.block, Region.header] at hdisjoint ⊢
  omega

/-- The first region of an arena. -/
theorem held : Held h' ⟨r.addr, r.addr⟩ ⟨[r], 0, 0⟩ := by
  have hone : ∀ i (r' : Region), [r][i]? = some r' → i = 0 ∧ r' = r := by
    intro i r' hr'
    cases i with
    | zero => exact ⟨rfl, (Option.some.inj hr').symm⟩
    | succ i => cases hr'
  have hlaid : Laid h' [r] := by
    constructor
    · intro i r' hr'
      obtain ⟨-, rfl⟩ := hone i r' hr'
      exact hn.mem_live.mpr (.inl rfl)
    · intro i r' hr'
      obtain ⟨rfl, rfl⟩ := hone i r' hr'
      exact hn.next
    · intro i r' hr'
      obtain ⟨-, rfl⟩ := hone i r' hr'
      exact hn.capacity
    · intro i j r' hi hj
      exact (hone i r' hi).1.trans (hone j r' hj).1.symm
  refine ⟨hlaid, rfl, rfl, .inl Nat.zero_lt_one, fun i r' hr' _ => ?_, fun _ _ => Nat.zero_le _⟩
  obtain ⟨rfl, rfl⟩ := hone i r' hr'
  exact hn.count

end NewRegion

/-! ## §5. Changes of the list. -/

namespace Laid

variable {h : Heap} {rs : List Region} (hl : Laid h rs)

include hl

theorem mem_live {r : Region} (hr : r ∈ rs) : r.block ∈ h.live := by
  obtain ⟨i, hi⟩ := List.mem_iff_getElem?.mp hr
  exact hl.live i r hi

/-- A count is no part of the list. -/
theorem set_count {r : Region} (hr : r ∈ rs) (v : Nat) :
    Laid (h.setMem (h.mem.store (count_at r.addr) 8 v)) rs := by
  refine ⟨hl.live, fun i r' hr' => ?_, fun i r' hr' => ?_, hl.distinct⟩
  · exact (load_store_field (hl.mem_live hr) (hl.live i r' hr') (q := 0) (by decide) (by decide)
      (fun _ => by decide) _ _).trans (hl.next i r' hr')
  · exact (load_store_field (hl.mem_live hr) (hl.live i r' hr') (by decide) (by decide)
      (fun _ => by decide) _ _).trans (hl.capacity i r' hr')

/-- A new region behind the last one. -/
theorem append {n : Nat} {l r : Region} {h' : Heap} (hlast : rs[n]? = some l)
    (hlen : rs.length = n + 1) (hn : NewRegion h r h') :
    Laid (h'.setMem (h'.mem.store (next_at l.addr) 8 r.addr)) (rs ++ [r]) := by
  have hllive := hl.live n l hlast
  have hrlive : r.block ∈ h'.live := hn.mem_live.mpr (.inl rfl)
  have hrne : ∀ {r' : Region}, r'.block ∈ h.live → r' ≠ r := by
    rintro r' hr' rfl
    exact (hn.apart hr').1 rfl
  have hblock := block_le hrlive
  -- a region of the new list is one of the old or the new one
  have hcases : ∀ i (r' : Region), (rs ++ [r])[i]? = some r' →
      rs[i]? = some r' ∨ i = rs.length ∧ r' = r := by
    intro i r' hr'
    rw [List.getElem?_append] at hr'
    split at hr'
    next => exact .inl hr'
    next hi =>
      obtain ⟨hi', hr''⟩ := List.getElem?_eq_some_iff.mp hr'
      simp only [List.length_singleton] at hi'
      exact .inr ⟨by omega, by simpa using hr''.symm⟩
  -- what the link leaves alone
  have hfield : ∀ {r' : Region}, r'.block ∈ h'.live → ∀ o, o + 8 ≤ 24 → (l = r' → 8 ≤ o) →
      (h'.mem.store (next_at l.addr) 8 r.addr).load (r'.addr + o) 8
        = h'.mem.load (r'.addr + o) 8 := by
    intro r' hr' o ho hne
    exact load_store_field (hn.mem_live.mpr (.inr hllive)) hr' (o := 0) (by decide) ho
      (fun heq => .inl (by have := hne heq; omega)) _ _
  have hold : ∀ {i : Nat} {r' : Region}, rs[i]? = some r' → ∀ o, o + 8 ≤ 24 →
      h'.mem.load (r'.addr + o) 8 = h.mem.load (r'.addr + o) 8 := by
    intro i r' hr' o ho
    refine hn.load_eq (hl.live i r' hr') ?_
    simp only [Block.Holds, Region.block]
    omega
  refine ⟨fun i r' hr' => ?_, fun i r' hr' => ?_, fun i r' hr' => ?_, fun i j r' hi hj => ?_⟩
  · rcases hcases i r' hr' with hr' | ⟨-, rfl⟩
    · exact hn.mem_live.mpr (.inr (hl.live i r' hr'))
    · exact hrlive
  · rcases hcases i r' hr' with hr' | ⟨rfl, rfl⟩
    · have hi := (List.getElem?_eq_some_iff.mp hr').1
      by_cases heq : l = r'
      · -- the link itself
        subst heq
        have hin : n = i := hl.distinct n i l hlast hr'
        have hself : addrAt (rs ++ [r]) rs.length = r.addr := addrAt_of_getElem? (by simp)
        rw [← hin, ← hlen, hself, Heap.setMem_mem, load_store_word _ _ (by omega)]
      · have hlt : i + 1 < rs.length := by
          have hne : i ≠ n := by
            rintro rfl
            exact heq (Option.some.inj (hlast.symm.trans hr'))
          omega
        rw [addrAt_append hlt]
        exact (hfield (hn.mem_live.mpr (.inr (hl.live i r' hr'))) 0 (by decide)
          (fun h => absurd h heq)).trans ((hold hr' 0 (by decide)).trans (hl.next i r' hr'))
    · rw [addrAt_of_le (by simp)]
      exact (hfield hrlive 0 (by decide) (fun h => absurd h (hrne hllive))).trans hn.next
  · rcases hcases i r' hr' with hr' | ⟨-, rfl⟩
    · exact (hfield (hn.mem_live.mpr (.inr (hl.live i r' hr'))) 16 (by decide)
        (fun _ => by decide)).trans ((hold hr' 16 (by decide)).trans (hl.capacity i r' hr'))
    · exact (hfield hrlive 16 (by decide) (fun _ => by decide)).trans hn.capacity
  · rcases hcases i r' hi with hi' | ⟨rfl, hir⟩
    · rcases hcases j r' hj with hj' | ⟨-, hjr⟩
      · exact hl.distinct i j r' hi' hj'
      · exact absurd hjr (hrne (hl.live i r' hi'))
    · rcases hcases j r' hj with hj' | ⟨rfl, -⟩
      · exact absurd hir (hrne (hl.live j r' hj'))
      · rfl

/-- There are at least as many live blocks as regions from `i` on. -/
theorem drop_length_le (i : Nat) : (rs.drop i).length ≤ h.live.length := by
  have hnodup : (rs.map Region.block).Nodup := by
    refine List.Nodup.map_on (fun r _ r' _ heq => ?_) (List.nodup_iff_getElem?_ne_getElem?.mpr ?_)
    · by_contra hne
      exact Region.block_ne hne heq
    · intro i j hij hj heq
      have hr : rs[j]? = some rs[j] := List.getElem?_eq_getElem hj
      exact Nat.ne_of_lt hij (hl.distinct i j _ (heq.trans hr) hr)
  have hsub : rs.map Region.block ⊆ h.live := by
    intro b hb
    obtain ⟨r, hr, rfl⟩ := List.mem_map.mp hb
    exact hl.mem_live hr
  have hle := (hnodup.subperm hsub).length_le
  rw [List.length_map] at hle
  rw [List.length_drop]
  omega

end Laid

/-! ## §6. First fit. -/

/-- The words in use in front of a list of regions of which the head has `used`. -/
def headUsed (used k : Nat) : Nat := if k = 0 then used else 0

theorem firstFit_eq_some {size : Nat} (rs : List Region) : ∀ {used k : Nat},
    firstFit size used rs = some k →
      ∃ r, rs[k]? = some r ∧ headUsed used k + size ≤ r.capacity := by
  induction rs with
  | nil => intro used k h; cases h
  | cons r rs ih =>
      intro used k h
      rw [firstFit] at h
      split at h
      next hfit =>
        cases h
        exact ⟨r, rfl, hfit⟩
      next =>
        obtain ⟨k', hk', rfl⟩ := Option.map_eq_some_iff.mp h
        obtain ⟨r', hr', hfit⟩ := ih hk'
        refine ⟨r', hr', ?_⟩
        unfold headUsed at hfit ⊢
        split at hfit <;> simpa using hfit

theorem firstFit_eq_none {size : Nat} (rs : List Region) : ∀ {used : Nat},
    firstFit size used rs = none →
      ∀ k r, rs[k]? = some r → r.capacity < headUsed used k + size := by
  induction rs with
  | nil => intro used _ k r hr; cases hr
  | cons r rs ih =>
      intro used h k r' hr'
      rw [firstFit] at h
      split at h
      next => cases h
      next hfull =>
        cases k with
        | zero =>
            cases hr'
            exact Nat.lt_of_not_le hfull
        | succ k =>
            have hlt := ih (Option.map_eq_none_iff.mp h) k r' hr'
            unfold headUsed at hlt ⊢
            split at hlt <;> simpa using hlt

/-! ## §6. The walk to a region with room. -/

namespace Held

variable {h : Heap} {a : Arena} {s : Space} (hh : Held h a s)

include hh

/-- The fields of a region of the arena can be read. -/
theorem loads {i : Nat} {r : Region} (hr : s.regions[i]? = some r) :
    h.load (next_at r.addr) 8 = .ok (addrAt s.regions (i + 1))
    ∧ h.load (capacity_at r.addr) 8 = .ok r.capacity
    ∧ (s.cur ≤ i → h.load (count_at r.addr) 8 = .ok (s.used i)) := by
  obtain ⟨hnext, hcount, hcapacity⟩ := valid_header (hh.laid.live i r hr)
  refine ⟨?_, ?_, fun hi => ?_⟩
  · rw [Heap.load_of_valid hnext, hh.laid.next i r hr]
  · rw [Heap.load_of_valid hcapacity, hh.laid.capacity i r hr]
  · rw [Heap.load_of_valid hcount, hh.count i r hr hi]

theorem used_le {i : Nat} {r : Region} (hr : s.regions[i]? = some r) : s.used i ≤ r.capacity := by
  unfold Space.used
  split
  next hi => exact hh.count_le r (hi ▸ hr)
  next => exact Nat.zero_le _

/-- Machine arithmetic on the words of a region is exact. -/
theorem size_t_used {i : Nat} {r : Region} (hr : s.regions[i]? = some r) {size : Nat}
    (hsize : size < 2 ^ 62) : size_t (s.used i + size) = s.used i + size := by
  have hle := hh.used_le hr
  have hblock := block_le (hh.laid.live i r hr)
  exact size_t_of_lt (by omega)

theorem skip_full_eq {size : Nat} (hsize : size < 2 ^ 62) (rs : List Region) : ∀ (i fuel : Nat),
    s.cur ≤ i → s.regions.drop i = rs → rs ≠ [] → rs.length ≤ fuel →
      skip_full h size fuel (addrAt s.regions i)
        = .ok (addrAt s.regions
            ((firstFit size (s.used i) rs).elim (s.regions.length - 1) (i + ·))) := by
  induction rs with
  | nil => intro i fuel _ _ hne; exact absurd rfl hne
  | cons r rs ih =>
      intro i fuel hi hdrop _ hfuel
      have hr : s.regions[i]? = some r := by
        rw [← List.head?_drop, hdrop, List.head?_cons]
      have hrest : s.regions.drop (i + 1) = rs := by
        rw [← List.drop_drop, hdrop, List.drop_one, List.tail_cons]
      obtain ⟨hnext, hcapacity, hcount⟩ := hh.loads hr
      obtain ⟨fuel, rfl⟩ : ∃ f, fuel = f + 1 := ⟨fuel - 1, by simp at hfuel; omega⟩
      rw [addrAt_of_getElem? hr, skip_full, hcapacity, hcount hi, hnext, firstFit]
      simp only [ok_bind, hh.size_t_used hr hsize]
      split
      next => rw [Option.elim_some, Nat.add_zero, addrAt_of_getElem? hr]; rfl
      next =>
        cases rs with
        | nil =>
            -- the last region: `next` is NULL
            have hlen : s.regions.length = i + 1 := by
              have hlast := congrArg List.length hdrop
              have := List.getElem?_eq_some_iff.mp hr
              simp only [List.length_drop, List.length_cons, List.length_nil] at hlast
              omega
            rw [addrAt_of_le (Nat.le_of_eq hlen), if_pos rfl, firstFit, Option.map_none,
              Option.elim_none, hlen, Nat.add_sub_cancel, addrAt_of_getElem? hr]
            rfl
        | cons r' rs =>
            have hr' : s.regions[i + 1]? = some r' := by
              rw [← List.head?_drop, hrest, List.head?_cons]
            have hne : addrAt s.regions (i + 1) ≠ 0 := by
              rw [addrAt_of_getElem? hr']
              exact addr_ne_zero (hh.laid.live _ r' hr')
            have hunused : s.used (i + 1) = 0 := if_neg (by omega)
            rw [if_neg hne, ih (i + 1) fuel (by omega) hrest (List.cons_ne_nil _ _)
              (by simpa using hfuel), hunused]
            cases firstFit size 0 (r' :: rs) with
            | none => rfl
            | some k =>
                rw [Option.map_some, Option.elim_some, Option.elim_some, Nat.add_assoc,
                  Nat.add_comm 1 k]

/-! ## §7. Changes of the layout. -/

/-- Only the headers matter. -/
theorem of_headers {m : Mem} (hm : ∀ r ∈ s.regions, ∀ i, r.header.Holds i 1 → m i = h.mem i) :
    Held (h.setMem m) a s := by
  have hload : ∀ {i : Nat} {r : Region}, s.regions[i]? = some r → ∀ o, o + 8 ≤ 24 →
      m.load (r.addr + o) 8 = h.mem.load (r.addr + o) 8 := by
    intro i r hr o ho
    refine Mem.load_congr 8 _ fun j h₁ h₂ => hm r (List.mem_of_getElem? hr) j ?_
    simp only [Block.Holds, Region.header]
    omega
  refine ⟨⟨hh.laid.live, fun i r hr => ?_, fun i r hr => ?_, hh.laid.distinct⟩, hh.begin_eq,
    hh.end_eq, hh.cur_lt, fun i r hr hi => ?_, hh.count_le⟩
  · exact (hload hr 0 (by decide)).trans (hh.laid.next i r hr)
  · exact (hload hr 16 (by decide)).trans (hh.laid.capacity i r hr)
  · exact (hload hr 8 (by decide)).trans (hh.count i r hr hi)

/-- The words behind the current position are taken up to `v` words of region `i`. -/
theorem take {i : Nat} {r : Region} (hr : s.regions[i]? = some r) (hi : s.cur ≤ i) {v : Nat}
    (hv : v ≤ r.capacity) :
    Held (h.setMem (h.mem.store (count_at r.addr) 8 v)) { a with end_ := r.addr }
      { s with cur := i, count := v } := by
  have hblock := block_le (hh.laid.live i r hr)
  refine ⟨hh.laid.set_count (List.mem_of_getElem? hr) v, hh.begin_eq,
    (addrAt_of_getElem? hr).symm, .inl (List.getElem?_eq_some_iff.mp hr).1, ?_, ?_⟩
  · intro j r' hr' hj
    by_cases heq : r = r'
    · -- the region itself
      subst heq
      have hij : i = j := hh.laid.distinct i j r hr hr'
      subst hij
      rw [Heap.setMem_mem, load_store_word _ _ (by omega)]
      exact (if_pos rfl).symm
    · -- the regions behind it are empty
      have hij : i ≠ j := by
        rintro rfl
        exact heq (Option.some.inj (hr.symm.trans hr'))
      have hbehind : i ≤ j := hj
      refine (load_store_field (hh.laid.live i r hr) (hh.laid.live j r' hr') (by decide) (by decide)
        (fun h => absurd h heq) _ _).trans ((hh.count j r' hr' (Nat.le_trans hi hj)).trans ?_)
      rw [Space.used, Space.used, if_neg (by omega), if_neg (Ne.symm hij)]
  · intro r' hr'
    exact (Option.some.inj (hr.symm.trans hr')) ▸ hv

/-- A further region is linked behind the last one and becomes the current one. -/
theorem append {n : Nat} {l r : Region} {h' : Heap} (hl : s.regions[n]? = some l)
    (hlen : s.regions.length = n + 1) (hn : NewRegion h r h') :
    Held (h'.setMem (h'.mem.store (next_at l.addr) 8 r.addr)) { a with end_ := r.addr }
      ⟨s.regions ++ [r], s.regions.length, 0⟩ := by
  have hlast : (s.regions ++ [r])[s.regions.length]? = some r := by simp
  refine ⟨hh.laid.append hl hlen hn, ?_, (addrAt_of_getElem? hlast).symm, .inl (by simp), ?_,
    fun _ _ => Nat.zero_le _⟩
  · rw [addrAt_append (by omega)]
    exact hh.begin_eq
  · intro i r' hr' hi
    have hlt := (List.getElem?_eq_some_iff.mp hr').1
    obtain rfl : i = s.regions.length := by simp at hlt hi; omega
    obtain rfl : r' = r := Option.some.inj (hr'.symm.trans hlast)
    have hne : l ≠ r' := by
      rintro rfl
      exact (hn.apart (hh.laid.live n l hl)).1 rfl
    exact (load_store_field (hn.mem_live.mpr (.inr (hh.laid.live n l hl)))
      (hn.mem_live.mpr (.inl rfl)) (o := 0) (by decide) (by decide) (fun h => absurd h hne)
      _ _).trans (hn.count.trans (if_pos rfl).symm)

/-! ## §8. Allocation. -/

/-- A region with room is left as it is. -/
theorem append_region_of_fits (M : Malloc) {i : Nat} {r : Region} (hr : s.regions[i]? = some r)
    (hi : s.cur ≤ i) {size : Nat} (hsize : size < 2 ^ 62) (hfit : s.used i + size ≤ r.capacity) :
    append_region M h r.addr size = .ok (r.addr, h) := by
  obtain ⟨-, hcapacity, hcount⟩ := hh.loads hr
  rw [append_region, hcapacity, hcount hi]
  simp only [ok_bind, hh.size_t_used hr hsize]
  exact if_pos hfit

/-- Behind a full last region comes a new one. -/
theorem append_region_of_full (M : Malloc) {n : Nat} {l : Region} (hl : s.regions[n]? = some l)
    (hlen : s.regions.length = n + 1) (hn : s.cur ≤ n) {size : Nat} (hsize : size < 2 ^ 61 - 3)
    (hfull : l.capacity < s.used n + size) :
    Safe (M.address h.live (24 + 8 * max ARENA_REGION_DEFAULT_CAPACITY size) = 0)
      (append_region M h l.addr size) fun v => ∃ r : Region, ∃ h' : Heap,
        r = ⟨M.address h.live (24 + 8 * max ARENA_REGION_DEFAULT_CAPACITY size),
          max ARENA_REGION_DEFAULT_CAPACITY size⟩
        ∧ NewRegion h r h'
        ∧ v = (r.addr, h'.setMem (h'.mem.store (next_at l.addr) 8 r.addr)) := by
  obtain ⟨hnext, hcapacity, hcount⟩ := hh.loads hl
  rw [append_region, hcapacity, hcount hn, hnext, addrAt_of_le (Nat.le_of_eq hlen)]
  simp only [ok_bind, hh.size_t_used hl (show size < 2 ^ 62 by omega)]
  rw [if_neg (Nat.not_le.mpr hfull), if_neg (not_not.mpr rfl)]
  refine Safe.bind (new_region_spec M h ?_) fun v hv => ?_
  · simp only [ARENA_REGION_DEFAULT_CAPACITY]
    omega
  · obtain ⟨r', h'⟩ := v
    obtain ⟨haddr, hnew⟩ := hv
    -- the last region can still be written
    have hvalid := (valid_header (hnew.mem_live.mpr (.inr (hh.laid.live n l hl)))).1
    show Safe _ (h'.store (next_at l.addr) 8 r' >>= _) _
    rw [Heap.store_of_valid hvalid, ok_bind]
    exact ⟨⟨r', _⟩, h', by rw [← haddr], hnew, rfl⟩

end Held

/-- `(size_bytes + sizeof(uintptr_t) - 1)/sizeof(uintptr_t)` -/
def words (size_bytes : Nat) : Nat := (size_bytes + 7) / 8

/-- `arena_alloc` does to the space what `Space.alloc` says, with `fresh` as the address of a
further region; it writes only headers. -/
structure Allocated (h : Heap) (s : Space) (size fresh : Nat) (v : Nat × Arena × Heap) : Prop where
  result : v.1 = data_at (addrAt (s.alloc size fresh).2.regions (s.alloc size fresh).1.1)
    (s.alloc size fresh).1.2
  held : Held v.2.2 v.2.1 (s.alloc size fresh).2
  live : v.2.2.live
    = ((s.alloc size fresh).2.regions.drop s.regions.length).map Region.block ++ h.live
  within : Within ((s.alloc size fresh).2.regions.map Region.header) h.mem v.2.2.mem

/-- `malloc`'s answer to the request for a region of at least `size` words. -/
def fresh_region (M : Malloc) (h : Heap) (size : Nat) : Nat :=
  M.address h.live (24 + 8 * max ARENA_REGION_DEFAULT_CAPACITY size)

/-- The arena needs a further region and `malloc` has none. -/
def Refused (M : Malloc) (h : Heap) (s : Space) (size : Nat) : Prop :=
  firstFit size s.count (s.regions.drop s.cur) = none ∧ fresh_region M h size = 0

/-- A count is in a header. -/
theorem Within.count {h : Heap} {m : Mem} {rs : List Region}
    (hw : Within (rs.map Region.header) h.mem m) {r : Region} (hr : r ∈ rs) (v : Nat) :
    Within (rs.map Region.header) h.mem (m.store (count_at r.addr) 8 v) := by
  refine hw.store (List.mem_map_of_mem hr) ?_ v
  simp only [Block.Holds, Region.header, count_at]
  omega

section Alloc

variable {h : Heap} {a : Arena} {s : Space} (hh : Held h a s)

include hh

theorem Held.take_words_eq {i : Nat} {r : Region} (hr : s.regions[i]? = some r) (hi : s.cur ≤ i)
    {size : Nat} (hfit : s.used i + size ≤ r.capacity) :
    take_words h a r.addr size
      = .ok (data_at r.addr (s.used i), { a with end_ := r.addr },
          h.setMem (h.mem.store (count_at r.addr) 8 (s.used i + size))) := by
  obtain ⟨-, -, hcount⟩ := hh.loads hr
  have hblock := block_le (hh.laid.live i r hr)
  rw [take_words, hcount hi]
  simp only [ok_bind, Heap.store_of_valid (valid_header (hh.laid.live i r hr)).2.1]
  rw [size_t_of_lt (by omega)]
  rfl

theorem arena_take_spec (M : Malloc) (hcur : s.cur < s.regions.length) {size : Nat}
    (hsize : size < 2 ^ 61 - 3) :
    Safe (Refused M h s size) (arena_take M h a size)
      (Allocated h s size (fresh_region M h size)) := by
  have hne : s.regions.drop s.cur ≠ [] := by
    rw [ne_eq, List.drop_eq_nil_iff]
    omega
  have hused : s.used s.cur = s.count := if_pos rfl
  have hhead : ∀ k, headUsed s.count k = s.used (s.cur + k) := by
    intro k
    simp [headUsed, Space.used]
  have hfuel := hh.laid.drop_length_le s.cur
  rw [arena_take, hh.end_eq, hh.skip_full_eq (by omega) _ s.cur _ (Nat.le_refl _) rfl hne (by omega),
    hused, ok_bind]
  cases hf : firstFit size s.count (s.regions.drop s.cur) with
  | some k =>
      obtain ⟨r, hr, hfit⟩ := firstFit_eq_some _ hf
      rw [List.getElem?_drop] at hr
      rw [hhead] at hfit
      have hi := Nat.le_add_right s.cur k
      rw [Option.elim_some, addrAt_of_getElem? hr,
        hh.append_region_of_fits M hr hi (by omega) hfit, ok_bind]
      show Safe _ (take_words h a r.addr size) _
      rw [hh.take_words_eq hr hi hfit]
      have halloc : s.alloc size (fresh_region M h size)
          = ((s.cur + k, s.used (s.cur + k)),
              { s with cur := s.cur + k, count := s.used (s.cur + k) + size }) := by
        rw [Space.alloc, hf]
      constructor
      · rw [halloc]
        exact congrArg (data_at · _)
          (addrAt_of_getElem? hr).symm
      · rw [halloc]
        exact hh.take hr hi hfit
      · rw [halloc]
        simp
      · rw [halloc]
        exact Within.count (Within.refl _ _) (List.mem_of_getElem? hr) _
  | none =>
      obtain ⟨n, hlen⟩ : ∃ n, s.regions.length = n + 1 := ⟨s.regions.length - 1, by omega⟩
      have hl : s.regions[n]? = some s.regions[n] := List.getElem?_eq_getElem (by omega)
      have hfull : s.regions[n].capacity < s.used n + size := by
        have hlt := firstFit_eq_none _ hf (n - s.cur) s.regions[n]
          (by rw [List.getElem?_drop, Nat.add_sub_cancel' (by omega), hl])
        rwa [hhead, Nat.add_sub_cancel' (by omega)] at hlt
      rw [Option.elim_none, hlen, Nat.add_sub_cancel, addrAt_of_getElem? hl]
      refine Safe.bind ((hh.append_region_of_full M hl hlen (by omega) hsize hfull).mono
        (fun hz => ⟨hf, hz⟩) fun _ hv => hv) ?_
      rintro _ ⟨r, h', hr, hnew, rfl⟩
      have happend := hh.append hl hlen hnew
      have hlast : (s.regions ++ [r])[s.regions.length]? = some r := by simp
      have hunused : (Space.mk (s.regions ++ [r]) s.regions.length 0).used s.regions.length = 0 :=
        if_pos rfl
      have hfit : 0 + size ≤ r.capacity := by
        rw [hr, Nat.zero_add]
        exact Nat.le_max_right _ _
      have hmem : r ∈ s.regions ++ [r] := List.mem_append_right _ (List.mem_singleton_self r)
      show Safe _ (take_words _ { a with end_ := r.addr } r.addr size) _
      rw [happend.take_words_eq hlast (Nat.le_refl _) (hunused.symm ▸ hfit), hunused, Nat.zero_add]
      have halloc : s.alloc size (fresh_region M h size)
          = ((s.regions.length, 0), ⟨s.regions ++ [r], s.regions.length, size⟩) := by
        rw [Space.alloc, hf, hr]
        rfl
      constructor
      · rw [halloc]
        exact congrArg (data_at · 0) (addrAt_of_getElem? hlast).symm
      · rw [halloc]
        exact happend.take hlast (Nat.le_refl _) (by omega)
      · rw [halloc, List.drop_left]
        exact hnew.live
      · rw [halloc]
        refine Within.count (Within.store (hnew.within.mono ?_)
          (List.mem_map_of_mem (List.mem_append_left _ (List.mem_of_getElem? hl))) ?_ _) hmem _
        · intro b hb
          rw [List.mem_singleton.mp hb]
          exact List.mem_map_of_mem hmem
        · simp only [Block.Holds, Region.header, next_at]
          omega

/-- **`arena_alloc` is `Space.alloc`**: it fails only if it needs a further region and `malloc`
has none. -/
theorem arena_alloc_spec (M : Malloc) {size_bytes : Nat} (hbytes : size_bytes + 32 ≤ 2 ^ 64) :
    Safe (Refused M h s (words size_bytes)) (arena_alloc M h a size_bytes)
      (Allocated h s (words size_bytes) (fresh_region M h (words size_bytes))) := by
  have hsize : size_t (size_bytes + 8 - 1) / 8 = words size_bytes := by
    rw [size_t_of_lt (by omega)]
    rfl
  have hlt : words size_bytes < 2 ^ 61 - 3 := by
    unfold words
    omega
  unfold arena_alloc
  rw [hsize]
  generalize words size_bytes = size at hlt
  show Safe _ (first_region M h a size >>= fun v => arena_take M v.2 v.1 size) _
  rcases hh.cur_lt with hcur | rfl
  · -- the arena has a region
    have hend : a.end_ ≠ 0 := by
      have hr : s.regions[s.cur]? = some s.regions[s.cur] := List.getElem?_eq_getElem hcur
      rw [hh.end_eq, addrAt_of_getElem? hr]
      exact addr_ne_zero (hh.laid.live _ _ hr)
    have hfirst : first_region M h a size = .ok (a, h) := if_pos hend
    rw [hfirst]
    exact arena_take_spec hh M hcur hlt
  · -- the first region has room
    have hend : a.end_ = 0 := hh.end_eq
    have hbegin : a.begin_ = 0 := hh.begin_eq
    have hfirst : first_region M h a size
        = (new_region M h (max ARENA_REGION_DEFAULT_CAPACITY size) >>= fun v =>
            .ok (⟨v.1, v.1⟩, v.2)) := by
      unfold first_region
      rw [if_neg (not_not.mpr hend), if_neg (not_not.mpr hbegin)]
      rfl
    have hcapacity : 24 + 8 * max ARENA_REGION_DEFAULT_CAPACITY size < 2 ^ 64 := by
      simp only [ARENA_REGION_DEFAULT_CAPACITY]
      omega
    have hnew := (new_region_spec M h hcapacity).mono
      (fun hz => (⟨rfl, hz⟩ : Refused M h Space.empty size)) fun _ hv => hv
    rw [hfirst]
    refine Safe.bind (hnew.bind (P := _)
      (Q := fun v : Arena × Heap => ∃ r : Region, v.1 = ⟨r.addr, r.addr⟩ ∧ NewRegion h r v.2
        ∧ r = ⟨fresh_region M h size, max ARENA_REGION_DEFAULT_CAPACITY size⟩) ?_) ?_
    · rintro ⟨r, h'⟩ ⟨hr, hn⟩
      exact ⟨⟨r, _⟩, rfl, hn, congrArg (Region.mk · _) hr⟩
    · rintro ⟨a', h'⟩ ⟨r, ha', hn, hr⟩
      obtain rfl : a' = ⟨r.addr, r.addr⟩ := ha'
      have hfit : firstFit size 0 [r] = some 0 := if_pos (by rw [hr]; simp)
      have halloc : ∀ fresh, (Space.mk [r] 0 0).alloc size fresh = ((0, 0), ⟨[r], 0, size⟩) := by
        intro fresh
        simp only [Space.alloc, List.drop_zero, hfit, Space.used, if_true, Nat.zero_add]
      have hempty : Space.empty.alloc size (fresh_region M h size) = ((0, 0), ⟨[r], 0, size⟩) := by
        rw [hr]
        rfl
      refine (arena_take_spec hn.held M Nat.zero_lt_one hlt).mono (fun hrefused => ?_) fun v hv => ?_
      · exact absurd (hrefused.1.symm.trans hfit) (by simp)
      · obtain ⟨hresult, hheld, hlive, hwithin⟩ := hv
        rw [halloc] at hresult hheld hlive hwithin
        refine ⟨?_, ?_, ?_, ?_⟩ <;> rw [hempty]
        · exact hresult
        · exact hheld
        · exact hlive.trans hn.live
        · exact hn.within.trans hwithin

end Alloc

end PreSeQL.Allocator
