/-
  PreSeQL.Allocator.Stack — the pieces an arena has handed out.

  A position is a region and a word in it; the pieces of an arena stand one behind the
  other in the order of positions, all of them below the current one (`Stacked`).
  Allocation puts a piece on top, and what stands below a mark is still in order
  after a rewind.  In the heap, pieces are blocks that lie in the data of live regions: they
  share no byte with each other nor with a header (`Stacked.disjoint`,
  `Stacked.disjoint_header`), so what the arena writes never changes them.
-/
import PreSeQL.Allocator.Release

namespace PreSeQL.Allocator

open PreSeQL.Lib

/-! ## §1. Positions and pieces. -/

/-- Word `w` of region `i` is not behind word `v` of region `j`. -/
def Before (i w j v : Nat) : Prop := i < j ∨ i = j ∧ w ≤ v

theorem Before.refl (i w : Nat) : Before i w i w := .inr ⟨rfl, Nat.le_refl w⟩

theorem Before.trans {i w j v k u : Nat} (h₁ : Before i w j v) (h₂ : Before j v k u) :
    Before i w k u := by
  unfold Before at h₁ h₂ ⊢
  omega

/-- Enough words for the bytes. -/
theorem le_words (n : Nat) : n ≤ 8 * words n := by
  unfold words
  omega

/-- What one allocation handed out: `bytes` bytes from word `word` of region `region` on. -/
structure Piece where
  region : Nat
  word : Nat
  bytes : Nat

namespace Piece

/-- The word behind the piece. -/
def stop (p : Piece) : Nat := p.word + words p.bytes

/-- The piece in the heap. -/
def block (rs : List Region) (p : Piece) : Block := ⟨data_at (addrAt rs p.region) p.word, p.bytes⟩

end Piece

/-- The pieces `ps` of the space, the oldest first. -/
structure Stacked (s : Space) (ps : List Piece) : Prop where
  inside : ∀ p ∈ ps, ∃ r, s.regions[p.region]? = some r ∧ p.stop ≤ r.capacity
  below : ∀ p ∈ ps, Before p.region p.stop s.cur s.count
  order : ps.Pairwise fun p q => Before p.region p.stop q.region q.word

/-! ## §2. Allocation is on top. -/

namespace Space

variable (s : Space) (size fresh : Nat)

/-- A further region is at the end of the list. -/
theorem alloc_regions : ∃ new : List Region,
    (s.alloc size fresh).2.regions = s.regions ++ new ∧ ∀ r ∈ new, r.addr = fresh := by
  unfold alloc
  split
  next => exact ⟨[], (List.append_nil _).symm, by simp⟩
  next => exact ⟨[_], rfl, by simp⟩

/-- The regions that were there stay in place. -/
theorem alloc_getElem? {s : Space} {size fresh i : Nat} {r : Region}
    (hr : s.regions[i]? = some r) :
    (s.alloc size fresh).2.regions[i]? = some r := by
  obtain ⟨new, hregions, -⟩ := alloc_regions s size fresh
  rw [hregions, List.getElem?_append_left (List.getElem?_eq_some_iff.mp hr).1, hr]

/-- The new current position is right behind the words that were taken. -/
theorem alloc_position : (s.alloc size fresh).2.cur = (s.alloc size fresh).1.1
    ∧ (s.alloc size fresh).2.count = (s.alloc size fresh).1.2 + size := by
  unfold alloc
  split
  next => exact ⟨rfl, rfl⟩
  next => exact ⟨rfl, (Nat.zero_add size).symm⟩

theorem alloc_before (hcur : s.cur < s.regions.length ∨ s = Space.empty) :
    Before s.cur s.count (s.alloc size fresh).1.1 (s.alloc size fresh).1.2 := by
  unfold alloc
  split
  next k _ =>
    cases k with
    | zero => exact .inr ⟨rfl, Nat.le_of_eq (if_pos rfl).symm⟩
    | succ k => exact .inl (Nat.lt_add_of_pos_right (Nat.succ_pos k))
  next =>
    rcases hcur with hcur | rfl
    · exact .inl hcur
    · exact Before.refl 0 0

/-- The words are in a region of the new list. -/
theorem alloc_inside : ∃ r, (s.alloc size fresh).2.regions[(s.alloc size fresh).1.1]? = some r
    ∧ (s.alloc size fresh).1.2 + size ≤ r.capacity := by
  unfold alloc
  split
  next k hf =>
    obtain ⟨r, hr, hfit⟩ := firstFit_eq_some _ hf
    rw [List.getElem?_drop] at hr
    refine ⟨r, hr, ?_⟩
    cases k with
    | zero => simpa [headUsed, used] using hfit
    | succ k => simpa [headUsed, used] using hfit
  next => exact ⟨_, List.getElem?_concat_length, by simp⟩

/-- The current region has `n` words left. -/
def Room (n : Nat) : Prop := ∃ r, s.regions[s.cur]? = some r ∧ s.count + n ≤ r.capacity

/-- With room for it, an allocation takes the next words of the current region. -/
theorem Room.firstFit_eq {s : Space} {n size : Nat} (h : s.Room n) (hsize : size ≤ n) :
    firstFit size s.count (s.regions.drop s.cur) = some 0 := by
  obtain ⟨r, hr, hle⟩ := h
  obtain ⟨hlt, rfl⟩ := List.getElem?_eq_some_iff.mp hr
  rw [List.drop_eq_getElem_cons hlt, firstFit, if_pos (by omega)]

theorem Room.alloc {s : Space} {n size : Nat} (h : s.Room n) (hsize : size ≤ n) (fresh : Nat) :
    (s.alloc size fresh).2.regions = s.regions ∧ (s.alloc size fresh).2.Room (n - size) := by
  rw [Space.alloc, h.firstFit_eq hsize]
  obtain ⟨r, hr, hle⟩ := h
  refine ⟨rfl, r, hr, ?_⟩
  simp only [used, Nat.add_zero, if_true]
  omega

/-- After an allocation that needed a further region there is room in it. -/
theorem alloc_room {n : Nat} (hsize : size ≤ n) (hn : n ≤ ARENA_REGION_DEFAULT_CAPACITY) :
    (s.alloc size fresh).2.regions = s.regions ∨ (s.alloc size fresh).2.Room (n - size) := by
  unfold alloc
  split
  next => exact .inl rfl
  next =>
    refine .inr ⟨_, List.getElem?_concat_length, ?_⟩
    have hcap := Nat.le_max_left ARENA_REGION_DEFAULT_CAPACITY size
    show size + (n - size) ≤ max ARENA_REGION_DEFAULT_CAPACITY size
    omega

end Space

theorem Stacked.alloc {s : Space} {ps : List Piece} (hs : Stacked s ps)
    (hcur : s.cur < s.regions.length ∨ s = Space.empty) (n fresh : Nat) :
    Stacked (s.alloc (words n) fresh).2
      (ps ++ [⟨(s.alloc (words n) fresh).1.1, (s.alloc (words n) fresh).1.2, n⟩]) := by
  obtain ⟨hcur', hcount'⟩ := Space.alloc_position s (words n) fresh
  have hbefore := Space.alloc_before s (words n) fresh hcur
  refine ⟨fun p hp => ?_, fun p hp => ?_, ?_⟩
  · rcases List.mem_append.mp hp with hp | hp
    · obtain ⟨r, hr, hle⟩ := hs.inside p hp
      exact ⟨r, Space.alloc_getElem? hr, hle⟩
    · rw [List.mem_singleton.mp hp]
      exact Space.alloc_inside s (words n) fresh
  · rw [hcur', hcount']
    rcases List.mem_append.mp hp with hp | hp
    · refine ((hs.below p hp).trans hbefore).trans (.inr ⟨rfl, Nat.le_add_right _ _⟩)
    · rw [List.mem_singleton.mp hp]
      exact Before.refl _ _
  · refine List.pairwise_append.mpr ⟨hs.order, List.pairwise_singleton _ _, fun p hp q hq => ?_⟩
    rw [List.mem_singleton.mp hq]
    exact (hs.below p hp).trans hbefore

/-! ## §3. What is below a position stays. -/

namespace Stacked

variable {s : Space} {ps : List Piece} (hs : Stacked s ps)

include hs

/-- A rewind to a position above the first `d` pieces. -/
theorem rewind {i c d : Nat} (hbelow : ∀ p ∈ ps.take d, Before p.region p.stop i c) :
    Stacked ⟨s.regions, i, c⟩ (ps.take d) :=
  ⟨fun p hp => hs.inside p (List.mem_of_mem_take hp), hbelow,
    hs.order.sublist (List.take_sublist d ps)⟩

theorem trim : Stacked s.trim ps := by
  refine ⟨fun p hp => ?_, hs.below, hs.order⟩
  obtain ⟨r, hr, hle⟩ := hs.inside p hp
  refine ⟨r, ?_, hle⟩
  have hbelow := hs.below p hp
  unfold Before at hbelow
  rw [Space.trim, List.getElem?_take, if_pos (by omega), hr]

/-! ## §4. Pieces in the heap. -/

variable {h : Heap}

/-- A piece lies in the data of its region. -/
theorem holds {p : Piece} (hp : p ∈ ps) : ∃ r ∈ s.regions,
    r.addr + 24 ≤ (p.block s.regions).addr
    ∧ r.block.Holds (p.block s.regions).addr (p.block s.regions).size := by
  obtain ⟨r, hr, hle⟩ := hs.inside p hp
  have hwords := le_words p.bytes
  refine ⟨r, List.mem_of_getElem? hr, ?_⟩
  simp only [Piece.block, addrAt_of_getElem? hr, data_at, Block.Holds, Region.block]
  unfold Piece.stop at hle
  omega

theorem valid (hl : Laid h s.regions) {p : Piece} (hp : p ∈ ps) :
    h.Valid (p.block s.regions).addr (p.block s.regions).size := by
  obtain ⟨r, hr, -, hholds⟩ := hs.holds hp
  exact ⟨r.block, hl.mem_live hr, hholds⟩

/-- Pieces are inside the regions. -/
theorem piece_inside {p : Piece} (hp : p ∈ ps) :
    ∃ r ∈ s.regions, ∀ i, (p.block s.regions).Holds i 1 → r.block.Holds i 1 := by
  obtain ⟨r, hr, -, hholds⟩ := hs.holds hp
  refine ⟨r, hr, fun i hi => ?_⟩
  simp only [Block.Holds] at hi hholds ⊢
  omega

/-- No piece meets a header. -/
theorem disjoint_header (hl : Laid h s.regions) {p : Piece} (hp : p ∈ ps) :
    ∀ b ∈ s.regions.map Region.header, b.Disjoint (p.block s.regions) := by
  intro b hb
  obtain ⟨r', hr', rfl⟩ := List.mem_map.mp hb
  obtain ⟨r, hr, hdata, hholds⟩ := hs.holds hp
  by_cases heq : r = r'
  · subst heq
    exact .inl hdata
  · have hdisjoint := (Heap.apart_of_ne (hl.mem_live hr) (hl.mem_live hr') (Region.block_ne heq)).2
    simp only [Block.Holds, Block.Disjoint, Region.block, Region.header] at hholds hdisjoint ⊢
    omega

/-- **No two pieces share a byte.** -/
theorem disjoint (hl : Laid h s.regions) :
    (ps.map (Piece.block s.regions)).Pairwise Block.Disjoint := by
  rw [List.pairwise_map]
  refine hs.order.imp_of_mem fun {p q} hp hq hbefore => ?_
  obtain ⟨r, hr, hle⟩ := hs.inside p hp
  obtain ⟨r', hr', hle'⟩ := hs.inside q hq
  have hwords := le_words p.bytes
  have hwords' := le_words q.bytes
  unfold Piece.stop at hle hle' hbefore
  by_cases heq : r = r'
  · -- one region: the pieces stand one behind the other
    subst heq
    have hregion := hl.distinct _ _ r hr hr'
    have hword : p.word + words p.bytes ≤ q.word := by
      unfold Before at hbefore
      omega
    simp only [Block.Disjoint, Piece.block, addrAt_of_getElem? hr, addrAt_of_getElem? hr', data_at]
    omega
  · -- two regions: their blocks are apart
    have hdisjoint := (Heap.apart_of_ne (hl.live _ r hr) (hl.live _ r' hr')
      (Region.block_ne heq)).2
    simp only [Block.Disjoint, Region.block] at hdisjoint
    simp only [Block.Disjoint, Piece.block, addrAt_of_getElem? hr, addrAt_of_getElem? hr', data_at]
    omega

end Stacked

end PreSeQL.Allocator
