/-
  PreSeQL.Allocator.Release — marks, reset, trim and release of an arena.

  What the functions that give words back do to the space an arena lays out: a mark is
  a position, rewinding to it makes it the current one, `arena_trim` cuts the list behind
  the current region and `arena_free` gives every region back to `malloc`, each once.
-/
import PreSeQL.Allocator.Space

namespace PreSeQL.Allocator

open PreSeQL.Lib

namespace Laid

variable {h : Heap} {rs : List Region}

/-! ## §1. Counts. -/

/-- The loop of `arena_reset` and `arena_rewind` empties the regions from `i` on. -/
theorem zero_counts_eq (rs' : List Region) : ∀ (i fuel : Nat) (h : Heap), Laid h rs →
    rs.drop i = rs' → rs'.length < fuel →
      ∃ m, zero_counts h fuel (addrAt rs i) = .ok (h.setMem m)
        ∧ Laid (h.setMem m) rs
        ∧ (∀ (j : Nat) (r : Region), rs[j]? = some r →
            m.load (count_at r.addr) 8 = if i ≤ j then 0 else h.mem.load (count_at r.addr) 8)
        ∧ Within (rs.map Region.header) h.mem m := by
  induction rs' with
  | nil =>
      intro i fuel h hl hdrop hfuel
      have hle : rs.length ≤ i := List.drop_eq_nil_iff.mp hdrop
      obtain ⟨fuel, rfl⟩ : ∃ f, fuel = f + 1 := ⟨fuel - 1, by omega⟩
      refine ⟨h.mem, ?_, hl, fun j r hr => ?_, Within.refl _ _⟩
      · rw [addrAt_of_le hle]
        rfl
      · have hj := (List.getElem?_eq_some_iff.mp hr).1
        rw [if_neg (by omega)]
  | cons r rs' ih =>
      intro i fuel h hl hdrop hfuel
      have hr : rs[i]? = some r := by
        rw [← List.head?_drop, hdrop, List.head?_cons]
      have hrest : rs.drop (i + 1) = rs' := by
        rw [← List.drop_drop, hdrop, List.drop_one, List.tail_cons]
      obtain ⟨fuel, rfl⟩ : ∃ f, fuel = f + 1 := ⟨fuel - 1, by omega⟩
      have hrlive := hl.live i r hr
      obtain ⟨hnext, hcount, -⟩ := valid_header hrlive
      have hl' := hl.set_count (List.mem_of_getElem? hr) 0
      obtain ⟨m, hrun, hlaid, hcounts, hwithin⟩ :=
        ih (i + 1) fuel _ hl' hrest (by simpa using hfuel)
      refine ⟨m, ?_, hlaid, fun j r' hr' => ?_, ?_⟩
      · rw [addrAt_of_getElem? hr, zero_counts, if_neg (addr_ne_zero hrlive),
          Heap.store_of_valid hcount, ok_bind, Heap.load_setMem hnext, ok_bind]
        exact (congrArg (zero_counts _ fuel) (hl'.next i r hr)).trans hrun
      · rw [hcounts j r' hr', Heap.setMem_mem]
        by_cases heq : r = r'
        · -- the region itself
          subst heq
          have hij : i = j := hl.distinct i j r hr hr'
          subst hij
          rw [if_neg (by omega), if_pos (Nat.le_refl _), load_store_word _ _ (by decide)]
        · have hij : i ≠ j := by
            rintro rfl
            exact heq (Option.some.inj (hr.symm.trans hr'))
          have hkeep := load_store_field hrlive (hl.live j r' hr') (o := 8) (q := 8) (by decide)
            (by decide) (fun h => absurd h heq) h.mem 0
          by_cases hlt : i + 1 ≤ j
          · rw [if_pos hlt, if_pos (by omega)]
          · rw [if_neg hlt, if_neg (by omega)]
            exact hkeep
      · exact (Within.count (Within.refl _ _) (List.mem_of_getElem? hr) 0).trans hwithin

/-! ## §2. The list without its head. -/

/-- Without the region at the head the others are still laid out. -/
theorem tail {r : Region} (hl : Laid h (r :: rs)) : Laid (h.drop r.addr) rs := by
  refine ⟨fun i r' hr' => Heap.mem_drop.mpr ⟨hl.live (i + 1) r' hr', ?_⟩,
    fun i r' hr' => hl.next (i + 1) r' hr', fun i r' hr' => hl.capacity (i + 1) r' hr',
    fun i j r' hi hj => Nat.succ.inj (hl.distinct (i + 1) (j + 1) r' hi hj)⟩
  have hne : r'.block ≠ r.block := by
    apply Region.block_ne
    rintro rfl
    exact Nat.succ_ne_zero i (hl.distinct (i + 1) 0 r' hr' rfl)
  exact (Heap.apart_of_ne (hl.live (i + 1) r' hr') (hl.live 0 r rfl) hne).1

/-- A part at the end is laid out. -/
theorem suffix (hl : Laid h rs) (n : Nat) : Laid h (rs.drop n) := by
  have hget : ∀ i, (rs.drop n)[i]? = rs[n + i]? := fun i => List.getElem?_drop
  refine ⟨fun i r hr => hl.live (n + i) r ((hget i).symm.trans hr), fun i r hr => ?_,
    fun i r hr => hl.capacity (n + i) r ((hget i).symm.trans hr), fun i j r hi hj => ?_⟩
  · rw [hl.next (n + i) r ((hget i).symm.trans hr), addrAt, addrAt, hget, Nat.add_assoc]
  · exact Nat.add_left_cancel
      (hl.distinct (n + i) (n + j) r ((hget i).symm.trans hi) ((hget j).symm.trans hj))

end Laid

/-- **The release loop frees every region once** and nothing else. -/
theorem free_regions_eq (rs : List Region) : ∀ (fuel : Nat) (h : Heap), Laid h rs →
    rs.length < fuel →
      ∃ h', free_regions h fuel (addrAt rs 0) = .ok h' ∧ h'.mem = h.mem
        ∧ h'.live = h.live.filter fun b => b.addr ∉ rs.map Region.addr := by
  induction rs with
  | nil =>
      intro fuel h _ hfuel
      obtain ⟨fuel, rfl⟩ : ∃ f, fuel = f + 1 := ⟨fuel - 1, by omega⟩
      exact ⟨h, rfl, rfl, by simp⟩
  | cons r rs ih =>
      intro fuel h hl hfuel
      obtain ⟨fuel, rfl⟩ : ∃ f, fuel = f + 1 := ⟨fuel - 1, by omega⟩
      have hrlive := hl.live 0 r rfl
      obtain ⟨h', hrun, hmem, hlive⟩ := ih fuel _ hl.tail (by simpa using hfuel)
      refine ⟨h', ?_, hmem, ?_⟩
      · have hnext : h.load (next_at r.addr) 8 = .ok (addrAt rs 0) := by
          rw [Heap.load_of_valid (valid_header hrlive).1]
          exact congrArg Except.ok (hl.next 0 r rfl)
        show free_regions h (fuel + 1) r.addr = _
        rw [free_regions, if_neg (addr_ne_zero hrlive), hnext, ok_bind]
        show (h.free r.block.addr >>= fun h => free_regions h fuel (addrAt rs 0)) = _
        rw [Heap.free_of_mem hrlive, ok_bind]
        exact hrun
      · rw [hlive, Heap.drop, List.filter_filter]
        refine List.filter_congr fun b _ => ?_
        rw [List.map_cons, ← Bool.decide_and, decide_eq_decide, List.mem_cons, not_or, and_comm]

/-- Running out of the list, `arena_trim` leaves the regions up to the current one. -/
theorem Laid.take {h h' : Heap} {rs : List Region} {n : Nat} {l : Region} (hl : Laid h rs)
    (hlast : rs[n]? = some l) (hmem : h'.mem = h.mem)
    (hlive : h'.live = h.live.filter fun b => b.addr ∉ (rs.drop (n + 1)).map Region.addr) :
    Laid (h'.setMem (h'.mem.store (next_at l.addr) 8 0)) (rs.take (n + 1)) := by
  have hget : ∀ {i : Nat} {r : Region}, (rs.take (n + 1))[i]? = some r →
      i ≤ n ∧ rs[i]? = some r := by
    intro i r hr
    rw [List.getElem?_take] at hr
    split at hr
    next hi => exact ⟨by omega, hr⟩
    next => cases hr
  -- the regions that stay are still live
  have hstay : ∀ {i : Nat} {r : Region}, i ≤ n → rs[i]? = some r → r.block ∈ h'.live := by
    intro i r hi hr
    rw [hlive, List.mem_filter]
    refine ⟨hl.live i r hr, ?_⟩
    rw [decide_eq_true_eq]
    intro hin
    obtain ⟨r', hr', haddr⟩ := List.mem_map.mp hin
    obtain ⟨j, hj⟩ := List.mem_iff_getElem?.mp hr'
    rw [List.getElem?_drop] at hj
    by_cases heq : r' = r
    · subst heq
      have := hl.distinct i _ r' hr hj
      omega
    · exact (Heap.apart_of_ne (hl.live _ r' hj) (hl.live i r hr) (Region.block_ne heq)).1 haddr
  refine ⟨fun i r hr => hstay (hget hr).1 (hget hr).2, fun i r hr => ?_, fun i r hr => ?_,
    fun i j r hi hj => hl.distinct i j r (hget hi).2 (hget hj).2⟩
  · obtain ⟨hi, hr'⟩ := hget hr
    have hlen := (List.getElem?_eq_some_iff.mp hlast).1
    by_cases heq : l = r
    · -- the new end of the list
      subst heq
      obtain rfl : i = n := hl.distinct i n l hr' hlast
      rw [Heap.setMem_mem, load_store_word _ _ (by decide), addrAt_of_le (by simp)]
    · have hne : i ≠ n := by
        rintro rfl
        exact heq (Option.some.inj (hlast.symm.trans hr'))
      have hkeep := load_store_field (hl.live n l hlast) (hl.live i r hr') (o := 0) (q := 0)
        (by decide) (by decide) (fun h => absurd h heq) h'.mem 0
      have hbelow : addrAt (rs.take (n + 1)) (i + 1) = addrAt rs (i + 1) := by
        rw [addrAt, addrAt, List.getElem?_take, if_pos (by omega)]
      rw [hbelow, ← hl.next i r hr', ← hmem]
      exact hkeep
  · obtain ⟨hi, hr'⟩ := hget hr
    rw [← hl.capacity i r hr', ← hmem]
    exact load_store_field (hl.live n l hlast) (hl.live i r hr') (o := 0) (q := 16)
      (by decide) (by decide) (fun _ => by decide) _ _

/-! ## §3. The functions. -/

/-- The space without its words: everything can be handed out again. -/
def Space.reset (s : Space) : Space := ⟨s.regions, 0, 0⟩

/-- Without the regions behind the current one. -/
def Space.trim (s : Space) : Space := ⟨s.regions.take (s.cur + 1), s.cur, s.count⟩

/-- An arena without regions. -/
theorem held_empty (h : Heap) : Held h ⟨0, 0⟩ Space.empty := by
  have hnone : ∀ {i : Nat} {r : Region}, ([] : List Region)[i]? ≠ some r := by simp
  exact ⟨⟨fun _ _ hr => absurd hr hnone, fun _ _ hr => absurd hr hnone,
      fun _ _ hr => absurd hr hnone, fun _ _ _ hr _ => absurd hr hnone⟩,
    rfl, rfl, .inr rfl, fun _ _ hr _ => absurd hr hnone, fun _ hr => absurd hr hnone⟩

namespace Held

variable {h : Heap} {a : Arena} {s : Space} (hh : Held h a s)

include hh

theorem end_ne_zero (hcur : s.cur < s.regions.length) : a.end_ ≠ 0 := by
  have hr : s.regions[s.cur]? = some s.regions[s.cur] := List.getElem?_eq_getElem hcur
  rw [hh.end_eq, addrAt_of_getElem? hr]
  exact addr_ne_zero (hh.laid.live _ _ hr)

/-- A mark is the current position. -/
theorem snapshot_eq : arena_snapshot h a = .ok ⟨addrAt s.regions s.cur, s.count⟩ := by
  unfold arena_snapshot
  rcases hh.cur_lt with hcur | rfl
  · have hr : s.regions[s.cur]? = some s.regions[s.cur] := List.getElem?_eq_getElem hcur
    obtain ⟨-, -, hcount⟩ := hh.loads hr
    have hused : s.used s.cur = s.count := if_pos rfl
    rw [if_neg (hh.end_ne_zero hcur), hh.end_eq, addrAt_of_getElem? hr, hcount (Nat.le_refl _),
      hused]
    rfl
  · have hend : a.end_ = 0 := hh.end_eq
    have hbegin : a.begin_ = 0 := hh.begin_eq
    rw [if_pos hend, if_neg (not_not.mpr hbegin), hend]
    rfl

theorem reset_eq : ∃ m, arena_reset h a = .ok ({ a with end_ := a.begin_ }, h.setMem m)
    ∧ Held (h.setMem m) { a with end_ := a.begin_ } s.reset
    ∧ Within (s.regions.map Region.header) h.mem m := by
  have hfuel := hh.laid.drop_length_le 0
  obtain ⟨m, hrun, hlaid, hcounts, hwithin⟩ :=
    hh.laid.zero_counts_eq s.regions 0 (h.live.length + 1) h rfl (by simp at hfuel; omega)
  refine ⟨m, ?_, ⟨hlaid, hh.begin_eq, hh.begin_eq, ?_, fun i r hr _ => ?_, fun _ _ => Nat.zero_le _⟩,
    hwithin⟩
  · rw [arena_reset, hh.begin_eq, hrun]
    rfl
  · cases hregions : s.regions with
    | nil => exact .inr (by rw [Space.reset, hregions]; rfl)
    | cons r rs => exact .inl (by rw [Space.reset, hregions]; exact Nat.zero_lt_succ _)
  · rw [Heap.setMem_mem, hcounts i r hr, if_pos (Nat.zero_le i)]
    exact (ite_self _).symm

/-- Rewinding to a position in region `i` makes it the current one. -/
theorem rewind_eq {i c : Nat} {r : Region} (hr : s.regions[i]? = some r) (hc : c ≤ r.capacity) :
    ∃ m, arena_rewind h a ⟨r.addr, c⟩ = .ok ({ a with end_ := r.addr }, h.setMem m)
      ∧ Held (h.setMem m) { a with end_ := r.addr } ⟨s.regions, i, c⟩
      ∧ Within (s.regions.map Region.header) h.mem m := by
  have hrlive := hh.laid.live i r hr
  have hblock := block_le hrlive
  obtain ⟨hnext, hcount, -⟩ := valid_header hrlive
  have hlaid' := hh.laid.set_count (List.mem_of_getElem? hr) c
  have hfuel := hh.laid.drop_length_le (i + 1)
  obtain ⟨m, hrun, hlaid, hcounts, hwithin⟩ :=
    hlaid'.zero_counts_eq _ (i + 1) (h.live.length + 1) _ rfl (by omega)
  refine ⟨m, ?_, ⟨hlaid, hh.begin_eq, (addrAt_of_getElem? hr).symm,
    .inl (List.getElem?_eq_some_iff.mp hr).1, fun j r' hr' hj => ?_, fun r' hr' => ?_⟩,
    (Within.count (Within.refl _ _) (List.mem_of_getElem? hr) c).trans hwithin⟩
  · show (if r.addr = 0 then _ else _ : Checked (Arena × Heap)) = _
    rw [if_neg (addr_ne_zero hrlive), Heap.store_of_valid hcount, ok_bind, Heap.load_setMem hnext,
      ok_bind]
    show (zero_counts _ (h.live.length + 1)
      ((h.mem.store (count_at r.addr) 8 c).load (next_at r.addr) 8) >>= _) = _
    rw [show (h.mem.store (count_at r.addr) 8 c).load (next_at r.addr) 8 = addrAt s.regions (i + 1)
      from hlaid'.next i r hr, hrun]
    rfl
  · rw [Heap.setMem_mem, hcounts j r' hr']
    by_cases hij : i = j
    · subst hij
      obtain rfl : r = r' := Option.some.inj (hr.symm.trans hr')
      rw [if_neg (by omega), Heap.setMem_mem, load_store_word _ _ (by omega)]
      exact (if_pos rfl).symm
    · have hbehind : i ≤ j := hj
      rw [if_pos (by omega)]
      exact (if_neg (Ne.symm hij)).symm
  · exact (Option.some.inj (hr.symm.trans hr')) ▸ hc

/-- `arena_free` frees the regions, each once, and leaves an arena without regions. -/
theorem free_eq : ∃ h', arena_free h a = .ok (⟨0, 0⟩, h') ∧ h'.mem = h.mem
    ∧ h'.live = h.live.filter (fun b => b.addr ∉ s.regions.map Region.addr)
    ∧ Held h' ⟨0, 0⟩ Space.empty := by
  have hfuel := hh.laid.drop_length_le 0
  obtain ⟨h', hrun, hmem, hlive⟩ :=
    free_regions_eq s.regions (h.live.length + 1) h hh.laid (by simp at hfuel; omega)
  refine ⟨h', ?_, hmem, hlive, held_empty h'⟩
  rw [arena_free, hh.begin_eq, hrun]
  rfl

/-- `arena_trim` frees the regions behind the current one. -/
theorem trim_eq (hcur : s.cur < s.regions.length) : ∃ h', arena_trim h a = .ok h'
    ∧ h'.live = h.live.filter (fun b => b.addr ∉ (s.regions.drop (s.cur + 1)).map Region.addr)
    ∧ Held h' a s.trim
    ∧ Within (s.trim.regions.map Region.header) h.mem h'.mem := by
  have hr : s.regions[s.cur]? = some s.regions[s.cur] := List.getElem?_eq_getElem hcur
  generalize s.regions[s.cur] = r at hr
  obtain ⟨hnext, -, -⟩ := hh.loads hr
  have hfuel := hh.laid.drop_length_le (s.cur + 1)
  obtain ⟨h', hrun, hmem, hlive⟩ :=
    free_regions_eq _ (h.live.length + 1) h (hh.laid.suffix (s.cur + 1)) (by omega)
  have hlaid := hh.laid.take hr hmem hlive
  have hlast : (s.regions.take (s.cur + 1))[s.cur]? = some r := by
    rw [List.getElem?_take, if_pos (Nat.lt_succ_self _), hr]
  have hrlive : r.block ∈ h'.live := hlaid.live s.cur r hlast
  refine ⟨h'.setMem (h'.mem.store (next_at r.addr) 8 0), ?_, hlive,
    ⟨hlaid, ?_, ?_, .inl ?_, fun j r' hr' hj => ?_, fun r' hr' => ?_⟩, ?_⟩
  · rw [arena_trim, hh.end_eq, addrAt_of_getElem? hr, hnext, ok_bind, ← Nat.add_zero (s.cur + 1),
      ← addrAt_drop, hrun, ok_bind, Heap.store_of_valid (valid_header hrlive).1]
  · rw [hh.begin_eq, Space.trim, addrAt, addrAt, List.getElem?_take, if_pos (Nat.zero_lt_succ _)]
  · rw [hh.end_eq, addrAt_of_getElem? hr]
    exact (addrAt_of_getElem? hlast).symm
  · exact (List.getElem?_eq_some_iff.mp hlast).1
  · have hlt := (List.getElem?_eq_some_iff.mp hr').1
    have hle : s.cur ≤ j := hj
    obtain rfl : j = s.cur := by
      simp only [Space.trim, List.length_take] at hlt
      omega
    obtain rfl : r = r' := Option.some.inj (hlast.symm.trans hr')
    refine (load_store_field hrlive hrlive (o := 0) (q := 8) (by decide) (by decide)
      (fun _ => by decide) _ _).trans ?_
    rw [hmem]
    exact hh.count s.cur r hr (Nat.le_refl _)
  · exact (Option.some.inj (hlast.symm.trans hr')) ▸ hh.count_le r hr
  · rw [Heap.setMem_mem, hmem]
    refine (Within.refl _ _).store (List.mem_map_of_mem (List.mem_of_getElem? hlast)) ?_ 0
    simp only [Block.Holds, Region.header, next_at]
    omega

end Held

/-! ## §4. The blocks of everybody else. -/

section Base

variable {h : Heap} {rs : List Region} {base : List Block}
  (hlive : h.live.Perm (rs.map Region.block ++ base))

include hlive

/-- The blocks of everybody else are apart from the regions. -/
theorem region_apart_base {r : Region} (hr : r ∈ rs) {b : Block} (hb : b ∈ base) :
    r.block.Apart b := by
  have hpairwise := (hlive.pairwise_iff fun h => h.symm).mp h.apart
  exact (List.pairwise_append.mp hpairwise).2.2 _ (List.mem_map_of_mem hr) b hb

/-- What is written inside the regions leaves the others alone. -/
theorem kept_of_within {bs : List Block} {m m' m₀ : Mem} (hw : Within bs m m')
    (hbs : ∀ b ∈ bs, ∃ r ∈ rs, ∀ i, b.Holds i 1 → r.block.Holds i 1)
    (hkept : ∀ b ∈ base, ∀ i, b.Holds i 1 → m i = m₀ i) :
    ∀ b ∈ base, ∀ i, b.Holds i 1 → m' i = m₀ i := by
  intro b hb i hi
  refine (hw i fun b' hb' hin => ?_).trans (hkept b hb i hi)
  obtain ⟨r, hr, hsub⟩ := hbs b' hb'
  have hdisjoint := (region_apart_base hlive hr hb).2
  have hin' := hsub i hin
  simp only [Block.Disjoint, Block.Holds] at hdisjoint hin' hi
  omega

/-- Taking the blocks of the regions behind the first `n` away. -/
theorem live_filter (hl : Laid h rs) (n : Nat) :
    (h.live.filter fun b => b.addr ∉ (rs.drop n).map Region.addr).Perm
      ((rs.take n).map Region.block ++ base) := by
  have haddr : ∀ (i : Nat) (r r' : Region), rs[i]? = some r → r' ∈ rs → r'.addr = r.addr →
      r' = r := by
    intro i r r' hr hr' heq
    by_contra hne
    exact (Heap.apart_of_ne (hl.mem_live hr') (hl.live i r hr) (Region.block_ne hne)).1 heq
  -- the regions that are taken away
  have hdrop : ((rs.drop n).map Region.block).filter
      (fun b => b.addr ∉ (rs.drop n).map Region.addr) = [] := by
    refine List.filter_eq_nil_iff.mpr fun b hb => ?_
    obtain ⟨r, hr, rfl⟩ := List.mem_map.mp hb
    simp only [decide_eq_true_eq, not_not]
    exact List.mem_map_of_mem hr
  have htake : ((rs.take n).map Region.block).filter
      (fun b => b.addr ∉ (rs.drop n).map Region.addr) = (rs.take n).map Region.block := by
    refine List.filter_eq_self.mpr fun b hb => decide_eq_true ?_
    obtain ⟨r, hr, rfl⟩ := List.mem_map.mp hb
    intro hin
    obtain ⟨r', hr', heq⟩ := List.mem_map.mp hin
    obtain ⟨i, hi⟩ := List.mem_iff_getElem?.mp hr
    obtain ⟨j, hj⟩ := List.mem_iff_getElem?.mp hr'
    rw [List.getElem?_drop] at hj
    rw [List.getElem?_take] at hi
    split at hi
    next hlt =>
      obtain rfl := haddr i r r' hi (List.mem_of_mem_drop hr') heq
      have := hl.distinct i _ r' hi hj
      omega
    next => cases hi
  have hbase : base.filter (fun b => b.addr ∉ (rs.drop n).map Region.addr) = base := by
    refine List.filter_eq_self.mpr fun b hb => decide_eq_true ?_
    intro hin
    obtain ⟨r, hr, heq⟩ := List.mem_map.mp hin
    exact (region_apart_base hlive (List.mem_of_mem_drop hr) hb).1 heq
  have hfilter := hlive.filter fun b => decide (b.addr ∉ (rs.drop n).map Region.addr)
  rw [List.filter_append, hbase] at hfilter
  refine hfilter.trans (List.Perm.of_eq (congrArg (· ++ base) ?_))
  conv_lhs => rw [← List.take_append_drop n rs]
  rw [List.map_append, List.filter_append]
  rw [List.take_append_drop, hdrop, htake, List.append_nil]

end Base

/-- Headers are inside their regions. -/
theorem header_inside {rs : List Region} : ∀ b ∈ rs.map Region.header,
    ∃ r ∈ rs, ∀ i, b.Holds i 1 → r.block.Holds i 1 := by
  intro b hb
  obtain ⟨r, hr, rfl⟩ := List.mem_map.mp hb
  refine ⟨r, hr, fun i hi => ?_⟩
  simp only [Block.Holds, Region.header, Region.block] at hi ⊢
  omega

end PreSeQL.Allocator
