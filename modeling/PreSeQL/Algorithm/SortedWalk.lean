/-
  PreSeQL.Algorithm.SortedWalk — the walk visits the pages in ascending order.

    • `radix_tree_walk_eq` — the walk is a fold over the sorted list of the pages,
    • `radix_to_freelist_spec` — the array holds the smallest pages, as many as fit,
    • `freelist_conversion` — both conversions, for every tree a history builds.
-/
import PreSeQL.Algorithm.FreeList
import PreSeQL.Algorithm.RadixSet
import Mathlib.Data.Finset.Sort

namespace PreSeQL.Radix

open PreSeQL.Lib

/-! ## §1. The walk. -/

/-- The pages in ascending order. -/
def sorted_pages (tree : RadixTree) : List UInt16 := (pages tree).sort (· ≤ ·)

theorem mem_sorted_pages {tree : RadixTree} {p : UInt16} :
    p ∈ sorted_pages tree ↔ p ∈ pages tree := Finset.mem_sort _

theorem length_sorted_pages (tree : RadixTree) :
    (sorted_pages tree).length = (pages tree).card := Finset.length_sort _

theorem nodup_sorted_pages (tree : RadixTree) : (sorted_pages tree).Nodup := Finset.sort_nodup _ _

/-- The callback sees the words below the node, shifted in behind `pre`. -/
theorem walk_radix_eq {σ : Type} (cb : σ → UInt16 → σ) (ls : List Nat) :
    ∀ (node : RadixNode) (pre : UInt16) (s : σ), (pre.toNat + 1) * 16 ^ ls.length ≤ 65536 →
      walk_radix cb ls node pre s = (Trie.words ls.length node).foldl
        (fun s w => cb s (UInt16.ofNat (pre.toNat * 16 ^ ls.length + Trie.value w))) s := by
  induction ls with
  | nil =>
      intro node pre s _
      simp [walk_radix, Trie.words, Trie.value]
  | cons level ls ih =>
      intro node pre s hbound
      rw [walk_radix, List.length_cons, Trie.words, List.foldl_flatMap]
      -- letter by letter
      refine List.foldl_ext _ _ _ fun s d _ => ?_
      cases node.child d with
      | none => rfl
      | some c =>
          obtain ⟨hdig, hroom⟩ := shift_digit_of_room d hbound
          simp only [ih c _ s hroom, hdig, List.foldl_map]
          refine List.foldl_ext _ _ _ fun s w hw => ?_
          have hlen := ((Trie.mem_words _ c w).mp hw).1
          have hval : Trie.value (d :: w) = d.val * 16 ^ ls.length + Trie.value w := by
            rw [← hlen]
            rfl
          rw [hval]
          congr 2
          ring

/-- The words of the tree are its pages. -/
theorem words_eq_sorted_pages (tree : RadixTree) :
    (Trie.words 4 tree.root).map (fun w => UInt16.ofNat (Trie.value w)) = sorted_pages tree := by
  have hlt : ∀ w ∈ Trie.words 4 tree.root, Trie.value w < 65536 := by
    intro w hw
    have h := Trie.value_lt w
    rwa [((Trie.mem_words _ _ _).mp hw).1] at h
  have hpairwise : ((Trie.words 4 tree.root).map fun w => UInt16.ofNat (Trie.value w)).Pairwise
      (· < ·) := by
    refine List.pairwise_map.mpr ((Trie.words_pairwise 4 tree.root).imp_of_mem ?_)
    intro v w hv hw hvw
    rw [UInt16.lt_iff_toNat_lt, UInt16.toNat_ofNat', UInt16.toNat_ofNat']
    have := hlt v hv
    have := hlt w hw
    omega
  have hmem : ((Trie.words 4 tree.root).map fun w => UInt16.ofNat (Trie.value w)).toFinset
      = pages tree := by
    ext p
    rw [List.mem_toFinset, List.mem_map, mem_pages]
    constructor
    · rintro ⟨w, hw, rfl⟩
      obtain ⟨hlen, hw⟩ := (Trie.mem_words _ _ _).mp hw
      rwa [radix_path_ofNat_value w hlen]
    · intro hp
      refine ⟨radix_path p, (Trie.mem_words _ _ _).mpr ⟨radix_path_length p, hp⟩, ?_⟩
      rw [value_radix_path, UInt16.ofNat_toNat]
  rw [sorted_pages, ← hmem]
  exact ((List.toFinset_sort (· ≤ ·) (hpairwise.imp fun h => h.ne)).mpr
    (hpairwise.imp fun h => h.le)).symm

/-- **The walk is a fold over the sorted pages.** -/
theorem radix_tree_walk_eq {σ : Type} (tree : RadixTree) (cb : σ → UInt16 → σ) (s : σ) :
    radix_tree_walk tree cb s = (sorted_pages tree).foldl cb s := by
  rw [radix_tree_walk, walk_radix_eq cb levels tree.root 0 s (by decide),
    ← words_eq_sorted_pages, List.foldl_map]
  refine List.foldl_ext _ _ _ fun s w _ => ?_
  simp

/-! ## §2. The array. -/

@[simp] theorem length_freelist_entries (m : Mem) (freelist count : Nat) :
    (freelist_entries m freelist count).length = count := by
  simp [freelist_entries]

/-- The next cell is written. -/
theorem freelist_entries_store16 (m : Mem) (freelist count : Nat) (page : UInt16) :
    freelist_entries (m.store16 (freelist_cell freelist count) page) freelist (count + 1)
      = freelist_entries m freelist count ++ [page] := by
  rw [freelist_entries, freelist_entries, List.range_succ, List.map_append, List.map_singleton,
    Mem.load16_store16_same]
  congr 1
  refine List.map_congr_left fun i hi => ?_
  have hlt := List.mem_range.mp hi
  exact Mem.load16_store16_of_disjoint m page (by simp only [freelist_cell]; omega)

/-- Pages are appended until the array is full. -/
theorem foldl_collect_pages (freelist max_size : Nat) (l : List UInt16) :
    ∀ (m : Mem) (count : Nat), count ≤ max_size →
      (l.foldl (collect_pages freelist max_size) (m, count)).2 = min (count + l.length) max_size
      ∧ freelist_entries (l.foldl (collect_pages freelist max_size) (m, count)).1 freelist
          (l.foldl (collect_pages freelist max_size) (m, count)).2
        = freelist_entries m freelist count ++ l.take (max_size - count) := by
  induction l with
  | nil =>
      intro m count hle
      simp [hle]
  | cons p l ih =>
      intro m count hle
      rw [List.foldl_cons, collect_pages]
      split
      next hlt =>
        obtain ⟨hcount, hentries⟩ := ih (m.store16 (freelist_cell freelist count) p) (count + 1) hlt
        have htake : max_size - count = max_size - (count + 1) + 1 := by
          simp only at hlt
          omega
        refine ⟨hcount.trans (by rw [List.length_cons]; congr 1; omega), hentries.trans ?_⟩
        rw [freelist_entries_store16, htake, List.take_succ_cons, List.append_assoc,
          List.singleton_append]
      next hfull =>
        have heq : count = max_size := Nat.le_antisymm hle (Nat.not_lt.mp hfull)
        obtain ⟨hcount, hentries⟩ := ih m count hle
        refine ⟨hcount.trans ?_, hentries.trans ?_⟩
        · rw [heq, List.length_cons]
          omega
        · rw [heq, Nat.sub_self, List.take_zero, List.take_zero]

/-- **The array holds the smallest pages**, `max_size` of them or all. -/
theorem radix_to_freelist_spec (m : Mem) (tree : RadixTree) (freelist max_size : Nat) :
    (radix_to_freelist m tree freelist max_size).2 = min (pages tree).card max_size
    ∧ freelist_entries (radix_to_freelist m tree freelist max_size).1 freelist
        (radix_to_freelist m tree freelist max_size).2 = (sorted_pages tree).take max_size := by
  rw [radix_to_freelist, radix_tree_walk_eq]
  obtain ⟨hcount, hentries⟩ := foldl_collect_pages freelist max_size (sorted_pages tree) m 0
    (Nat.zero_le _)
  refine ⟨hcount.trans ?_, hentries.trans ?_⟩
  · rw [Nat.zero_add, length_sorted_pages]
  · rfl

/-- Only the cells that are counted are written. -/
theorem radix_to_freelist_untouched (m : Mem) (tree : RadixTree) (freelist max_size : Nat) :
    m.SameOff freelist (freelist + 2 * (radix_to_freelist m tree freelist max_size).2)
      (radix_to_freelist m tree freelist max_size).1 := by
  unfold radix_to_freelist radix_tree_walk
  refine walk_radix_induction
    (P := fun s : Mem × Nat => m.SameOff freelist (freelist + 2 * s.2) s.1)
    ?_ levels tree.root 0 (m, 0) (Mem.SameOff.refl _ _ m)
  intro s page hsame
  unfold collect_pages
  split
  next =>
    have hwider : m.SameOff freelist (freelist + 2 * (s.2 + 1)) s.1 :=
      hsame.mono (Nat.le_refl _) (by omega)
    apply hwider.store16
    · simp
    · simp only [freelist_cell]
      omega
  next => exact hsame

/-- What `radix_to_freelist` makes of a tree with the pages `S`: the number of cells used, the
cells in ascending order, which pages they are, and the cells that stay as they were. -/
structure Converted (m : Mem) (S : Finset UInt16) (freelist max_size : Nat)
    (result : Mem × Nat) : Prop where
  count : result.2 = min max_size S.card
  ascending : (freelist_entries result.1 freelist result.2).Pairwise (· < ·)
  stored : ∀ p ∈ freelist_entries result.1 freelist result.2, p ∈ S
  smallest : ∀ p ∈ freelist_entries result.1 freelist result.2,
    ∀ q ∈ S, q ∉ freelist_entries result.1 freelist result.2 → p < q
  untouched : m.SameOff freelist (freelist + 2 * result.2) result.1

theorem radix_to_freelist_converted (m : Mem) (tree : RadixTree) (freelist max_size : Nat) :
    Converted m (pages tree) freelist max_size
      (radix_to_freelist m tree freelist max_size) := by
  obtain ⟨hcount, hentries⟩ := radix_to_freelist_spec m tree freelist max_size
  have hsorted : (sorted_pages tree).Pairwise (· < ·) := (Finset.sortedLT_sort _).pairwise
  constructor
  · rw [hcount, Nat.min_comm]
  · rw [hentries]
    exact hsorted.sublist (List.take_sublist _ _)
  · intro p hp
    rw [hentries] at hp
    exact mem_sorted_pages.mp (List.mem_of_mem_take hp)
  · -- the list is cut behind the cells that are used
    intro p hp q hq hout
    rw [hentries] at hp hout
    have hcut := List.take_append_drop max_size (sorted_pages tree)
    have hrest : q ∈ (sorted_pages tree).drop max_size := by
      have hmem := mem_sorted_pages.mpr hq
      rw [← hcut, List.mem_append] at hmem
      exact hmem.resolve_left hout
    rw [← hcut, List.pairwise_append] at hsorted
    exact hsorted.2.2 p hp q hrest
  · exact radix_to_freelist_untouched m tree freelist max_size

/-! ## §3. From an array and back. -/

/-- The entries other than 0 are inserted. -/
theorem pages_insert_entries (l : List UInt16) :
    ∀ tree : RadixTree,
      pages (l.foldl (fun tree page => if page ≠ 0 then radix_tree_insert tree page else tree) tree)
        = pages tree ∪ l.toFinset.erase 0 := by
  induction l with
  | nil => intro tree; simp
  | cons page l ih =>
      intro tree
      rw [List.foldl_cons, ih]
      ext q
      by_cases h0 : page = 0
      · subst h0
        simp only [ne_eq, not_true, if_false, Finset.mem_union, Finset.mem_erase,
          List.toFinset_cons, Finset.mem_insert]
        tauto
      · simp only [ne_eq, h0, not_false_eq_true, if_true, pages_insert, Finset.mem_union,
          Finset.mem_erase, List.toFinset_cons, Finset.mem_insert]
        constructor
        · intro hq
          rcases hq with (rfl | hq) | hq
          · exact Or.inr ⟨h0, Or.inl rfl⟩
          · exact Or.inl hq
          · exact Or.inr ⟨hq.1, Or.inr hq.2⟩
        · intro hq
          rcases hq with hq | ⟨hq0, rfl | hq⟩
          · exact Or.inl (Or.inr hq)
          · exact Or.inl (Or.inl rfl)
          · exact Or.inr ⟨hq0, hq⟩

theorem pages_freelist_to_radix (m : Mem) (freelist count : Nat) :
    pages (freelist_to_radix radix_tree_create m freelist count)
      = (freelist_entries m freelist count).toFinset.erase 0 := by
  rw [freelist_to_radix, pages_insert_entries, pages_create, Finset.empty_union]

/-- **Both conversions are exact.** -/
theorem freelist_conversion :
    (∀ (ops : List RadixOp) (m : Mem) (freelist max_size : Nat),
      let tree := ops.foldl RadixOp.exec radix_tree_create
      let S := (ops.map RadixOp.abs).foldl PageSet.apply ∅
      Converted m S freelist max_size (radix_to_freelist m tree freelist max_size)
      ∧ ∀ p, radix_tree_lookup tree p = true ↔ p ∈ S)
    ∧ (∀ (m m' : Mem) (freelist freelist' count max_size : Nat), count ≤ max_size →
      let tree := freelist_to_radix radix_tree_create m freelist count
      let result := radix_to_freelist m' tree freelist' max_size
      freelist_entries result.1 freelist' result.2
        = ((freelist_entries m freelist count).toFinset.erase 0).sort (· ≤ ·)) := by
  constructor
  · intro ops m freelist max_size tree S
    have h : Represents tree S := represents_run ops _ _ represents_create
    exact ⟨h.pages_eq ▸ radix_to_freelist_converted m tree freelist max_size, h.lookup⟩
  · intro m m' freelist freelist' count max_size hroom tree result
    have hpages : pages tree = _ := pages_freelist_to_radix m freelist count
    have hcard : (sorted_pages tree).length ≤ max_size := by
      rw [length_sorted_pages, hpages]
      calc _ ≤ (freelist_entries m freelist count).toFinset.card :=
            Finset.card_le_card (Finset.erase_subset _ _)
        _ ≤ (freelist_entries m freelist count).length := List.toFinset_card_le _
        _ ≤ max_size := by rwa [length_freelist_entries]
    rw [(radix_to_freelist_spec m' tree freelist' max_size).2, List.take_of_length_le hcard,
      sorted_pages, hpages]

/-- The array `{666, 1337, 69, 420, 44100}`. -/
def unsorted_freelist : Mem := fun i => [154, 2, 57, 5, 69, 0, 164, 1, 68, 172].getD i 0

theorem freelist_conversion_unsorted :
    let result := radix_to_freelist (fun _ => 0)
      (freelist_to_radix radix_tree_create unsorted_freelist 0 5) 0 10
    freelist_entries result.1 0 result.2 = [69, 420, 666, 1337, 44100] := by
  intro result
  have hsorted : ((freelist_entries unsorted_freelist 0 5).toFinset.erase 0).sort (· ≤ ·)
      = [69, 420, 666, 1337, 44100] := by
    have hset : (freelist_entries unsorted_freelist 0 5).toFinset.erase 0
        = [69, 420, 666, 1337, 44100].toFinset := by decide
    rw [hset]
    exact (List.toFinset_sort (· ≤ ·) (by decide)).mpr (by decide)
  rw [← hsorted]
  exact freelist_conversion.2 unsorted_freelist (fun _ => 0) 0 0 5 10 (by decide)

end PreSeQL.Radix
