/-
  PreSeQL.Algorithm.RadixSet — the radix tree as a finite set of page numbers.

  `pages tree` is the set of pages whose path exists.  On a tree without childless
  inner nodes (`WellFormed`, kept by every operation) the operations of
  `radix_tree.c` are the set operations: insert, erase and removal of the smallest
  member.  The abstract side is `PageSet`, stated over any linear order; §4 is the
  simulation between the two for every history of calls.  §5 is about the nodes: the
  tree a history leaves is determined by the pages in it.
-/
import PreSeQL.Algorithm.RadixTree
import Mathlib.Data.FinEnum
import Mathlib.Data.Finset.Max
import Mathlib.Order.Bounds.Basic

namespace PreSeQL.Radix

open PreSeQL.Lib

/-! ## §1. The abstract set. -/

/-- The order of page numbers. -/
instance uint16LinearOrder : LinearOrder UInt16 where
  le_refl _ := UInt16.le_refl _
  le_trans _ _ _ := UInt16.le_trans
  le_antisymm _ _ := UInt16.le_antisymm
  le_total := UInt16.le_total
  lt_iff_le_not_ge _ _ := Nat.lt_iff_le_and_not_ge
  toDecidableLE := inferInstance
  toDecidableEq := inferInstance
  toDecidableLT := inferInstance

/-- Calls on a set from which the smallest member can be taken. -/
inductive PageSet.Op (α : Type) where
  | insert (a : α)
  | erase (a : α)
  | popMin

/-- The set after one call. -/
def PageSet.apply {α : Type} [LinearOrder α] (S : Finset α) : PageSet.Op α → Finset α
  | .insert a => insert a S
  | .erase a => S.erase a
  | .popMin => if h : S.Nonempty then S.erase (S.min' h) else S

/-! ## §2. Contents and shape of a tree. -/

/-- The pages whose path exists. -/
def pages (tree : RadixTree) : Finset UInt16 :=
  Finset.univ.filter fun p => Trie.contains (radix_path p) tree.root = true

/-- No childless inner node. -/
def WellFormed (tree : RadixTree) : Prop := Trie.Reduced 4 tree.root

theorem mem_pages {tree : RadixTree} {p : UInt16} :
    p ∈ pages tree ↔ Trie.contains (radix_path p) tree.root = true := by
  simp [pages]

attribute [irreducible] pages

@[simp] theorem pages_create : pages radix_tree_create = ∅ := by
  ext p
  simp [mem_pages, radix_tree_create, radix_path, levels]

theorem wellFormed_create : WellFormed radix_tree_create := Trie.reduced_empty 4

/-! ## §3. The operations on the contents. -/

@[simp] theorem pages_insert (tree : RadixTree) (p : UInt16) :
    pages (radix_tree_insert tree p) = insert p (pages tree) := by
  ext q
  rw [mem_pages, radix_tree_insert_root, Trie.contains_insert (radix_path p) (radix_path q) _ rfl,
    Finset.mem_insert, mem_pages]
  exact or_congr_left ⟨radix_path_injective, congrArg radix_path⟩

theorem wellFormed_insert {tree : RadixTree} (h : WellFormed tree) (p : UInt16) :
    WellFormed (radix_tree_insert tree p) := by
  unfold WellFormed
  rw [radix_tree_insert_root]
  exact Trie.reduced_insert (radix_path p) tree.root h

theorem radix_tree_lookup_iff (tree : RadixTree) (p : UInt16) :
    radix_tree_lookup tree p = true ↔ p ≠ 0 ∧ p ∈ pages tree := by
  unfold radix_tree_lookup
  rw [lookup_path_eq, mem_pages, radix_path]
  by_cases h : p = 0 <;> simp [h]

theorem radix_tree_delete_of_not_mem {tree : RadixTree} {p : UInt16} (h : p ∉ pages tree) :
    (radix_tree_delete tree p).root = tree.root := by
  rw [mem_pages, Bool.not_eq_true] at h
  rw [radix_tree_delete_root, if_pos (Or.inr h)]

theorem pages_delete (tree : RadixTree) {p : UInt16} (h0 : p ≠ 0) :
    pages (radix_tree_delete tree p) = (pages tree).erase p := by
  by_cases hmem : p ∈ pages tree
  · -- the page is there: its word is erased, and words are pages
    have hroot : (radix_tree_delete tree p).root = Trie.erase (radix_path p) tree.root := by
      rw [radix_tree_delete_root, if_neg]
      simp [h0, mem_pages.mp hmem]
    ext q
    rw [mem_pages, hroot,
      Trie.contains_erase (radix_path p) (radix_path q) _ (radix_path_ne_nil p) rfl,
      Finset.mem_erase, mem_pages]
    exact and_congr_left' (not_congr ⟨radix_path_injective, congrArg radix_path⟩)
  · -- the page is not there: the call does nothing
    ext q
    rw [mem_pages, radix_tree_delete_of_not_mem hmem, ← mem_pages,
      Finset.erase_eq_of_notMem hmem]

theorem wellFormed_delete {tree : RadixTree} (h : WellFormed tree) (p : UInt16) :
    WellFormed (radix_tree_delete tree p) := by
  unfold WellFormed
  rw [radix_tree_delete_root]
  split
  · exact h
  · exact Trie.reduced_erase (radix_path p) tree.root h

/-- On an empty tree there is no minimum. -/
theorem min_path_of_empty {tree : RadixTree} (h : pages tree = ∅) :
    min_path levels tree.root 0 = none := by
  rw [min_path_levels]
  cases hw : Trie.leftmost 4 tree.root with
  | none => rfl
  | some w =>
      -- a leftmost word would be the word of a page
      obtain ⟨hlen, hmem, _⟩ := Trie.leftmost_eq_some 4 _ w hw
      rw [← radix_path_ofNat_value w hlen, ← mem_pages, h] at hmem
      simp at hmem

/-- The descent ends at a page of the tree. -/
theorem mem_pages_of_min_path {tree : RadixTree} {p : UInt16}
    (h : min_path levels tree.root 0 = some p) : p ∈ pages tree := by
  rw [min_path_levels] at h
  obtain ⟨w, hw, rfl⟩ := Option.map_eq_some_iff.mp h
  obtain ⟨hlen, hmem, -⟩ := Trie.leftmost_eq_some 4 _ w hw
  rw [mem_pages, radix_path_ofNat_value w hlen]
  exact hmem

/-- On a well-formed tree that holds a page, the descent ends at the smallest. -/
theorem min_path_of_nonempty {tree : RadixTree} (hwf : WellFormed tree)
    (h : (pages tree).Nonempty) :
    min_path levels tree.root 0 = some ((pages tree).min' h) := by
  rw [min_path_levels]
  cases hw : Trie.leftmost 4 tree.root with
  | none =>
      -- no leftmost word in a reduced trie means no words, but `p` is one
      obtain ⟨p, hp⟩ := h
      have := Trie.leftmost_eq_none hwf hw (radix_path p) rfl
      rw [mem_pages.mp hp] at this
      cases this
  | some w =>
      obtain ⟨hlen, hmem, hmin⟩ := Trie.leftmost_eq_some 4 _ w hw
      have hpath := radix_path_ofNat_value w hlen
      -- the page spelled by the leftmost word is below every member
      have hle : ∀ q ∈ pages tree, UInt16.ofNat (Trie.value w) ≤ q := by
        intro q hq
        rw [UInt16.le_iff_toNat_le, ← value_radix_path q,
          ← value_radix_path (UInt16.ofNat _), hpath]
        exact hmin _ rfl (mem_pages.mp hq)
      rw [Option.map_some, Option.some.injEq]
      refine le_antisymm (Finset.le_min' _ _ _ hle) (Finset.min'_le _ _ ?_)
      rw [mem_pages, hpath]
      exact hmem

theorem radix_tree_peek_min_of_empty {tree : RadixTree} (h : pages tree = ∅) :
    radix_tree_peek_min tree = 0 := by
  rw [radix_tree_peek_min, min_path_of_empty h, Option.getD_none]

theorem radix_tree_peek_min_of_nonempty {tree : RadixTree} (hwf : WellFormed tree)
    (h : (pages tree).Nonempty) : radix_tree_peek_min tree = (pages tree).min' h := by
  rw [radix_tree_peek_min, min_path_of_nonempty hwf h, Option.getD_some]

theorem radix_tree_pop_min_of_empty {tree : RadixTree} (h : pages tree = ∅) :
    radix_tree_pop_min tree = (0, tree) := by
  rw [radix_tree_pop_min, min_path_of_empty h]

theorem radix_tree_pop_min_of_nonempty {tree : RadixTree} (hwf : WellFormed tree)
    (h : (pages tree).Nonempty) :
    radix_tree_pop_min tree
      = ((pages tree).min' h, radix_tree_delete tree ((pages tree).min' h)) := by
  rw [radix_tree_pop_min, min_path_of_nonempty hwf h]

theorem wellFormed_pop_min {tree : RadixTree} (hwf : WellFormed tree) :
    WellFormed (radix_tree_pop_min tree).2 := by
  rcases (pages tree).eq_empty_or_nonempty with h | h
  · rwa [radix_tree_pop_min_of_empty h]
  · rw [radix_tree_pop_min_of_nonempty hwf h]
    exact wellFormed_delete hwf _

/-- `pop_min` returns what `peek_min` shows. -/
theorem radix_tree_pop_min_fst (tree : RadixTree) :
    (radix_tree_pop_min tree).1 = radix_tree_peek_min tree := by
  unfold radix_tree_pop_min radix_tree_peek_min
  cases min_path levels tree.root 0 <;> rfl

/-! ## §4. Histories of calls. -/

/-- A page number other than 0, the value that stands for "none". -/
abbrev Page := { p : UInt16 // p ≠ 0 }

/-- A call on the tree. -/
inductive RadixOp where
  | insert (page_no : Page)
  | delete (page_no : Page)
  | pop_min

def RadixOp.exec (tree : RadixTree) : RadixOp → RadixTree
  | .insert p => radix_tree_insert tree p
  | .delete p => radix_tree_delete tree p
  | .pop_min => (radix_tree_pop_min tree).2

/-- The abstract call a call stands for. -/
def RadixOp.abs : RadixOp → PageSet.Op UInt16
  | .insert p => .insert p
  | .delete p => .erase p
  | .pop_min => .popMin

/-- The tree and the set agree, and page 0 is not stored. -/
structure Represents (tree : RadixTree) (S : Finset UInt16) : Prop where
  wellFormed : WellFormed tree
  pages_eq : pages tree = S
  zero_notMem : 0 ∉ S

theorem represents_create : Represents radix_tree_create ∅ :=
  ⟨wellFormed_create, pages_create, Finset.notMem_empty _⟩

/-- **One call**: the tree follows the set. -/
theorem Represents.exec {tree : RadixTree} {S : Finset UInt16} (h : Represents tree S)
    (op : RadixOp) : Represents (op.exec tree) (PageSet.apply S op.abs) := by
  obtain ⟨hwf, rfl, h0⟩ := h
  cases op with
  | insert p =>
      refine ⟨wellFormed_insert hwf _, pages_insert tree p, ?_⟩
      simpa [PageSet.apply, RadixOp.abs, h0] using p.2.symm
  | delete p =>
      refine ⟨wellFormed_delete hwf _, pages_delete tree p.2, ?_⟩
      simp [PageSet.apply, RadixOp.abs, h0]
  | pop_min =>
      refine ⟨wellFormed_pop_min hwf, ?_, ?_⟩
      · rcases (pages tree).eq_empty_or_nonempty with hemp | hne
        · simp [RadixOp.exec, RadixOp.abs, PageSet.apply, radix_tree_pop_min_of_empty hemp, hemp]
        · -- the smallest member is a real page, so deleting it erases it
          have hmin : (pages tree).min' hne ≠ 0 := fun h => h0 (h ▸ Finset.min'_mem _ hne)
          simp only [RadixOp.exec, RadixOp.abs, PageSet.apply, dif_pos hne,
            radix_tree_pop_min_of_nonempty hwf hne, pages_delete tree hmin]
      · simp only [RadixOp.abs, PageSet.apply]
        split
        · exact fun hmem => h0 (Finset.mem_of_mem_erase hmem)
        · exact h0

/-- **Every history**: the tree reached represents the set reached. -/
theorem represents_run (ops : List RadixOp) : ∀ (tree : RadixTree) (S : Finset UInt16),
    Represents tree S →
      Represents (ops.foldl RadixOp.exec tree) ((ops.map RadixOp.abs).foldl PageSet.apply S) := by
  induction ops with
  | nil => intro tree S h; exact h
  | cons op ops ih => intro tree S h; exact ih _ _ (h.exec op)

theorem Represents.lookup {tree : RadixTree} {S : Finset UInt16} (h : Represents tree S)
    (p : UInt16) : radix_tree_lookup tree p = true ↔ p ∈ S := by
  rw [radix_tree_lookup_iff, h.pages_eq, and_iff_right_iff_imp]
  exact fun hp h0 => h.zero_notMem (h0 ▸ hp)

theorem Represents.peek_min_isLeast {tree : RadixTree} {S : Finset UInt16}
    (h : Represents tree S) (hne : S.Nonempty) :
    IsLeast (S : Set UInt16) (radix_tree_peek_min tree) := by
  obtain ⟨hwf, rfl, _⟩ := h
  rw [radix_tree_peek_min_of_nonempty hwf hne]
  exact Finset.isLeast_min' _ hne

theorem Represents.peek_min_eq_zero {tree : RadixTree} {S : Finset UInt16}
    (h : Represents tree S) : radix_tree_peek_min tree = 0 ↔ S = ∅ := by
  constructor
  · intro hz
    by_contra hne
    have hmem := (h.peek_min_isLeast (Finset.nonempty_iff_ne_empty.mpr hne)).1
    rw [hz] at hmem
    exact h.zero_notMem hmem
  · intro hS
    exact radix_tree_peek_min_of_empty (h.pages_eq.trans hS)

theorem Represents.lookup_pop_min {tree : RadixTree} {S : Finset UInt16}
    (h : Represents tree S) (q : UInt16) :
    radix_tree_lookup (radix_tree_pop_min tree).2 q = true
      ↔ q ≠ (radix_tree_pop_min tree).1 ∧ radix_tree_lookup tree q = true := by
  have hpop := (h.exec .pop_min).lookup q
  rw [h.lookup, radix_tree_pop_min_fst]
  refine hpop.trans ?_
  simp only [RadixOp.abs, PageSet.apply]
  split
  next hne =>
    -- the minimum shown is the member that `popMin` erases
    have hmin : radix_tree_peek_min tree = S.min' hne :=
      (h.peek_min_isLeast hne).unique (Finset.isLeast_min' _ hne)
    rw [Finset.mem_erase, hmin]
  next hemp => simp [Finset.not_nonempty_iff_eq_empty.mp hemp]

/-- **The radix tree is a finite set of page numbers**: whatever calls were made,
lookup is membership, insertion and deletion concern one page only, and the
smallest member is what `peek_min` shows and `pop_min` takes out. -/
theorem radix_tree_is_page_set (ops : List RadixOp) :
    let tree := ops.foldl RadixOp.exec radix_tree_create
    let S := (ops.map RadixOp.abs).foldl PageSet.apply ∅
    (∀ p, radix_tree_lookup tree p = true ↔ p ∈ S)
    ∧ (∀ (p : Page) q, radix_tree_lookup (radix_tree_insert tree p) q = true
        ↔ q = p ∨ radix_tree_lookup tree q = true)
    ∧ (∀ (p : Page) q, radix_tree_lookup (radix_tree_delete tree p) q = true
        ↔ q ≠ p ∧ radix_tree_lookup tree q = true)
    ∧ (radix_tree_peek_min tree = 0 ↔ S = ∅)
    ∧ (S.Nonempty → IsLeast (S : Set UInt16) (radix_tree_peek_min tree))
    ∧ (radix_tree_pop_min tree).1 = radix_tree_peek_min tree
    ∧ (∀ q, radix_tree_lookup (radix_tree_pop_min tree).2 q = true
        ↔ q ≠ (radix_tree_pop_min tree).1 ∧ radix_tree_lookup tree q = true) := by
  intro tree S
  have h : Represents tree S := represents_run ops _ _ represents_create
  refine ⟨h.lookup, ?_, ?_, h.peek_min_eq_zero, h.peek_min_isLeast,
    radix_tree_pop_min_fst tree, h.lookup_pop_min⟩
  · intro p q
    rw [h.lookup]
    exact ((h.exec (.insert p)).lookup q).trans Finset.mem_insert
  · intro p q
    rw [h.lookup]
    exact ((h.exec (.delete p)).lookup q).trans Finset.mem_erase

/-! ## §5. The shape. -/

/-- **Trees of one set are equal**, node for node. -/
theorem Represents.unique {tree tree' : RadixTree} {S : Finset UInt16} (h : Represents tree S)
    (h' : Represents tree' S) : tree = tree' := by
  have hwords : ∀ w, w.length = 4 → Trie.contains w tree.root = Trie.contains w tree'.root := by
    intro w hw
    rw [← radix_path_ofNat_value w hw, Bool.eq_iff_iff, ← mem_pages, ← mem_pages, h.pages_eq,
      h'.pages_eq]
  have hroot : tree.root = tree'.root := Trie.Reduced.ext 4 h.wellFormed h'.wellFormed hwords
  exact congrArg RadixTree.mk hroot

/-- The page a call names. -/
def RadixOp.page_no : RadixOp → Option Page
  | .insert p => some p
  | .delete p => some p
  | .pop_min => none

/-- Calls on different members of a set commute. -/
theorem RadixOp.abs_comm {a b : RadixOp} {p q : Page} (ha : a.page_no = some p)
    (hb : b.page_no = some q) (hne : p ≠ q) (S : Finset UInt16) :
    PageSet.apply (PageSet.apply S a.abs) b.abs = PageSet.apply (PageSet.apply S b.abs) a.abs := by
  have hval : p.1 ≠ q.1 := fun h => hne (Subtype.ext h)
  cases a with
  | insert p₁ =>
      cases ha
      cases b with
      | insert q₁ =>
          cases hb
          exact Finset.insert_comm _ _ _
      | delete q₁ =>
          cases hb
          exact Finset.erase_insert_of_ne hval
      | pop_min => cases hb
  | delete p₁ =>
      cases ha
      cases b with
      | insert q₁ =>
          cases hb
          exact (Finset.erase_insert_of_ne hval.symm).symm
      | delete q₁ =>
          cases hb
          exact Finset.erase_right_comm
      | pop_min => cases hb
  | pop_min => cases ha

/-- **The shape depends on the contents only**: two histories that leave the same pages leave
the same tree, without childless inner nodes, and calls on different pages commute. -/
theorem shape_of_contents :
    (∀ ops ops' : List RadixOp,
      let tree := ops.foldl RadixOp.exec radix_tree_create
      let tree' := ops'.foldl RadixOp.exec radix_tree_create
      (∀ p, radix_tree_lookup tree p = radix_tree_lookup tree' p) → tree = tree')
    ∧ (∀ ops : List RadixOp, Trie.Reduced 4 (ops.foldl RadixOp.exec radix_tree_create).root)
    ∧ (∀ (ops : List RadixOp) (a b : RadixOp) (p q : Page), a.page_no = some p →
        b.page_no = some q → p ≠ q →
        let tree := ops.foldl RadixOp.exec radix_tree_create
        b.exec (a.exec tree) = a.exec (b.exec tree)) := by
  have hrun : ∀ ops : List RadixOp, Represents (ops.foldl RadixOp.exec radix_tree_create)
      ((ops.map RadixOp.abs).foldl PageSet.apply ∅) :=
    fun ops => represents_run ops _ _ represents_create
  refine ⟨?_, ?_, ?_⟩
  · intro ops ops' tree tree' hlookup
    have hset : (ops.map RadixOp.abs).foldl PageSet.apply ∅
        = (ops'.map RadixOp.abs).foldl PageSet.apply ∅ := by
      ext p
      rw [← (hrun ops).lookup p, ← (hrun ops').lookup p]
      exact Bool.eq_iff_iff.mp (hlookup p)
    exact (hrun ops).unique (hset ▸ hrun ops')
  · intro ops
    exact (hrun ops).wellFormed
  · intro ops a b p q ha hb hne tree
    have hab := ((hrun ops).exec a).exec b
    rw [RadixOp.abs_comm ha hb hne] at hab
    exact hab.unique (((hrun ops).exec b).exec a)

/-- Two histories that leave page 69, and two calls that commute. -/
theorem shape_of_contents_once :
    [RadixOp.insert ⟨666, by decide⟩, .insert ⟨69, by decide⟩, .delete ⟨666, by decide⟩].foldl
        RadixOp.exec radix_tree_create
      = [RadixOp.insert ⟨69, by decide⟩].foldl RadixOp.exec radix_tree_create
    ∧ (RadixOp.delete ⟨69, by decide⟩).exec
        ((RadixOp.insert ⟨666, by decide⟩).exec radix_tree_create)
      = (RadixOp.insert ⟨666, by decide⟩).exec
        ((RadixOp.delete ⟨69, by decide⟩).exec radix_tree_create) := by
  constructor
  · apply shape_of_contents.1
    intro p
    rw [Bool.eq_iff_iff, (represents_run _ _ _ represents_create).lookup p,
      (represents_run _ _ _ represents_create).lookup p]
    simp only [List.map_cons, List.map_nil, List.foldl_cons, List.foldl_nil, RadixOp.abs,
      PageSet.apply]
    rw [show Finset.erase (insert 69 (insert 666 ∅)) (666 : UInt16) = {69} by decide]
    rfl
  · exact shape_of_contents.2.2 [] (.insert ⟨666, by decide⟩) (.delete ⟨69, by decide⟩) _ _ rfl rfl
      (by decide)

end PreSeQL.Radix
