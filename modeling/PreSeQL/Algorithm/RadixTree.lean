/-
  PreSeQL.Algorithm.RadixTree — the radix tree of page numbers (`radix_tree.c`).

  Four levels of 4-bit digits index a 16-bit page number; a page is in the tree
  when its path of four nodes exists.  The nodes come from an arena and are never
  shared, so a node is a value here: `Lib.Trie` over sixteen letters.  The loops
  over `level` are recursions on the list of levels.

  §3 connects the loops to the trie operations: insertion creates the word of the
  page's digits, deletion (a descent that records `path[]` and `indices[]`, then a
  climb that stops at the first node with children) erases it, and the minimum is
  the leftmost word.
-/
import PreSeQL.Lib.Trie
import Mathlib.Data.UInt

namespace PreSeQL.Radix

open PreSeQL.Lib

/-! ## §1. The data structure. -/

abbrev RADIX_BITS : Nat := 4

abbrev RADIX_SIZE : Nat := 1 <<< RADIX_BITS

theorem RADIX_SIZE_eq : RADIX_SIZE = 16 := rfl

abbrev RadixNode := Trie RADIX_SIZE

/-- The tree; the arena of the source only holds the nodes. -/
structure RadixTree where
  root : RadixNode

/-- The levels the loops run through. -/
def levels : List Nat := [0, 1, 2, 3]

/-- `(page_no >> ((3 - level) * RADIX_BITS)) & (RADIX_SIZE - 1)`. -/
def radix_index (page_no : UInt16) (level : Nat) : Fin RADIX_SIZE :=
  ⟨(page_no.toNat >>> ((3 - level) * RADIX_BITS)) &&& (RADIX_SIZE - 1),
    Nat.lt_of_le_of_lt Nat.and_le_right (by decide)⟩

/-! ## §2. The operations. -/

def radix_tree_create : RadixTree := ⟨Trie.empty⟩

/-- The insertion loop below `current`: a missing child is allocated and zeroed. -/
def insert_path (page_no : UInt16) : List Nat → RadixNode → RadixNode
  | [], current => current
  | level :: ls, current =>
      let idx := radix_index page_no level
      current.setChild idx (some (insert_path page_no ls ((current.child idx).getD Trie.empty)))

def radix_tree_insert (tree : RadixTree) (page_no : UInt16) : RadixTree :=
  ⟨insert_path page_no levels tree.root⟩

def lookup_path (page_no : UInt16) : List Nat → RadixNode → Bool
  | [], _ => true
  | level :: ls, current =>
      match current.child (radix_index page_no level) with
      | none => false
      | some next => lookup_path page_no ls next

def radix_tree_lookup (tree : RadixTree) (page_no : UInt16) : Bool :=
  if page_no = 0 then false else lookup_path page_no levels tree.root

/-- First loop of `radix_tree_delete`: `path[]` and `indices[]`, deepest level
first, or nothing when the page is not in the tree. -/
def find_path (page_no : UInt16) :
    List Nat → RadixNode → List (RadixNode × Fin RADIX_SIZE)
      → Option (List (RadixNode × Fin RADIX_SIZE))
  | [], _, path => some path
  | level :: ls, current, path =>
      let idx := radix_index page_no level
      match current.child idx with
      | none => none
      | some next => find_path page_no ls next ((current, idx) :: path)

/-- Second loop of `radix_tree_delete`, above level 3: the updated `node` is
unlinked from its parent when it has no children.  After the `break` the parents
keep pointing at the updated node, which is what the `then` branch writes. -/
def clean_parents : RadixNode → List (RadixNode × Fin RADIX_SIZE) → RadixNode
  | node, [] => node
  | node, (parent, idx) :: path =>
      clean_parents (parent.setChild idx (if node.hasChildren then some node else none)) path

def radix_tree_delete (tree : RadixTree) (page_no : UInt16) : RadixTree :=
  if page_no = 0 then tree
  else
    match find_path page_no levels tree.root [] with
    -- level 3: the child is unlinked whatever it holds; the climb cleans up above it
    | some ((parent, idx) :: path) => ⟨clean_parents (parent.setChild idx none) path⟩
    | _ => tree

/-- The descent shared by `radix_tree_peek_min` and `radix_tree_pop_min`: the page
number collected on the leftmost path, or nothing when some node has no child. -/
def min_path : List Nat → RadixNode → UInt16 → Option UInt16
  | [], _, page_num => some page_num
  | _ :: ls, current, page_num =>
      match current.firstChild with
      | none => none
      | some (idx, next) => min_path ls next ((page_num <<< 4) ||| UInt16.ofNat idx.val)

def radix_tree_peek_min (tree : RadixTree) : UInt16 :=
  (min_path levels tree.root 0).getD 0

def radix_tree_pop_min (tree : RadixTree) : UInt16 × RadixTree :=
  match min_path levels tree.root 0 with
  | none => (0, tree)
  | some page_num => (page_num, radix_tree_delete tree page_num)

/-! ## §3. The loops are the trie operations on the page's digits. -/

/-- The four digits of a page number, most significant first. -/
def radix_path (page_no : UInt16) : List (Fin RADIX_SIZE) := levels.map (radix_index page_no)

@[simp] theorem radix_path_length (page_no : UInt16) : (radix_path page_no).length = 4 := rfl

theorem radix_path_ne_nil (page_no : UInt16) : radix_path page_no ≠ [] := by
  simp [radix_path, levels]

theorem radix_index_val (page_no : UInt16) (level : Nat) :
    (radix_index page_no level).val = page_no.toNat / 16 ^ (3 - level) % 16 := by
  have hpow : (2 : Nat) ^ ((3 - level) * 4) = 16 ^ (3 - level) := by
    rw [Nat.mul_comm, Nat.pow_mul]
  show (page_no.toNat >>> ((3 - level) * 4)) &&& (2 ^ 4 - 1) = _
  rw [Nat.and_two_pow_sub_one_eq_mod, Nat.shiftRight_eq_div_pow, hpow]

/-- The digits spell the page number. -/
theorem value_radix_path (page_no : UInt16) :
    Trie.value (radix_path page_no) = page_no.toNat := by
  have hlt : page_no.toNat < 65536 := page_no.toNat_lt
  simp only [radix_path, levels, List.map_cons, List.map_nil, Trie.value, radix_index_val,
    List.length_cons, List.length_nil, RADIX_SIZE_eq]
  norm_num
  omega

theorem radix_path_injective {p q : UInt16} (h : radix_path p = radix_path q) : p = q := by
  rw [← UInt16.toNat_inj, ← value_radix_path p, ← value_radix_path q, h]

/-- Every four digits are the path of the page they spell. -/
theorem radix_path_ofNat_value (w : List (Fin RADIX_SIZE)) (hw : w.length = 4) :
    radix_path (UInt16.ofNat (Trie.value w)) = w := by
  have hlt : Trie.value w < 65536 := by
    have := Trie.value_lt w
    rwa [hw] at this
  refine Trie.value_injective _ w (by simp [hw]) ?_
  rw [value_radix_path, UInt16.toNat_ofNat']
  exact Nat.mod_eq_of_lt hlt

theorem insert_path_eq (page_no : UInt16) (ls : List Nat) :
    ∀ node, insert_path page_no ls node = Trie.insert (ls.map (radix_index page_no)) node := by
  induction ls with
  | nil => intro node; rfl
  | cons level ls ih =>
      intro node
      rw [List.map_cons, Trie.insert, insert_path, ih]

theorem radix_tree_insert_root (tree : RadixTree) (page_no : UInt16) :
    (radix_tree_insert tree page_no).root = Trie.insert (radix_path page_no) tree.root :=
  insert_path_eq page_no levels tree.root

theorem lookup_path_eq (page_no : UInt16) (ls : List Nat) :
    ∀ node, lookup_path page_no ls node = Trie.contains (ls.map (radix_index page_no)) node := by
  induction ls with
  | nil => intro node; rfl
  | cons level ls ih =>
      intro node
      rw [List.map_cons, Trie.contains, lookup_path]
      cases node.child (radix_index page_no level) with
      | none => rfl
      | some next => exact ih next

theorem find_path_eq_none (page_no : UInt16) (ls : List Nat) :
    ∀ node path, find_path page_no ls node path = none
      ↔ Trie.contains (ls.map (radix_index page_no)) node = false := by
  induction ls with
  | nil => intro node path; simp [find_path, Trie.contains]
  | cons level ls ih =>
      intro node path
      rw [List.map_cons, Trie.contains, find_path]
      cases node.child (radix_index page_no level) with
      | none => simp
      | some next => exact ih next _

/-- The climb over the recorded path rebuilds the node with the word erased. -/
theorem clean_parents_find_path (page_no : UInt16) (ls : List Nat) :
    ∀ level node path found, find_path page_no (level :: ls) node path = some found →
      ∃ parent idx rest, found = (parent, idx) :: rest
        ∧ clean_parents (parent.setChild idx none) rest
          = clean_parents
              (Trie.erase ((level :: ls).map (radix_index page_no)) node) path := by
  induction ls with
  | nil =>
      intro level node path found h
      -- level 3: the recorded parent is the node itself
      rw [find_path] at h
      cases hc : node.child (radix_index page_no level) with
      | none => simp [hc] at h
      | some next =>
          simp only [hc, find_path, Option.some.injEq] at h
          exact ⟨node, _, path, h.symm, rfl⟩
  | cons level' ls ih =>
      intro level node path found h
      rw [find_path] at h
      cases hc : node.child (radix_index page_no level) with
      | none => simp [hc] at h
      | some next =>
          -- above level 3: the climb ends at this child, kept while it has children
          simp only [hc] at h
          obtain ⟨parent, idx, rest, hfound, hclean⟩ := ih level' next _ found h
          refine ⟨parent, idx, rest, hfound, ?_⟩
          rw [hclean, clean_parents]
          simp only [List.map_cons, Trie.erase, hc, Option.bind_some, Trie.prune]

/-- Deleting a page that is in the tree erases its word; any other delete is a
no-op, as is the delete of page 0. -/
theorem radix_tree_delete_root (tree : RadixTree) (page_no : UInt16) :
    (radix_tree_delete tree page_no).root
      = if page_no = 0 ∨ Trie.contains (radix_path page_no) tree.root = false then tree.root
        else Trie.erase (radix_path page_no) tree.root := by
  unfold radix_tree_delete
  by_cases h0 : page_no = 0
  · simp [h0]
  · cases hf : find_path page_no levels tree.root [] with
    | none =>
        have hc : Trie.contains (radix_path page_no) tree.root = false :=
          (find_path_eq_none page_no levels tree.root []).mp hf
        simp [h0, hc]
    | some found =>
        -- a recorded path means that the word was there
        have hc : Trie.contains (radix_path page_no) tree.root ≠ false := by
          intro hc
          rw [(find_path_eq_none page_no levels tree.root []).mpr hc] at hf
          cases hf
        obtain ⟨parent, idx, rest, rfl, hclean⟩ :=
          clean_parents_find_path page_no [1, 2, 3] 0 tree.root [] found hf
        rw [if_neg h0, if_neg (by simp [h0, hc])]
        exact hclean

/-- Shifting in a digit, as long as the result fits 16 bits. -/
theorem shift_digit_toNat (page_num : UInt16) (d : Fin RADIX_SIZE)
    (h : page_num.toNat * 16 + d.val < 65536) :
    ((page_num <<< 4) ||| UInt16.ofNat d.val).toNat = page_num.toNat * 16 + d.val := by
  have hd : d.val < 2 ^ 4 := d.isLt
  have hshift : (page_num <<< 4).toNat = page_num.toNat <<< 4 := by
    rw [UInt16.toNat_shiftLeft]
    show page_num.toNat <<< 4 % 2 ^ 16 = _
    rw [Nat.shiftLeft_eq]
    exact Nat.mod_eq_of_lt (by omega)
  have hdig : (UInt16.ofNat d.val).toNat = d.val := by
    rw [UInt16.toNat_ofNat']
    exact Nat.mod_eq_of_lt (by omega)
  rw [UInt16.toNat_or, hshift, hdig, ← Nat.shiftLeft_add_eq_or_of_lt hd, Nat.shiftLeft_eq]

/-- With `n` more levels to go below the digit, nothing is lost: there is room for the
digit and for everything below it. -/
theorem shift_digit_of_room {page_num : UInt16} {n : Nat} (d : Fin RADIX_SIZE)
    (hbound : (page_num.toNat + 1) * 16 ^ (n + 1) ≤ 65536) :
    ((page_num <<< 4) ||| UInt16.ofNat d.val).toNat = page_num.toNat * 16 + d.val
    ∧ (((page_num <<< 4) ||| UInt16.ofNat d.val).toNat + 1) * 16 ^ n ≤ 65536 := by
  have hd : d.val + 1 ≤ 16 := d.isLt
  have hpos : 1 ≤ 16 ^ n := Nat.one_le_two_pow.trans (Nat.pow_le_pow_left (by decide) _)
  have hexp : (page_num.toNat + 1) * 16 ^ (n + 1) = (page_num.toNat * 16 + 16) * 16 ^ n := by
    rw [Nat.pow_succ]
    ring
  rw [hexp] at hbound
  have hfit : (page_num.toNat * 16 + d.val + 1) * 16 ^ n ≤ 65536 :=
    Nat.le_trans (Nat.mul_le_mul_right _ (by omega)) hbound
  have hdig := shift_digit_toNat page_num d
    (Nat.le_trans (Nat.le_mul_of_pos_right _ hpos) hfit)
  exact ⟨hdig, by rw [hdig]; exact hfit⟩

theorem min_path_toNat (ls : List Nat) : ∀ (node : RadixNode) (page_num : UInt16),
    (page_num.toNat + 1) * 16 ^ ls.length ≤ 65536 →
      (min_path ls node page_num).map UInt16.toNat
        = (Trie.leftmost ls.length node).map
            fun w => page_num.toNat * 16 ^ ls.length + Trie.value w := by
  induction ls with
  | nil =>
      intro node page_num _
      simp [min_path, Trie.leftmost, Trie.value]
  | cons level ls ih =>
      intro node page_num hbound
      rw [min_path, List.length_cons, Trie.leftmost]
      cases hf : node.firstChild with
      | none => simp
      | some dc =>
          obtain ⟨d, c⟩ := dc
          obtain ⟨hdig, hroom⟩ := shift_digit_of_room d hbound
          show (min_path ls c _).map UInt16.toNat = _
          rw [ih c _ hroom, hdig, Option.bind_some, Option.map_map]
          cases hw : Trie.leftmost ls.length c with
          | none => rfl
          | some w =>
              have hlen := (Trie.leftmost_eq_some _ _ _ hw).1
              simp only [Option.map_some, Function.comp_apply, Trie.value, hlen,
                Option.some.injEq, RADIX_SIZE_eq]
              ring

/-- The collected page number is the one the leftmost word spells. -/
theorem min_path_levels (node : RadixNode) :
    min_path levels node 0
      = (Trie.leftmost 4 node).map fun w => UInt16.ofNat (Trie.value w) := by
  have h := min_path_toNat levels node 0 (by decide)
  cases hm : min_path levels node 0 with
  | none =>
      rw [hm] at h
      cases hw : Trie.leftmost 4 node with
      | none => rfl
      | some w => simp [levels, hw] at h
  | some page_num =>
      rw [hm] at h
      cases hw : Trie.leftmost 4 node with
      | none => simp [levels, hw] at h
      | some w =>
          have hval : page_num.toNat = Trie.value w := by simpa [levels, hw] using h
          simp [← hval]

end PreSeQL.Radix
