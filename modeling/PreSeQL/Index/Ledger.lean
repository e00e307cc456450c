/-
  PreSeQL.Index.Ledger — several indexes and the data pages they share.

  "The data page is not marked as freed until all indexes stop referencing it": the
  `ref_counter` of a data page should be the number of leaf entries, over all indexes,
  that point to it.  `Ledger` is an account of the calls, against which the memory is
  checked.

    • `CountsRight` — what each call should do to the counters,
    • `Ledger.Agrees.exec` — what a call that takes nothing out does,
    • `Ledger.Agrees.countsRight` — when that is right.
-/
import PreSeQL.Index.Deletion
import PreSeQL.Pager.ReadOnly

namespace PreSeQL.Index

open PreSeQL.Lib PreSeQL.Lib.Mem PreSeQL.Db PreSeQL.Radix
open IndexStatus

/-! ## §1. Several indexes. -/

/-- The roots of the indexes there are, and the data pages that are not free. -/
structure Indexes where
  pager : Pager
  roots : Finset UInt16
  data_pages : Finset UInt16

inductive IndexOp where
  | init_index_leaf_page (page_no : UInt16)
  | init_data_page (page_no : UInt16)
  | btree_insert (root_page_id : UInt16) (op : Insertion)
  | btree_delete (root_page_id : UInt16) (key : Key)
  | btree_destroy (root_page_id : UInt16)

/-- A page that is marked free is a data page no longer. -/
def Indexes.after (pager : Pager) (roots data_pages : Finset UInt16) : Indexes :=
  ⟨pager, roots, data_pages \ pages pager.free_page_map.tree⟩

section

variable (pager : Pager) (roots data_pages : Finset UInt16)

@[simp] theorem Indexes.after_pager : (Indexes.after pager roots data_pages).pager = pager := rfl

@[simp] theorem Indexes.after_roots : (Indexes.after pager roots data_pages).roots = roots := rfl

end

def IndexOp.exec (vaccum_page : Mem → Nat → Mem) (fuel : Nat) (s : Indexes) (junk : Junk) :
    IndexOp → Option Indexes
  | .init_index_leaf_page page_no =>
      match Index.init_index_leaf_page s.pager page_no with
      | none => some s
      | some (_, pager) => some (.after pager (insert page_no s.roots) s.data_pages)
  | .init_data_page page_no =>
      some (.after (Db.init_data_page s.pager page_no).2 s.roots (insert page_no s.data_pages))
  | .btree_insert root_page_id op =>
      (Index.btree_insert fuel s.pager root_page_id op.key.bytes op.data_page_id op.data_slot_id
        junk).map fun r => .after r.2.2 (insert r.2.1 (s.roots.erase root_page_id)) s.data_pages
  | .btree_delete root_page_id key =>
      (Index.btree_delete fuel s.pager root_page_id key.bytes junk).map fun r =>
        .after r.2 s.roots s.data_pages
  | .btree_destroy root_page_id =>
      (Index.btree_destroy vaccum_page fuel s.pager root_page_id junk).map fun r =>
        .after r.2 (s.roots.erase root_page_id) s.data_pages

/-! ## §2. The specification. -/

/-- The entries that point to a page, over all indexes. -/
noncomputable def Indexes.live (s : Indexes) (page_no : UInt16) : Nat :=
  ∑ root_page_id ∈ s.roots,
    (tree_entries s.pager root_page_id).countP fun slot => slot.next_page_id = page_no

def Indexes.ref_counter (s : Indexes) (page_no : UInt16) : UInt16 :=
  s.pager.mem.load16 (DBPageHeader.ref_counter (page_no.toNat * PAGE_SIZE))

/-- The call may take entries out. -/
def IndexOp.Removes : IndexOp → Prop
  | .btree_delete _ _ => True
  | .btree_destroy _ => True
  | _ => False

/-- What a run asks of a call: counters are right behind it, it has not taken one below
zero, and the data pages it has freed are those it has taken the last entry of. -/
structure CountsRight (s : Indexes) (op : IndexOp) (s' : Indexes) : Prop where
  counted : ∀ d ∈ s'.data_pages, s'.live d ≠ 0 → (s'.ref_counter d).toNat = s'.live d
  no_underflow : op.Removes → ∀ d ∈ s.data_pages, s'.ref_counter d ≤ s.ref_counter d
  freed : ∀ d ∈ s.data_pages,
    d ∈ pages s'.pager.free_page_map.tree ↔ s.live d ≠ 0 ∧ s'.live d = 0

/-- Whatever the uninitialised variables hold, the call returns, and `R` holds behind it. -/
def IndexOp.wp (vaccum_page : Mem → Nat → Mem) (s : Indexes) (op : IndexOp)
    (R : Indexes → Prop) : Prop :=
  ∀ junk : Junk, ∃ fuel s', op.exec vaccum_page fuel s junk = some s' ∧ R s'

theorem IndexOp.wp_mono (vaccum_page : Mem → Nat → Mem) (s : Indexes) (op : IndexOp)
    (R R' : Indexes → Prop) (h : ∀ s', R s' → R' s') (hwp : op.wp vaccum_page s R) :
    op.wp vaccum_page s R' := by
  intro junk
  obtain ⟨fuel, s', hexec, hr⟩ := hwp junk
  exact ⟨fuel, s', hexec, h _ hr⟩

/-! ## §3. The ledger. -/

/-- The indexes with what was inserted into each, and the data pages. -/
structure Ledger where
  roots : Finset UInt16
  inserted : UInt16 → List Insertion
  data_pages : Finset UInt16

def Ledger.empty : Ledger := ⟨∅, fun _ => [], ∅⟩

/-- The index holds the insertions, -/
def Ledger.put (t : Ledger) (root_page_id : UInt16) (ops : List Insertion) : Ledger :=
  { t with
    roots := insert root_page_id t.roots, inserted := Function.update t.inserted root_page_id ops }

/-- or is gone. -/
def Ledger.drop (t : Ledger) (root_page_id : UInt16) : Ledger :=
  { t with roots := t.roots.erase root_page_id }

def Ledger.apply (t : Ledger) : IndexOp → Ledger
  | .init_index_leaf_page page_no => t.put page_no []
  | .init_data_page page_no => { t with data_pages := insert page_no t.data_pages }
  | .btree_insert root_page_id op => t.put root_page_id (t.inserted root_page_id ++ [op])
  | .btree_delete _ _ => t
  | .btree_destroy root_page_id => t.drop root_page_id

def Ledger.live (t : Ledger) (page_no : UInt16) : Nat :=
  ∑ root_page_id ∈ t.roots, (t.inserted root_page_id).countP fun op => op.data_page_id = page_no

section

variable (t : Ledger) (root_page_id : UInt16) (ops : List Insertion)

@[simp] theorem Ledger.put_inserted_self :
    (t.put root_page_id ops).inserted root_page_id = ops := Function.update_self _ _ _

theorem Ledger.put_inserted_of_ne {r : UInt16} (h : r ≠ root_page_id) :
    (t.put root_page_id ops).inserted r = t.inserted r := Function.update_of_ne h _ _

theorem Ledger.live_eq_add {root_page_id : UInt16} (h : root_page_id ∈ t.roots) (d : UInt16) :
    t.live d = (t.inserted root_page_id).countP (fun op => op.data_page_id = d)
      + (t.drop root_page_id).live d :=
  (Finset.add_sum_erase t.roots
    (fun r => (t.inserted r).countP fun op : Insertion => op.data_page_id = d) h).symm

theorem Ledger.live_put (d : UInt16) :
    (t.put root_page_id ops).live d
      = ops.countP (fun op => op.data_page_id = d) + (t.drop root_page_id).live d := by
  rw [(t.put root_page_id ops).live_eq_add (Finset.mem_insert_self _ _), put_inserted_self]
  -- the other indexes are the same
  refine congrArg _ (Finset.sum_congr (Finset.erase_insert_eq_erase _ _) fun r hr => ?_)
  show ((t.put root_page_id ops).inserted r).countP _ = (t.inserted r).countP _
  rw [put_inserted_of_ne _ _ _ (Finset.ne_of_mem_erase hr)]

theorem Ledger.drop_of_notMem {root_page_id : UInt16} (h : root_page_id ∉ t.roots) :
    t.drop root_page_id = t := by
  unfold drop
  rw [Finset.erase_eq_of_notMem h]

end

/-- The page can be read and is neither the header page nor the root of an index. -/
structure Ledger.Available (t : Ledger) (page_no : UInt16) : Prop where
  ne_zero : page_no ≠ 0
  readable : page_no.toNat < MAX_PAGES
  no_root : page_no ∉ t.roots

/-- How the calls are made: an index is one there is, with room in its root, an entry
points to a data page, and pages are initialised that no index has.  `init_data_page`
writes two bytes of the next page, so that must not be a root either. -/
def IndexOp.Proper (t : Ledger) : IndexOp → Prop
  | .init_index_leaf_page page_no => t.Available page_no ∧ page_no ∉ t.data_pages
  | .init_data_page page_no => t.Available page_no ∧ page_no + 1 ∉ t.roots
  | .btree_insert root_page_id op => root_page_id ∈ t.roots
      ∧ (t.inserted root_page_id).length < 67 ∧ op.data_page_id ∈ t.data_pages
  | .btree_delete root_page_id _ => root_page_id ∈ t.roots
  | .btree_destroy root_page_id => root_page_id ∈ t.roots

/-- The call takes no entry out. -/
def IndexOp.Keeps (t : Ledger) : IndexOp → Prop
  | .btree_delete root_page_id key => ∀ op ∈ (t.inserted root_page_id).dropLast,
      ¬ key.bytes <+: (padded_key op.key.bytes).toList
  | .btree_destroy root_page_id => t.inserted root_page_id = []
  | _ => True

/-- And an entry it puts in is the first that points to its data page. -/
def IndexOp.Counted (t : Ledger) (op : IndexOp) : Prop :=
  op.Keeps t ∧ match op with
    | .btree_insert _ op => t.live op.data_page_id = 0
    | _ => True

/-! ## §4. What the ledger says of the memory. -/

/-- Each index is a leaf with what was inserted into it, and the counters are 1. -/
structure Ledger.Stored (t : Ledger) (pager : Pager) : Prop where
  leaves : ∀ root_page_id ∈ t.roots,
    LeafTree ⟨root_page_id, pager⟩ ((t.inserted root_page_id).map Insertion.slot)
  refs : ∀ d ∈ t.data_pages,
    pager.mem.load16 (DBPageHeader.ref_counter (d.toNat * PAGE_SIZE)) = 1

section

variable {t : Ledger} {s : Indexes} {pager pager' : Pager}

theorem Ledger.Stored.frame (h : t.Stored pager) {lo hi : Nat}
    (hsame : pager.mem.SameOff lo hi pager'.mem)
    (hroots : ∀ r ∈ t.roots, hi ≤ r.toNat * PAGE_SIZE ∨ r.toNat * PAGE_SIZE + PAGE_SIZE ≤ lo)
    (hdata : ∀ d ∈ t.data_pages, hi ≤ d.toNat * PAGE_SIZE + 2 ∨ d.toNat * PAGE_SIZE + 4 ≤ lo) :
    t.Stored pager' := by
  refine ⟨fun r hr => (h.leaves r hr).frame hsame (hroots r hr), fun d hd => ?_⟩
  show pager'.mem.load16 (d.toNat * PAGE_SIZE + 2) = 1
  rw [hsame.load16 (hdata d hd).symm]
  exact h.refs d hd

/-- The entries in memory are those of the ledger. -/
theorem Ledger.Stored.live (h : t.Stored s.pager) (hroots : s.roots = t.roots) (d : UInt16) :
    s.live d = t.live d := by
  unfold Indexes.live Ledger.live
  rw [hroots]
  refine Finset.sum_congr rfl fun r hr => ?_
  rw [(h.leaves r hr).entries, Multiset.coe_countP, List.countP_map]
  rfl

/-- The same when one of the indexes is not as the ledger says. -/
theorem Ledger.live_eq_add_drop (s : Indexes) {root_page_id : UInt16}
    (h : (t.drop root_page_id).Stored s.pager) (hroots : s.roots = t.roots)
    (hroot : root_page_id ∈ t.roots) (d : UInt16) :
    s.live d = (tree_entries s.pager root_page_id).countP (fun slot => slot.next_page_id = d)
      + (t.drop root_page_id).live d := by
  have hrest := h.live (s := { s with roots := s.roots.erase root_page_id })
    (congrArg (fun roots => roots.erase root_page_id) hroots) d
  rw [← hroots] at hroot
  rw [← hrest]
  exact (Finset.add_sum_erase s.roots (fun r => (tree_entries s.pager r).countP
    fun slot : IndexSlotData => slot.next_page_id = d) hroot).symm

/-- The state is as the ledger says. -/
structure Ledger.Agrees (t : Ledger) (s : Indexes) : Prop where
  roots : s.roots = t.roots
  data_pages : s.data_pages = t.data_pages
  stored : t.Stored s.pager
  in_use : ∀ d ∈ t.data_pages,
    d ≠ 0 ∧ d ∉ t.roots ∧ d ∉ pages s.pager.free_page_map.tree
  pointed : ∀ r ∈ t.roots, ∀ op ∈ t.inserted r, op.data_page_id ∈ t.data_pages

theorem Ledger.agrees_after (hstored : t.Stored pager)
    (hused : ∀ d ∈ t.data_pages, d ≠ 0 ∧ d ∉ t.roots ∧ d ∉ pages pager.free_page_map.tree)
    (hpointed : ∀ r ∈ t.roots, ∀ op ∈ t.inserted r, op.data_page_id ∈ t.data_pages) :
    t.Agrees (.after pager t.roots t.data_pages) := by
  have hdisjoint : Disjoint t.data_pages (pages pager.free_page_map.tree) :=
    Finset.disjoint_left.mpr fun d hd => (hused d hd).2.2
  constructor
  case roots => exact Indexes.after_roots _ _ _
  case data_pages => exact Finset.sdiff_eq_self_of_disjoint hdisjoint
  case stored => exact hstored
  case in_use => exact hused
  case pointed => exact hpointed

/-- Different pages do not meet, so a counter is on no root. -/
theorem ref_counter_apart {p d : UInt16} (h : d ≠ p) :
    p.toNat * PAGE_SIZE + PAGE_SIZE ≤ d.toNat * PAGE_SIZE + 2
      ∨ d.toNat * PAGE_SIZE + 4 ≤ p.toNat * PAGE_SIZE := by
  rcases pages_apart h with hlt | hlt
  · exact Or.inr (Nat.le_trans (Nat.add_le_add_left (by simp) _) hlt)
  · exact Or.inl (Nat.le_add_right_of_le hlt)

/-- Nothing that is said of an index or a counter is about page 0. -/
theorem Ledger.Stored.page_zero (h : t.Stored pager) (hdata : ∀ d ∈ t.data_pages, d ≠ 0)
    (hsame : pager.mem.SameOff 0 PAGE_SIZE pager'.mem) : t.Stored pager' := by
  refine h.frame hsame (fun r hr => Or.inl ?_) fun d hd => Or.inl ?_
  · exact PAGE_SIZE_le_page (h.leaves r hr).ne_zero
  · exact Nat.le_add_right_of_le (PAGE_SIZE_le_page (hdata d hd))

end

/-! ## §5. Calls that take nothing out. -/

section

variable {t : Ledger} {s : Indexes} {pager : Pager} {root_page_id : UInt16}
  {ops : List Insertion}

/-- What is written to the root of an index stays there. -/
theorem Ledger.Stored.put (h : t.Stored s.pager) (hleaf : LeafTree ⟨root_page_id, pager⟩
      (ops.map Insertion.slot)) (hdata : root_page_id ∉ t.data_pages)
    (hsame : s.pager.mem.SameOff (root_page_id.toNat * PAGE_SIZE)
      (root_page_id.toNat * PAGE_SIZE + PAGE_SIZE) pager.mem) :
    (t.put root_page_id ops).Stored pager := by
  refine ⟨fun r hr => ?_, fun d hd => ?_⟩
  · by_cases heq : r = root_page_id
    · subst heq
      rw [Ledger.put_inserted_self]
      exact hleaf
    · have hmem : r ∈ t.roots := Finset.mem_of_mem_insert_of_ne hr heq
      rw [Ledger.put_inserted_of_ne _ _ _ heq]
      exact (h.leaves r hmem).frame hsame (pages_apart heq).symm
  · have hne : d ≠ root_page_id := fun heq => hdata (heq ▸ hd)
    show pager.mem.load16 (d.toNat * PAGE_SIZE + 2) = 1
    rw [hsame.load16 (ref_counter_apart hne).symm]
    exact h.refs d hd

theorem Ledger.Agrees.put (h : t.Agrees s) (hleaf : LeafTree ⟨root_page_id, pager⟩
      (ops.map Insertion.slot)) (hdata : root_page_id ∉ t.data_pages)
    (hsame : s.pager.mem.SameOff (root_page_id.toNat * PAGE_SIZE)
      (root_page_id.toNat * PAGE_SIZE + PAGE_SIZE) pager.mem)
    (hmap : pager.free_page_map = s.pager.free_page_map)
    (hops : ∀ op ∈ ops, op.data_page_id ∈ t.data_pages) :
    (t.put root_page_id ops).Agrees
      (.after pager (insert root_page_id t.roots) t.data_pages) := by
  refine Ledger.agrees_after (h.stored.put hleaf hdata hsame) (fun d hd => ?_) fun r hr => ?_
  · obtain ⟨h0, hroot, hfree⟩ := h.in_use d hd
    rw [hmap]
    refine ⟨h0, fun hmem => ?_, hfree⟩
    rcases Finset.mem_insert.mp hmem with rfl | hmem
    · exact hdata hd
    · exact hroot hmem
  · by_cases heq : r = root_page_id
    · subst heq
      rw [Ledger.put_inserted_self]
      exact hops
    · rw [Ledger.put_inserted_of_ne _ _ _ heq]
      exact h.pointed r (Finset.mem_of_mem_insert_of_ne hr heq)

end

section

variable {t : Ledger} {s : Indexes} (vaccum_page : Mem → Nat → Mem) (fuel : Nat) (junk : Junk)

theorem Ledger.Agrees.init_index_leaf_page (h : t.Agrees s) {page_no : UInt16}
    (hproper : (IndexOp.init_index_leaf_page page_no).Proper t) :
    ∃ s', (IndexOp.init_index_leaf_page page_no).exec vaccum_page fuel s junk = some s'
      ∧ (t.apply (.init_index_leaf_page page_no)).Agrees s' := by
  obtain ⟨⟨hne, hreadable, hroot⟩, hdata⟩ := hproper
  have hpage : pager_get_page s.pager page_no = some (page_no.toNat * PAGE_SIZE) :=
    if_neg (Nat.not_le.mpr hreadable)
  simp only [IndexOp.exec, Index.init_index_leaf_page, init_index_page, hpage, h.roots,
    h.data_pages]
  refine ⟨_, rfl, h.put ⟨hne, _, hpage, filled_init _ _ _ _⟩ hdata ?_ rfl fun op hop => ?_⟩
  · exact (sameOff_init_index_header _ _ _ _).mono (Nat.le_refl _) (by simp)
  · cases hop

/-- The header of a new data page reaches two bytes into the next page. -/
theorem Ledger.Stored.allocate_page_header (h : t.Stored s.pager) {page_no : UInt16}
    (hroot : page_no ∉ t.roots) (hnext : page_no + 1 ∉ t.roots)
    (hreadable : page_no.toNat < MAX_PAGES) (flag : UInt8) :
    ({ t with data_pages := insert page_no t.data_pages } : Ledger).Stored
      (s.pager.withMem (Db.allocate_page_header s.pager.mem (page_no.toNat * PAGE_SIZE) page_no
        flag)) := by
  have hsame := sameOff_allocate_page_header s.pager.mem (page_no.toNat * PAGE_SIZE) page_no flag
  have hsize : DBPage.sizeof = 4098 := rfl
  rw [hsize] at hsame
  refine ⟨fun r hr => (h.leaves r hr).frame hsame ?_, fun d hd => ?_⟩
  · -- a root behind the page is not the next one
    have hne : r.toNat ≠ page_no.toNat := fun heq => hroot (UInt16.toNat_inj.mp heq ▸ hr)
    have hne' : r.toNat ≠ page_no.toNat + 1 := by
      have hsucc : (page_no + 1).toNat = page_no.toNat + 1 := by
        simp only [MAX_PAGES] at hreadable
        rw [UInt16.toNat_add, UInt16.toNat_one, Nat.mod_eq_of_lt (by omega)]
      intro heq
      exact hnext (UInt16.toNat_inj.mp (heq.trans hsucc.symm) ▸ hr)
    simp only [PAGE_SIZE]
    omega
  · by_cases heq : d = page_no
    · subst heq
      exact (freshPage_allocate_page_header _ _ _ _).ref_counter
    · have hmem : d ∈ t.data_pages := Finset.mem_of_mem_insert_of_ne hd heq
      have hne : d.toNat ≠ page_no.toNat := fun h' => heq (UInt16.toNat_inj.mp h')
      show (Db.allocate_page_header s.pager.mem (page_no.toNat * PAGE_SIZE) page_no flag).load16
        (d.toNat * PAGE_SIZE + 2) = 1
      rw [hsame.load16]
      · exact h.refs d hmem
      · simp only [PAGE_SIZE]
        omega

theorem Ledger.Agrees.init_data_page (h : t.Agrees s) {page_no : UInt16}
    (hproper : (IndexOp.init_data_page page_no).Proper t) :
    ∃ s', (IndexOp.init_data_page page_no).exec vaccum_page fuel s junk = some s'
      ∧ (t.apply (.init_data_page page_no)).Agrees s' := by
  obtain ⟨⟨hne, hreadable, hroot⟩, hnext⟩ := hproper
  simp only [IndexOp.exec, h.roots, h.data_pages]
  have hdata : ∀ d ∈ insert page_no t.data_pages, d ≠ 0 := by
    intro d hd
    rcases Finset.mem_insert.mp hd with rfl | hd
    · exact hne
    · exact (h.in_use d hd).1
  have hstored := (h.stored.allocate_page_header hroot hnext hreadable PAGE_DATA).page_zero hdata
    (mark_page_used_frame _ page_no)
  refine ⟨_, rfl, Ledger.agrees_after hstored (fun d hd => ⟨hdata d hd, ?_⟩) fun r hr op hop => ?_⟩
  · rw [Db.init_data_page, allocate_page_map, pages_delete _ hne, Finset.mem_erase]
    rcases Finset.mem_insert.mp hd with rfl | hd
    · exact ⟨hroot, fun h' => h'.1 rfl⟩
    · exact ⟨(h.in_use d hd).2.1, fun h' => (h.in_use d hd).2.2 h'.2⟩
  · exact Finset.mem_insert_of_mem (h.pointed r hr op hop)

/-- An insertion into a root with room. -/
theorem Ledger.Agrees.btree_insert (h : t.Agrees s) {root_page_id : UInt16} {op : Insertion}
    (hproper : (IndexOp.btree_insert root_page_id op).Proper t) :
    ∃ s', (IndexOp.btree_insert root_page_id op).exec vaccum_page (fuel + 1) s junk = some s'
      ∧ (t.apply (.btree_insert root_page_id op)).Agrees s' := by
  obtain ⟨hroot, hroom, hdata⟩ := hproper
  obtain ⟨m', hinsert, hleaf, hsame⟩ :=
    (h.stored.leaves root_page_id hroot).insert (by rwa [List.length_map]) op fuel junk
  have hroots : insert root_page_id (t.roots.erase root_page_id) = insert root_page_id t.roots :=
    (Finset.insert_erase hroot).trans (Finset.insert_eq_of_mem hroot).symm
  simp only [IndexOp.exec, hinsert, Option.map_some, h.roots, h.data_pages, hroots]
  refine ⟨_, rfl, ?_⟩
  have hleaf' : LeafTree ⟨root_page_id, s.pager.withMem m'⟩
      ((t.inserted root_page_id ++ [op]).map Insertion.slot) := by rwa [List.map_append]
  refine h.put hleaf' (fun hmem => (h.in_use _ hmem).2.1 hroot) hsame rfl fun op' hop' => ?_
  rcases List.mem_append.mp hop' with hop' | hop'
  · exact h.pointed root_page_id hroot op' hop'
  · rwa [List.mem_singleton.mp hop']

/-- A deletion that finds no entry. -/
theorem Ledger.Agrees.btree_delete (h : t.Agrees s) {root_page_id : UInt16} {key : Key}
    (hproper : (IndexOp.btree_delete root_page_id key).Proper t)
    (hkeeps : (IndexOp.btree_delete root_page_id key).Keeps t) :
    ∃ s', (IndexOp.btree_delete root_page_id key).exec vaccum_page (fuel + 1) s junk = some s'
      ∧ t.Agrees s' := by
  obtain ⟨page, hpage, hfilled, hdelete⟩ :=
    (h.stored.leaves root_page_id hproper).delete key fuel junk
  have hnone : ∀ slot ∈ ((t.inserted root_page_id).map Insertion.slot).dropLast,
      ¬ key.bytes <+: slot.key.toList := by
    intro slot hslot
    rw [← List.map_dropLast] at hslot
    obtain ⟨op, hop, rfl⟩ := List.mem_map.mp hslot
    exact hkeeps op hop
  simp only [IndexOp.exec, hdelete, hfilled.delete_entry_none hpage hnone, Option.map_some, h.roots,
    h.data_pages]
  exact ⟨_, rfl, Ledger.agrees_after h.stored h.in_use h.pointed⟩

theorem Ledger.Stored.drop {pager : Pager} (h : t.Stored pager) (root_page_id : UInt16) :
    (t.drop root_page_id).Stored pager :=
  ⟨fun r hr => h.leaves r (Finset.mem_of_mem_erase hr), h.refs⟩

/-- The walk of `btree_destroy` over a root that is a leaf is its second loop. -/
theorem LeafTree.destroy {pager : Pager} {root_page_id : UInt16} {slots : List IndexSlotData}
    (h : LeafTree ⟨root_page_id, pager⟩ slots) :
    ∃ page, pager_get_page pager root_page_id = some page
      ∧ btree_destroy vaccum_page (fuel + 1) pager root_page_id junk
        = (for_slots page (fun pager i =>
            some (release_slot vaccum_page root_page_id page (junk.call 2) pager i)) 256 0
              pager).map fun pager => (PSQL_STATUS_OK, mark_page_free pager root_page_id) := by
  obtain ⟨page, hpage, hfilled⟩ := h.filled
  refine ⟨page, hpage, ?_⟩
  simp only [btree_destroy, hpage, hfilled.packed.leaf.2, Bool.false_eq_true, if_false,
    Option.bind_some]

/-- The destruction of an index that is empty. -/
theorem Ledger.Agrees.btree_destroy (h : t.Agrees s) {root_page_id : UInt16}
    (hproper : (IndexOp.btree_destroy root_page_id).Proper t)
    (hkeeps : (IndexOp.btree_destroy root_page_id).Keeps t) :
    ∃ s', (IndexOp.btree_destroy root_page_id).exec vaccum_page (fuel + 1) s junk = some s'
      ∧ (t.drop root_page_id).Agrees s' := by
  have hempty : t.inserted root_page_id = [] := hkeeps
  have hleaf := h.stored.leaves root_page_id hproper
  obtain ⟨page, hpage, hdestroy⟩ := hleaf.destroy vaccum_page fuel junk
  have hfilled := hleaf.filled_at hpage
  have hround : ∀ i pager, pager = s.pager → i < total_slots pager.mem page →
      ∃ pager', some (release_slot vaccum_page root_page_id page (junk.call 2) pager i)
        = some pager' ∧ pager' = s.pager := by
    intro i pager hsame hi
    rw [hsame, hfilled.packed.total, hempty] at hi
    cases hi
  obtain ⟨_, _, hloop, rfl⟩ :=
    for_slots_keeps (J := fun _ pager => pager = s.pager) hround 256 0 _ rfl
  simp only [IndexOp.exec, hdestroy, hloop, Option.map_some, h.roots, h.data_pages]
  have hstored := (h.stored.page_zero (fun d hd => (h.in_use d hd).1)
    (mark_page_free_frame s.pager root_page_id)).drop root_page_id
  refine ⟨_, rfl, Ledger.agrees_after hstored (fun d hd => ?_) fun r hr => ?_⟩
  · obtain ⟨h0, hroot, hfree⟩ := h.in_use d hd
    refine ⟨h0, fun hmem => hroot (Finset.mem_of_mem_erase hmem), ?_⟩
    rw [mark_page_free_map, pages_insert, Finset.mem_insert, not_or]
    exact ⟨fun heq => hroot (heq ▸ hproper), hfree⟩
  · exact h.pointed r (Finset.mem_of_mem_erase hr)

/-- **A call that takes nothing out** leaves what the ledger says. -/
theorem Ledger.Agrees.exec (h : t.Agrees s) {op : IndexOp} (hproper : op.Proper t)
    (hkeeps : op.Keeps t) :
    ∃ s', op.exec vaccum_page (fuel + 1) s junk = some s' ∧ (t.apply op).Agrees s' := by
  cases op with
  | init_index_leaf_page page_no => exact h.init_index_leaf_page vaccum_page _ junk hproper
  | init_data_page page_no => exact h.init_data_page vaccum_page _ junk hproper
  | btree_insert root_page_id op => exact h.btree_insert vaccum_page fuel junk hproper
  | btree_delete root_page_id key => exact h.btree_delete vaccum_page fuel junk hproper hkeeps
  | btree_destroy root_page_id => exact h.btree_destroy vaccum_page fuel junk hproper hkeeps

/-- Without fuel the walk to the root does not end. -/
theorem Ledger.Agrees.exec_zero (h : t.Agrees s) {op : IndexOp} (hproper : op.Proper t)
    {s' : Indexes} (hexec : op.exec vaccum_page 0 s junk = some s') :
    op.exec vaccum_page 1 s junk = some s' := by
  cases op with
  | init_index_leaf_page page_no => exact hexec
  | init_data_page page_no => exact hexec
  | btree_insert root_page_id op =>
      have hnone := (h.stored.leaves root_page_id hproper.1).exec_zero (.btree_insert op) junk
      rw [TreeOp.exec, Option.map_eq_none_iff] at hnone
      rw [IndexOp.exec, hnone] at hexec
      cases hexec
  | btree_delete root_page_id key =>
      have hnone := (h.stored.leaves root_page_id hproper).exec_zero (.btree_delete key) junk
      rw [TreeOp.exec, Option.map_eq_none_iff] at hnone
      rw [IndexOp.exec, hnone] at hexec
      cases hexec
  | btree_destroy root_page_id => cases hexec

/-- The entries that point to the page and are put in by the call. -/
def IndexOp.adds (d : UInt16) : IndexOp → Nat
  | .btree_insert _ op => if op.data_page_id = d then 1 else 0
  | _ => 0

theorem Ledger.live_apply {op : IndexOp} (hproper : op.Proper t) (hkeeps : op.Keeps t)
    (d : UInt16) : (t.apply op).live d = t.live d + op.adds d := by
  cases op with
  | init_index_leaf_page page_no =>
      show (t.put page_no []).live d = t.live d
      rw [live_put, t.drop_of_notMem hproper.1.no_root, List.countP_nil, Nat.zero_add]
  | init_data_page page_no => rfl
  | btree_insert root_page_id op =>
      show (t.put root_page_id (t.inserted root_page_id ++ [op])).live d
        = t.live d + if op.data_page_id = d then 1 else 0
      rw [live_put, t.live_eq_add hproper.1 d, List.countP_append, List.countP_singleton]
      simp only [decide_eq_true_eq]
      omega
  | btree_delete root_page_id key => rfl
  | btree_destroy root_page_id =>
      have hempty : t.inserted root_page_id = [] := hkeeps
      show (t.drop root_page_id).live d = t.live d
      rw [t.live_eq_add hproper d, hempty, List.countP_nil, Nat.zero_add]

theorem Ledger.data_pages_apply (op : IndexOp) : t.data_pages ⊆ (t.apply op).data_pages := by
  cases op with
  | init_data_page page_no => exact Finset.subset_insert _ _
  | _ => exact Finset.Subset.refl _

/-- The counts are right while every page has at most one entry. -/
theorem Ledger.Agrees.countsRight {t' : Ledger} {s' : Indexes} (h : t.Agrees s)
    (h' : t'.Agrees s') (hdata : t.data_pages ⊆ t'.data_pages)
    (hlive : ∀ d, t.live d ≤ t'.live d) (honce : ∀ d, t'.live d ≤ 1) (op : IndexOp) :
    CountsRight s op s' := by
  have hl := h.stored.live h.roots
  have hl' := h'.stored.live h'.roots
  refine ⟨fun d hd hpos => ?_, fun _ d hd => ?_, fun d hd => ?_⟩
  · rw [h'.data_pages] at hd
    have hone := honce d
    rw [hl'] at hpos ⊢
    have href : s'.ref_counter d = 1 := h'.stored.refs d hd
    rw [href, UInt16.toNat_one]
    omega
  · rw [h.data_pages] at hd
    show s'.pager.mem.load16 _ ≤ s.pager.mem.load16 _
    rw [h.stored.refs d hd, h'.stored.refs d (hdata hd)]
  · rw [h.data_pages] at hd
    refine iff_of_false (h'.in_use d (hdata hd)).2.2 fun ⟨hpos, hzero⟩ => ?_
    have hle := hlive d
    rw [hl] at hpos
    rw [hl'] at hzero
    omega

end

end PreSeQL.Index
