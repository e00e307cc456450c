/-
  PreSeQL.Index.RefCount — when the reference counters of data pages are right.

  `init_data_page` sets a counter to 1 for the first entry.  `btree_insert` does not
  raise it, `btree_delete` does not lower it, and the loop of `btree_destroy` does not
  come to the last entry.

    • `Ledger.Agrees.insert_counted`, `.delete_keeps`, `.destroy_keeps` — one call,
    • `Ledger.Agrees.split_stops` — no call is right on an index whose root was split,
    • `ref_counter_iff` — every run.
-/
import PreSeQL.Index.Ledger
import PreSeQL.Index.Destroy

namespace PreSeQL.Index

open PreSeQL.Lib PreSeQL.Lib.Mem PreSeQL.Lib.Run PreSeQL.Lib.Wp PreSeQL.Db PreSeQL.Radix
open IndexStatus

/-! ## §1. Calls that are right. -/

section

variable {t : Ledger} {s : Indexes} {vaccum_page : Mem → Nat → Mem} {root_page_id : UInt16}

theorem Ledger.Agrees.wp_exec (h : t.Agrees s) {op : IndexOp} (hproper : op.Proper t)
    {R : Indexes → Prop} (hwp : op.wp vaccum_page s R) (junk : Junk) :
    ∃ fuel s', op.exec vaccum_page (fuel + 1) s junk = some s' ∧ R s' := by
  obtain ⟨fuel, s', hexec, hr⟩ := hwp junk
  cases fuel with
  | zero => exact ⟨0, s', h.exec_zero vaccum_page junk hproper hexec, hr⟩
  | succ fuel => exact ⟨fuel, s', hexec, hr⟩

/-- **An insertion** that is right puts in the first entry that points to its page. -/
theorem Ledger.Agrees.insert_counted (h : t.Agrees s) {op : Insertion}
    (hproper : (IndexOp.btree_insert root_page_id op).Proper t)
    (hwp : (IndexOp.btree_insert root_page_id op).wp vaccum_page s
      (CountsRight s (.btree_insert root_page_id op))) :
    t.live op.data_page_id = 0 := by
  obtain ⟨fuel, s', hexec, hright⟩ := h.wp_exec hproper hwp fun _ => .zero
  obtain ⟨s₁, hexec₁, h'⟩ := h.exec vaccum_page fuel (fun _ => .zero) hproper trivial
  obtain rfl := Option.some.inj (hexec₁.symm.trans hexec)
  have hdata : op.data_page_id ∈ (t.apply (.btree_insert root_page_id op)).data_pages :=
    hproper.2.2
  have hlive : s₁.live op.data_page_id = t.live op.data_page_id + 1 := by
    rw [h'.stored.live h'.roots, Ledger.live_apply hproper trivial, IndexOp.adds, if_pos rfl]
  -- the counter still is 1
  have href : s₁.ref_counter op.data_page_id = 1 := h'.stored.refs _ hdata
  have hcounted := hright.counted op.data_page_id (h'.data_pages ▸ hdata) (by omega)
  rw [href, hlive, UInt16.toNat_one] at hcounted
  omega

/-- While every page has at most one entry, an entry of an index is its page's only one. -/
theorem Ledger.only_entry (honce : ∀ d, t.live d ≤ 1) (hroot : root_page_id ∈ t.roots)
    {op : Insertion} (hop : op ∈ t.inserted root_page_id) :
    t.live op.data_page_id = 1 ∧ (t.drop root_page_id).live op.data_page_id = 0 := by
  have hone := honce op.data_page_id
  have hpos : 0 < (t.inserted root_page_id).countP fun op' => op'.data_page_id = op.data_page_id :=
    List.countP_pos_iff.mpr ⟨op, hop, by simp⟩
  rw [t.live_eq_add hroot] at hone ⊢
  omega

/-- So its entries point to different pages. -/
theorem Ledger.nodup_data_pages (honce : ∀ d, t.live d ≤ 1) (hroot : root_page_id ∈ t.roots) :
    ((t.inserted root_page_id).map fun op => op.data_page_id).Nodup := by
  rw [List.nodup_iff_count_le_one]
  intro d
  have hone := honce d
  rw [t.live_eq_add hroot] at hone
  rw [List.count, List.countP_map]
  refine Nat.le_trans (Nat.le_of_eq (List.countP_congr fun op _ => ?_))
    (Nat.le_of_add_right_le hone)
  simp

/-- **A deletion** that is right takes nothing out: what it takes out is the last entry of
its page, which stays in use. -/
theorem Ledger.Agrees.delete_keeps (h : t.Agrees s) (honce : ∀ d, t.live d ≤ 1) {key : Key}
    (hproper : (IndexOp.btree_delete root_page_id key).Proper t)
    (hwp : (IndexOp.btree_delete root_page_id key).wp vaccum_page s
      (CountsRight s (.btree_delete root_page_id key))) :
    (IndexOp.btree_delete root_page_id key).Keeps t := by
  intro op hop hprefix
  have hroot : root_page_id ∈ t.roots := hproper
  obtain ⟨fuel, s', hexec, hright⟩ := h.wp_exec hproper hwp fun _ => key.other
  have hleaf := h.stored.leaves root_page_id hproper
  have hsome : ∃ slot ∈ ((t.inserted root_page_id).map Insertion.slot).dropLast,
      key.bytes <+: slot.key.toList := by
    rw [← List.map_dropLast]
    exact ⟨op.slot, List.mem_map_of_mem hop, hprefix⟩
  obtain ⟨k, hk, hdelete⟩ := hleaf.delete_other hsome fuel
  obtain ⟨m', hfree, hcard, hsame⟩ := hleaf.free_slot hk
  rw [IndexOp.exec, hdelete, hfree, Option.map_some] at hexec
  obtain rfl := Option.some.inj hexec
  -- the other indexes are as before
  have hothers : (t.drop root_page_id).Stored (s.pager.withMem m') := by
    refine (h.stored.drop root_page_id).frame hsame (fun r hr => ?_) fun d hd => ?_
    · exact (pages_apart (Finset.ne_of_mem_erase hr)).symm
    · exact ref_counter_apart fun heq => (h.in_use d hd).2.1 (heq ▸ hroot)
  -- no page was freed, so each still has its entry in this one
  have hstill : ∀ op ∈ t.inserted root_page_id, op.data_page_id
      ∈ (tree_entries (s.pager.withMem m') root_page_id).map fun slot => slot.next_page_id := by
    intro op hop
    have hdata := h.pointed root_page_id hroot op hop
    obtain ⟨hone, hzero⟩ := t.only_entry honce hroot hop
    have hpos : s.live op.data_page_id ≠ 0 := by
      rw [h.stored.live h.roots, hone]
      exact Nat.one_ne_zero
    rw [Multiset.mem_map]
    by_contra hnone
    have hgone : (Indexes.after (s.pager.withMem m') s.roots s.data_pages).live op.data_page_id
        = 0 := by
      rw [Ledger.live_eq_add_drop (.after (s.pager.withMem m') s.roots s.data_pages) hothers h.roots
        hroot, hzero, Nat.add_zero, Multiset.countP_eq_zero]
      exact fun slot hslot heq => hnone ⟨slot, hslot, heq⟩
    exact (h.in_use _ hdata).2.2 ((hright.freed _ (h.data_pages ▸ hdata)).mpr ⟨hpos, hgone⟩)
  have hle : ((t.inserted root_page_id).map fun op => op.data_page_id : Multiset UInt16)
      ≤ (tree_entries (s.pager.withMem m') root_page_id).map fun slot => slot.next_page_id := by
    refine (Multiset.le_iff_subset (Multiset.coe_nodup.mpr (t.nodup_data_pages honce hroot))).mpr ?_
    intro d hd
    obtain ⟨op, hop, rfl⟩ := List.mem_map.mp (Multiset.mem_coe.mp hd)
    exact hstill op hop
  have hlen := Multiset.card_le_card hle
  rw [Multiset.card_map, Multiset.coe_card, List.length_map, hcard, List.length_map] at hlen
  rw [List.length_map] at hk
  omega

/-- A slot whose page cannot be read has nothing to release, -/
theorem release_slot_none {page i : Nat} {pager : Pager} {junk : Junk} {slot : IndexSlotData}
    (hread : read_index_slot pager root_page_id (UInt8.ofNat i) (junk [i]) = slot)
    (hoverflow : slot.overflow.next_page_id = 0)
    (hdata : pager_get_page pager slot.next_page_id = none) :
    release_slot vaccum_page root_page_id page junk pager i = pager := by
  simp only [release_slot, hread, hoverflow, ne_eq, not_true_eq_false, if_false, hdata, ite_self]

/-- and one whose page has no other entry frees it. -/
theorem release_slot_last {page i data_page : Nat} {pager : Pager} {junk : Junk}
    {slot : IndexSlotData}
    (hread : read_index_slot pager root_page_id (UInt8.ofNat i) (junk [i]) = slot)
    (hoverflow : slot.overflow.next_page_id = 0) (hleaf : IS_LEAF pager.mem page = true)
    (hdata : pager_get_page pager slot.next_page_id = some data_page)
    (href : pager.mem.load16 (DBPageHeader.ref_counter data_page) = 1) :
    release_slot vaccum_page root_page_id page junk pager i
      = mark_page_free (pager.withMem (pager.mem.store16 (DBPageHeader.ref_counter data_page) 0))
          slot.next_page_id := by
  have hzero : (1 : UInt16) - 1 = 0 := rfl
  simp only [release_slot, hread, hoverflow, ne_eq, not_true_eq_false, if_false, hleaf, if_true,
    hdata, href, hzero]

/-- The variable points to no page. -/
def lost_slot : IndexSlotData := { IndexSlotData.zero with next_page_id := 65535 }

/-- The data pages the loop of `btree_destroy` has still to come to before round `i`. -/
def Ledger.rest (t : Ledger) (root_page_id : UInt16) (i : Nat) : Ledger :=
  { t with
    data_pages :=
      (((t.inserted root_page_id).drop (i - 1)).map fun op => op.data_page_id).toFinset }

theorem Ledger.mem_rest {i : Nat} {d : UInt16} :
    d ∈ (t.rest root_page_id i).data_pages
      ↔ ∃ op ∈ (t.inserted root_page_id).drop (i - 1), op.data_page_id = d := by
  rw [rest, List.mem_toFinset, List.mem_map]

/-- Round `k + 1` is that of entry `k`, whose page is none of those behind it. -/
theorem Ledger.rest_succ (hnodup : ((t.inserted root_page_id).map fun op => op.data_page_id).Nodup)
    {k : Nat} {op : Insertion} (hop : (t.inserted root_page_id)[k]? = some op) :
    op.data_page_id ∈ (t.rest root_page_id (k + 1)).data_pages
      ∧ ∀ d ∈ (t.rest root_page_id (k + 2)).data_pages,
          d ∈ (t.rest root_page_id (k + 1)).data_pages ∧ d ≠ op.data_page_id := by
  obtain ⟨hk, rfl⟩ := List.getElem?_eq_some_iff.mp hop
  have hdrop : (t.inserted root_page_id).drop k
      = (t.inserted root_page_id)[k] :: (t.inserted root_page_id).drop (k + 1) :=
    List.drop_eq_getElem_cons hk
  have hsub : (((t.inserted root_page_id).drop k).map fun op => op.data_page_id).Nodup := by
    rw [List.map_drop]
    exact hnodup.sublist (List.drop_sublist _ _)
  rw [hdrop, List.map_cons, List.nodup_cons] at hsub
  constructor
  · refine mem_rest.mpr ⟨_, ?_, rfl⟩
    rw [Nat.add_sub_cancel, hdrop]
    exact List.mem_cons_self
  · intro d hd
    obtain ⟨op, hmem, rfl⟩ := mem_rest.mp hd
    refine ⟨mem_rest.mpr ⟨op, ?_, rfl⟩, fun heq => hsub.1 (heq ▸ List.mem_map_of_mem hmem)⟩
    rw [Nat.add_sub_cancel, hdrop]
    exact List.mem_cons_of_mem _ hmem

/-- What the loop keeps: those pages have their counters, and the last one is in use. -/
structure Ledger.Destroying (t : Ledger) (root_page_id last : UInt16) (i : Nat) (pager : Pager) :
    Prop where
  stored : (t.rest root_page_id i).Stored pager
  in_use : last ∉ pages pager.free_page_map.tree

theorem Ledger.Destroying.round {pager : Pager} {page i : Nat} {last : UInt16}
    (h : t.Destroying root_page_id last i pager) (hroot : root_page_id ∈ t.roots)
    (hnodup : ((t.inserted root_page_id).map fun op => op.data_page_id).Nodup)
    (hdata : ∀ op ∈ t.inserted root_page_id, op.data_page_id ≠ 0 ∧ op.data_page_id ∉ t.roots)
    (hlast : ∀ op ∈ (t.inserted root_page_id).dropLast, op.data_page_id ≠ last)
    (hpage : pager_get_page pager root_page_id = some page)
    (hi : i < total_slots pager.mem page) :
    t.Destroying root_page_id last (i + 1) (release_slot vaccum_page root_page_id page
      (Junk.call (fun _ => lost_slot) 2) pager i) := by
  have hfilled : Filled pager.mem page root_page_id PAGE_INDEX_LEAF
      ((t.inserted root_page_id).map Insertion.slot) :=
    (h.stored.leaves root_page_id hroot).filled_at hpage
  rw [hfilled.packed.total] at hi
  cases i with
  | zero =>
      -- there is no slot 0
      rw [release_slot_none (hfilled.read_other hpage (Or.inl rfl) _) rfl rfl]
      exact ⟨h.stored, h.in_use⟩
  | succ k =>
      have hi' : k + 1 < (t.inserted root_page_id).length := by rwa [List.length_map] at hi
      obtain ⟨op, hop⟩ : ∃ op, (t.inserted root_page_id)[k]? = some op :=
        ⟨_, List.getElem?_eq_getElem (Nat.lt_of_succ_lt hi')⟩
      obtain ⟨hk, hget⟩ := List.getElem?_eq_some_iff.mp hop
      have hread : read_index_slot pager root_page_id (UInt8.ofNat (k + 1)) lost_slot
          = op.slot := by
        rw [hfilled.read_slot hpage hi, List.getElem_map]
        exact congrArg Insertion.slot hget
      obtain ⟨hmem, hbehind⟩ := Ledger.rest_succ hnodup hop
      have hstored : (t.rest root_page_id (k + 2)).Stored pager :=
        ⟨h.stored.leaves, fun d hd => h.stored.refs d (hbehind d hd).1⟩
      cases hdata_page : pager_get_page pager op.data_page_id with
      | none =>
          rw [release_slot_none hread rfl hdata_page]
          exact ⟨hstored, h.in_use⟩
      | some data_page =>
          obtain ⟨-, rfl⟩ := pager_get_page_eq_some hdata_page
          rw [release_slot_last hread rfl hfilled.packed.leaf.1 hdata_page (h.stored.refs _ hmem)]
          have hop_root := (hdata op (List.mem_of_getElem? hop)).2
          refine ⟨Ledger.Stored.page_zero ?_ (fun d hd => ?_) (mark_page_free_frame _ _), ?_⟩
          · -- the counter is on no root and on no page behind it
            refine hstored.frame (sameOff_store _ _ _ _) (fun r hr => ?_) fun d hd => ?_
            · have hne : op.data_page_id ≠ r := fun heq => hop_root (heq ▸ hr)
              have hapart := ref_counter_apart hne
              simp only [DBPageHeader.ref_counter]
              omega
            · have hapart := pages_apart (hbehind d hd).2
              have hsize : 4 ≤ PAGE_SIZE := by decide
              simp only [DBPageHeader.ref_counter]
              omega
          · obtain ⟨op', hop', rfl⟩ := Ledger.mem_rest.mp hd
            exact (hdata op' (List.mem_of_mem_drop hop')).1
          · rw [mark_page_free_map, pages_insert, Finset.mem_insert, not_or]
            refine ⟨fun heq => hlast op ?_ heq.symm, h.in_use⟩
            rw [← hget, ← List.getElem_dropLast (by rw [List.length_dropLast]; omega)]
            exact List.getElem_mem _

/-- The page of the last entry is none of those in front. -/
theorem Ledger.dropLast_ne_last
    (hnodup : ((t.inserted root_page_id).map fun op => op.data_page_id).Nodup)
    {ops : List Insertion} {last : Insertion} (hops : t.inserted root_page_id = ops ++ [last]) :
    ∀ op ∈ (t.inserted root_page_id).dropLast, op.data_page_id ≠ last.data_page_id := by
  rw [hops, List.map_append, List.nodup_append] at hnodup
  rw [hops, List.dropLast_concat]
  exact fun op hop => hnodup.2.2 _ (List.mem_map_of_mem hop) _ (List.mem_singleton_self _)

/-- **The loop** of a destruction, up to the last entry. -/
theorem Ledger.Agrees.destroying_loop (h : t.Agrees s) (vaccum_page : Mem → Nat → Mem)
    (honce : ∀ d, t.live d ≤ 1) (hroot : root_page_id ∈ t.roots) {ops : List Insertion}
    {last : Insertion} (hops : t.inserted root_page_id = ops ++ [last]) {page : Nat}
    (hpage : pager_get_page s.pager root_page_id = some page) :
    ∃ i pager', for_slots page (fun pager i => some (release_slot vaccum_page root_page_id page
        (Junk.call (fun _ => lost_slot) 2) pager i)) 256 0 s.pager = some pager'
      ∧ t.Destroying root_page_id last.data_page_id i pager' := by
  have hnodup := t.nodup_data_pages honce hroot
  have hdata : ∀ op ∈ t.inserted root_page_id, op.data_page_id ≠ 0 ∧ op.data_page_id ∉ t.roots
      ∧ op.data_page_id ∉ pages s.pager.free_page_map.tree :=
    fun op hop => h.in_use _ (h.pointed root_page_id hroot op hop)
  have hmem : last ∈ t.inserted root_page_id := by
    rw [hops]
    exact List.mem_append_right _ (List.mem_singleton_self last)
  have hstart : t.Destroying root_page_id last.data_page_id 0 s.pager := by
    refine ⟨⟨h.stored.leaves, fun d hd => ?_⟩, (hdata last hmem).2.2⟩
    obtain ⟨op, hop, rfl⟩ := Ledger.mem_rest.mp hd
    exact h.stored.refs _ (h.pointed root_page_id hroot op (List.mem_of_mem_drop hop))
  refine for_slots_keeps (fun i pager hleft hi => ?_) 256 0 s.pager hstart
  exact ⟨_, rfl, hleft.round hroot hnodup
    (fun op hop => ⟨(hdata op hop).1, (hdata op hop).2.1⟩) (t.dropLast_ne_last hnodup hops)
    hpage hi⟩

/-- **A destruction** that is right is that of an empty index: the loop does not come to the
last entry, whose page stays in use. -/
theorem Ledger.Agrees.destroy_keeps (h : t.Agrees s) (honce : ∀ d, t.live d ≤ 1)
    (hproper : (IndexOp.btree_destroy root_page_id).Proper t)
    (hwp : (IndexOp.btree_destroy root_page_id).wp vaccum_page s
      (CountsRight s (.btree_destroy root_page_id))) :
    (IndexOp.btree_destroy root_page_id).Keeps t := by
  by_contra hne
  have hroot : root_page_id ∈ t.roots := hproper
  obtain ⟨fuel, s', hexec, hright⟩ := h.wp_exec hproper hwp fun _ => lost_slot
  obtain ⟨page, hpage, hdestroy⟩ :=
    (h.stored.leaves root_page_id hroot).destroy vaccum_page fuel fun _ => lost_slot
  -- the last entry
  obtain ⟨ops, last, hops⟩ : ∃ ops last, t.inserted root_page_id = ops ++ [last] :=
    ⟨_, _, (List.dropLast_append_getLast hne).symm⟩
  have hmem : last ∈ t.inserted root_page_id := by
    rw [hops]
    exact List.mem_append_right _ (List.mem_singleton_self last)
  have hdata : ∀ op ∈ t.inserted root_page_id, op.data_page_id ≠ 0 ∧ op.data_page_id ∉ t.roots :=
    fun op hop => have hused := h.in_use _ (h.pointed root_page_id hroot op hop)
      ⟨hused.1, hused.2.1⟩
  obtain ⟨i, pager', hloop, hleft⟩ :=
    h.destroying_loop vaccum_page honce hroot hops hpage
  rw [IndexOp.exec, hdestroy, hloop] at hexec
  obtain rfl := Option.some.inj hexec
  obtain ⟨hone, hzero⟩ := t.only_entry honce hroot hmem
  have hpos : s.live last.data_page_id ≠ 0 := by
    rw [h.stored.live h.roots, hone]
    exact Nat.one_ne_zero
  have hstored : ((t.rest root_page_id i).drop root_page_id).Stored
      (mark_page_free pager' root_page_id) := by
    refine (hleft.stored.page_zero (fun d hd => ?_) (mark_page_free_frame _ _)).drop root_page_id
    obtain ⟨op, hop, rfl⟩ := Ledger.mem_rest.mp hd
    exact (hdata op (List.mem_of_mem_drop hop)).1
  have hgone : (Indexes.after (mark_page_free pager' root_page_id) (s.roots.erase root_page_id)
      s.data_pages).live last.data_page_id = 0 := by
    rw [Ledger.Stored.live (s := .after (mark_page_free pager' root_page_id)
      (s.roots.erase root_page_id) s.data_pages) hstored
      (congrArg (fun roots => roots.erase root_page_id) h.roots)]
    exact hzero
  have hfreed := (hright.freed _ (h.data_pages ▸ h.pointed root_page_id hroot last hmem)).mpr
    ⟨hpos, hgone⟩
  rw [Indexes.after_pager, mark_page_free_map, pages_insert, Finset.mem_insert] at hfreed
  rcases hfreed with heq | hfree
  · exact (hdata last hmem).2 (heq ▸ hroot)
  · exact hleft.in_use hfree

end

/-! ## §2. Behind the 68th insertion. -/

/-- The call is made on the index. -/
def IndexOp.IsOn (root_page_id : UInt16) : IndexOp → Prop
  | .btree_insert root _ => root = root_page_id
  | .btree_delete root _ => root = root_page_id
  | .btree_destroy root => root = root_page_id
  | _ => False

/-- No call on an inner root returns whatever the variables hold. -/
theorem InnerRoot.not_wp {root_page_id : UInt16} {s : Indexes}
    (h : InnerRoot root_page_id s.pager) {vaccum_page : Mem → Nat → Mem} {op : IndexOp}
    (hon : op.IsOn root_page_id) (R : Indexes → Prop) : ¬ op.wp vaccum_page s R := by
  intro hwp
  cases op with
  | init_index_leaf_page page_no => exact hon
  | init_data_page page_no => exact hon
  | btree_insert root op =>
      obtain rfl : root = root_page_id := hon
      obtain ⟨fuel, s', hexec, -⟩ := hwp (top_junk 0)
      rw [IndexOp.exec, h.insert_none, Option.map_none] at hexec
      cases hexec
  | btree_delete root key =>
      obtain rfl : root = root_page_id := hon
      obtain ⟨fuel, s', hexec, -⟩ := hwp (top_junk 0)
      rw [IndexOp.exec, h.delete_none, Option.map_none] at hexec
      cases hexec
  | btree_destroy root =>
      obtain rfl : root = root_page_id := hon
      -- which comes back to the root for ever
      obtain ⟨fuel, s', hexec, -⟩ := hwp fun _ => root_slot root
      obtain ⟨page, hpage, hpacked⟩ := h.packed
      have htotal : 0 < total_slots s.pager.mem page := by
        rw [hpacked.total]
        exact Nat.succ_pos 1
      rw [IndexOp.exec, btree_destroy_inner hpage hpacked.inner.2 htotal (hpacked.read_zero hpage),
        Option.map_none] at hexec
      cases hexec

/-- **The 68th insertion** puts an inner page above the root of the index, and no run goes
on rightly with a call on it. -/
theorem Ledger.Agrees.split_stops {t : Ledger} {s : Indexes} (h : t.Agrees s)
    {root_page_id : UInt16} (hroot : root_page_id ∈ t.roots)
    (hfull : (t.inserted root_page_id).length = 67) (hleft : ReadableLeft s.pager)
    (vaccum_page : Mem → Nat → Mem) (op : Insertion) (fuel : Nat) (junk : Junk) :
    ∃ s' new_root_id,
      (IndexOp.btree_insert root_page_id op).exec vaccum_page (fuel + 1) s junk = some s'
        ∧ s'.roots = insert new_root_id (s.roots.erase root_page_id)
        ∧ ∀ next : IndexOp, next.IsOn new_root_id → ∀ P ops,
          ¬ Surely (IndexOp.wp vaccum_page) P s' (next :: ops) := by
  obtain ⟨tree, hinsert, hinner⟩ := (h.stored.leaves root_page_id hroot).insert_full
    (by rwa [List.length_map]) hleft op fuel junk
  refine ⟨_, tree.root_page_id, ?_, Indexes.after_roots tree.pager _ s.data_pages, ?_⟩
  · simp only [IndexOp.exec, hinsert, Option.map_some]
  · exact fun next hon P ops hrun => InnerRoot.not_wp hinner hon _ hrun

/-! ## §3. Runs. -/

section

variable {t : Ledger} {s : Indexes} {vaccum_page : Mem → Nat → Mem}

/-- A call that takes nothing out leads to a state the ledger describes, whatever else it
is known to lead to. -/
theorem Ledger.Agrees.meet (h : t.Agrees s) {op : IndexOp} (hproper : op.Proper t)
    (hkeeps : op.Keeps t) {R : Indexes → Prop} (hwp : op.wp vaccum_page s R) :
    ∃ s', (t.apply op).Agrees s' ∧ R s' := by
  obtain ⟨fuel, s', hexec, hr⟩ := h.wp_exec hproper hwp fun _ => .zero
  obtain ⟨s₁, hexec₁, h'⟩ := h.exec vaccum_page fuel (fun _ => .zero) hproper hkeeps
  obtain rfl := Option.some.inj (hexec₁.symm.trans hexec)
  exact ⟨s₁, h', hr⟩

theorem Ledger.once_apply (honce : ∀ d, t.live d ≤ 1) {op : IndexOp} (hproper : op.Proper t)
    (hcounted : op.Counted t) (d : UInt16) : (t.apply op).live d ≤ 1 := by
  have hone := honce d
  rw [Ledger.live_apply hproper hcounted.1]
  cases op with
  | btree_insert root_page_id op =>
      have hfirst : t.live op.data_page_id = 0 := hcounted.2
      show t.live d + (if op.data_page_id = d then 1 else 0) ≤ 1
      split
      next heq => rw [← heq, hfirst]
      next => exact hone
  | _ => exact hone

theorem Ledger.Agrees.counted_of_wp (h : t.Agrees s) (honce : ∀ d, t.live d ≤ 1) {op : IndexOp}
    (hproper : op.Proper t) (hwp : op.wp vaccum_page s (CountsRight s op)) : op.Counted t := by
  cases op with
  | init_index_leaf_page page_no => exact ⟨trivial, trivial⟩
  | init_data_page page_no => exact ⟨trivial, trivial⟩
  | btree_insert root_page_id op => exact ⟨trivial, h.insert_counted hproper hwp⟩
  | btree_delete root_page_id key => exact ⟨h.delete_keeps honce hproper hwp, trivial⟩
  | btree_destroy root_page_id => exact ⟨h.destroy_keeps honce hproper hwp, trivial⟩

end

/-- Before any call there is no index and no data page. -/
def Indexes.start (pager : Pager) : Indexes := ⟨pager, ∅, ∅⟩

theorem agrees_start (pager : Pager) : Ledger.empty.Agrees (.start pager) := by
  refine ⟨rfl, rfl, ⟨fun r hr => ?_, fun d hd => ?_⟩, fun d hd => ?_, fun r hr => ?_⟩
  all_goals exact absurd ‹_› (Finset.notMem_empty _)

/-- **Reference counters are right** throughout a run, whatever uninitialised variables
hold, exactly when no call takes an entry out and no data page gets a second one. -/
theorem ref_counter_iff (vaccum_page : Mem → Nat → Mem) (pager : Pager) (ops : List IndexOp)
    (hproper : EachStep Ledger.apply IndexOp.Proper Ledger.empty ops) :
    Surely (IndexOp.wp vaccum_page) CountsRight (.start pager) ops
      ↔ EachStep Ledger.apply IndexOp.Counted Ledger.empty ops := by
  refine surely_iff_tracked (I := fun t s => t.Agrees s ∧ ∀ d, t.live d ≤ 1)
    (IndexOp.wp_mono vaccum_page) (fun t s op h hproper hcounted junk => ?_)
    (fun t s op R h hproper hcounted hwp => ?_)
    (fun t s op h hproper hwp => h.1.counted_of_wp h.2 hproper hwp) ops Ledger.empty
    (.start pager) ⟨agrees_start pager, fun d => ?_⟩ hproper
  · obtain ⟨s', hexec, h'⟩ := h.1.exec vaccum_page 0 junk hproper hcounted.1
    have honce := Ledger.once_apply h.2 hproper hcounted
    refine ⟨1, s', hexec, ?_, h', honce⟩
    refine h.1.countsRight h' (Ledger.data_pages_apply op) (fun d => ?_) honce op
    rw [Ledger.live_apply hproper hcounted.1]
    exact Nat.le_add_right _ _
  · obtain ⟨s', h', hr⟩ := h.1.meet hproper hcounted.1 hwp
    exact ⟨s', ⟨h', Ledger.once_apply h.2 hproper hcounted⟩, hr⟩
  · exact Nat.zero_le 1

/-- The pager of a file of 102 pages of zeros. -/
def zeros_pager : Pager := init_free_page_map (opened_pager (fun _ => 0) (102 * PAGE_SIZE))

theorem init_pager_zeros : init_pager .ok (fun _ => 0) (102 * PAGE_SIZE) = some zeros_pager := rfl

/-- Two indexes with an entry for the same row. -/
def shared_page_ops : List IndexOp :=
  [.init_index_leaf_page 4, .init_index_leaf_page 5, .init_data_page 100,
    .btree_insert 4 insert_apple, .btree_insert 5 insert_apple]

theorem shared_page_proper :
    EachStep Ledger.apply IndexOp.Proper Ledger.empty shared_page_ops := by
  refine ⟨⟨⟨by decide, by decide, by decide⟩, by decide⟩,
    ⟨⟨by decide, by decide, by decide⟩, by decide⟩, ⟨⟨by decide, by decide, by decide⟩, by decide⟩,
    ⟨by decide, by decide, by decide⟩, ⟨by decide, by decide, by decide⟩, trivial⟩

theorem ref_counter_iff_shared :
    Surely (IndexOp.wp fun m _ => m) CountsRight (.start zeros_pager) shared_page_ops
      ↔ EachStep Ledger.apply IndexOp.Counted Ledger.empty shared_page_ops :=
  ref_counter_iff _ zeros_pager shared_page_ops shared_page_proper

/-- The counter of their data page is 1. -/
theorem shared_page_miscounted :
    ¬ Surely (IndexOp.wp fun m _ => m) CountsRight (.start zeros_pager) shared_page_ops := by
  intro hrun
  obtain ⟨hleaf, hleaf', hdata, hinsert, hinsert', -⟩ := shared_page_proper
  obtain ⟨_, h₁, -, hrun⟩ := (agrees_start zeros_pager).meet hleaf trivial hrun
  obtain ⟨_, h₂, -, hrun⟩ := h₁.meet hleaf' trivial hrun
  obtain ⟨_, h₃, -, hrun⟩ := h₂.meet hdata trivial hrun
  obtain ⟨_, h₄, -, hrun⟩ := h₃.meet hinsert trivial hrun
  have hfirst := h₄.insert_counted hinsert'
    (IndexOp.wp_mono _ _ _ _ _ (fun _ h => h.1) hrun)
  revert hfirst
  decide

end PreSeQL.Index
