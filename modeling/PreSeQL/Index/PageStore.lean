/-
  PreSeQL.Index.PageStore — the index pages of a database, in any run.

  `IndexPages` says that every initialised page is `Slotted`, whichever functions were
  called on it.  One primitive call keeps this when it is allowed (`IndexPages.write`,
  `.free_slot`, `.set_sibling`, `.init`), and so do the functions made of such calls:

    • `Keeps.trans`, `Keeps.cons` — calls in a row,
    • `keeps_split_leaf` — the loop of a split, round by round,
    • `keeps_btree_insert`, `keeps_btree_delete` — one operation.
-/
import PreSeQL.Index.Calls

namespace PreSeQL.Index

open PreSeQL.Lib PreSeQL.Lib.Mem PreSeQL.Lib.Run PreSeQL.Db
open IndexStatus

/-! ## §1. Initialised pages. -/

/-- An index page with at most `limit` free ids. -/
def IndexPage (limit : Nat) (m : Mem) (page_no : UInt16) : Prop :=
  ∃ flag P, (flag = PAGE_INDEX_LEAF ∨ flag = PAGE_INDEX_INTERNAL) ∧
    Slotted m (page_no.toNat * PAGE_SIZE) page_no flag P ∧ P.free.length ≤ limit

/-- The initialised pages that can be read are index pages. -/
structure IndexPages (limit : Nat) (pages : Set UInt16) (pager : Pager) : Prop where
  fits : pager.ListFits
  ne_zero : ∀ p ∈ pages, p ≠ 0
  index_page : ∀ p ∈ pages, p.toNat < MAX_PAGES → IndexPage limit pager.mem p

section

variable {limit : Nat} {pages : Set UInt16} {pager pager' : Pager} {page_no : UInt16} {page : Nat}

theorem IndexPage.frame {m m' : Mem} (h : IndexPage limit m page_no) {lo hi : Nat}
    (hsame : m.SameOff lo hi m')
    (hoff : hi ≤ page_no.toNat * PAGE_SIZE ∨ page_no.toNat * PAGE_SIZE + PAGE_SIZE ≤ lo) :
    IndexPage limit m' page_no := by
  obtain ⟨flag, P, hflag, hslotted, hfree⟩ := h
  exact ⟨flag, P, hflag, hslotted.frame hsame (hoff.imp_right .inl), hfree⟩

/-- Page 0 is no index page. -/
theorem IndexPages.header (h : IndexPages limit pages pager)
    (hsame : pager.mem.SameOff 0 PAGE_SIZE pager'.mem) (hfits : pager'.ListFits) :
    IndexPages limit pages pager' :=
  ⟨hfits, h.ne_zero, fun p hp hread =>
    (h.index_page p hp hread).frame hsame (.inl (PAGE_SIZE_le_page (h.ne_zero p hp)))⟩

/-- One page is written, and is an index page afterwards. -/
theorem IndexPages.insert_page (h : IndexPages limit pages pager) (hne : page_no ≠ 0) {m' : Mem}
    (hsame : pager.mem.SameOff (page_no.toNat * PAGE_SIZE) (page_no.toNat * PAGE_SIZE + PAGE_SIZE) m')
    (hpage : page_no.toNat < MAX_PAGES → IndexPage limit m' page_no) :
    IndexPages limit (insert page_no pages) (pager.withMem m') := by
  have hheader := sameHeader_of_sameOff hsame (PAGE_SIZE_le_page hne)
  have hcount : (pager.withMem m').free_page_count = pager.free_page_count :=
    SameHeader.free_page_count hheader
  refine ⟨?_, fun p hp => ?_, fun p hp hread => ?_⟩
  · rw [Pager.ListFits, hcount]
    exact h.fits
  · rcases Set.mem_insert_iff.mp hp with rfl | hp
    · exact hne
    · exact h.ne_zero p hp
  · by_cases heq : p = page_no
    · subst heq
      exact hpage hread
    · -- the other pages lie apart
      have hmem : p ∈ pages := (Set.mem_insert_iff.mp hp).resolve_left heq
      have hapart := pages_apart heq
      exact (h.index_page p hmem hread).frame hsame (hapart.symm)

theorem IndexPages.change (h : IndexPages limit pages pager) (hmem : page_no ∈ pages) {m' : Mem}
    (hsame : pager.mem.SameOff (page_no.toNat * PAGE_SIZE) (page_no.toNat * PAGE_SIZE + PAGE_SIZE) m')
    (hpage : page_no.toNat < MAX_PAGES → IndexPage limit m' page_no) :
    IndexPages limit pages (pager.withMem m') := by
  have hins := h.insert_page (h.ne_zero _ hmem) hsame hpage
  rwa [Set.insert_eq_of_mem hmem] at hins

theorem pager_get_page_of_lt (hread : page_no.toNat < MAX_PAGES) :
    pager_get_page pager page_no = some (page_no.toNat * PAGE_SIZE) :=
  if_neg (Nat.not_le.mpr hread)

theorem pager_get_page_of_not_lt (hread : ¬ page_no.toNat < MAX_PAGES) :
    pager_get_page pager page_no = none :=
  if_pos (Nat.not_lt.mp hread)

/-! ## §2. Single calls. -/

theorem IndexPages.init (h : IndexPages limit pages pager) (hne : page_no ≠ 0) {flag : UInt8}
    (hflag : flag = PAGE_INDEX_LEAF ∨ flag = PAGE_INDEX_INTERNAL) :
    IndexPages limit (insert page_no pages)
      (((init_index_page pager page_no flag).map Prod.snd).getD pager) := by
  cases hinit : init_index_page pager page_no flag with
  | none =>
      -- the page cannot be read, so nothing is said of it
      have hnone := init_index_page_eq_none hinit
      refine ⟨h.fits, fun p hp => ?_, fun p hp hread => ?_⟩
      · rcases Set.mem_insert_iff.mp hp with rfl | hp
        · exact hne
        · exact h.ne_zero p hp
      · rcases Set.mem_insert_iff.mp hp with rfl | hp
        · rw [pager_get_page_of_lt hread] at hnone
          cases hnone
        · exact h.index_page p hp hread
  | some r =>
      obtain ⟨page, pager'⟩ := r
      obtain ⟨hpage, hfilled⟩ := init_index_page_filled hinit
      obtain ⟨-, -, hsame⟩ := init_index_page_packed hinit
      obtain ⟨-, rfl⟩ := pager_get_page_eq_some hpage
      have hpager : pager' = pager.withMem pager'.mem := by
        simp only [init_index_page] at hinit
        cases hget : pager_get_page pager page_no with
        | none => rw [hget] at hinit; cases hinit
        | some a => rw [hget] at hinit; cases hinit; rfl
      rw [hpager] at hsame hfilled
      rw [Option.map_some, Option.getD_some, hpager]
      exact h.insert_page hne hsame fun _ => ⟨flag, _, hflag, hfilled.slotted, Nat.zero_le _⟩

/-- What an allowed write does to its page. -/
theorem IndexPages.write_at (h : IndexPages limit pages pager) {slot : IndexSlotData} {junk : Junk}
    (hallowed : (PageCall.write_index_slot page_no slot junk).Allowed limit pages pager)
    (hread : page_no.toNat < MAX_PAGES) :
    ∃ flag P m', (flag = PAGE_INDEX_LEAF ∨ flag = PAGE_INDEX_INTERNAL) ∧ P.free.length ≤ limit
      ∧ Slotted pager.mem (page_no.toNat * PAGE_SIZE) page_no flag P
      ∧ write_index_slot pager page_no slot junk = pager.withMem m'
      ∧ Slotted m' (page_no.toNat * PAGE_SIZE) page_no flag (P.write slot junk)
      ∧ pager.mem.SameOff (page_no.toNat * PAGE_SIZE) (page_no.toNat * PAGE_SIZE + PAGE_SIZE) m' := by
  obtain ⟨hmem, hfits⟩ := hallowed
  obtain ⟨flag, P, hflag, hslotted, hfree⟩ := h.index_page page_no hmem hread
  have hpage : pager_get_page pager page_no = some (page_no.toNat * PAGE_SIZE) :=
    pager_get_page_of_lt hread
  obtain ⟨m', hwrite, hslotted', hsame⟩ :=
    hslotted.write_fits hpage ((hslotted.fits_iff _).mp (hfits _ hpage)) slot junk
  exact ⟨flag, P, m', hflag, hfree, hslotted, hwrite, hslotted', hsame⟩

/-- A write takes an id from the list or leaves it. -/
theorem SlotPage.write_free_length (P : SlotPage) (slot : IndexSlotData) (junk : Junk) :
    (P.write slot junk).free.length ≤ P.free.length := by
  unfold SlotPage.write
  split
  · exact Nat.le_refl _
  · exact List.length_dropLast ▸ Nat.sub_le _ _

theorem SlotPage.length_le_write (P : SlotPage) (slot : IndexSlotData) (junk : Junk) :
    P.slots.length ≤ (P.write slot junk).slots.length := by
  unfold SlotPage.write
  split
  · exact Nat.le_refl _
  · have hpos : P.position slot.key junk ≤ P.slots.length := find_range_le _ _
    show P.slots.length ≤ (P.slots.insertIdx _ _).length
    rw [List.length_insertIdx_of_le_length hpos]
    exact Nat.le_succ _

theorem IndexPages.write (h : IndexPages limit pages pager) {slot : IndexSlotData} {junk : Junk}
    (hallowed : (PageCall.write_index_slot page_no slot junk).Allowed limit pages pager) :
    IndexPages limit pages (write_index_slot pager page_no slot junk) := by
  by_cases hread : page_no.toNat < MAX_PAGES
  · obtain ⟨flag, P, m', hflag, hfree, -, hwrite, hslotted', hsame⟩ := h.write_at hallowed hread
    rw [hwrite]
    exact h.change hallowed.1 hsame fun _ => ⟨flag, _, hflag, hslotted',
      Nat.le_trans (P.write_free_length slot junk) hfree⟩
  · rw [write_index_slot, pager_get_page_of_not_lt hread]
    exact h

/-- What an allowed free does to its page. -/
theorem IndexPages.free_at (h : IndexPages limit pages pager) (hlimit : limit ≤ 17)
    {slot_id : UInt8}
    (hallowed : (PageCall.free_index_slot page_no slot_id).Allowed limit pages pager)
    (hread : page_no.toNat < MAX_PAGES) :
    ∃ flag P m', (flag = PAGE_INDEX_LEAF ∨ flag = PAGE_INDEX_INTERNAL)
      ∧ (P.free_slot slot_id).free.length ≤ limit
      ∧ Slotted pager.mem (page_no.toNat * PAGE_SIZE) page_no flag P
      ∧ free_index_slot pager page_no slot_id = pager.withMem m'
      ∧ Slotted m' (page_no.toNat * PAGE_SIZE) page_no flag (P.free_slot slot_id)
      ∧ pager.mem.SameOff (page_no.toNat * PAGE_SIZE) (page_no.toNat * PAGE_SIZE + PAGE_SIZE) m' := by
  obtain ⟨hmem, hfits⟩ := hallowed
  obtain ⟨flag, P, hflag, hslotted, hfree⟩ := h.index_page page_no hmem hread
  have hpage : pager_get_page pager page_no = some (page_no.toNat * PAGE_SIZE) :=
    pager_get_page_of_lt hread
  have hlist : slot_id.toNat < P.slots.length → P.find slot_id ≠ none → P.free.length < limit := by
    intro hguard hfind
    have hlt := hfits _ hpage (by rw [hslotted.holds.total]; exact hguard)
      ((hslotted.holds.find_entry_ne_none_iff slot_id).mpr hfind)
    rwa [hslotted.toNat_free_slot_count] at hlt
  obtain ⟨m', hfree', hslotted', hsame⟩ := hslotted.free_fits hpage _ fun hguard hfind =>
    Nat.lt_of_lt_of_le (hlist hguard hfind) (by omega)
  refine ⟨flag, P, m', hflag, ?_, hslotted, hfree', hslotted', hsame.mono (by omega) (by omega)⟩
  unfold SlotPage.free_slot
  split
  next => exact hfree
  next hnone =>
    obtain ⟨hguard, hfind⟩ := not_or.mp hnone
    show (P.free ++ [slot_id]).length ≤ limit
    rw [List.length_append, List.length_singleton]
    exact hlist (Nat.not_le.mp hguard) hfind

theorem IndexPages.free_slot (h : IndexPages limit pages pager) (hlimit : limit ≤ 17)
    {slot_id : UInt8}
    (hallowed : (PageCall.free_index_slot page_no slot_id).Allowed limit pages pager) :
    IndexPages limit pages (free_index_slot pager page_no slot_id) := by
  by_cases hread : page_no.toNat < MAX_PAGES
  · obtain ⟨flag, P, m', hflag, hfree, -, hfree', hslotted', hsame⟩ :=
      h.free_at hlimit hallowed hread
    rw [hfree']
    exact h.change hallowed.1 hsame fun _ => ⟨flag, _, hflag, hslotted', hfree⟩
  · rw [free_index_slot, pager_get_page_of_not_lt hread]
    exact h

/-- Up to 17 free ids the list ends in front of the sibling pointer. -/
theorem IndexPages.set_sibling (h : IndexPages limit pages pager) (hlimit : limit ≤ 17)
    {v : UInt16} (hallowed : (PageCall.set_right_sibling page v).Allowed limit pages pager) :
    IndexPages limit pages
      (pager.withMem (pager.mem.store16 (DBPageHeader.right_sibling_page_id page) v)) := by
  obtain ⟨page_no, hmem, rfl⟩ := hallowed
  have hsame : pager.mem.SameOff (page_no.toNat * PAGE_SIZE + 32) (page_no.toNat * PAGE_SIZE + 34)
      (pager.mem.store16 (DBPageHeader.right_sibling_page_id (page_no.toNat * PAGE_SIZE)) v) :=
    (SameOff.refl _ _ _).store16 (by simp) _ (by simp)
  refine h.change hmem (hsame.mono (by omega) (by simp)) fun hread => ?_
  obtain ⟨flag, P, hflag, hslotted, hfree⟩ := h.index_page page_no hmem hread
  exact ⟨flag, P, hflag, hslotted.frame hsame (.inr (.inr ⟨by omega, by omega⟩)), hfree⟩

/-! ## §3. Cutting the directory. -/

/-- The first `n` slots stay; the others keep their records, and their ids are lost. -/
def SlotPage.cut (P : SlotPage) (n : Nat) : SlotPage := { P with slots := P.slots.take n }

theorem SlotPage.Ok.cut {P : SlotPage} (h : P.Ok) (n : Nat) : (P.cut n).Ok := by
  have hlen : (P.cut n).slots.length ≤ P.slots.length := List.length_take_le' _ _
  have hids : (P.cut n).ids.Sublist P.ids :=
    ((List.take_sublist n P.slots).map Slot.id).append_right P.free
  have hroom := h.room
  have hcounted := h.counted
  refine ⟨h.nodup.sublist hids, fun id hid => h.id_range id (hids.mem hid), h.highest_le, ?_, ?_,
    h.used, h.list, fun s hs => h.inside s (List.mem_of_mem_take hs)⟩
  · show 24 * (P.cut n).slots.length + 23 * P.writes ≤ 3998
    omega
  · show (P.cut n).slots.length + P.frees ≤ P.writes
    omega

/-- A smaller number of slots cuts the directory. -/
theorem Slotted.cut {m : Mem} {flag : UInt8} {P : SlotPage} (h : Slotted m page page_no flag P)
    {n : Nat} (hn : n ≤ P.slots.length) :
    Slotted (m.store8 (DBPageHeader.total_slots page) (UInt8.ofNat n)) page page_no flag
      (P.cut n) := by
  have hsame : m.SameOff (page + 12) (page + 13)
      (m.store8 (DBPageHeader.total_slots page) (UInt8.ofNat n)) :=
    (SameOff.refl _ _ m).store8 (by simp) _ (by simp)
  have hlen : (P.cut n).slots.length = n := List.length_take_of_le hn
  have hlist := h.ok.list
  have h8 : ∀ k < 34, k ≠ 12 →
      (m.store8 (DBPageHeader.total_slots page) (UInt8.ofNat n)).load8 (page + k)
        = m.load8 (page + k) := fun k hk hne => hsame.load8 (by omega)
  have h16 : ∀ k, k + 2 ≤ 12 →
      (m.store8 (DBPageHeader.total_slots page) (UInt8.ofNat n)).load16 (page + k)
        = m.load16 (page + k) := fun k hk => hsame.load16 (by omega)
  refine ⟨(h16 0 (by omega)).trans h.page_id, (h8 4 (by omega) (by omega)).trans h.flag,
    ⟨(h16 6 (by omega)).trans h.holds.free_start, ?_, ?_, fun s hs old => ?_, ?_⟩,
    (h16 8 (by omega)).trans h.free_end, (h16 10 (by omega)).trans h.free_total,
    (h8 13 (by omega) (by omega)).trans h.highest_slot,
    (h8 14 (by omega) (by omega)).trans h.free_slot_count, ?_, h.ok.cut n⟩
  · rw [hlen, load8_store8_same]
  · -- the entries in front stay as they are
    rw [hlen, entry_list_of_sameOff hsame (Or.inr (by simp))]
    have htake : entry_list m (directory page) n = (entry_list m (directory page) P.slots.length).take n := by
      rw [entry_list, entry_list, ← List.map_take, List.take_range, Nat.min_eq_left hn]
    rw [htake, h.holds.entries, ← List.map_take]
    rfl
  · rw [read_record_of_sameOff hsame (Or.inr (by simp; omega))]
    exact h.holds.records s (List.mem_of_mem_take hs) old
  · have hlt := h.holds.length_lt
    omega
  · rw [bytes_congr _ _ fun i h₁ h₂ => hsame i (by
      simp only [DBPageHeader.free_slot_list] at h₁ h₂
      omega)]
    exact h.free_slot_list

/-! ## §4. The number of slots. -/

/-- A field of a page lies apart from every other page. -/
theorem field_apart {p q : UInt16} (hne : p ≠ q) {k n : Nat} (hk : k + n ≤ PAGE_SIZE) :
    p.toNat * PAGE_SIZE + k + n ≤ q.toNat * PAGE_SIZE
      ∨ q.toNat * PAGE_SIZE + PAGE_SIZE ≤ p.toNat * PAGE_SIZE + k := by
  rcases pages_apart hne with hbelow | habove
  · left
    omega
  · right
    omega

/-- A write leaves every page as many slots as it had, or more. -/
theorem IndexPages.write_total (h : IndexPages limit pages pager) {slot : IndexSlotData}
    {junk : Junk} (hallowed : (PageCall.write_index_slot page_no slot junk).Allowed limit pages pager)
    {q : UInt16} {n : Nat} (hn : n ≤ total_slots pager.mem (q.toNat * PAGE_SIZE)) :
    n ≤ total_slots (write_index_slot pager page_no slot junk).mem (q.toNat * PAGE_SIZE) := by
  by_cases hread : page_no.toNat < MAX_PAGES
  · obtain ⟨flag, P, m', -, -, hslotted, hwrite, hslotted', hsame⟩ := h.write_at hallowed hread
    rw [hwrite, Pager.withMem_mem]
    by_cases heq : q = page_no
    · subst heq
      rw [hslotted.holds.total] at hn
      rw [hslotted'.holds.total]
      exact Nat.le_trans hn (P.length_le_write slot junk)
    · have hfield : m'.load8 (DBPageHeader.total_slots (q.toNat * PAGE_SIZE))
          = pager.mem.load8 (DBPageHeader.total_slots (q.toNat * PAGE_SIZE)) :=
        hsame.load8 (field_apart heq (by decide))
      rw [total_slots, hfield]
      exact hn
  · rw [write_index_slot, pager_get_page_of_not_lt hread]
    exact hn

/-- A free of an id from `n` on leaves `n` slots where there were as many. -/
theorem IndexPages.free_total (h : IndexPages limit pages pager) (hlimit : limit ≤ 17)
    {slot_id : UInt8}
    (hallowed : (PageCall.free_index_slot page_no slot_id).Allowed limit pages pager) {n : Nat}
    (hid : n ≤ slot_id.toNat) (hn : n ≤ total_slots pager.mem (page_no.toNat * PAGE_SIZE)) :
    n ≤ total_slots (free_index_slot pager page_no slot_id).mem (page_no.toNat * PAGE_SIZE) := by
  by_cases hread : page_no.toNat < MAX_PAGES
  · obtain ⟨flag, P, m', -, -, hslotted, hfree, hslotted', -⟩ := h.free_at hlimit hallowed hread
    rw [hslotted.holds.total] at hn
    rw [hfree, Pager.withMem_mem, hslotted'.holds.total]
    unfold SlotPage.free_slot
    split
    next => exact hn
    next hnone =>
      -- the guard let the id pass, so there is a slot more than its number
      obtain ⟨hguard, hfind⟩ := not_or.mp hnone
      obtain ⟨s, hfind⟩ := Option.ne_none_iff_exists'.mp hfind
      obtain ⟨l, l', hslots, hremove, -⟩ := SlotPage.remove_slots hfind
      have hlen : P.slots.length = (P.remove slot_id).slots.length + 1 := by
        rw [hslots, hremove, List.length_append, List.length_append, List.length_cons]
        omega
      omega
  · rw [free_index_slot, pager_get_page_of_not_lt hread]
    exact hn

/-! ## §5. Functions made of calls. -/

/-- The initialised pages are index pages wherever a call is made. -/
def Along (limit : Nat) (pages : Set UInt16) : Calls → Prop
  | [] => True
  | (pager, call) :: calls => IndexPages limit pages pager ∧ Along limit (call.opens pages) calls

variable {calls calls' : Calls} {pager₁ pager₂ : Pager}

theorem along_append : ∀ pages, Along limit pages (calls ++ calls') ↔
    Along limit pages calls ∧ Along limit (opened pages calls) calls' := by
  induction calls with
  | nil => intro pages; simp [Along, opened]
  | cons call calls ih =>
      intro pages
      rw [List.cons_append, Along, ih, Along, opened, and_assoc]

/-- The calls lead to the pager behind the function.  If they are allowed, the function
keeps the initialised pages index pages, and adds those it initialises. -/
structure Keeps (limit : Nat) (pager : Pager) (calls : Calls) (pager' : Pager) : Prop where
  replays : Replays pager calls pager'
  index_pages : ∀ pages, IndexPages limit pages pager → Allowed limit pages calls →
    Along limit pages calls ∧ IndexPages limit (opened pages calls) pager'

theorem Keeps.refl : Keeps limit pager [] pager := ⟨rfl, fun _ h _ => ⟨trivial, h⟩⟩

theorem Keeps.trans (h : Keeps limit pager calls pager₁) (h' : Keeps limit pager₁ calls' pager₂) :
    Keeps limit pager (calls ++ calls') pager₂ := by
  refine ⟨h.replays.trans h'.replays, ?_⟩
  intro pages hpages hallowed
  obtain ⟨hfirst, hrest⟩ := (allowed_append pages).mp hallowed
  obtain ⟨halong, hpages₁⟩ := h.index_pages pages hpages hfirst
  obtain ⟨halong', hpages₂⟩ := h'.index_pages _ hpages₁ hrest
  rw [opened_append]
  exact ⟨(along_append pages).mpr ⟨halong, halong'⟩, hpages₂⟩

/-- One call, then the others. -/
theorem Keeps.cons {at_pager : Pager} {call : PageCall}
    (h : Keeps limit pager [(at_pager, call)] pager₁) (h' : Keeps limit pager₁ calls pager₂) :
    Keeps limit pager ((at_pager, call) :: calls) pager₂ := h.trans h'

/-- A single call. -/
theorem keeps_call (call : PageCall)
    (h : ∀ pages, IndexPages limit pages pager → call.Allowed limit pages pager →
      IndexPages limit (call.opens pages) (call.run pager)) :
    Keeps limit pager [(pager, call)] (call.run pager) :=
  ⟨⟨rfl, rfl⟩, fun pages hpages hallowed => ⟨⟨hpages, trivial⟩, h pages hpages hallowed.1⟩⟩

theorem keeps_init (page_no : UInt16) (flag : UInt8) :
    Keeps limit pager [(pager, .init_index_page page_no flag)]
      (((init_index_page pager page_no flag).map Prod.snd).getD pager) :=
  keeps_call (.init_index_page page_no flag) fun _ h hallowed => h.init hallowed.1 hallowed.2

theorem keeps_write (page_no : UInt16) (slot : IndexSlotData) (junk : Junk) :
    Keeps limit pager [(pager, .write_index_slot page_no slot junk)]
      (write_index_slot pager page_no slot junk) :=
  keeps_call (.write_index_slot page_no slot junk) fun _ h hallowed => h.write hallowed

theorem keeps_free (hlimit : limit ≤ 17) (page_no : UInt16) (slot_id : UInt8) :
    Keeps limit pager [(pager, .free_index_slot page_no slot_id)]
      (free_index_slot pager page_no slot_id) :=
  keeps_call (.free_index_slot page_no slot_id) fun _ h hallowed => h.free_slot hlimit hallowed

theorem keeps_set_sibling (hlimit : limit ≤ 17) (page : Nat) (v : UInt16) :
    Keeps limit pager [(pager, .set_right_sibling page v)]
      (pager.withMem (pager.mem.store16 (DBPageHeader.right_sibling_page_id page) v)) :=
  keeps_call (.set_right_sibling page v) fun _ h hallowed => h.set_sibling hlimit hallowed

theorem keeps_get_free_page :
    Keeps limit pager [(pager, .get_free_page)] (get_free_page pager).2 :=
  keeps_call .get_free_page fun _ h _ =>
    h.header (get_free_page_frame pager h.fits) (get_free_page_header pager h.fits).2

theorem keeps_mark_page_free (page_no : UInt16) :
    Keeps limit pager [(pager, .mark_page_free page_no)] (mark_page_free pager page_no) :=
  keeps_call (.mark_page_free page_no) fun _ h _ => h.header (mark_page_free_frame pager page_no)
    (mark_page_free_header pager page_no h.fits).2

/-! ### Splitting a leaf. -/

theorem keeps_move_slot (hlimit : limit ≤ 17) (leaf_page_id new_leaf_id : UInt16) (junk : Junk)
    (i : Nat) :
    Keeps limit pager (move_slot_calls leaf_page_id new_leaf_id junk pager i)
      (move_slot leaf_page_id new_leaf_id junk pager i) :=
  (keeps_write _ _ _).cons (keeps_free hlimit _ _)

/-- A round with an id from `n` on leaves `n` slots on the old leaf where there were as
many. -/
theorem move_slot_total (hlimit : limit ≤ 17) (h : IndexPages limit pages pager)
    {leaf_page_id new_leaf_id : UInt16} {junk : Junk} {i n : Nat} (hi : n ≤ i) (hbyte : i < 256)
    (hallowed : Allowed limit pages (move_slot_calls leaf_page_id new_leaf_id junk pager i))
    (hn : n ≤ total_slots pager.mem (leaf_page_id.toNat * PAGE_SIZE)) :
    n ≤ total_slots (move_slot leaf_page_id new_leaf_id junk pager i).mem
      (leaf_page_id.toNat * PAGE_SIZE) := by
  obtain ⟨hwrite, hfree, -⟩ := hallowed
  have hid : n ≤ (UInt8.ofNat i).toNat := by
    rw [UInt8.toNat_ofNat', Nat.mod_eq_of_lt hbyte]
    exact hi
  exact (h.write hwrite).free_total hlimit hfree hid (h.write_total hwrite hn)

theorem keeps_move_slots (hlimit : limit ≤ 17) (leaf_page_id new_leaf_id : UInt16) (junk : Junk)
    (rest : List Nat) : ∀ pager,
    Keeps limit pager (move_slots_calls leaf_page_id new_leaf_id junk pager rest)
      (rest.foldl (move_slot leaf_page_id new_leaf_id junk) pager) := by
  induction rest with
  | nil => intro pager; exact .refl
  | cons i rest ih => intro pager; exact (keeps_move_slot hlimit _ _ _ _).trans (ih _)

theorem opened_move_slots (leaf_page_id new_leaf_id : UInt16) (junk : Junk) (rest : List Nat) :
    ∀ pager, opened pages (move_slots_calls leaf_page_id new_leaf_id junk pager rest) = pages := by
  induction rest with
  | nil => intro pager; rfl
  | cons i rest ih =>
      intro pager
      rw [move_slots_calls, opened_append]
      exact ih _

theorem move_slots_total (hlimit : limit ≤ 17) {leaf_page_id new_leaf_id : UInt16} {junk : Junk}
    {n : Nat} (rest : List Nat) : ∀ pager, IndexPages limit pages pager →
      (∀ i ∈ rest, n ≤ i ∧ i < 256) →
      Allowed limit pages (move_slots_calls leaf_page_id new_leaf_id junk pager rest) →
      n ≤ total_slots pager.mem (leaf_page_id.toNat * PAGE_SIZE) →
      n ≤ total_slots (rest.foldl (move_slot leaf_page_id new_leaf_id junk) pager).mem
        (leaf_page_id.toNat * PAGE_SIZE) := by
  induction rest with
  | nil => intro pager _ _ _ hn; exact hn
  | cons i rest ih =>
      intro pager h hrange hallowed hn
      obtain ⟨hfirst, hrest⟩ := (allowed_append pages).mp hallowed
      obtain ⟨hi, hbyte⟩ := hrange i List.mem_cons_self
      obtain ⟨-, hpages⟩ :=
        (keeps_move_slot hlimit leaf_page_id new_leaf_id junk i).index_pages pages h hfirst
      exact ih _ hpages (fun j hj => hrange j (List.mem_cons_of_mem _ hj)) hrest
        (move_slot_total hlimit h hi hbyte hfirst hn)

theorem IndexPages.cut (h : IndexPages limit pages pager) (hmem : page_no ∈ pages) {n : Nat}
    (hn : n ≤ total_slots pager.mem (page_no.toNat * PAGE_SIZE)) :
    IndexPages limit pages (pager.withMem
      (pager.mem.store8 (DBPageHeader.total_slots (page_no.toNat * PAGE_SIZE)) (UInt8.ofNat n))) := by
  have hsame : pager.mem.SameOff (page_no.toNat * PAGE_SIZE)
      (page_no.toNat * PAGE_SIZE + PAGE_SIZE)
      (pager.mem.store8 (DBPageHeader.total_slots (page_no.toNat * PAGE_SIZE)) (UInt8.ofNat n)) :=
    (SameOff.refl _ _ _).store8 (by simp) _ (by simp)
  refine h.change hmem hsame fun hread => ?_
  obtain ⟨flag, P, hflag, hslotted, hfree⟩ := h.index_page page_no hmem hread
  rw [hslotted.holds.total] at hn
  exact ⟨flag, P.cut n, hflag, hslotted.cut hn, hfree⟩

theorem total_slots_lt (m : Mem) (page : Nat) : total_slots m page < 256 :=
  UInt8.toNat_lt _

/-- A page is known by its address. -/
theorem mem_of_set_right_sibling {at_pager : Pager} {v : UInt16}
    (h : (PageCall.set_right_sibling (page_no.toNat * PAGE_SIZE) v).Allowed limit pages at_pager) :
    page_no ∈ pages := by
  obtain ⟨p, hp, haddress⟩ := h
  have hnat : page_no.toNat = p.toNat := Nat.eq_of_mul_eq_mul_right (by decide) haddress
  exact UInt16.toNat_inj.mp hnat ▸ hp

theorem keeps_split_slots (hlimit : limit ≤ 17) (leaf_page_id new_leaf_id : UInt16) (new_leaf : Nat)
    (junk : Junk) :
    Keeps limit pager
      (split_slots_calls pager leaf_page_id new_leaf_id (leaf_page_id.toNat * PAGE_SIZE) new_leaf junk)
      (split_slots pager leaf_page_id new_leaf_id (leaf_page_id.toNat * PAGE_SIZE) new_leaf junk) := by
  have hmoved (ids : List Nat) (pager : Pager) : Keeps limit pager
      (move_slots_calls leaf_page_id new_leaf_id junk pager ids)
      (ids.foldl (move_slot leaf_page_id new_leaf_id junk) pager) :=
    keeps_move_slots hlimit leaf_page_id new_leaf_id junk ids pager
  refine ⟨⟨rfl, rfl, (hmoved _ _).replays.trans ⟨rfl, rfl⟩⟩, ?_⟩
  intro pages h hallowed
  obtain ⟨hnew, hleaf, hmoves⟩ := hallowed
  obtain ⟨hmoves, -⟩ := (allowed_append pages).mp hmoves
  have hmem : leaf_page_id ∈ pages := mem_of_set_right_sibling hleaf
  have h₁ := h.set_sibling hlimit hnew
  have h₂ := h₁.set_sibling hlimit hleaf
  obtain ⟨halong, h₃⟩ := (hmoved _ _).index_pages pages h₂ hmoves
  rw [opened_move_slots] at h₃
  -- a slot is taken out for every id from the middle on, so half of them stay
  have htotal := move_slots_total hlimit (List.range' _ _) _ h₂ (fun i hi => ?_) hmoves
    (Nat.div_le_self _ 2)
  · have hopened : opened pages (split_slots_calls pager leaf_page_id new_leaf_id
        (leaf_page_id.toNat * PAGE_SIZE) new_leaf junk) = pages := by
      refine (opened_append pages).trans ?_
      exact opened_move_slots _ _ _ _ _
    rw [hopened]
    refine ⟨⟨h, h₁, (along_append pages).mpr ⟨halong, ?_⟩⟩, h₃.cut hmem htotal⟩
    rw [opened_move_slots]
    exact ⟨h₃, trivial⟩
  · rw [List.mem_range'_1] at hi
    refine ⟨hi.1, Nat.lt_of_lt_of_le hi.2 ?_⟩
    have hlt := total_slots_lt ((pager.mem.store16 (DBPageHeader.right_sibling_page_id new_leaf)
      (pager.mem.load16 (DBPageHeader.right_sibling_page_id (leaf_page_id.toNat * PAGE_SIZE)))).store16
      (DBPageHeader.right_sibling_page_id (leaf_page_id.toNat * PAGE_SIZE)) new_leaf_id)
      (leaf_page_id.toNat * PAGE_SIZE)
    omega

theorem keeps_split_leaf (hlimit : limit ≤ 17) (leaf_page_id : UInt16) (junk : Junk) :
    Keeps limit pager (btree_split_leaf_calls pager leaf_page_id junk)
      (btree_split_leaf pager leaf_page_id junk).2.2 := by
  unfold btree_split_leaf_calls btree_split_leaf
  cases hpage : pager_get_page pager leaf_page_id with
  | none => exact .refl
  | some leaf_page =>
      obtain ⟨-, rfl⟩ := pager_get_page_eq_some hpage
      by_cases hleaf : IS_LEAF pager.mem (leaf_page_id.toNat * PAGE_SIZE) = true
      · have hfree : Keeps limit pager _ (get_free_page pager).2 := keeps_get_free_page
        rcases hnext : get_free_page pager with ⟨new_leaf_id, pager₁⟩
        rw [hnext] at hfree
        simp only [hleaf, not_true_eq_false, if_false]
        by_cases h0 : new_leaf_id = 0
        · simp only [if_pos h0]
          exact hfree
        · simp only [if_neg h0]
          have hinit : Keeps limit pager₁ _ _ := keeps_init new_leaf_id PAGE_INDEX_LEAF
          cases hnew : init_index_leaf_page pager₁ new_leaf_id with
          | none =>
              rw [show init_index_page pager₁ new_leaf_id PAGE_INDEX_LEAF = none from hnew] at hinit
              exact hfree.trans (hinit.cons (keeps_mark_page_free _))
          | some r =>
              obtain ⟨new_leaf, pager₂⟩ := r
              rw [show init_index_page pager₁ new_leaf_id PAGE_INDEX_LEAF = some (new_leaf, pager₂)
                from hnew] at hinit
              exact hfree.trans (hinit.cons (keeps_split_slots hlimit _ _ _ _))
      · simp only [if_pos hleaf]
        exact .refl

/-! ### Insertion. -/

theorem keeps_new_root_slots (new_root_id left_page_id new_page_id : UInt16) (junk : Junk) :
    Keeps limit pager (new_root_slots_calls pager new_root_id left_page_id new_page_id junk)
      (new_root_slots pager new_root_id left_page_id new_page_id junk) :=
  (keeps_write _ _ _).cons (keeps_write _ _ _)

theorem keeps_update_parent (root_page_id : UInt16) (page : Nat) (new_page_id : UInt16)
    (junk : Junk) :
    Keeps limit pager (update_parent_calls pager root_page_id page new_page_id junk)
      (update_parent pager root_page_id page new_page_id junk).2.2 := by
  unfold update_parent_calls update_parent
  by_cases hroot : header_page_id pager.mem page = root_page_id
  · have hfree : Keeps limit pager _ (get_free_page pager).2 := keeps_get_free_page
    rcases hnext : get_free_page pager with ⟨new_root_id, pager₁⟩
    rw [hnext] at hfree
    simp only [if_pos hroot]
    by_cases h0 : new_root_id = 0
    · simp only [if_pos h0]
      exact hfree
    · simp only [if_neg h0]
      exact hfree.trans ((keeps_init _ _).cons (keeps_new_root_slots _ _ _ _))
  · simp only [if_neg hroot]
    exact .refl

theorem keeps_insert_leaf (hlimit : limit ≤ 17) (root_page_id : UInt16) (page : Nat)
    (key : List UInt8) (data_page_id : UInt16) (data_slot_id : UInt8) (junk : Junk) :
    Keeps limit pager
      (insert_leaf_calls pager root_page_id page key data_page_id data_slot_id junk)
      (insert_leaf pager root_page_id page key data_page_id data_slot_id junk).2.2 := by
  unfold insert_leaf_calls insert_leaf
  simp only
  refine (keeps_write _ _ _).cons ?_
  split
  · -- the leaf is split
    generalize write_index_slot pager _ _ _ = pager₁
    have hsplit : Keeps limit pager₁ _ _ := keeps_split_leaf hlimit (header_page_id pager₁.mem page)
      (junk.call 2)
    rcases hresult : btree_split_leaf pager₁ (header_page_id pager₁.mem page) (junk.call 2)
      with ⟨status, new_page_id, pager₂⟩
    rw [hresult] at hsplit
    refine hsplit.trans ?_
    by_cases hok : status ≠ PSQL_STATUS_OK
    · simp only [if_pos hok]
      exact .refl
    · simp only [if_neg hok]
      exact keeps_update_parent _ _ _ _
  · exact .refl

theorem keeps_create_root (root_page_id : UInt16) :
    Keeps limit pager (create_root_calls pager root_page_id) (create_root pager root_page_id).2 := by
  unfold create_root_calls create_root
  by_cases hroot : root_page_id = 0
  · have hfree : Keeps limit pager _ (get_free_page pager).2 := keeps_get_free_page
    rcases hnext : get_free_page pager with ⟨new_root_id, pager₁⟩
    rw [hnext] at hfree
    simp only [if_pos hroot]
    by_cases h0 : new_root_id = 0
    · simp only [if_pos h0]
      exact hfree
    · simp only [if_neg h0]
      exact hfree.trans (keeps_init _ _)
  · simp only [if_neg hroot]
    exact .refl

/-- The calls of an insertion, up to the point where a walk does not return. -/
theorem keeps_btree_insert (hlimit : limit ≤ 17) (fuel : Nat) (root_page_id : UInt16)
    (key : List UInt8) (data_page_id : UInt16) (data_slot_id : UInt8) (junk : Junk) :
    ∃ pager', Keeps limit pager
        (btree_insert_calls fuel pager root_page_id key data_page_id data_slot_id junk) pager'
      ∧ ∀ r ∈ btree_insert fuel pager root_page_id key data_page_id data_slot_id junk,
        r.2.2 = pager' := by
  unfold btree_insert btree_insert_calls
  by_cases hlong : key.length > MAX_DATA_PER_INDEX_SLOT
  · simp only [if_pos hlong, Option.mem_some_iff, forall_eq']
    exact ⟨pager, .refl, rfl⟩
  · simp only [if_neg hlong]
    have hcreate : Keeps limit pager _ _ := keeps_create_root root_page_id
    rcases hroot : create_root pager root_page_id with ⟨root, pager₁⟩
    rw [hroot] at hcreate
    simp only
    by_cases h0 : root = 0
    · simp only [if_pos h0, Option.mem_some_iff, forall_eq']
      exact ⟨pager₁, hcreate.trans .refl, rfl⟩
    · simp only [if_neg h0]
      cases hpage : pager_get_page pager₁ root with
      | none =>
          simp only [Option.mem_some_iff, forall_eq']
          exact ⟨pager₁, hcreate.trans .refl, rfl⟩
      | some page =>
          simp only
          cases hleaf : find_leaf fuel pager₁ page key (junk.call 0) with
          | none =>
              refine ⟨pager₁, hcreate.trans .refl, fun r hr => ?_⟩
              cases hr
          | some leaf =>
              simp only [Option.mem_some_iff, forall_eq']
              exact ⟨_, hcreate.trans (keeps_insert_leaf hlimit _ _ _ _ _ _), rfl⟩

theorem keeps_btree_init (catalog_add_table : IndexStatus) :
    Keeps limit pager (btree_init_calls catalog_add_table pager)
      (btree_init catalog_add_table pager).2.2 := by
  unfold btree_init_calls btree_init
  have hfree : Keeps limit pager _ (get_free_page pager).2 := keeps_get_free_page
  rcases hnext : get_free_page pager with ⟨root_page_id, pager₁⟩
  rw [hnext] at hfree
  simp only
  by_cases h0 : root_page_id = 0
  · simp only [if_pos h0]
    exact hfree
  · simp only [if_neg h0]
    have hinit : Keeps limit pager₁ _ _ := keeps_init root_page_id PAGE_INDEX_LEAF
    cases hnew : init_index_leaf_page pager₁ root_page_id with
    | none =>
        rw [show init_index_page pager₁ root_page_id PAGE_INDEX_LEAF = none from hnew] at hinit
        exact hfree.trans (hinit.trans (keeps_mark_page_free _))
    | some r =>
        rw [show init_index_page pager₁ root_page_id PAGE_INDEX_LEAF = some r from hnew] at hinit
        by_cases hcatalog : catalog_add_table ≠ PSQL_STATUS_OK
        · simp only [if_pos hcatalog]
          exact hfree.trans (hinit.trans (keeps_mark_page_free _))
        · simp only [if_neg hcatalog]
          exact hfree.trans hinit

/-! ### Deletion. -/

theorem keeps_delete_entry (hlimit : limit ≤ 17) (page : Nat) (key : List UInt8) (junk : Junk) :
    Keeps limit pager (delete_entry_calls pager page key junk)
      (delete_entry pager page key junk) := by
  unfold delete_entry_calls delete_entry
  cases (List.range (total_slots pager.mem page)).find? fun i =>
      compare_keys key (slot_key pager page i (junk [i])) key.length = 0 with
  | none => exact .refl
  | some i => exact keeps_free hlimit _ _

theorem keeps_borrow_slot (hlimit : limit ≤ 17) (parent page sibling : Nat)
    (parent_slot : IndexSlotData) (junk : Junk) :
    Keeps limit pager (borrow_slot_calls pager parent page sibling parent_slot junk)
      (borrow_slot pager parent page sibling parent_slot junk) :=
  (keeps_write _ _ _).cons ((keeps_free hlimit _ _).cons (keeps_write _ _ _))

theorem keeps_merge_slots (page sibling : Nat) (junk : Junk) (rounds : Nat) : ∀ i pager,
    Keeps limit pager (merge_slots_calls page sibling junk rounds i pager)
      (merge_slots page sibling junk rounds i pager) := by
  induction rounds with
  | zero => intro i pager; exact .refl
  | succ rounds ih =>
      intro i pager
      rw [merge_slots_calls, merge_slots]
      split
      · exact (keeps_write _ _ _).cons (ih _ _)
      · exact .refl

theorem keeps_merge_sibling (hlimit : limit ≤ 17) (parent parent_idx page sibling : Nat)
    (junk : Junk) :
    Keeps limit pager (merge_sibling_calls pager parent parent_idx page sibling junk)
      (merge_sibling pager parent parent_idx page sibling junk) := by
  unfold merge_sibling_calls merge_sibling
  refine (keeps_merge_slots page sibling junk 256 0 pager).trans ?_
  exact (keeps_set_sibling hlimit page _).cons
    ((keeps_free hlimit _ _).cons (keeps_mark_page_free _))

theorem keeps_rebalance (hlimit : limit ≤ 17) (parent parent_idx page : Nat) (junk : Junk) :
    ∃ pager', Keeps limit pager (rebalance_calls pager parent parent_idx page junk) pager'
      ∧ ∀ pager₁ ∈ rebalance pager parent parent_idx page junk, pager₁ = pager' := by
  simp only [rebalance, rebalance_calls]
  cases hsibling : pager_get_page pager (read_index_slot pager (header_page_id pager.mem parent)
    (UInt8.ofNat parent_idx) (junk [0])).next_page_id with
  | none =>
      refine ⟨pager, .refl, fun pager₁ hr => ?_⟩
      cases hr
  | some sibling =>
      simp only
      by_cases hborrow : 10 * USED_SPACE pager.mem sibling > MIN_THRESHOLD_10
      · simp only [if_pos hborrow, Option.mem_some_iff, forall_eq']
        exact ⟨_, keeps_borrow_slot hlimit _ _ _ _ _, rfl⟩
      · simp only [if_neg hborrow, Option.mem_some_iff, forall_eq']
        exact ⟨_, keeps_merge_sibling hlimit _ _ _ _ _, rfl⟩

theorem keeps_delete_leaf (hlimit : limit ≤ 17) (parent : Option Nat) (parent_idx page : Nat)
    (key : List UInt8) (junk : Junk) :
    ∃ pager', Keeps limit pager (delete_leaf_calls pager parent parent_idx page key junk) pager'
      ∧ ∀ r ∈ delete_leaf pager parent parent_idx page key junk, r.2 = pager' := by
  have hdelete : Keeps limit pager _ _ := keeps_delete_entry hlimit page key (junk.call 0)
  simp only [delete_leaf, delete_leaf_calls]
  cases parent with
  | none =>
      simp only [Option.mem_some_iff, forall_eq']
      exact ⟨_, hdelete.trans .refl, rfl⟩
  | some parent =>
      simp only
      by_cases hunder : 10 * USED_SPACE (delete_entry pager page key (junk.call 0)).mem page
        < MIN_THRESHOLD_10
      · simp only [if_pos hunder]
        obtain ⟨pager', hkeeps, hresult⟩ := @keeps_rebalance limit
          (delete_entry pager page key (junk.call 0)) hlimit parent parent_idx page
          (junk.call 1)
        refine ⟨pager', hdelete.trans hkeeps, fun r hr => ?_⟩
        obtain ⟨pager₁, hrebalance, heq⟩ := Option.map_eq_some_iff.mp hr
        subst heq
        exact hresult pager₁ hrebalance
      · simp only [if_neg hunder, Option.mem_some_iff, forall_eq']
        exact ⟨_, hdelete.trans .refl, rfl⟩

/-- The calls of a deletion, up to the point where a walk does not return or a `NULL` page
is used. -/
theorem keeps_btree_delete (hlimit : limit ≤ 17) (fuel : Nat) (root_page_id : UInt16)
    (key : List UInt8) (junk : Junk) :
    ∃ pager', Keeps limit pager (btree_delete_calls fuel pager root_page_id key junk) pager'
      ∧ ∀ r ∈ btree_delete fuel pager root_page_id key junk, r.2 = pager' := by
  unfold btree_delete btree_delete_calls
  by_cases hlong : key.length > MAX_DATA_PER_INDEX_SLOT
  · simp only [if_pos hlong, Option.mem_some_iff, forall_eq']
    exact ⟨pager, .refl, rfl⟩
  · simp only [if_neg hlong]
    cases hpage : pager_get_page pager root_page_id with
    | none =>
        simp only [Option.mem_some_iff, forall_eq']
        exact ⟨pager, .refl, rfl⟩
    | some page =>
        simp only
        cases hleaf : find_leaf_parent fuel pager none 0 page key (junk.call 0) with
        | none =>
            refine ⟨pager, .refl, fun r hr => ?_⟩
            cases hr
        | some found =>
            obtain ⟨parent, parent_idx, leaf⟩ := found
            exact keeps_delete_leaf hlimit parent parent_idx leaf key (junk.call 1)

end

end PreSeQL.Index
