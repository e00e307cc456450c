/-
  PreSeQL.Index.FreeSlots — the list of free slot ids in the page header.

  `free_slot_list` has 16 places and nothing keeps `free_slot_count` below that.  The
  17th free id goes to the byte behind the list, the 18th and 19th to
  `right_sibling_page_id`.

    • `IndexPages.list_safe` — a call that finds fewer than 16 free ids,
    • `free_slot_list_iff` — every call of a run,
    • `eighteenth_free_overwrites` — the sibling pointer overwritten.
-/
import PreSeQL.Index.StoreRun

namespace PreSeQL.Index

open PreSeQL.Lib PreSeQL.Lib.Mem PreSeQL.Lib.Run PreSeQL.Db

/-! ## §1. Accesses to the list. -/

/-- The index at which the call reads or writes `header.free_slot_list`. -/
def PageCall.list_index (pager : Pager) : PageCall → Option Nat
  | .write_index_slot page_no _ _ =>
      match pager_get_page pager page_no with
      | none => none
      | some page =>
          let free_slot_count := pager.mem.load8 (DBPageHeader.free_slot_count page)
          if 10 * USED_SPACE pager.mem page ≥ FULL_THRESHOLD_10 then none
          -- `free_slot_list[free_slot_count - 1]` in `find_empty_index_slot`
          else if free_slot_count > 0 then some (free_slot_count.toNat - 1)
          else none
  | .free_index_slot page_no slot_id =>
      match pager_get_page pager page_no with
      | none => none
      | some page =>
          if total_slots pager.mem page ≤ slot_id.toNat then none
          -- `free_slot_list[free_slot_count++]`
          else (find_entry pager.mem page slot_id).map fun _ =>
            (pager.mem.load8 (DBPageHeader.free_slot_count page)).toNat
  | _ => none

/-- The header fields other than `total_slots`, `free_slot_count`, `free_slot_list` and
`free_total` are the same. -/
structure SameFields (m m' : Mem) (page : Nat) : Prop where
  page_id : m'.load16 (DBPageHeader.page_id page) = m.load16 (DBPageHeader.page_id page)
  ref_counter : m'.load16 (DBPageHeader.ref_counter page) = m.load16 (DBPageHeader.ref_counter page)
  flag : m'.load8 (DBPageHeader.flag page) = m.load8 (DBPageHeader.flag page)
  free_start : m'.load16 (DBPageHeader.free_start page) = m.load16 (DBPageHeader.free_start page)
  free_end : m'.load16 (DBPageHeader.free_end page) = m.load16 (DBPageHeader.free_end page)
  highest_slot :
    m'.load8 (DBPageHeader.highest_slot page) = m.load8 (DBPageHeader.highest_slot page)
  right_sibling_page_id : m'.load16 (DBPageHeader.right_sibling_page_id page)
    = m.load16 (DBPageHeader.right_sibling_page_id page)

/-- The call stays within the list, and a free keeps the other fields of the header. -/
structure PageCall.ListSafe (pager : Pager) (call : PageCall) : Prop where
  in_bounds : ∀ i ∈ call.list_index pager, i < FREE_SLOT_LIST_SIZE
  fields : ∀ page_no slot_id page, call = .free_index_slot page_no slot_id →
    pager_get_page pager page_no = some page →
      SameFields pager.mem (Index.free_index_slot pager page_no slot_id).mem page

/-- So do all calls of the operation. -/
def StoreOp.ListSafe (s : Store) (op : StoreOp) : Prop :=
  ∀ c ∈ op.calls s.pager, c.2.ListSafe c.1

/-! ## §2. What a free leaves of the header. -/

section

variable {pager : Pager} {page : Nat} {page_no : UInt16} {flag : UInt8} {P : SlotPage}

/-- Only the place behind the last free id is written between the counters and the
directory. -/
theorem uncount_slot_between {m : Mem} (slot_id : UInt8) (entry : Nat) {i : Nat}
    (hlo : page + 15 + (m.load8 (DBPageHeader.free_slot_count page)).toNat < i)
    (hhi : i < page + 68) : (uncount_slot m page slot_id entry) i = m i := by
  simp only [DBPageHeader.free_slot_count] at hlo
  simp only [uncount_slot, free_slot_count_store_total]
  rw [store16, store, fill_outside _ _ (by simp; omega), store8, store,
    fill_outside _ _ (by simp; omega), store8, store, fill_outside _ _ (by simp; omega), store8,
    store, fill_outside _ _ (by simp; omega)]

theorem Slotted.free_slot_between (h : Slotted pager.mem page page_no flag P)
    (hpage : pager_get_page pager page_no = some page) (slot_id : UInt8) {i : Nat}
    (hlo : page + 15 + P.free.length < i) (hhi : i < page + 68) :
    (free_index_slot pager page_no slot_id).mem i = pager.mem i := by
  have hcount := h.toNat_free_slot_count
  simp only [free_index_slot, hpage, h.holds.directory_eq]
  split
  next => rfl
  next =>
    cases find_entry pager.mem page slot_id with
    | none => rfl
    | some k =>
        simp only
        -- closing the gap moves entries only
        generalize hm₁ : pager.mem.memmove (slot_entry (directory page) k)
          (slot_entry (directory page) (k + 1))
          ((total_slots pager.mem page - k - 1) * SlotEntry.sizeof) = m₁
        have hbelow : ∀ j < page + 68, m₁ j = pager.mem j := by
          intro j hj
          rw [← hm₁]
          refine fill_outside _ _ (Or.inl ?_)
          simp only [slot_entry, directory]
          omega
        have hcount₁ : m₁.load8 (DBPageHeader.free_slot_count page)
            = pager.mem.load8 (DBPageHeader.free_slot_count page) := hbelow _ (by simp)
        rw [Pager.withMem_mem, uncount_slot_between slot_id _ (by rw [hcount₁, hcount]; exact hlo) hhi]
        exact hbelow i hhi

/-- A free that finds the list in front of the sibling pointer keeps the other fields. -/
theorem Slotted.free_slot_fields (h : Slotted pager.mem page page_no flag P)
    (hpage : pager_get_page pager page_no = some page) (slot_id : UInt8)
    (hlist : P.free.length < 17) :
    SameFields pager.mem (free_index_slot pager page_no slot_id).mem page := by
  obtain ⟨m', hfree, hslotted, hsame⟩ := h.free_fits hpage slot_id fun _ _ => by omega
  have hbetween : ∀ i, page + 32 ≤ i → i < page + 34 → m' i = pager.mem i := by
    intro i hlo hhi
    have heq := h.free_slot_between hpage slot_id (i := i) (by omega) (by omega)
    rw [hfree] at heq
    exact heq
  have hhighest : (P.free_slot slot_id).highest = P.highest := by
    unfold SlotPage.free_slot
    split
    · rfl
    · rfl
  rw [hfree, Pager.withMem_mem]
  refine ⟨hsame.load16 (by simp), hsame.load16 (by simp), hsame.load8 (by simp),
    hsame.load16 (by simp), hsame.load16 (by simp), ?_, ?_⟩
  · rw [hslotted.highest_slot, h.highest_slot, hhighest]
  · exact congrArg UInt16.ofNat (load_congr 2 _ hbetween)

end

/-! ## §3. One call. -/

section

variable {pages : Set UInt16} {pager : Pager}

theorem IndexPages.list_safe (h : IndexPages 16 pages pager) {call : PageCall}
    (hallowed : call.Allowed 16 pages pager) : call.ListSafe pager := by
  cases call with
  | init_index_page page_no flag => exact ⟨by simp [PageCall.list_index], by simp⟩
  | set_right_sibling page page_no => exact ⟨by simp [PageCall.list_index], by simp⟩
  | set_total_slots page count => exact ⟨by simp [PageCall.list_index], by simp⟩
  | get_free_page => exact ⟨by simp [PageCall.list_index], by simp⟩
  | mark_page_free page_no => exact ⟨by simp [PageCall.list_index], by simp⟩
  | write_index_slot page_no slot junk =>
      refine ⟨fun i hi => ?_, by simp⟩
      by_cases hread : page_no.toNat < MAX_PAGES
      · obtain ⟨flag, P, -, hslotted, hfree⟩ := h.index_page page_no hallowed.1 hread
        have hcount := hslotted.toNat_free_slot_count
        simp only [PageCall.list_index, pager_get_page_of_lt hread, hcount] at hi
        -- at most 16 ids are free, and the last one is taken
        split at hi
        · cases hi
        split at hi
        · cases hi
          show P.free.length - 1 < 16
          omega
        · cases hi
      · simp only [PageCall.list_index, pager_get_page_of_not_lt hread] at hi
        cases hi
  | free_index_slot page_no slot_id =>
      refine ⟨fun i hi => ?_, fun p id page heq hpage => ?_⟩
      · cases hpage : pager_get_page pager page_no with
        | none =>
            simp only [PageCall.list_index, hpage] at hi
            cases hi
        | some page =>
            simp only [PageCall.list_index, hpage] at hi
            split at hi
            next => cases hi
            next hguard =>
              obtain ⟨k, hfind, heq⟩ := Option.map_eq_some_iff.mp hi
              subst heq
              exact hallowed.2 page hpage (Nat.not_le.mp hguard) (by simp [hfind])
      · cases heq
        obtain ⟨hread, rfl⟩ := pager_get_page_eq_some hpage
        obtain ⟨flag, P, -, hslotted, hfree⟩ := h.index_page page_no hallowed.1 hread
        exact hslotted.free_slot_fields hpage slot_id (by omega)

/-! ## §4. Runs. -/

theorem Allowed.list_safe {calls : Calls} : ∀ pages, Along 16 pages calls → Allowed 16 pages calls →
    ∀ c ∈ calls, c.2.ListSafe c.1 := by
  induction calls with
  | nil => intro pages _ _ c hc; cases hc
  | cons call calls ih =>
      intro pages halong hallowed c hc
      rcases List.mem_cons.mp hc with rfl | hc
      · exact halong.1.list_safe hallowed.1
      · exact ih _ halong.2 hallowed.2 c hc

/-- A free that takes a slot out within the list finds fewer than 16 free ids. -/
theorem PageCall.Allowed.of_list_safe {call : PageCall} (hallowed : call.Allowed 256 pages pager)
    (hsafe : call.ListSafe pager) : call.Allowed 16 pages pager := by
  cases call with
  | init_index_page page_no flag => exact hallowed
  | set_right_sibling page page_no => exact hallowed
  | set_total_slots page count => trivial
  | get_free_page => trivial
  | mark_page_free page_no => trivial
  | write_index_slot page_no slot junk => exact hallowed
  | free_index_slot page_no slot_id =>
      refine ⟨hallowed.1, fun page hpage hguard hfind => ?_⟩
      obtain ⟨k, hfind⟩ := Option.ne_none_iff_exists'.mp hfind
      refine hsafe.in_bounds _ ?_
      simp only [PageCall.list_index, hpage, if_neg (Nat.not_le.mpr hguard), hfind]
      rfl

theorem Allowed.of_list_safe {calls : Calls} : ∀ pages, Allowed 256 pages calls →
    (∀ c ∈ calls, c.2.ListSafe c.1) → Allowed 16 pages calls := by
  induction calls with
  | nil => intro pages _ _; trivial
  | cons call calls ih =>
      intro pages hallowed hsafe
      exact ⟨hallowed.1.of_list_safe (hsafe _ List.mem_cons_self),
        ih _ hallowed.2 fun c hc => hsafe c (List.mem_cons_of_mem _ hc)⟩

theorem StoreOp.list_safe_iff {s : Store} (h : IndexPages 16 s.pages s.pager) {op : StoreOp}
    (hwithin : op.Allowed 256 s) : op.ListSafe s ↔ op.Allowed 16 s := by
  constructor
  · intro hsafe
    exact Allowed.of_list_safe s.pages hwithin hsafe
  · intro hallowed
    obtain ⟨pager', hkeeps, -⟩ := StoreOp.keeps (Nat.le_succ 16) op s.pager
    exact Allowed.list_safe s.pages (hkeeps.index_pages s.pages h hallowed).1 hallowed

end

/-- **The free-slot list stays in bounds** in every call of a run on initialised pages
whose writes find room, exactly when every free that takes a slot out finds fewer than 16
free ids; a byte is always below 256. -/
theorem free_slot_list_iff (pager : Pager) (hnew : NewDb pager) (ops : List StoreOp)
    (hwithin : EachStep StoreOp.exec (StoreOp.Allowed 256) (newStore pager) ops) :
    EachStep StoreOp.exec StoreOp.ListSafe (newStore pager) ops
      ↔ EachStep StoreOp.exec (StoreOp.Allowed 16) (newStore pager) ops :=
  eachStep_iff_within (I := fun s : Store => IndexPages 16 s.pages s.pager)
    (fun _ _ h _ hallowed => StoreOp.Allowed.exec (Nat.le_succ 16) h hallowed)
    (fun _ _ h hstep => StoreOp.list_safe_iff h hstep) ops _ (NewDb.indexPages hnew 16) hwithin

/-- 36 slots are written to a new leaf and `n` of them freed, each found by its id. -/
def frees (n : Nat) : List SlotOp :=
  List.replicate 36 (.write_index_slot .zero fun _ => .zero)
    ++ (List.range' 1 n).map fun i => .free_index_slot (UInt8.ofNat i)

/-- Page 4 is initialised for them. -/
def frees_on_four (n : Nat) : List StoreOp :=
  .init_index_page 4 PAGE_INDEX_LEAF :: (frees n).map (SlotOp.on 4)

/-- The 16th free is the last that finds room in the list; the run of 17 leaves it. -/
theorem free_slot_list_iff_frees :
    let start := newStore (pager_init_new_db .ok fresh_pager).2
    EachStep StoreOp.exec StoreOp.ListSafe start (frees_on_four 16)
    ∧ (EachStep StoreOp.exec StoreOp.ListSafe start (frees_on_four 17)
      ↔ EachStep StoreOp.exec (StoreOp.Allowed 16) start (frees_on_four 17)) := by
  intro start
  have hwithin : ∀ n, EachStep SlotPage.exec (SlotPage.Spares 256) .empty (frees n) →
      EachStep StoreOp.exec (StoreOp.Allowed 256) start (frees_on_four n) := fun n hn =>
    allowed_on_page start (by decide) (by decide) (.inl rfl) hn
  refine ⟨(free_slot_list_iff _ newDb_fresh _ (hwithin 16 (by decide +kernel))).mpr ?_,
    free_slot_list_iff _ newDb_fresh _ (hwithin 17 (by decide +kernel))⟩
  exact allowed_on_page start (by decide) (by decide) (.inl rfl) (by decide +kernel)

/-! ## §5. The sibling pointer overwritten. -/

section

variable {pager : Pager} {page : Nat} {page_no : UInt16} {flag : UInt8} {P : SlotPage}

/-- A write changes nothing between the counters and the directory. -/
theorem Slotted.write_between (h : Slotted pager.mem page page_no flag P)
    (hpage : pager_get_page pager page_no = some page) (hfits : ¬ P.Full → P.HasRoom)
    (slot : IndexSlotData) (junk : Junk) {i : Nat} (hlo : page + 15 ≤ i) (hhi : i < page + 68) :
    (write_index_slot pager page_no slot junk).mem i = pager.mem i := by
  by_cases hfull : P.Full
  · rw [h.write_full hpage hfull]
  · obtain ⟨m₁, m₂, offset, hwrite, hw⟩ := h.write_stages hpage hfull (hfits hfull) slot junk
    rw [hwrite]
    exact hw.between hlo hhi

/-- The 18th free id goes to the low byte of the sibling pointer. -/
theorem Slotted.free_slot_sibling (h : Slotted pager.mem page page_no flag P)
    (hpage : pager_get_page pager page_no = some page) {slot_id : UInt8} {s : Slot}
    (hguard : slot_id.toNat < P.slots.length) (hfind : P.find slot_id = some s)
    (hlist : P.free.length = 17) :
    ((free_index_slot pager page_no slot_id).mem.load16
        (DBPageHeader.right_sibling_page_id page)).toNat
      = slot_id.toNat
        + 256 * ((pager.mem.load16 (DBPageHeader.right_sibling_page_id page)).toNat / 256) := by
  obtain ⟨m', hfree, hslotted, -⟩ := h.free_slot hpage hguard hfind (by omega)
  have hlow : m' (page + 32) = slot_id := by
    have hlen : (P.remove slot_id).free.length = 18 := by
      show (P.free ++ [slot_id]).length = 18
      rw [List.length_append, hlist]
      rfl
    have hlast := getLast_bytes hslotted.free_slot_list (List.ne_nil_of_length_eq_add_one hlen)
    rw [hlen] at hlast
    exact hlast.trans List.getLast_concat
  have hhigh : m' (page + 33) = pager.mem (page + 33) := by
    have hsame := h.free_slot_between hpage slot_id (i := page + 33) (by omega) (by omega)
    rw [hfree] at hsame
    exact hsame
  have hbyte := (pager.mem (page + 32)).toNat_lt
  rw [hfree, Pager.withMem_mem, load16_toNat, load16_toNat]
  simp only [load, DBPageHeader.right_sibling_page_id, Nat.mul_zero, Nat.add_zero, Nat.add_assoc,
    Nat.reduceAdd, hlow, hhigh]
  omega

/-- The list of free ids ends in front of the sibling pointer. -/
theorem Slotted.exec_spares (h : Slotted pager.mem page page_no flag P)
    (hpage : pager_get_page pager page_no = some page) {op : SlotOp} (hspares : P.Spares 17 op) :
    ∃ m', op.exec page_no pager = pager.withMem m' ∧ Slotted m' page page_no flag (P.exec op)
      ∧ m'.load16 (DBPageHeader.right_sibling_page_id page)
        = pager.mem.load16 (DBPageHeader.right_sibling_page_id page) := by
  obtain ⟨hfits, hlist⟩ := hspares
  obtain ⟨m', hexec, hslotted⟩ := h.exec hpage hfits
  refine ⟨m', hexec, hslotted, congrArg UInt16.ofNat (load_congr 2 _ fun i hlo hhi => ?_)⟩
  simp only [DBPageHeader.right_sibling_page_id] at hlo hhi
  rw [show m' i = (op.exec page_no pager).mem i from by rw [hexec]; rfl]
  cases op with
  | write_index_slot slot junk => exact h.write_between hpage hfits slot junk (by omega) (by omega)
  | free_index_slot slot_id => exact h.free_slot_between hpage slot_id (by omega) (by omega)

/-- A run of such calls. -/
theorem Slotted.run_spares (ops : List SlotOp) : ∀ pager P, Slotted pager.mem page page_no flag P →
    pager_get_page pager page_no = some page → EachStep SlotPage.exec (SlotPage.Spares 17) P ops →
    ∃ m', ops.foldl (SlotOp.exec page_no) pager = pager.withMem m'
      ∧ Slotted m' page page_no flag (ops.foldl SlotPage.exec P)
      ∧ m'.load16 (DBPageHeader.right_sibling_page_id page)
        = pager.mem.load16 (DBPageHeader.right_sibling_page_id page) := by
  induction ops with
  | nil => intro pager P h _ _; exact ⟨pager.mem, rfl, h, rfl⟩
  | cons op ops ih =>
      intro pager P h hpage hsteps
      obtain ⟨m₁, hexec, hslotted, hsibling⟩ := h.exec_spares hpage hsteps.1
      obtain ⟨m', hrun, hslotted', hsibling'⟩ := ih (pager.withMem m₁) _ hslotted hpage hsteps.2
      refine ⟨m', ?_, hslotted', hsibling'.trans hsibling⟩
      rw [List.foldl_cons, hexec, hrun]
      rfl

end

theorem seventeen_frees_spare : EachStep SlotPage.exec (SlotPage.Spares 17) .empty (frees 17) := by
  decide +kernel

theorem seventeen_frees_free :
    let P := (frees 17).foldl SlotPage.exec .empty
    P.free = (List.range' 1 17).map UInt8.ofNat ∧ (18 : UInt8).toNat < P.slots.length
      ∧ (P.find 18).isSome := by
  decide +kernel

/-- On page 4. -/
def seventeen_freed (start : Store) : Store :=
  (frees_on_four 17).foldl StoreOp.exec start

theorem init_index_header_sibling (m : Mem) (page : Nat) (page_no : UInt16) (flag : UInt8) :
    (init_index_header m page page_no flag).load16 (DBPageHeader.right_sibling_page_id page) = 0 :=
  load16_store16_same _ _ _

/-- After them the list is full, and the sibling pointer as it was set up. -/
theorem seventeen_freed_slotted (start : Store) :
    Slotted (seventeen_freed start).pager.mem (4 * PAGE_SIZE) 4 PAGE_INDEX_LEAF
        ((frees 17).foldl SlotPage.exec .empty)
    ∧ (seventeen_freed start).pager.mem.load16 (DBPageHeader.right_sibling_page_id (4 * PAGE_SIZE))
      = 0 := by
  have hpage : pager_get_page start.pager 4 = some (4 * PAGE_SIZE) :=
    pager_get_page_of_lt (by decide)
  have hinit : init_index_page start.pager 4 PAGE_INDEX_LEAF = some (4 * PAGE_SIZE,
      start.pager.withMem (init_index_header start.pager.mem (4 * PAGE_SIZE) 4 PAGE_INDEX_LEAF)) := by
    simp only [init_index_page, hpage]
  obtain ⟨-, hfilled⟩ := init_index_page_filled hinit
  obtain ⟨m', hrun, hslotted, hsibling⟩ := Slotted.run_spares (frees 17) _ _ hfilled.slotted
    hpage seventeen_frees_spare
  have hexec : ((StoreOp.init_index_page 4 PAGE_INDEX_LEAF).exec start).pager = start.pager.withMem
      (init_index_header start.pager.mem (4 * PAGE_SIZE) 4 PAGE_INDEX_LEAF) := by
    simp only [StoreOp.exec, StoreOp.run, hinit, Option.map_some, Option.getD_some]
  rw [seventeen_freed, frees_on_four, List.foldl_cons, foldl_on, hexec, hrun]
  exact ⟨hslotted, hsibling.trans (init_index_header_sibling _ _ _ _)⟩

theorem eighteenth_free (start : Store) :
    (PageCall.free_index_slot 4 18).list_index (seventeen_freed start).pager = some 17
    ∧ (free_index_slot (seventeen_freed start).pager 4 18).mem.load16
        (DBPageHeader.right_sibling_page_id (4 * PAGE_SIZE)) = 18 := by
  obtain ⟨hslotted, hzero⟩ := seventeen_freed_slotted start
  generalize (seventeen_freed start).pager = pager at hslotted hzero
  have hpage : pager_get_page pager 4 = some (4 * PAGE_SIZE) := pager_get_page_of_lt (by decide)
  obtain ⟨hfree, hguard, hsome⟩ := seventeen_frees_free
  obtain ⟨slot, hfind⟩ := Option.isSome_iff_exists.mp hsome
  have hlist : ((frees 17).foldl SlotPage.exec .empty).free.length = 17 := by
    rw [hfree]
    rfl
  have hentry : find_entry pager.mem (4 * PAGE_SIZE) 18 ≠ none := by
    rw [hslotted.holds.find_entry_ne_none_iff, hfind]
    exact Option.some_ne_none slot
  obtain ⟨i, hentry⟩ := Option.ne_none_iff_exists'.mp hentry
  constructor
  · simp only [PageCall.list_index, hpage, hslotted.holds.total, hslotted.toNat_free_slot_count, hlist,
      hentry, Option.map_some]
    exact if_neg (Nat.not_le.mpr hguard)
  · have hafter := hslotted.free_slot_sibling hpage hguard hfind hlist
    rw [hzero] at hafter
    exact UInt16.toNat_inj.mp hafter

/-- The 18th free stores its id at index 17, which is the sibling pointer. -/
theorem eighteenth_free_overwrites :
    let s := seventeen_freed (newStore (pager_init_new_db .ok fresh_pager).2)
    let pager := free_index_slot s.pager 4 18
    (PageCall.free_index_slot 4 18).list_index s.pager = some 17
    ∧ s.pager.mem.load16 (DBPageHeader.right_sibling_page_id (4 * PAGE_SIZE)) = 0
    ∧ pager.mem.load16 (DBPageHeader.right_sibling_page_id (4 * PAGE_SIZE)) = 18 :=
  ⟨(eighteenth_free _).1, (seventeen_freed_slotted _).2, (eighteenth_free _).2⟩

end PreSeQL.Index
