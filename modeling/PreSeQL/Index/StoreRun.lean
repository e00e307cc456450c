/-
  PreSeQL.Index.StoreRun — runs of index operations on a new database.

  A state of a run is the pager with the set of pages initialised as index pages so far.
  The roots are among these: the catalog pages (`newStore`), the page of `btree_init`
  (`btree_init_root`) and every root an insertion puts in place of the one it was given
  (`btree_insert_root`).

  The calls an operation is listed with lead to the pager behind it (`StoreOp.replays`).
  As long as the calls of every operation are allowed, the initialised pages are index
  pages in every state (`index_pages_throughout`).
-/
import PreSeQL.Index.PageStore
import PreSeQL.Pager.NewDb

namespace PreSeQL.Index

open PreSeQL.Lib PreSeQL.Lib.Mem PreSeQL.Lib.Run PreSeQL.Db
open IndexStatus

/-! ## §1. Operations. -/

/-- The pager and the pages initialised so far. -/
structure Store where
  pager : Pager
  pages : Set UInt16

/-- The operations of `index_page.c` that change pages. -/
inductive StoreOp where
  | btree_init (catalog_add_table : IndexStatus)
  | btree_insert (fuel : Nat) (root_page_id : UInt16) (key : List UInt8) (data_page_id : UInt16)
      (data_slot_id : UInt8) (junk : Junk)
  | btree_delete (fuel : Nat) (root_page_id : UInt16) (key : List UInt8) (junk : Junk)
  | init_index_page (page_no : UInt16) (flag : UInt8)
  | write_index_slot (page_no : UInt16) (slot : IndexSlotData) (junk : Junk)
  | free_index_slot (page_no : UInt16) (slot_id : UInt8)

namespace StoreOp

/-- The pager behind the call; `none` when it does not return. -/
def run (pager : Pager) : StoreOp → Option Pager
  | .btree_init catalog_add_table => some (Index.btree_init catalog_add_table pager).2.2
  | .btree_insert fuel root_page_id key data_page_id data_slot_id junk =>
      (Index.btree_insert fuel pager root_page_id key data_page_id data_slot_id junk).map (·.2.2)
  | .btree_delete fuel root_page_id key junk =>
      (Index.btree_delete fuel pager root_page_id key junk).map Prod.snd
  | .init_index_page page_no flag =>
      some (((Index.init_index_page pager page_no flag).map Prod.snd).getD pager)
  | .write_index_slot page_no slot junk => some (Index.write_index_slot pager page_no slot junk)
  | .free_index_slot page_no slot_id => some (Index.free_index_slot pager page_no slot_id)

/-- What it does to index pages, call by call. -/
def calls (pager : Pager) : StoreOp → Calls
  | .btree_init catalog_add_table => btree_init_calls catalog_add_table pager
  | .btree_insert fuel root_page_id key data_page_id data_slot_id junk =>
      btree_insert_calls fuel pager root_page_id key data_page_id data_slot_id junk
  | .btree_delete fuel root_page_id key junk =>
      btree_delete_calls fuel pager root_page_id key junk
  | .init_index_page page_no flag => [(pager, .init_index_page page_no flag)]
  | .write_index_slot page_no slot junk => [(pager, .write_index_slot page_no slot junk)]
  | .free_index_slot page_no slot_id => [(pager, .free_index_slot page_no slot_id)]

/-- A call that does not return is no step. -/
def exec (s : Store) (op : StoreOp) : Store :=
  match op.run s.pager with
  | none => s
  | some pager => ⟨pager, opened s.pages (op.calls s.pager)⟩

/-- Every call on a page is allowed in the state it is made in. -/
def Allowed (limit : Nat) (s : Store) (op : StoreOp) : Prop :=
  Index.Allowed limit s.pages (op.calls s.pager)

end StoreOp

/-- A new database has three index pages. -/
def newStore (pager : Pager) : Store := ⟨pager, {1, 2, 3}⟩

/-! ## §2. One operation. -/

section

variable {limit : Nat} {pager pager' : Pager}

/-- Every operation keeps the index pages, as far as it runs. -/
theorem StoreOp.keeps (hlimit : limit ≤ 17) (op : StoreOp) (pager : Pager) :
    ∃ pager', Keeps limit pager (op.calls pager) pager'
      ∧ ∀ pager₁ ∈ op.run pager, pager₁ = pager' := by
  cases op with
  | btree_init catalog_add_table => exact ⟨_, keeps_btree_init catalog_add_table, by simp [run]⟩
  | btree_insert fuel root_page_id key data_page_id data_slot_id junk =>
      obtain ⟨pager', hkeeps, hresult⟩ := @keeps_btree_insert limit pager hlimit fuel
        root_page_id key data_page_id data_slot_id junk
      refine ⟨pager', hkeeps, fun pager₁ hrun => ?_⟩
      obtain ⟨r, hinsert, heq⟩ := Option.map_eq_some_iff.mp hrun
      exact heq ▸ hresult r hinsert
  | btree_delete fuel root_page_id key junk =>
      obtain ⟨pager', hkeeps, hresult⟩ := @keeps_btree_delete limit pager hlimit fuel
        root_page_id key junk
      refine ⟨pager', hkeeps, fun pager₁ hrun => ?_⟩
      obtain ⟨r, hdelete, heq⟩ := Option.map_eq_some_iff.mp hrun
      exact heq ▸ hresult r hdelete
  | init_index_page page_no flag => exact ⟨_, keeps_init page_no flag, by simp [run]⟩
  | write_index_slot page_no slot junk => exact ⟨_, keeps_write page_no slot junk, by simp [run]⟩
  | free_index_slot page_no slot_id => exact ⟨_, keeps_free hlimit page_no slot_id, by simp [run]⟩

/-- **The calls of an operation are what it does**: made in order, each in the pager it is
listed with, they lead to the pager behind it. -/
theorem StoreOp.replays (op : StoreOp) (h : op.run pager = some pager') :
    Replays pager (op.calls pager) pager' := by
  obtain ⟨_, hkeeps, hresult⟩ := StoreOp.keeps (Nat.zero_le 17) op pager
  rw [hresult pager' h]
  exact hkeeps.replays

/-- **One operation** whose calls are allowed. -/
theorem StoreOp.Allowed.exec (hlimit : limit ≤ 17) {s : Store} {op : StoreOp}
    (h : IndexPages limit s.pages s.pager) (hallowed : op.Allowed limit s) :
    IndexPages limit (op.exec s).pages (op.exec s).pager := by
  obtain ⟨pager', hkeeps, hresult⟩ := StoreOp.keeps hlimit op s.pager
  unfold StoreOp.exec
  cases hrun : op.run s.pager with
  | none => exact h
  | some pager₁ =>
      rw [hresult pager₁ hrun]
      exact (hkeeps.index_pages s.pages h hallowed).2

/-- `btree_init` works on its own new page only. -/
theorem btree_init_allowed (s : Store) (catalog_add_table : IndexStatus) :
    (StoreOp.btree_init catalog_add_table).Allowed limit s := by
  unfold StoreOp.Allowed StoreOp.calls btree_init_calls
  refine ⟨trivial, ?_⟩
  rcases get_free_page s.pager with ⟨root_page_id, pager₁⟩
  by_cases h0 : root_page_id = 0
  · simp only [if_pos h0]
    trivial
  · simp only [if_neg h0]
    refine ⟨⟨h0, .inl rfl⟩, ?_⟩
    cases init_index_leaf_page pager₁ root_page_id with
    | none => exact ⟨trivial, trivial⟩
    | some r =>
        by_cases hcatalog : catalog_add_table ≠ PSQL_STATUS_OK
        · simp only [if_pos hcatalog]
          exact ⟨trivial, trivial⟩
        · simp only [if_neg hcatalog]
          trivial

/-! ## §3. Roots. -/

theorem btree_init_root {catalog_add_table : IndexStatus} {root_page_id : UInt16}
    (h : (btree_init catalog_add_table pager).2.1 = some root_page_id) (pages : Set UInt16) :
    root_page_id ∈ opened pages (btree_init_calls catalog_add_table pager) := by
  unfold btree_init at h
  unfold btree_init_calls
  rcases hnext : get_free_page pager with ⟨new_root_id, pager₁⟩
  simp only [hnext] at h ⊢
  by_cases h0 : new_root_id = 0
  · simp only [if_pos h0, reduceCtorEq] at h
  · simp only [if_neg h0] at h ⊢
    cases hnew : init_index_leaf_page pager₁ new_root_id with
    | none => simp only [hnew, reduceCtorEq] at h
    | some r =>
        simp only [hnew] at h
        by_cases hcatalog : catalog_add_table ≠ PSQL_STATUS_OK
        · simp only [if_pos hcatalog, reduceCtorEq] at h
        · simp only [if_neg hcatalog, Option.some.injEq] at h
          rw [opened, opened]
          exact subset_opened _ (h ▸ Set.mem_insert _ _)

theorem update_parent_root_opened {root_page_id : UInt16} {page : Nat} {new_page_id : UInt16}
    {junk : Junk} {status : IndexStatus} {new_root_id : UInt16}
    (h : update_parent pager root_page_id page new_page_id junk = (status, new_root_id, pager'))
    (hne : new_root_id ≠ root_page_id) (pages : Set UInt16) :
    new_root_id ∈ opened pages (update_parent_calls pager root_page_id page new_page_id junk) := by
  unfold update_parent at h
  unfold update_parent_calls
  by_cases hroot : header_page_id pager.mem page = root_page_id
  · rcases hnext : get_free_page pager with ⟨next, pager₁⟩
    simp only [if_pos hroot, hnext] at h ⊢
    by_cases h0 : next = 0
    · simp only [if_pos h0, Prod.mk.injEq] at h
      exact absurd h.2.1.symm hne
    · simp only [if_neg h0, Prod.mk.injEq] at h ⊢
      rw [← h.2.1, opened, opened]
      exact subset_opened _ (Set.mem_insert _ _)
  · simp only [if_neg hroot, Prod.mk.injEq] at h
    exact absurd h.2.1.symm hne

theorem insert_leaf_root_opened {root_page_id : UInt16} {page : Nat} {key : List UInt8}
    {data_page_id : UInt16} {data_slot_id : UInt8} {junk : Junk} {status : IndexStatus}
    {new_root_id : UInt16}
    (h : insert_leaf pager root_page_id page key data_page_id data_slot_id junk
      = (status, new_root_id, pager')) (hne : new_root_id ≠ root_page_id) (pages : Set UInt16) :
    new_root_id ∈ opened pages
      (insert_leaf_calls pager root_page_id page key data_page_id data_slot_id junk) := by
  unfold insert_leaf at h
  unfold insert_leaf_calls
  simp only at h ⊢
  generalize write_index_slot pager _ _ _ = pager₁ at h ⊢
  by_cases hfull : 10 * USED_SPACE pager₁.mem page > FULL_THRESHOLD_10
  · rw [if_pos hfull] at h ⊢
    rcases hsplit : btree_split_leaf pager₁ (header_page_id pager₁.mem page) (junk.call 2)
      with ⟨split_status, new_page_id, pager₂⟩
    simp only [hsplit] at h ⊢
    by_cases hok : split_status ≠ PSQL_STATUS_OK
    · simp only [if_pos hok, Prod.mk.injEq] at h
      exact absurd h.2.1.symm hne
    · simp only [if_neg hok] at h ⊢
      rw [opened, opened_append]
      exact update_parent_root_opened h hne _
  · rw [if_neg hfull] at h
    exact absurd (Prod.mk.inj (Prod.mk.inj h).2).1.symm hne

/-- The root in place of the one the insertion was given. -/
theorem btree_insert_root {fuel : Nat} {root_page_id : UInt16} {key : List UInt8}
    {data_page_id : UInt16} {data_slot_id : UInt8} {junk : Junk} {new_root_id : UInt16}
    (h : btree_insert fuel pager root_page_id key data_page_id data_slot_id junk
      = some (PSQL_STATUS_OK, new_root_id, pager')) (hne : new_root_id ≠ root_page_id)
    (pages : Set UInt16) :
    new_root_id ∈ opened pages
      (btree_insert_calls fuel pager root_page_id key data_page_id data_slot_id junk) := by
  unfold btree_insert at h
  unfold btree_insert_calls
  by_cases hlong : key.length > MAX_DATA_PER_INDEX_SLOT
  · simp only [if_pos hlong, Option.some.injEq, Prod.mk.injEq, reduceCtorEq, false_and] at h
  · rw [if_neg hlong] at h ⊢
    rw [opened_append]
    -- the root is the one given, or has just been initialised
    have hcreate : (create_root pager root_page_id).1 ≠ root_page_id →
        (create_root pager root_page_id).1 ∈ opened pages (create_root_calls pager root_page_id) := by
      unfold create_root create_root_calls
      by_cases hroot : root_page_id = 0
      · rcases hnext : get_free_page pager with ⟨next, pager₁⟩
        simp only [if_pos hroot]
        by_cases h0 : next = 0
        · simp only [if_pos h0]
          intro habs
          exact absurd hroot.symm habs
        · simp only [if_neg h0]
          intro _
          exact Set.mem_insert _ _
      · simp only [if_neg hroot]
        intro habs
        exact absurd rfl habs
    rcases hnew : create_root pager root_page_id with ⟨root, pager₁⟩
    simp only [hnew] at h hcreate ⊢
    by_cases h0 : root = 0
    · simp only [if_pos h0, Option.some.injEq, Prod.mk.injEq, reduceCtorEq, false_and] at h
    · simp only [if_neg h0] at h ⊢
      cases hpage : pager_get_page pager₁ root with
      | none => simp only [hpage, Option.some.injEq, Prod.mk.injEq, reduceCtorEq, false_and] at h
      | some page =>
          simp only [hpage] at h ⊢
          cases hleaf : find_leaf fuel pager₁ page key (junk.call 0) with
          | none => simp only [hleaf, reduceCtorEq] at h
          | some leaf =>
              simp only [hleaf, Option.some.injEq] at h ⊢
              by_cases heq : new_root_id = root
              · subst heq
                exact subset_opened _ (hcreate hne)
              · exact insert_leaf_root_opened h heq _

end

/-! ## §4. Runs. -/

theorem indexPage_allocate_page (limit : Nat) (pager : Pager) (page_no : UInt16) :
    IndexPage limit (Db.init_index_internal_page pager page_no).2.mem page_no :=
  ⟨PAGE_INDEX_INTERNAL, .empty, .inr rfl, (allocate_page_filled pager page_no _).slotted,
    Nat.zero_le _⟩

/-- The pages in front of a new page stay as they are. -/
theorem IndexPage.allocate_page {limit : Nat} {pager : Pager} {p page_no : UInt16}
    (h : IndexPage limit pager.mem p) (h0 : p ≠ 0) (hlt : p.toNat < page_no.toNat) :
    IndexPage limit (Db.init_index_internal_page pager page_no).2.mem p := by
  have hheader := sameOff_allocate_page_header pager.mem (page_no.toNat * PAGE_SIZE) page_no
    PAGE_INDEX_INTERNAL
  have hbelow : p.toNat * PAGE_SIZE + PAGE_SIZE ≤ page_no.toNat * PAGE_SIZE := by
    rw [← Nat.succ_mul]
    exact Nat.mul_le_mul_right _ hlt
  exact (h.frame hheader (.inr hbelow)).frame (mark_page_used_frame _ _)
    (.inl (PAGE_SIZE_le_page h0))

/-- The catalog pages of a new database are empty index pages. -/
theorem NewDb.indexPages {pager : Pager} (h : NewDb pager) (limit : Nat) :
    IndexPages limit (newStore pager).pages (newStore pager).pager := by
  refine ⟨h.created.tracked.fits, ?_, ?_⟩
  · rintro p (rfl | rfl | rfl)
    all_goals decide
  · cases h with
    | mk hlength hopen hnew =>
        obtain ⟨-, hpager⟩ := pager_init_new_db_ok hnew
        intro p hp _
        show IndexPage limit pager.mem p
        rw [hpager]
        -- each of the three pages, and those written behind it
        rcases hp with rfl | rfl | rfl
        · exact ((indexPage_allocate_page limit _ 1).allocate_page (by decide) (by decide)
            ).allocate_page (by decide) (by decide)
        · exact (indexPage_allocate_page limit _ 2).allocate_page (by decide) (by decide)
        · exact indexPage_allocate_page limit _ 3

/-- What the index pages of a state say of it holds throughout an allowed run. -/
theorem throughout_of_indexPages {limit : Nat} (hlimit : limit ≤ 17) {Q : Store → Prop}
    (hq : ∀ s : Store, IndexPages limit s.pages s.pager → Q s) {pager : Pager} (h : NewDb pager)
    (ops : List StoreOp)
    (hallowed : EachStep StoreOp.exec (StoreOp.Allowed limit) (newStore pager) ops) :
    Throughout StoreOp.exec Q (newStore pager) ops :=
  throughout_of_kept (I := fun s : Store => IndexPages limit s.pages s.pager)
    (fun _ _ h hstep => StoreOp.Allowed.exec hlimit h hstep) hq ops _
    (NewDb.indexPages h limit) hallowed

theorem index_pages_throughout {limit : Nat} (hlimit : limit ≤ 17) {pager : Pager}
    (h : NewDb pager) (ops : List StoreOp)
    (hallowed : EachStep StoreOp.exec (StoreOp.Allowed limit) (newStore pager) ops) :
    Throughout StoreOp.exec (fun s => IndexPages limit s.pages s.pager) (newStore pager) ops :=
  throughout_of_indexPages hlimit (fun _ h => h) h ops hallowed

/-! ## §5. Calls on one page. -/

/-- On page `page_no`. -/
def SlotOp.on (page_no : UInt16) : SlotOp → StoreOp
  | .write_index_slot slot junk => .write_index_slot page_no slot junk
  | .free_index_slot slot_id => .free_index_slot page_no slot_id

theorem foldl_on (page_no : UInt16) (ops : List SlotOp) : ∀ s : Store,
    ((ops.map (SlotOp.on page_no)).foldl StoreOp.exec s).pager
      = ops.foldl (SlotOp.exec page_no) s.pager := by
  induction ops with
  | nil => intro s; rfl
  | cons op ops ih =>
      intro s
      rw [List.map_cons, List.foldl_cons, List.foldl_cons, ih]
      cases op with
      | write_index_slot slot junk => rfl
      | free_index_slot slot_id => rfl

/-- A call that fits and finds fewer than `limit` free ids. -/
def SlotPage.Spares (limit : Nat) (P : SlotPage) (op : SlotOp) : Prop :=
  P.Fits op ∧ P.free.length < limit

instance decidableSpares (limit : Nat) (P : SlotPage) (op : SlotOp) :
    Decidable (P.Spares limit op) := inferInstanceAs (Decidable (_ ∧ _))

/-- The page is initialised and has the slots of `P`. -/
structure Store.On (page_no : UInt16) (page : Nat) (flag : UInt8) (s : Store) (P : SlotPage) :
    Prop where
  slotted : Slotted s.pager.mem page page_no flag P
  readable : pager_get_page s.pager page_no = some page
  opened : page_no ∈ s.pages

section

variable {limit : Nat} {s : Store} {page_no : UInt16} {page : Nat} {flag : UInt8} {P : SlotPage}

theorem Store.On.step (h : s.On page_no page flag P) {op : SlotOp} (hspares : P.Spares limit op) :
    (op.on page_no).Allowed limit s
      ∧ ((op.on page_no).exec s).On page_no page flag (P.exec op) := by
  obtain ⟨hslotted, hpage, hmem⟩ := h
  obtain ⟨m', hexec, hslotted'⟩ := hslotted.exec hpage hspares.1
  have haddress : ∀ a, pager_get_page s.pager page_no = some a → a = page := fun a ha =>
    Option.some.inj (ha.symm.trans hpage)
  cases op with
  | write_index_slot slot junk =>
      have hexec : write_index_slot s.pager page_no slot junk = s.pager.withMem m' := hexec
      refine ⟨⟨⟨hmem, fun a ha => ?_⟩, trivial⟩, ?_, ?_, hmem⟩
      · rw [haddress a ha]
        exact (hslotted.fits_iff _).mpr hspares.1
      · simp only [SlotOp.on, StoreOp.exec, StoreOp.run, hexec]
        exact hslotted'
      · exact hpage
  | free_index_slot slot_id =>
      have hexec : free_index_slot s.pager page_no slot_id = s.pager.withMem m' := hexec
      refine ⟨⟨⟨hmem, fun a ha _ _ => ?_⟩, trivial⟩, ?_, ?_, hmem⟩
      · rw [haddress a ha, hslotted.toNat_free_slot_count]
        exact hspares.2
      · simp only [SlotOp.on, StoreOp.exec, StoreOp.run, hexec]
        exact hslotted'
      · exact hpage

/-- A page that is initialised in any state of a run. -/
theorem on_new_page (s : Store) (hread : page_no.toNat < MAX_PAGES) (flag : UInt8) :
    ((StoreOp.init_index_page page_no flag).exec s).On page_no (page_no.toNat * PAGE_SIZE) flag
      .empty := by
  have hpage : pager_get_page s.pager page_no = some (page_no.toNat * PAGE_SIZE) :=
    pager_get_page_of_lt hread
  have hinit : init_index_page s.pager page_no flag = some (page_no.toNat * PAGE_SIZE,
      s.pager.withMem (init_index_header s.pager.mem (page_no.toNat * PAGE_SIZE) page_no flag)) := by
    simp only [init_index_page, hpage]
  obtain ⟨-, hfilled⟩ := init_index_page_filled hinit
  have hexec : (StoreOp.init_index_page page_no flag).exec s = ⟨s.pager.withMem
      (init_index_header s.pager.mem (page_no.toNat * PAGE_SIZE) page_no flag),
        insert page_no s.pages⟩ := by
    simp only [StoreOp.exec, StoreOp.run, hinit, Option.map_some, Option.getD_some]
    rfl
  rw [hexec]
  exact ⟨hfilled.slotted, hpage, Set.mem_insert _ _⟩

/-- The root of `btree_init`. -/
theorem on_btree_init (s : Store) (hnext : (get_free_page s.pager).1 = page_no) (h0 : page_no ≠ 0)
    (hread : page_no.toNat < MAX_PAGES) :
    ((StoreOp.btree_init PSQL_STATUS_OK).exec s).On page_no (page_no.toNat * PAGE_SIZE)
      PAGE_INDEX_LEAF .empty := by
  rcases hfree : get_free_page s.pager with ⟨root_page_id, pager₁⟩
  obtain rfl : root_page_id = page_no := by rw [← hnext, hfree]
  have hpage : pager_get_page pager₁ root_page_id = some (root_page_id.toNat * PAGE_SIZE) :=
    pager_get_page_of_lt hread
  obtain ⟨pager₂, hinit⟩ : ∃ pager₂, init_index_leaf_page pager₁ root_page_id
      = some (root_page_id.toNat * PAGE_SIZE, pager₂) := by
    simp only [init_index_leaf_page, init_index_page, hpage]
    exact ⟨_, rfl⟩
  obtain ⟨-, hfilled⟩ := init_index_page_filled hinit
  have hresult : btree_init PSQL_STATUS_OK s.pager
      = (PSQL_STATUS_OK, some root_page_id, pager₂) := by
    simp only [btree_init, hfree, if_neg h0, hinit, ne_eq, not_true_eq_false, if_false]
  refine ⟨?_, ?_, btree_init_root (congrArg (fun r => r.2.1) hresult) _⟩
  all_goals simp only [StoreOp.exec, StoreOp.run, hresult]
  · exact hfilled.slotted
  · exact pager_get_page_of_lt hread

/-- **A page is initialised and used**: the calls are allowed when the slots allow them. -/
theorem allowed_on_page (s : Store) (h0 : page_no ≠ 0) (hread : page_no.toNat < MAX_PAGES)
    (hflag : flag = PAGE_INDEX_LEAF ∨ flag = PAGE_INDEX_INTERNAL) {ops : List SlotOp}
    (hops : EachStep SlotPage.exec (SlotPage.Spares limit) .empty ops) :
    EachStep StoreOp.exec (StoreOp.Allowed limit) s
      (.init_index_page page_no flag :: ops.map (SlotOp.on page_no)) :=
  ⟨⟨⟨h0, hflag⟩, trivial⟩,
    (eachStep_of_simulates (R := Store.On page_no (page_no.toNat * PAGE_SIZE) flag)
      (SlotOp.on page_no) (fun _ _ _ h hspares => h.step hspares) ops _ _
      (on_new_page s hread flag) hops).1⟩

end

end PreSeQL.Index
