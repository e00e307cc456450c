/-
  PreSeQL.Pager.OpenDb — an open database and the memory it is in.

  `Close.lean` has what a close writes into the file, `TrackerHeap.lean` what the calls do
  with the tracker's blocks.  An `OpenDb` is the pager with the heap it is allocated on, and
  each function does its part of both.  §2 follows a run: as long as it returns, the tracker
  on the heap is the pager's.  From such a state `pager_close_db` does not return.

    • `Sound.call` — one call, whatever `malloc` answers,
    • `Sound.close` — the file is written, then `free` gets an address inside a block,
    • `close_never_returns` — every run.
-/
import PreSeQL.Pager.Close
import PreSeQL.Pager.TrackerHeap

namespace PreSeQL.Db

open PreSeQL.Lib PreSeQL.Radix PSqlStatus

/-! ## §1. The functions. -/

/-- `sizeof(Pager)` -/
abbrev PAGER_SIZE : Nat := 104

/-- `strlen(JOURNAL_FILE_EXTENSION)` -/
abbrev JOURNAL_FILE_EXTENSION_LENGTH : Nat := 14

/-- The heap before `init_pager`.  The new database has its page 0 mapped at `header`, a page that
`malloc` does not hand out. -/
structure Process where
  heap : Heap
  header : Nat
  mapped : (⟨header, PAGE_SIZE⟩ : Block) ∈ heap.live

/-- A pager on the heap: the addresses are that of the `Pager` and those in its fields. -/
structure OpenDb where
  pager : Pager
  heap : Heap
  header : Nat
  address : Nat
  filename : Nat
  journal_filename : Nat
  free_page_map : Nat

/-- The bytes that can be accessed through `mem_start`: the system maps whole pages. -/
def DatabasePager.mapped_bytes (db : DatabasePager) : Nat :=
  match db.mapped with
  | none => 0
  | some length => (length + PAGE_SIZE - 1) / PAGE_SIZE * PAGE_SIZE

/-- The body of the loop of `init_free_page_map`. -/
def load_entry (M : Malloc) (map : Nat) (h : Heap) (page_no : UInt16) : Checked Heap :=
  if page_no > 0 then TrackerHeap.mark_page_free M h map page_no else .ok h

/-- The loop; `free_page_count` is as it stands in the file. -/
def load_tracker (M : Malloc) (h : Heap) (map : Nat) (pager : Pager) : Checked Heap :=
  if freelist_cell (DatabaseHeader.free_page_list database_header) pager.free_page_count.toNat
      ≤ pager.db_pager.mapped_bytes then
    pager.header_list.foldlM (load_entry M map) h
  else .error .invalid

namespace OpenDb

/-- The tracker's part of `init_free_page_map`: its address, 0 when it returns early. -/
def init_free_page_map (M : Malloc) (h : Heap) (pager : Pager) : Checked (Nat × Heap) := do
  let (map, h) ← TrackerHeap.init_tracker M h
  if map = 0 then return (0, h)
  else do
    let h ← load_tracker M h map pager
    return (map, h)

/-- The frees of a failing `init_pager`. -/
def free_names (h : Heap) (address filename journal_filename : Nat) : Checked Heap := do
  let h ← h.free journal_filename
  let h ← h.free filename
  h.free address

/-- The pager and the two names are allocated, then come the system calls, the tracker and the
journal file.  `none` is `NULL`; the characters of the names are not kept. -/
def init_pager (M : Malloc) (p : Process) (sys : OpenCalls) (filename_length : Nat) (bytes : Mem)
    (length : Nat) : Checked (Option OpenDb) :=
  let (address, h) := p.heap.malloc M PAGER_SIZE
  if address = 0 then .ok none
  else do
    let h ← h.memset address 0 PAGER_SIZE
    let (filename, h) := h.malloc M (filename_length + 1)
    if filename = 0 then do
      let _ ← h.free address
      return none
    else
      let (journal_filename, h) :=
        h.malloc M (filename_length + JOURNAL_FILE_EXTENSION_LENGTH + 1)
      if journal_filename = 0 then do
        let h ← h.free filename
        let _ ← h.free address
        return none
      else
        match Db.init_pager { sys with openJournal := true } bytes length with
        | none => do
            let _ ← free_names h address filename journal_filename
            return none
        | some pager => do
            let (map, h) ← init_free_page_map M h pager
            if sys.openJournal = false then do
              let _ ← free_names h address filename journal_filename
              return none
            else
              return some ⟨pager, h, p.header, address, filename, journal_filename, map⟩

/-- `pager->db_pager.free_page_map`, where it is followed. -/
def tracker (x : OpenDb) : Checked Nat :=
  if x.free_page_map = 0 then .error .invalid else .ok x.free_page_map

/-- Address of `header->free_page_list`. -/
def free_page_list (x : OpenDb) : Nat := DatabaseHeader.free_page_list (DBPage.data x.header)

def mark_page_free (M : Malloc) (x : OpenDb) (page_no : UInt16) : Checked OpenDb := do
  let map ← x.tracker
  let h ← TrackerHeap.mark_page_free M x.heap map page_no
  return { x with pager := Db.mark_page_free x.pager page_no, heap := h }

def mark_page_used (x : OpenDb) (page_no : UInt16) : Checked OpenDb := do
  let map ← x.tracker
  let h ← TrackerHeap.mark_page_used x.heap map page_no
  return { x with pager := Db.mark_page_used x.pager page_no, heap := h }

def get_free_page (x : OpenDb) : Checked (UInt16 × OpenDb) := do
  let map ← x.tracker
  let (_, h) ← TrackerHeap.get_free_page x.heap map
  return ((Db.get_free_page x.pager).1,
    { x with pager := (Db.get_free_page x.pager).2, heap := h })

/-- `sizeof(DBPage)` bytes can be accessed at the address of the page. -/
abbrev Maps (x : OpenDb) (page_no : UInt16) : Prop :=
  page_no.toNat * PAGE_SIZE + DBPage.sizeof ≤ x.pager.db_pager.mapped_bytes

/-- `memset` is the first access to the page. -/
def allocate_page (x : OpenDb) (page_no : UInt16) (flag : UInt8) : Checked OpenDb :=
  if x.Maps page_no then do
    let map ← x.tracker
    let h ← TrackerHeap.mark_page_used x.heap map page_no
    return { x with pager := (Db.allocate_page x.pager page_no flag).2, heap := h }
  else .error .invalid

def sync_free_page_list (x : OpenDb) : Checked (PSqlStatus × OpenDb) := do
  let map ← x.tracker
  let h ← TrackerHeap.sync_tracker x.heap map x.free_page_list
  return ((Db.sync_free_page_list x.pager).1,
    { x with pager := (Db.sync_free_page_list x.pager).2, heap := h })

/-- The tracker loses the three catalog pages. -/
def pager_init_new_db (sys : Syscalls) (x : OpenDb) : Checked (PSqlStatus × OpenDb) :=
  match Db.pager_init_new_db sys x.pager with
  | (PSQL_OK, pager) => do
      let map ← x.tracker
      let h ← TrackerHeap.mark_page_used x.heap map 1
      let h ← TrackerHeap.mark_page_used h map 2
      let h ← TrackerHeap.mark_page_used h map 3
      return (PSQL_OK, { x with pager := pager, heap := h })
  | (status, pager) => .ok (status, { x with pager := pager })

/-- The list is synced before the checksum is stored; the tracker, the names and the pager are
freed behind the last system call. -/
def pager_close_db (sys : CloseCalls) (x : OpenDb) : Checked (PSqlStatus × OpenDb) :=
  match pager_flush_cache sys x.pager with
  | PSQL_OK => do
      let map ← x.tracker
      let h ← TrackerHeap.sync_tracker x.heap map x.free_page_list
      match close_file sys x.pager with
      | (PSQL_OK, pager) => do
          let h ← TrackerHeap.release_tracker h map
          let h ← h.free x.filename
          let h ← h.free x.journal_filename
          let h ← h.free x.address
          return (PSQL_OK, { x with pager := pager, heap := h })
      | (status, pager) => return (status, { x with pager := pager, heap := h })
  | status => .ok (status, x)

/-- A call of the free-page interface, with the `malloc` it finds. -/
def call (x : OpenDb) : Malloc × FreePageOp → Checked OpenDb
  | (M, .mark_page_free p) => x.mark_page_free M p
  | (_, .mark_page_used p) => x.mark_page_used p
  | (_, .get_free_page) => Prod.snd <$> x.get_free_page
  | (_, .allocate_page p flag) => x.allocate_page p flag
  | (_, .sync_free_page_list) => Prod.snd <$> x.sync_free_page_list

/-! ## §2. The tracker on the heap is the pager's. -/

/-- With the header's page among the other blocks; a `NULL` tracker is followed by no call that
returns. -/
def Sound (x : OpenDb) : Prop :=
  x.free_page_map ≠ 0 → ∃ base m, (⟨x.header, PAGE_SIZE⟩ : Block) ∈ base
    ∧ TrackerHeap.Keeps base m x.heap x.free_page_map x.pager.free_page_map

theorem tracker_eq {x : OpenDb} (hmap : x.free_page_map ≠ 0) : x.tracker = .ok x.free_page_map :=
  if_neg hmap

theorem tracker_null {x : OpenDb} (hmap : x.free_page_map = 0) : x.tracker = .error .invalid :=
  if_pos hmap

/-- The array of the list is in the header's page. -/
theorem free_page_list_holds (x : OpenDb) :
    (⟨x.header, PAGE_SIZE⟩ : Block).Holds x.free_page_list (2 * FREE_PAGE_LIST_SIZE) := by
  simp only [Block.Holds, free_page_list, DatabaseHeader.free_page_list, DBPage.data,
    DBPageHeader.sizeof, PAGE_SIZE, FREE_PAGE_LIST_SIZE]
  omega

theorem free_page_list_ne_zero (x : OpenDb) : x.free_page_list ≠ 0 := by
  simp only [free_page_list, DatabaseHeader.free_page_list, DBPage.data, DBPageHeader.sizeof]
  omega

/-- The page that a call writes to is mapped. -/
def Reaches (x : OpenDb) : FreePageOp → Prop
  | .allocate_page p _ => x.Maps p
  | _ => True

/-- **One call**, from a tracker that is not `NULL`: it stops only where `malloc` has no region. -/
theorem Sound.call {x : OpenDb} (hx : x.Sound) (hmap : x.free_page_map ≠ 0) (M : Malloc)
    {op : FreePageOp} (hop : x.Reaches op) :
    Safe (M.address x.heap.live RadixHeap.REGION_SIZE = 0) (x.call (M, op)) fun x' =>
      x'.Sound ∧ x'.pager = op.exec x.pager := by
  obtain ⟨base, m, hheader, k⟩ := hx hmap
  cases op with
  | mark_page_free p =>
      simp only [OpenDb.call, OpenDb.mark_page_free, tracker_eq hmap, ok_bind]
      refine Safe.bind (k.mark_page_free M p) fun h k' => ⟨fun _ => ⟨base, m, hheader, ?_⟩, rfl⟩
      rw [Db.mark_page_free_map]
      exact k'
  | mark_page_used p =>
      obtain ⟨h, hrun, -, k'⟩ := k.mark_page_used p
      simp only [OpenDb.call, OpenDb.mark_page_used, tracker_eq hmap, hrun, ok_bind]
      refine ⟨fun _ => ⟨base, m, hheader, ?_⟩, rfl⟩
      rw [Db.mark_page_used_map]
      exact k'
  | get_free_page =>
      obtain ⟨page_no, h, hrun, -, -, k'⟩ := TrackerHeap.Keeps.get_free_page k
      simp only [OpenDb.call, OpenDb.get_free_page, tracker_eq hmap, hrun, ok_bind]
      exact ⟨fun _ => ⟨base, m, hheader, k'⟩, rfl⟩
  | allocate_page p flag =>
      obtain ⟨h, hrun, -, k'⟩ := k.mark_page_used p
      have hmaps : x.Maps p := hop
      simp only [OpenDb.call, OpenDb.allocate_page, if_pos hmaps, tracker_eq hmap, hrun, ok_bind]
      refine ⟨fun _ => ⟨base, m, hheader, ?_⟩, rfl⟩
      rw [Db.allocate_page_map]
      exact k'
  | sync_free_page_list =>
      obtain ⟨m', h, hrun, k'⟩ :=
        k.sync_tracker hheader x.free_page_list_ne_zero x.free_page_list_holds
      simp only [OpenDb.call, OpenDb.sync_free_page_list, tracker_eq hmap, hrun, ok_bind]
      refine ⟨fun _ => ⟨base, m', hheader, ?_⟩, rfl⟩
      rw [Db.sync_free_page_list_map]
      exact k'

/-- Every call follows the tracker. -/
theorem call_null {x : OpenDb} (hmap : x.free_page_map = 0) (M : Malloc) (op : FreePageOp) :
    x.call (M, op) = .error .invalid := by
  cases op with
  | allocate_page p flag =>
      -- `memset` comes first, and stops outside the mapping
      simp only [OpenDb.call, OpenDb.allocate_page, tracker_null hmap]
      split <;> rfl
  | mark_page_free p => rw [OpenDb.call, OpenDb.mark_page_free, tracker_null hmap]; rfl
  | mark_page_used p => rw [OpenDb.call, OpenDb.mark_page_used, tracker_null hmap]; rfl
  | get_free_page => rw [OpenDb.call, OpenDb.get_free_page, tracker_null hmap]; rfl
  | sync_free_page_list => rw [OpenDb.call, OpenDb.sync_free_page_list, tracker_null hmap]; rfl

/-- A call that returns has followed a tracker, and has not left the mapping. -/
theorem reaches_of_ok {x x' : OpenDb} {M : Malloc} {op : FreePageOp}
    (h : x.call (M, op) = .ok x') : x.free_page_map ≠ 0 ∧ x.Reaches op := by
  refine ⟨fun hmap => ?_, ?_⟩
  · rw [call_null hmap] at h
    cases h
  · cases op with
    | allocate_page p flag =>
        by_contra hout
        have hout : ¬ x.Maps p := hout
        rw [OpenDb.call, OpenDb.allocate_page, if_neg hout] at h
        cases h
    | _ => trivial

/-- **A run that returns** has done to the pager what the calls do. -/
theorem Sound.run (calls : List (Malloc × FreePageOp)) : ∀ {x last : OpenDb}, x.Sound →
    calls.foldlM OpenDb.call x = .ok last →
      last.Sound ∧ last.pager = (calls.map Prod.snd).foldl FreePageOp.exec x.pager := by
  induction calls with
  | nil =>
      rintro x last hx ⟨⟩
      exact ⟨hx, rfl⟩
  | cons c calls ih =>
      obtain ⟨M, op⟩ := c
      intro x last hx hrun
      rw [List.foldlM_cons] at hrun
      generalize hcall : x.call (M, op) = r at hrun
      match r with
      | .error _ => cases hrun
      | .ok x' =>
          obtain ⟨hmap, hop⟩ := reaches_of_ok hcall
          obtain ⟨hx', hpager⟩ := (hx.call hmap M hop).of_ok hcall
          rw [List.map_cons, List.foldl_cons, ← hpager]
          exact ih hx' hrun

/-! ## §3. Opening and creating. -/

theorem keeps_load {base : List Block} {m : Mem} {map : Nat} (M : Malloc) (entries : List UInt16) :
    ∀ {h h' : Heap} {t : PageTracker}, TrackerHeap.Keeps base m h map t →
      entries.foldlM (load_entry M map) h = .ok h' →
        TrackerHeap.Keeps base m h' map (entries.foldl load_free_page t) := by
  induction entries with
  | nil =>
      rintro h h' t k ⟨⟩
      exact k
  | cons page_no entries ih =>
      intro h h' t k hrun
      rw [List.foldlM_cons, load_entry] at hrun
      rw [List.foldl_cons, load_free_page]
      by_cases hpos : page_no > 0
      · rw [if_pos hpos] at hrun ⊢
        have hspec := k.mark_page_free M page_no
        generalize TrackerHeap.mark_page_free M h map page_no = r at hrun hspec
        cases r with
        | error _ => cases hrun
        | ok h₁ => exact ih hspec hrun
      · rw [if_neg hpos] at hrun ⊢
        exact ih k hrun

/-- A block stays in use over `malloc` and `memset`. -/
theorem mem_malloc {h : Heap} {b : Block} (hb : b ∈ h.live) (M : Malloc) (n : Nat) :
    b ∈ (h.malloc M n).2.live := by
  by_cases hz : M.address h.live n = 0
  · rw [Heap.malloc_of_eq hz]
    exact hb
  · rw [(Heap.malloc_of_ne hz).2.1]
    exact List.mem_cons_of_mem _ hb

theorem mem_memset {h h' : Heap} {b : Block} (hb : b ∈ h.live) {a n : Nat} {v : UInt8}
    (hset : h.memset a v n = .ok h') : b ∈ h'.live := by
  unfold Heap.memset at hset
  split at hset
  · cases hset
    exact hb
  · cases hset

/-- The tracker of a new pager: the heap's is loaded from the same entries. -/
theorem keeps_init {M : Malloc} {h₀ h' : Heap} {map : Nat} {pager : Pager} {b : Block}
    (hb : b ∈ h₀.live) (hinit : init_free_page_map M h₀ pager = .ok (map, h')) (hmap : map ≠ 0) :
    ∃ base m, b ∈ base
      ∧ TrackerHeap.Keeps base m h' map (Db.init_free_page_map pager).free_page_map := by
  obtain ⟨⟨map₁, h⟩, htracker, hload⟩ := ok_of_bind hinit
  by_cases hz : M.address h₀.live TrackerHeap.TRACKER_SIZE = 0
  · -- `malloc` has no block, so the address is 0
    simp only [TrackerHeap.init_tracker, Heap.malloc_of_eq hz, if_true] at htracker
    cases htracker
    cases hload
    exact absurd rfl hmap
  by_cases htree : M.address
      (⟨M.address h₀.live TrackerHeap.TRACKER_SIZE, TrackerHeap.TRACKER_SIZE⟩ :: h₀.live)
      RadixHeap.TREE_SIZE = 0
  · rw [TrackerHeap.init_tracker_null M h₀ rfl hz htree] at htracker
    cases htracker
  obtain ⟨tree, h₁, hrun, hkeeps, -⟩ := TrackerHeap.init_tracker_spec M h₀ rfl hz htree
  rw [hrun] at htracker
  cases htracker
  simp only [if_neg hz] at hload
  obtain ⟨h₂, hentries, hload⟩ := ok_of_bind hload
  cases hload
  refine ⟨⟨tree, RadixHeap.TREE_SIZE⟩ :: h₀.live, h.mem, List.mem_cons_of_mem _ hb, ?_⟩
  unfold load_tracker at hentries
  split at hentries
  · exact keeps_load M _ hkeeps hentries
  · cases hentries

/-- Loading does not look at the tracker that was there. -/
theorem loaded_again (pager : Pager) :
    (Db.init_free_page_map (Db.init_free_page_map pager)).free_page_map
      = (Db.init_free_page_map pager).free_page_map := by
  simp only [Db.init_free_page_map, pager_get_page_zero]
  rfl

/-- What `init_pager` returns. -/
theorem sound_init {M : Malloc} {p : Process} {sys : OpenCalls} {filename_length : Nat}
    {bytes : Mem} {length : Nat} {x : OpenDb}
    (h : OpenDb.init_pager M p sys filename_length bytes length = .ok (some x)) :
    x.Sound ∧ Db.init_pager sys bytes length = some x.pager := by
  unfold OpenDb.init_pager at h
  have hlive := p.mapped
  -- the pager and the two names
  have hlive₁ := mem_malloc hlive M PAGER_SIZE
  generalize p.heap.malloc M PAGER_SIZE = v at h hlive₁
  obtain ⟨address, h₁⟩ := v
  simp only at h hlive₁
  split at h
  · cases h
  obtain ⟨h₂, hset, h⟩ := ok_of_bind h
  have hlive₂ := mem_malloc (mem_memset hlive₁ hset) M (filename_length + 1)
  generalize h₂.malloc M (filename_length + 1) = v at h hlive₂
  obtain ⟨filename, h₃⟩ := v
  simp only at h hlive₂
  split at h
  · obtain ⟨_, _, h⟩ := ok_of_bind h
    cases h
  have hlive₃ := mem_malloc hlive₂ M (filename_length + JOURNAL_FILE_EXTENSION_LENGTH + 1)
  generalize h₃.malloc M (filename_length + JOURNAL_FILE_EXTENSION_LENGTH + 1) = v at h hlive₃
  obtain ⟨journal_filename, h₄⟩ := v
  simp only at h hlive₃
  split at h
  · obtain ⟨_, _, h⟩ := ok_of_bind h
    obtain ⟨_, _, h⟩ := ok_of_bind h
    cases h
  -- the system calls, the tracker and the journal file
  split at h
  next =>
    obtain ⟨_, _, h⟩ := ok_of_bind h
    cases h
  next pager hopen =>
    obtain ⟨⟨map, h₅⟩, hinit, h⟩ := ok_of_bind h
    split at h
    · obtain ⟨_, _, h⟩ := ok_of_bind h
      cases h
    next hjournal =>
      cases h
      have hsys : { sys with openJournal := true } = sys := by
        rw [← Bool.eq_true_of_not_eq_false hjournal]
      rw [hsys] at hopen
      refine ⟨fun hmap => ?_, hopen⟩
      have hkeeps := keeps_init hlive₃ hinit hmap
      rw [init_pager_eq_some hopen, loaded_again] at hkeeps
      rw [init_pager_eq_some hopen]
      exact hkeeps

/-- The names of the pager's own functions are those of `Db`. -/
theorem sound_new_db {sys : Syscalls} {x x' : OpenDb} (hx : x.Sound)
    (h : x.pager_init_new_db sys = .ok (PSQL_OK, x')) :
    x'.Sound ∧ Db.pager_init_new_db sys x.pager = (PSQL_OK, x'.pager) := by
  unfold OpenDb.pager_init_new_db at h
  split at h
  next pager hnew =>
    obtain ⟨map, htracker, h⟩ := ok_of_bind h
    obtain ⟨h₁, hrun₁, h⟩ := ok_of_bind h
    obtain ⟨h₂, hrun₂, h⟩ := ok_of_bind h
    obtain ⟨h₃, hrun₃, h⟩ := ok_of_bind h
    cases h
    refine ⟨fun (hmap : x.free_page_map ≠ 0) => ?_, hnew⟩
    obtain ⟨base, m, hheader, k⟩ := hx hmap
    rw [tracker_eq hmap] at htracker
    cases htracker
    have k₃ := ((k.used_of_ok hrun₁).used_of_ok hrun₂).used_of_ok hrun₃
    refine ⟨base, m, hheader, ?_⟩
    obtain ⟨-, hpager⟩ := pager_init_new_db_ok hnew
    rw [hpager]
    simp only [init_index_internal_page, Db.allocate_page_map, Pager.withMem_map,
      allocate_new_db_pages_map]
    exact k₃
  next status pager hne hnew =>
    cases h
    exact (hne rfl).elim

/-- A database that was just created, on whatever heap and in whatever file. -/
inductive New : OpenDb → Prop where
  | mk {M : Malloc} {p : Process} {open_sys : OpenCalls} {sys : Syscalls} {filename_length : Nat}
      {bytes : Mem} {length : Nat} {start x : OpenDb} :
      length < 2 ^ 63 → OpenDb.init_pager M p open_sys filename_length bytes length
        = .ok (some start) →
      start.pager_init_new_db sys = .ok (PSQL_OK, x) → New x

theorem New.sound {x : OpenDb} (h : New x) : x.Sound ∧ NewDb x.pager := by
  cases h with
  | mk hlength hopen hnew =>
      obtain ⟨hstart, hpager⟩ := sound_init hopen
      obtain ⟨hx, hcreated⟩ := sound_new_db hstart hnew
      exact ⟨hx, .mk hlength hpager hcreated⟩

/-! ## §4. The close. -/

/-- When no system call fails, the close is that of the file, that of the tracker and the frees
behind it. -/
theorem pager_close_db_eq {sys : CloseCalls} {x : OpenDb} {pager : Pager}
    (hfile : close_file sys x.pager = (PSQL_OK, pager)) : x.pager_close_db sys = (do
      let map ← x.tracker
      let h ← TrackerHeap.close_tracker x.heap map x.free_page_list
      let h ← h.free x.filename
      let h ← h.free x.journal_filename
      let h ← h.free x.address
      return (PSQL_OK, { x with pager := pager, heap := h })) := by
  have hflush : pager_flush_cache sys x.pager = PSQL_OK := by
    unfold close_file at hfile
    split at hfile
    next heq => exact heq
    next => exact congrArg Prod.fst hfile
  rw [OpenDb.pager_close_db, hflush]
  simp only [hfile, TrackerHeap.close_tracker, bind_assoc]

/-- **No close returns**: everything is written, and then `free` is given an address inside the
tracker. -/
theorem Sound.close {x : OpenDb} (hx : x.Sound) : x.pager_close_db .ok = .error .invalid := by
  rw [pager_close_db_eq (Prod.ext (close_file_spec x.pager).1 rfl)]
  by_cases hmap : x.free_page_map = 0
  · rw [tracker_null hmap]
    rfl
  · obtain ⟨base, m, hheader, k⟩ := hx hmap
    rw [tracker_eq hmap, ok_bind, k.close_tracker (.inr ⟨_, hheader, x.free_page_list_holds⟩)]
    rfl

/-- The session returns, the close returns `PSQL_OK`, and opening the file again restores the
database. -/
def CloseReopens (session : Checked OpenDb) : Prop :=
  ∃ last closed reopened, session = .ok last
    ∧ last.pager_close_db .ok = .ok (PSQL_OK, closed)
    ∧ Db.init_pager .ok closed.pager.db_pager.file closed.pager.db_pager.file_end = some reopened
    ∧ Restored last.pager reopened

theorem not_closeReopens {session : Checked OpenDb}
    (h : ∀ last, session = .ok last → last.pager_close_db .ok = .error .invalid) :
    ¬ CloseReopens session := by
  rintro ⟨last, closed, -, hrun, hclose, -⟩
  rw [h last hrun] at hclose
  cases hclose

/-- **Closing never returns**: a new database and any calls of the free-page interface.  When
they return, the close faults; by then the file is complete, and opening it restores the
database. -/
theorem close_never_returns (x : OpenDb) (h : New x) (calls : List (Malloc × FreePageOp)) :
    ¬ CloseReopens (calls.foldlM OpenDb.call x)
    ∧ ∀ last, calls.foldlM OpenDb.call x = .ok last →
        last.pager_close_db .ok = .error .invalid
        ∧ ∃ written reopened, close_file .ok last.pager = (PSQL_OK, written)
          ∧ Db.init_pager .ok written.db_pager.file written.db_pager.file_end = some reopened
          ∧ Restored last.pager reopened := by
  obtain ⟨hx, hnew⟩ := h.sound
  have hclose : ∀ last, calls.foldlM OpenDb.call x = .ok last →
      last.pager_close_db .ok = .error .invalid := fun last hrun => (hx.run calls hrun).1.close
  refine ⟨not_closeReopens hclose, fun last hrun => ⟨hclose last hrun, ?_⟩⟩
  obtain ⟨-, hpager⟩ := hx.run calls hrun
  have hclosable : Closable last.pager := by
    rw [hpager]
    exact Closable.run _ ⟨hnew.created.tracked, hnew.created.magic, hnew.created.file⟩
  exact ⟨(close_file .ok last.pager).2, reopened_pager last.pager,
    Prod.ext (close_file_spec last.pager).1 rfl, init_pager_ok _ _, hclosable.restored⟩

/-- The header's page is the only block in use. -/
def empty_process : Process := ⟨TrackerHeap.pager_heap, 4096, by decide⟩

/-- A new database in an empty file, whose name has eight characters. -/
def new_open_db : Checked OpenDb := do
  match ← OpenDb.init_pager .bump empty_process .ok 8 (fun _ => 0) 0 with
  | none => .error .invalid
  | some start =>
      match ← start.pager_init_new_db .ok with
      | (PSQL_OK, x) => return x
      | _ => .error .invalid

theorem new_of_ok {x : OpenDb} (h : new_open_db = .ok x) : New x := by
  obtain ⟨start?, hopen, h⟩ := ok_of_bind h
  match start? with
  | none => cases h
  | some start =>
      obtain ⟨⟨status, x'⟩, hcreate, h⟩ := ok_of_bind h
      split at h
      next heq =>
        cases heq
        cases h
        exact .mk (Nat.two_pow_pos 63) hopen hcreate
      next => cases h

def returns {α : Type} (x : Checked α) : Bool :=
  match x with
  | .ok _ => true
  | .error _ => false

theorem ok_of_returns {α : Type} {x : Checked α} (h : returns x = true) : ∃ v, x = .ok v := by
  match x with
  | .ok v => exact ⟨v, rfl⟩
  | .error _ => cases h

/-- Calls that return on the new database. -/
theorem new_session (calls : List (Malloc × FreePageOp))
    (h : returns (new_open_db >>= calls.foldlM OpenDb.call) = true) :
    ∃ x last, New x ∧ calls.foldlM OpenDb.call x = .ok last := by
  obtain ⟨last, hrun⟩ := ok_of_returns h
  obtain ⟨x, hnew, hcalls⟩ := ok_of_bind hrun
  exact ⟨x, last, new_of_ok hnew, hcalls⟩

/-- Pages are freed, taken and initialised, and the list is synced. -/
def some_calls : List (Malloc × FreePageOp) :=
  [(.bump, .mark_page_free ⟨12, by decide⟩), (.bump, .mark_page_free ⟨11, by decide⟩),
    (.bump, .get_free_page), (.bump, .allocate_page ⟨3, by decide⟩ PAGE_DATA),
    (.bump, .mark_page_free ⟨13, by decide⟩), (.bump, .sync_free_page_list)]

theorem close_never_returns_some_calls : ∃ x last, New x
    ∧ some_calls.foldlM OpenDb.call x = .ok last
    ∧ ¬ CloseReopens (some_calls.foldlM OpenDb.call x)
    ∧ last.pager_close_db .ok = .error .invalid
    ∧ ∃ written reopened, close_file .ok last.pager = (PSQL_OK, written)
      ∧ Db.init_pager .ok written.db_pager.file written.db_pager.file_end = some reopened
      ∧ Restored last.pager reopened := by
  obtain ⟨x, last, hnew, hrun⟩ := new_session some_calls (by decide +kernel)
  obtain ⟨hreopens, hclose⟩ := close_never_returns x hnew some_calls
  exact ⟨x, last, hnew, hrun, hreopens, hclose last hrun⟩

/-- Page 5 is freed, and the close of the new database faults. -/
theorem close_faults :
    let calls : List (Malloc × FreePageOp) := [(.bump, .mark_page_free ⟨5, by decide⟩)]
    ∃ x last, New x ∧ calls.foldlM OpenDb.call x = .ok last
      ∧ last.pager_close_db .ok = .error .invalid
      ∧ ¬ CloseReopens (calls.foldlM OpenDb.call x) := by
  intro calls
  obtain ⟨x, last, hnew, hrun⟩ := new_session calls (by decide +kernel)
  have hclose : ∀ last, calls.foldlM OpenDb.call x = .ok last →
      last.pager_close_db .ok = .error .invalid := fun last h => (hnew.sound.1.run calls h).1.close
  exact ⟨x, last, hnew, hrun, hclose last hrun, not_closeReopens hclose⟩

end OpenDb

end PreSeQL.Db
