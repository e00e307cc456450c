/-
  PreSeQL.Pager.Mapping — the three variables of the mapping.

  `mem_start`, `file_size` and the length of the file are set together by `init_pager`
  only.  Growing the file moves the length first, then the mapping, and never the
  recorded size:

    • `resize_mmap_consistent_iff` — when a growth leaves the variables in step,
    • `MapOp.fine_iff` — the condition of one call,
    • `mapping_consistent_iff` — every run of calls, whatever fails in them.
-/
import PreSeQL.Pager.NewDb

namespace PreSeQL.Db

open PreSeQL.Lib PreSeQL.Lib.Run

/-! ## §1. Calls. -/

/-- What is recorded about the mapping: its length when it is live, `file_size`, and the
length of the file. -/
structure Bookkeeping where
  mem_start : Option Nat
  file_size : Nat
  file_length : Nat
  deriving DecidableEq

def DatabasePager.bookkeeping (db : DatabasePager) : Bookkeeping :=
  ⟨db.mapped, db.file_size, db.file_end⟩

/-- The mapping is live and has the recorded size, which is the length of the file. -/
def DatabasePager.Consistent (db : DatabasePager) : Prop :=
  db.mapped = some db.file_size ∧ db.file_size = db.file_end

/-- The file before a pager was opened on it, and the last pager. -/
inductive DbState where
  | unopened (bytes : Mem) (length : Nat)
  | opened (pager : Pager)

namespace DbState

def bytes : DbState → Mem
  | unopened bytes length => fun i => if i < length then bytes i else 0
  | opened pager => pager.db_pager.file

def length : DbState → Nat
  | unopened _ length => length
  | opened pager => pager.db_pager.file_end

def bookkeeping : DbState → Bookkeeping
  | unopened _ length => ⟨none, 0, length⟩
  | opened pager => pager.db_pager.bookkeeping

def Consistent : DbState → Prop
  | unopened _ _ => True
  | opened pager => pager.db_pager.Consistent

end DbState

/-- The length `init_pager` leaves the file with: an empty one is grown before the calls
that may still fail. -/
def init_pager_length (sys : OpenCalls) (length : Nat) : Nat :=
  if sys.openFile = false then length
  else if sys.fstat = false then length
  else if length = 0 ∧ sys.ftruncate = false then length
  else if length = 0 then PAGE_SIZE else length

inductive MapOp where
  | init_pager (sys : OpenCalls)
  | pager_init_new_db (sys : Syscalls)
  | allocate_new_db_page (sys : Syscalls)
  | allocate_new_db_pages (sys : Syscalls) (num_pages : UInt64)

/-- The state after a call of `init_pager` that fails: a pager that was open before still
is. -/
def DbState.init_failed (sys : OpenCalls) : DbState → DbState
  | unopened bytes length =>
      unopened (fun i => if i < length then bytes i else 0) (init_pager_length sys length)
  | opened pager =>
      opened { pager with db_pager := { pager.db_pager with
        file_end := init_pager_length sys pager.db_pager.file_end } }

/-- A call on the open pager; there is none before `init_pager` has succeeded. -/
def DbState.call (call : Pager → Bool × Pager) : DbState → Bool × DbState
  | unopened bytes length => (false, unopened bytes length)
  | opened pager => ((call pager).1, opened (call pager).2)

/-- Whether a call reports success, and the state after it. -/
def MapOp.run (s : DbState) : MapOp → Bool × DbState
  | .init_pager sys =>
      match Db.init_pager sys s.bytes s.length with
      | some pager => (true, .opened pager)
      | none => (false, s.init_failed sys)
  | .pager_init_new_db sys => s.call fun pager =>
      let r := Db.pager_init_new_db sys pager
      (decide (r.1 = .PSQL_OK), r.2)
  | .allocate_new_db_page sys => s.call fun pager =>
      let r := Db.allocate_new_db_page sys pager
      (r.1 != 0, r.2)
  | .allocate_new_db_pages sys num_pages => s.call fun pager =>
      let r := Db.allocate_new_db_pages sys pager num_pages.toNat
      (r.1 != 0, r.2)

def MapOp.exec (s : DbState) (op : MapOp) : DbState := (op.run s).2

/-- A call leaves the variables in step, and as they were when it reports a failure. -/
structure MapOp.Fine (s : DbState) (op : MapOp) : Prop where
  consistent : (op.run s).2.Consistent
  unchanged : (op.run s).1 = false → (op.run s).2.bookkeeping = s.bookkeeping

/-! ## §2. One growth. -/

/-- Nothing happens to the mapping: `ftruncate` fails, or leaves the length as it is and
the mapping is not lost. -/
def ResizesNothing (sys : Syscalls) (db : DatabasePager) (new_size : Nat) : Prop :=
  sys.ftruncate = false ∨ 2 ^ 63 ≤ new_size
  ∨ new_size = db.file_end ∧ ¬ (sys.munmap = true ∧ sys.mmap = false)

theorem resize_mmap_consistent_iff {sys : Syscalls} {db : DatabasePager} {new_size : Nat}
    (h : db.Consistent) :
    (resize_mmap sys db new_size).1.Consistent ↔ ResizesNothing sys db new_size := by
  obtain ⟨hmapped, hsize⟩ := h
  unfold resize_mmap ResizesNothing
  by_cases htrunc : sys.ftruncate = false ∨ 2 ^ 63 ≤ new_size
  · rw [if_pos htrunc]
    exact iff_of_true ⟨hmapped, hsize⟩ (htrunc.elim Or.inl fun h => Or.inr (Or.inl h))
  · -- the file has the new length
    obtain ⟨hftruncate, hlt⟩ := not_or.mp htrunc
    rw [if_neg htrunc, or_iff_right hftruncate, or_iff_right hlt]
    by_cases hmunmap : sys.munmap = false
    · rw [if_pos hmunmap]
      have hno : ¬ (sys.munmap = true ∧ sys.mmap = false) := by
        rw [hmunmap]
        exact fun h => Bool.false_ne_true h.1
      rw [and_iff_left hno]
      exact ⟨fun h => h.2.symm.trans hsize, fun h => ⟨hmapped, hsize.trans h.symm⟩⟩
    rw [if_neg hmunmap]
    by_cases hmmap : sys.mmap = false
    · -- the old mapping is gone and there is no new one
      rw [if_pos hmmap]
      have hlost : sys.munmap = true ∧ sys.mmap = false :=
        ⟨Bool.eq_true_of_not_eq_false hmunmap, hmmap⟩
      exact iff_of_false (fun h => by cases h.1) fun h => h.2 hlost
    · rw [if_neg hmmap, and_iff_left fun h => hmmap h.2]
      exact ⟨fun h => h.2.symm.trans hsize,
        fun h => ⟨congrArg some (h.trans hsize.symm), hsize.trans h.symm⟩⟩

/-- In step after a growth means as before. -/
theorem resize_mmap_bookkeeping {sys : Syscalls} {db : DatabasePager} {new_size : Nat}
    (h : db.Consistent) (h' : (resize_mmap sys db new_size).1.Consistent) :
    (resize_mmap sys db new_size).1.bookkeeping = db.bookkeeping := by
  have hsize : (resize_mmap sys db new_size).1.file_size = db.file_size := by
    unfold resize_mmap
    split
    · rfl
    split
    · rfl
    split <;> rfl
  unfold DatabasePager.bookkeeping
  rw [h'.1, ← h'.2, h.1, ← h.2, hsize]

/-- The file after an attempt to grow it that may be refused before `ftruncate`. -/
def grow_unless (refused : Bool) (sys : Syscalls) (db : DatabasePager) (new_size : Nat) :
    DatabasePager :=
  if refused then db else (resize_mmap sys db new_size).1

theorem grow_unless_consistent_iff {refused : Bool} {sys : Syscalls} {db : DatabasePager}
    {new_size : Nat} (h : db.Consistent) :
    (grow_unless refused sys db new_size).Consistent
      ↔ refused = true ∨ ResizesNothing sys db new_size := by
  unfold grow_unless
  cases refused with
  | true => exact iff_of_true h (Or.inl rfl)
  | false => exact (resize_mmap_consistent_iff h).trans (or_iff_right Bool.false_ne_true).symm

theorem grow_unless_bookkeeping {refused : Bool} {sys : Syscalls} {db : DatabasePager}
    {new_size : Nat} (h : db.Consistent)
    (h' : (grow_unless refused sys db new_size).Consistent) :
    (grow_unless refused sys db new_size).bookkeeping = db.bookkeeping := by
  unfold grow_unless at h' ⊢
  cases refused with
  | true => rfl
  | false => exact resize_mmap_bookkeeping h h'

theorem allocate_new_db_page_db (sys : Syscalls) (pager : Pager) :
    (allocate_new_db_page sys pager).2.db_pager = grow_unless (!sys.lseek) sys pager.db_pager
      (pager.db_pager.file_end + PAGE_SIZE) := by
  unfold allocate_new_db_page grow_unless
  cases sys.lseek with
  | false => rfl
  | true =>
      simp only [Bool.true_eq_false, if_false, Bool.not_true, Bool.false_eq_true]
      split
      next h => rw [h]
      next h => rw [h]

theorem allocate_new_db_pages_db (sys : Syscalls) (pager : Pager) (num_pages : Nat) :
    (allocate_new_db_pages sys pager num_pages).2.db_pager
      = grow_unless (num_pages == 0 || !sys.lseek) sys pager.db_pager
        ((pager.db_pager.file_end + num_pages * PAGE_SIZE % 2 ^ 64) % 2 ^ 64) := by
  unfold allocate_new_db_pages grow_unless
  by_cases hnum : num_pages = 0
  · rw [if_pos hnum, hnum]
    rfl
  · have hfalse : (num_pages == 0) = false := beq_eq_false_iff_ne.mpr hnum
    rw [if_neg hnum, hfalse]
    cases sys.lseek with
    | false => rfl
    | true =>
        simp only [Bool.true_eq_false, if_false, Bool.not_true, Bool.or_self, Bool.false_eq_true]
        split
        next h => rw [h]
        next h => rw [h]

theorem allocate_page_bookkeeping (pager : Pager) (page_no : UInt16) (flag : UInt8) :
    (allocate_page pager page_no flag).2.db_pager.bookkeeping = pager.db_pager.bookkeeping := by
  simp only [allocate_page, mark_page_used, pager_get_page_zero]
  split <;> rfl

/-- Creating a database grows the file by four pages, if it is not refused. -/
theorem pager_init_new_db_bookkeeping (sys : Syscalls) (pager : Pager) :
    (pager_init_new_db sys pager).2.db_pager.bookkeeping
      = (grow_unless (decide (pager.flags &&& PAGER_READONLY ≠ 0) || !sys.lseek) sys
          pager.db_pager ((pager.db_pager.file_end + 4 * PAGE_SIZE) % 2 ^ 64)).bookkeeping := by
  unfold pager_init_new_db
  by_cases hflags : pager.flags &&& PAGER_READONLY ≠ 0
  · rw [if_pos hflags, decide_eq_true hflags]
    rfl
  · have hgrown : (allocate_new_db_pages sys pager 4).2.db_pager = grow_unless (!sys.lseek) sys
        pager.db_pager ((pager.db_pager.file_end + 4 * PAGE_SIZE) % 2 ^ 64) :=
      allocate_new_db_pages_db sys pager 4
    rw [if_neg hflags, decide_eq_false hflags, Bool.false_or, ← hgrown]
    split
    next highest_page grown h =>
      rw [h]
      split
      · rfl
      · -- the header and the catalog pages are written into the mapping
        simp only [pager_get_page_zero, init_index_internal_page, allocate_page_bookkeeping]
        rfl

/-! ## §3. One call. -/

/-- The calls on an open pager that leave the variables in step. -/
def MapOp.KeepsMapping (pager : Pager) : MapOp → Prop
  | .init_pager _ => True
  | .pager_init_new_db sys =>
      pager.flags &&& PAGER_READONLY ≠ 0 ∨ sys.lseek = false
      ∨ ResizesNothing sys pager.db_pager ((pager.db_pager.file_end + 4 * PAGE_SIZE) % 2 ^ 64)
  | .allocate_new_db_page sys =>
      sys.lseek = false
      ∨ ResizesNothing sys pager.db_pager (pager.db_pager.file_end + PAGE_SIZE)
  | .allocate_new_db_pages sys num_pages =>
      num_pages = 0 ∨ sys.lseek = false
      ∨ ResizesNothing sys pager.db_pager
        ((pager.db_pager.file_end + num_pages.toNat * PAGE_SIZE % 2 ^ 64) % 2 ^ 64)

/-- Opening fails after it has grown an empty file. -/
def FailsGrown (sys : OpenCalls) (length : Nat) : Prop :=
  length = 0 ∧ sys.openFile = true ∧ sys.fstat = true ∧ sys.ftruncate = true
  ∧ (sys.mmap = false ∨ sys.openJournal = false)

/-- The calls that leave the variables in step. -/
def MapOp.StaysInStep (s : DbState) (op : MapOp) : Prop :=
  (∀ sys, op = .init_pager sys → ¬ FailsGrown sys s.length)
  ∧ ∀ pager, s = .opened pager → op.KeepsMapping pager

/-- In step depends on the three variables only. -/
theorem consistent_congr {db db' : DatabasePager} (h : db'.bookkeeping = db.bookkeeping) :
    db'.Consistent ↔ db.Consistent := by
  have hmapped : db'.mapped = db.mapped := congrArg Bookkeeping.mem_start h
  have hsize : db'.file_size = db.file_size := congrArg Bookkeeping.file_size h
  have hend : db'.file_end = db.file_end := congrArg Bookkeeping.file_length h
  unfold DatabasePager.Consistent
  rw [hmapped, hsize, hend]

/-- A call that only tries to grow the file. -/
theorem MapOp.fine_iff_of_grow {pager pager' : Pager} {op : MapOp} {reported refused : Bool}
    {sys : Syscalls} {new_size : Nat} (h : pager.db_pager.Consistent)
    (hrun : op.run (.opened pager) = (reported, .opened pager'))
    (hdb : pager'.db_pager.bookkeeping
      = (grow_unless refused sys pager.db_pager new_size).bookkeeping) :
    op.Fine (.opened pager) ↔ refused = true ∨ ResizesNothing sys pager.db_pager new_size := by
  rw [← grow_unless_consistent_iff h, ← consistent_congr hdb]
  constructor
  · intro hfine
    have hcons := hfine.consistent
    rw [hrun] at hcons
    exact hcons
  · intro hcons
    refine ⟨?_, fun _ => ?_⟩
    · rw [hrun]
      exact hcons
    · rw [hrun]
      exact hdb.trans (grow_unless_bookkeeping h ((consistent_congr hdb).mp hcons))

/-- An opened file is mapped as a whole. -/
theorem init_pager_consistent {sys : OpenCalls} {bytes : Mem} {length : Nat} {pager : Pager}
    (h : init_pager sys bytes length = some pager) : pager.db_pager.Consistent := by
  rw [init_pager_eq_some h]
  exact ⟨rfl, rfl⟩

/-- Opening succeeds when all calls it needs do. -/
theorem init_pager_some_calls {sys : OpenCalls} {bytes : Mem} {length : Nat} {pager : Pager}
    (h : init_pager sys bytes length = some pager) :
    ¬ (sys.mmap = false ∨ sys.openJournal = false) := by
  unfold init_pager at h
  split at h
  · cases h
  split at h
  · cases h
  split at h
  · cases h
  split at h
  · cases h
  next hmmap =>
    simp only at h
    split at h
    · cases h
    next hjournal => exact not_or.mpr ⟨hmmap, hjournal⟩

/-- Opening fails without a trace unless it grows an empty file first. -/
theorem init_pager_length_eq_iff {sys : OpenCalls} {bytes : Mem} {length : Nat}
    (h : init_pager sys bytes length = none) :
    init_pager_length sys length = length ↔ ¬ FailsGrown sys length := by
  unfold init_pager_length FailsGrown
  by_cases hopen : sys.openFile = false
  · rw [if_pos hopen, hopen]
    exact iff_of_true rfl fun hgrown => Bool.false_ne_true hgrown.2.1
  rw [if_neg hopen]
  by_cases hfstat : sys.fstat = false
  · rw [if_pos hfstat, hfstat]
    exact iff_of_true rfl fun hgrown => Bool.false_ne_true hgrown.2.2.1
  rw [if_neg hfstat]
  by_cases htrunc : length = 0 ∧ sys.ftruncate = false
  · rw [if_pos htrunc, htrunc.2]
    exact iff_of_true rfl fun hgrown => Bool.false_ne_true hgrown.2.2.2.1
  rw [if_neg htrunc]
  by_cases hzero : length = 0
  · -- the empty file was grown, and a later call has failed
    rw [if_pos hzero, hzero]
    refine iff_of_false (by decide) (not_not.mpr ⟨rfl, Bool.eq_true_of_not_eq_false hopen,
      Bool.eq_true_of_not_eq_false hfstat, ?_, ?_⟩)
    · exact Bool.eq_true_of_not_eq_false fun hfalse => htrunc ⟨hzero, hfalse⟩
    · by_contra hok
      obtain ⟨hmmap, hjournal⟩ := not_or.mp hok
      unfold init_pager at h
      rw [if_neg hopen, if_neg hfstat, if_neg htrunc, if_neg hmmap] at h
      simp only [if_neg hjournal] at h
      cases h
  · rw [if_neg hzero]
    exact iff_of_true rfl fun hgrown => hzero hgrown.1

/-- Opening again, with or without a pager. -/
theorem MapOp.init_pager_fine_iff {s : DbState} (h : s.Consistent) (sys : OpenCalls) :
    (MapOp.init_pager sys).Fine s ↔ ¬ FailsGrown sys s.length := by
  cases hinit : Db.init_pager sys s.bytes s.length with
  | some pager =>
      have hrun : (MapOp.init_pager sys).run s = (true, .opened pager) := by
        rw [MapOp.run, hinit]
      refine iff_of_true ⟨?_, fun hfailed => ?_⟩ fun hgrown =>
        init_pager_some_calls hinit hgrown.2.2.2.2
      · rw [hrun]
        exact init_pager_consistent hinit
      · rw [hrun] at hfailed
        cases hfailed
  | none =>
      have hrun : (MapOp.init_pager sys).run s = (false, s.init_failed sys) := by
        rw [MapOp.run, hinit]
      rw [← init_pager_length_eq_iff hinit]
      constructor
      · intro hfine
        have hsame := hfine.unchanged (by rw [hrun])
        rw [hrun] at hsame
        cases s with
        | unopened bytes length => exact congrArg Bookkeeping.file_length hsame
        | opened pager => exact congrArg Bookkeeping.file_length hsame
      · intro hlength
        have hsame : (s.init_failed sys).bookkeeping = s.bookkeeping := by
          cases s with
          | unopened bytes length => exact congrArg (Bookkeeping.mk none 0) hlength
          | opened pager =>
              exact congrArg (Bookkeeping.mk pager.db_pager.mapped pager.db_pager.file_size) hlength
        refine ⟨?_, fun _ => ?_⟩
        · rw [hrun]
          cases s with
          | unopened bytes length => exact trivial
          | opened pager => exact (@consistent_congr pager.db_pager _ hsame).mpr h
        · rw [hrun]
          exact hsame

theorem MapOp.staysInStep_unopened {bytes : Mem} {length : Nat} (op : MapOp)
    (hop : ∀ sys, op ≠ .init_pager sys) : op.StaysInStep (.unopened bytes length) :=
  ⟨fun sys heq => absurd heq (hop sys), fun _ heq => by cases heq⟩

theorem MapOp.staysInStep_opened {pager : Pager} (op : MapOp)
    (hop : ∀ sys, op ≠ .init_pager sys) :
    op.StaysInStep (.opened pager) ↔ op.KeepsMapping pager := by
  constructor
  · exact fun h => h.2 pager rfl
  · intro h
    refine ⟨fun sys heq => absurd heq (hop sys), fun pager' heq => ?_⟩
    cases heq
    exact h

/-- Before a file is opened only opening does anything. -/
theorem MapOp.fine_iff_unopened {bytes : Mem} {length : Nat} {op : MapOp}
    (hop : ∀ sys, op ≠ .init_pager sys) :
    op.Fine (.unopened bytes length) ↔ op.StaysInStep (.unopened bytes length) := by
  refine iff_of_true ?_ (staysInStep_unopened op hop)
  cases op with
  | init_pager sys => exact absurd rfl (hop sys)
  | _ => exact ⟨trivial, fun _ => rfl⟩

/-- **One call**, from variables in step. -/
theorem MapOp.fine_iff {s : DbState} (h : s.Consistent) (op : MapOp) :
    op.Fine s ↔ op.StaysInStep s := by
  cases op with
  | init_pager sys =>
      rw [MapOp.init_pager_fine_iff h, StaysInStep]
      simp [KeepsMapping]
  | pager_init_new_db sys =>
      have hop : ∀ sys', MapOp.pager_init_new_db sys ≠ .init_pager sys' := by simp
      cases s with
      | unopened bytes length => exact fine_iff_unopened hop
      | opened pager =>
          rw [MapOp.fine_iff_of_grow h rfl (pager_init_new_db_bookkeeping sys pager),
            staysInStep_opened _ hop, KeepsMapping]
          simp only [Bool.or_eq_true, decide_eq_true_eq, Bool.not_eq_true', or_assoc]
  | allocate_new_db_page sys =>
      have hop : ∀ sys', MapOp.allocate_new_db_page sys ≠ .init_pager sys' := by simp
      cases s with
      | unopened bytes length => exact fine_iff_unopened hop
      | opened pager =>
          have hdb := congrArg DatabasePager.bookkeeping (allocate_new_db_page_db sys pager)
          rw [MapOp.fine_iff_of_grow h rfl hdb, staysInStep_opened _ hop, KeepsMapping,
            Bool.not_eq_true']
  | allocate_new_db_pages sys num_pages =>
      have hop : ∀ sys', MapOp.allocate_new_db_pages sys num_pages ≠ .init_pager sys' := by simp
      cases s with
      | unopened bytes length => exact fine_iff_unopened hop
      | opened pager =>
          have hzero : num_pages.toNat = 0 ↔ num_pages = 0 := UInt64.toNat_inj (b := 0)
          have hdb := congrArg DatabasePager.bookkeeping
            (allocate_new_db_pages_db sys pager num_pages.toNat)
          rw [MapOp.fine_iff_of_grow h rfl hdb, staysInStep_opened _ hop, KeepsMapping]
          simp only [Bool.or_eq_true, beq_iff_eq, Bool.not_eq_true', or_assoc, hzero]

/-! ## §4. Runs. -/

/-- **The mapping is consistent after every call**, and unchanged by every call that
reports a failure, exactly when no call of the run grows the file (or fails after doing
so). -/
theorem mapping_consistent_iff (bytes : Mem) (length : Nat) (ops : List MapOp) :
    EachStep MapOp.exec (fun s op => op.Fine s) (.unopened bytes length) ops
      ↔ EachStep MapOp.exec (fun s op => op.StaysInStep s) (.unopened bytes length) ops :=
  eachStep_iff_of_kept (I := DbState.Consistent) (fun _ _ _ hfine => hfine.consistent)
    (fun _ op h => op.fine_iff h) ops _ trivial

/-- Opening an empty file and adding one page: the mapping has two pages, the recorded
size is one. -/
theorem grown_mapping_not_recorded :
    let s := MapOp.exec (MapOp.exec (.unopened (fun _ => 0) 0) (.init_pager .ok))
      (.allocate_new_db_page .ok)
    s.bookkeeping = ⟨some (2 * PAGE_SIZE), PAGE_SIZE, 2 * PAGE_SIZE⟩ ∧ ¬ s.Consistent := by
  intro s
  refine ⟨by decide +kernel, ?_⟩
  have hlost : s.bookkeeping.file_size ≠ s.bookkeeping.file_length := by decide +kernel
  exact fun h => hlost h.2

end PreSeQL.Db
