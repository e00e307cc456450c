/-
  PreSeQL.Allocator.Arena — the arena allocator (`arena.h`, malloc backend).

  An arena is a singly linked list of regions, each one block of `malloc`: a header of
  three words (`next`, `count`, `capacity`) and `capacity` words of data, of which the
  first `count` are handed out.  The functions are embedded on the bytes of a checked heap:
  every field access can fault, `ARENA_ASSERT` is a fault of its own, and sizes are
  `size_t`.  The loops over regions run on fuel, one more than there are live blocks; running
  out of it counts as a fault, so a call that is `Safe` terminates.
-/
import PreSeQL.Lib.Heap

namespace PreSeQL.Allocator

open PreSeQL.Lib

/-! ## §1. The data structures. -/

/-- Unsigned arithmetic of the machine. -/
def size_t (n : Nat) : Nat := n % 2 ^ 64

abbrev ARENA_REGION_DEFAULT_CAPACITY : Nat := 8 * 1024

/-- `&r->next` -/
def next_at (r : Nat) : Nat := r

/-- `&r->count` -/
def count_at (r : Nat) : Nat := r + 8

/-- `&r->capacity` -/
def capacity_at (r : Nat) : Nat := r + 16

/-- `&r->data[i]` -/
def data_at (r i : Nat) : Nat := r + 24 + 8 * i

/-- `struct Arena`: the first region and the one allocations come from. -/
structure Arena where
  begin_ : Nat
  end_ : Nat
  deriving DecidableEq, Repr

/-- `struct Arena_Mark` -/
structure Arena_Mark where
  region : Nat
  count : Nat
  deriving DecidableEq, Repr

/-! ## §2. Regions. -/

def new_region (M : Malloc) (h : Heap) (capacity : Nat) : Checked (Nat × Heap) :=
  match h.malloc M (size_t (24 + 8 * capacity)) with
  | (r, h) =>
      if r = 0 then .error .assertion
      else do
        let h ← h.store (next_at r) 8 0
        let h ← h.store (count_at r) 8 0
        let h ← h.store (capacity_at r) 8 capacity
        return (r, h)

def free_region (h : Heap) (r : Nat) : Checked Heap := h.free r

/-! ## §3. Allocation. -/

/-- `if (a->end == NULL) …`: the first region of the arena. -/
def first_region (M : Malloc) (h : Heap) (a : Arena) (size : Nat) : Checked (Arena × Heap) :=
  if a.end_ ≠ 0 then .ok (a, h)
  else if a.begin_ ≠ 0 then .error .assertion
  else do
    let (r, h) ← new_region M h (max ARENA_REGION_DEFAULT_CAPACITY size)
    return (⟨r, r⟩, h)

/-- `while (a->end->count + size > a->end->capacity && a->end->next != NULL)` -/
def skip_full (h : Heap) (size : Nat) : Nat → Nat → Checked Nat
  | 0, _ => .error .invalid
  | fuel + 1, r => do
      let count ← h.load (count_at r) 8
      let capacity ← h.load (capacity_at r) 8
      if size_t (count + size) ≤ capacity then return r
      else do
        let next ← h.load (next_at r) 8
        if next = 0 then return r else skip_full h size fuel next

/-- `if (a->end->count + size > a->end->capacity) …`: a further region at the end. -/
def append_region (M : Malloc) (h : Heap) (r size : Nat) : Checked (Nat × Heap) := do
  let count ← h.load (count_at r) 8
  let capacity ← h.load (capacity_at r) 8
  if size_t (count + size) ≤ capacity then return (r, h)
  else do
    let next ← h.load (next_at r) 8
    if next ≠ 0 then .error .assertion
    else do
      let (r', h) ← new_region M h (max ARENA_REGION_DEFAULT_CAPACITY size)
      let h ← h.store (next_at r) 8 r'
      return (r', h)

/-- `void *result = &a->end->data[a->end->count]; a->end->count += size;` at `a->end = r`. -/
def take_words (h : Heap) (a : Arena) (r size : Nat) : Checked (Nat × Arena × Heap) := do
  let count ← h.load (count_at r) 8
  let h ← h.store (count_at r) 8 (size_t (count + size))
  return (data_at r count, { a with end_ := r }, h)

/-- Everything behind the first `if`: the walk to a region with room, and the words taken
there. -/
def arena_take (M : Malloc) (h : Heap) (a : Arena) (size : Nat) :
    Checked (Nat × Arena × Heap) := do
  let r ← skip_full h size (h.live.length + 1) a.end_
  let (r, h) ← append_region M h r size
  take_words h a r size

def arena_alloc (M : Malloc) (h : Heap) (a : Arena) (size_bytes : Nat) :
    Checked (Nat × Arena × Heap) := do
  let size := size_t (size_bytes + 8 - 1) / 8
  let (a, h) ← first_region M h a size
  arena_take M h a size

/-! ## §4. Marks and release. -/

def arena_snapshot (h : Heap) (a : Arena) : Checked Arena_Mark :=
  if a.end_ = 0 then if a.begin_ ≠ 0 then .error .assertion else .ok ⟨a.end_, 0⟩
  else do
    let count ← h.load (count_at a.end_) 8
    return ⟨a.end_, count⟩

/-- `for (…; r != NULL; r = r->next) r->count = 0;` -/
def zero_counts (h : Heap) : Nat → Nat → Checked Heap
  | 0, _ => .error .invalid
  | fuel + 1, r =>
      if r = 0 then .ok h
      else do
        let h ← h.store (count_at r) 8 0
        let next ← h.load (next_at r) 8
        zero_counts h fuel next

def arena_reset (h : Heap) (a : Arena) : Checked (Arena × Heap) := do
  let h ← zero_counts h (h.live.length + 1) a.begin_
  return ({ a with end_ := a.begin_ }, h)

def arena_rewind (h : Heap) (a : Arena) (m : Arena_Mark) : Checked (Arena × Heap) :=
  if m.region = 0 then arena_reset h a
  else do
    let h ← h.store (count_at m.region) 8 m.count
    let next ← h.load (next_at m.region) 8
    let h ← zero_counts h (h.live.length + 1) next
    return ({ a with end_ := m.region }, h)

/-- `while (r) { r0 = r; r = r->next; free_region(r0); }` -/
def free_regions (h : Heap) : Nat → Nat → Checked Heap
  | 0, _ => .error .invalid
  | fuel + 1, r =>
      if r = 0 then .ok h
      else do
        let next ← h.load (next_at r) 8
        let h ← free_region h r
        free_regions h fuel next

def arena_free (h : Heap) (a : Arena) : Checked (Arena × Heap) := do
  let h ← free_regions h (h.live.length + 1) a.begin_
  return (⟨0, 0⟩, h)

def arena_trim (h : Heap) (a : Arena) : Checked Heap := do
  let next ← h.load (next_at a.end_) 8
  let h ← free_regions h (h.live.length + 1) next
  h.store (next_at a.end_) 8 0

/-! ## §5. Copies. -/

/-- `n` bytes, from the first to the last. -/
def copy_bytes (h : Heap) : Nat → Nat → Nat → Checked Heap
  | _, _, 0 => .ok h
  | d, s, n + 1 => do
      let c ← h.load s 1
      let h ← h.store d 1 c
      copy_bytes h (d + 1) (s + 1) n

def arena_realloc (M : Malloc) (h : Heap) (a : Arena) (oldptr oldsz newsz : Nat) :
    Checked (Nat × Arena × Heap) :=
  if newsz ≤ oldsz then .ok (oldptr, a, h)
  else do
    let (newptr, a, h) ← arena_alloc M h a newsz
    let h ← copy_bytes h newptr oldptr oldsz
    return (newptr, a, h)

def arena_memcpy (h : Heap) (dest src n : Nat) : Checked Heap := copy_bytes h dest src n

/-- `while (*s++) n++;`; the fuel is the size of the address space. -/
def arena_strlen (h : Heap) : Nat → Nat → Checked Nat
  | 0, _ => .error .invalid
  | fuel + 1, s => do
      let c ← h.load s 1
      if c = 0 then return 0
      else do
        let n ← arena_strlen h fuel (s + 1)
        return n + 1

def arena_strdup (M : Malloc) (h : Heap) (a : Arena) (cstr : Nat) :
    Checked (Nat × Arena × Heap) := do
  let n ← arena_strlen h (2 ^ 64) cstr
  let (dup, a, h) ← arena_alloc M h a (n + 1)
  let h ← arena_memcpy h dup cstr n
  let h ← h.store (dup + n) 1 0
  return (dup, a, h)

def arena_memdup (M : Malloc) (h : Heap) (a : Arena) (data size : Nat) :
    Checked (Nat × Arena × Heap) := do
  let (p, a, h) ← arena_alloc M h a size
  let h ← arena_memcpy h p data size
  return (p, a, h)

end PreSeQL.Allocator
