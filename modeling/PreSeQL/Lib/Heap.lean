/-
  PreSeQL.Lib.Heap — the heap of a C program.

  A memory together with the blocks that `malloc` has handed out.  An access that is
  not inside one of them is a fault, and so is a `free` of anything but the address of
  one; a failed assertion is a fault of its own.  What `malloc` answers is a parameter
  (`Malloc`) that carries the promises of the C library as fields.

    • `Safe D x Q` — the call `x` makes no invalid access, what it returns satisfies `Q`,
      and it fails an assertion only if `D`; `Safe.bind` follows the code statement by
      statement,
    • `load_of_valid`, `store_of_valid`, `free_of_mem` — the accesses that are allowed,
    • `Heap.apart_of_ne` — two live blocks share no byte.
-/
import PreSeQL.Lib.ByteMem
import Mathlib.Data.List.Pairwise

namespace PreSeQL.Lib

/-! ## §1. Calls that can fail. -/

inductive Fault where
  /-- an access outside the live blocks, or a `free` of something else -/
  | invalid
  | assertion
  deriving DecidableEq

abbrev Checked (α : Type) := Except Fault α

@[simp] theorem ok_bind {α β : Type} (v : α) (f : α → Checked β) :
    ((Except.ok v : Checked α) >>= f) = f v := rfl

/-- Two statements that return have both returned. -/
theorem ok_of_bind {α β : Type} {x : Checked α} {f : α → Checked β} {r : β}
    (h : x >>= f = .ok r) : ∃ v, x = .ok v ∧ f v = .ok r := by
  match x with
  | .ok v => exact ⟨v, rfl, h⟩
  | .error _ => cases h

/-- No invalid access, `Q` of what is returned, and a failed assertion only if `D`. -/
def Safe {α : Type} (D : Prop) (x : Checked α) (Q : α → Prop) : Prop :=
  match x with
  | .ok v => Q v
  | .error .assertion => D
  | .error .invalid => False

section Safe

variable {α β : Type} {D D' : Prop} {x : Checked α} {f : α → Checked β} {P P' : α → Prop}
  {Q : β → Prop}

/-- **One statement after the other.** -/
theorem Safe.bind (hx : Safe D x P) (hf : ∀ v, P v → Safe D (f v) Q) : Safe D (x >>= f) Q := by
  match x with
  | .ok v => exact hf v hx
  | .error .assertion => exact hx
  | .error .invalid => exact hx

theorem Safe.mono (hx : Safe D x P) (hd : D → D') (hp : ∀ v, P v → P' v) : Safe D' x P' := by
  match x with
  | .ok v => exact hp v hx
  | .error .assertion => exact hd hx
  | .error .invalid => exact hx

/-- What is returned is what the call returns. -/
theorem Safe.with_eq (hx : Safe D x P) : Safe D x fun v => x = .ok v ∧ P v := by
  match x with
  | .ok v => exact ⟨rfl, hx⟩
  | .error .assertion => exact hx
  | .error .invalid => exact hx

/-- A safe call that fails no assertion returns. -/
theorem Safe.returns (hx : Safe D x P) (hd : ¬ D) : ∃ v, x = .ok v ∧ P v := by
  match x with
  | .ok v => exact ⟨v, rfl, hx⟩
  | .error .assertion => exact absurd hx hd
  | .error .invalid => exact hx.elim

theorem Safe.of_ok {v : α} (hx : Safe D x P) (h : x = .ok v) : P v := by
  rw [h] at hx
  exact hx

end Safe

/-! ## §2. Blocks. -/

/-- The addresses `[addr, addr + size)`. -/
structure Block where
  addr : Nat
  size : Nat
  deriving DecidableEq, Repr

namespace Block

/-- The access `[a, a + n)` is inside the block. -/
def Holds (b : Block) (a n : Nat) : Prop := b.addr ≤ a ∧ a + n ≤ b.addr + b.size

instance (b : Block) (a n : Nat) : Decidable (b.Holds a n) :=
  inferInstanceAs (Decidable (_ ∧ _))

/-- No byte is in both. -/
def Disjoint (b c : Block) : Prop := b.addr + b.size ≤ c.addr ∨ c.addr + c.size ≤ b.addr

instance (b c : Block) : Decidable (b.Disjoint c) := inferInstanceAs (Decidable (_ ∨ _))

theorem Disjoint.symm {b c : Block} (h : b.Disjoint c) : c.Disjoint b := Or.symm h

instance : Std.Symm Disjoint := ⟨fun _ _ h => h.symm⟩

/-- Different addresses and no byte in both. -/
def Apart (b c : Block) : Prop := b.addr ≠ c.addr ∧ b.Disjoint c

instance (b c : Block) : Decidable (b.Apart c) := inferInstanceAs (Decidable (_ ∧ _))

theorem Apart.symm {b c : Block} (h : b.Apart c) : c.Apart b := ⟨h.1.symm, h.2.symm⟩

instance : Std.Symm Apart := ⟨fun _ _ h => h.symm⟩

/-- A block of a 64-bit address space; address 0 is `NULL`. -/
def Placed (b : Block) : Prop := b.addr ≠ 0 ∧ b.addr + b.size ≤ 2 ^ 64

instance (b : Block) : Decidable b.Placed := inferInstanceAs (Decidable (_ ∧ _))

/-- An address behind all blocks. -/
def top : List Block → Nat
  | [] => 0
  | b :: bs => max (b.addr + b.size) (top bs)

theorem le_top {bs : List Block} : ∀ b ∈ bs, b.addr + b.size ≤ top bs := by
  induction bs with
  | nil => intro b hb; cases hb
  | cons c bs ih =>
      intro b hb
      rcases List.mem_cons.mp hb with rfl | hb
      · exact Nat.le_max_left _ _
      · exact Nat.le_trans (ih b hb) (Nat.le_max_right _ _)

end Block

/-- `malloc`: what it answers depends on the blocks in use and on the size in any way, 0 is a
refusal.  The promises are those of the C library. -/
structure Malloc where
  address : List Block → Nat → Nat
  placed : ∀ live n, address live n ≠ 0 → address live n + n ≤ 2 ^ 64
  aligned : ∀ live n, address live n % 16 = 0
  apart : ∀ live n, address live n ≠ 0 → ∀ b ∈ live, Block.Apart ⟨address live n, n⟩ b

/-- An allocator that never reuses an address. -/
def Malloc.bump : Malloc where
  address live n :=
    if 16 * (Block.top live / 16 + 1) + n ≤ 2 ^ 64 then 16 * (Block.top live / 16 + 1) else 0
  placed live n hz := by
    split at hz
    next hfit => rwa [if_pos hfit]
    next => exact absurd rfl hz
  aligned live n := by
    split
    next => exact Nat.mul_mod_right 16 _
    next => rfl
  apart live n hz b hb := by
    split at hz
    next hfit =>
      rw [if_pos hfit]
      have hle := Block.le_top b hb
      refine ⟨?_, .inr ?_⟩ <;> simp only <;> omega
    next => exact absurd rfl hz

/-! ## §3. The heap. -/

structure Heap where
  mem : Mem
  live : List Block
  apart : live.Pairwise Block.Apart
  placed : ∀ b ∈ live, b.Placed

namespace Heap

variable (h : Heap)

/-- The access `[a, a + n)` is inside a live block. -/
def Valid (a n : Nat) : Prop := ∃ b ∈ h.live, b.Holds a n

instance (a n : Nat) : Decidable (h.Valid a n) :=
  inferInstanceAs (Decidable (∃ b ∈ h.live, b.Holds a n))

/-- The same blocks with other contents. -/
def setMem (m : Mem) : Heap := { h with mem := m }

@[simp] theorem setMem_mem (m : Mem) : (h.setMem m).mem = m := rfl

@[simp] theorem setMem_live (m : Mem) : (h.setMem m).live = h.live := rfl

@[simp] theorem setMem_setMem (m m' : Mem) : (h.setMem m).setMem m' = h.setMem m' := rfl

@[simp] theorem setMem_valid (m : Mem) (a n : Nat) : (h.setMem m).Valid a n ↔ h.Valid a n :=
  Iff.rfl

/-- Read a word of `n` bytes. -/
def load (a n : Nat) : Checked Nat :=
  if h.Valid a n then .ok (h.mem.load a n) else .error .invalid

/-- Write a word of `n` bytes. -/
def store (a n v : Nat) : Checked Heap :=
  if h.Valid a n then .ok (h.setMem (h.mem.store a n v)) else .error .invalid

def memset (a : Nat) (v : UInt8) (n : Nat) : Checked Heap :=
  if h.Valid a n then .ok (h.setMem (h.mem.memset a v n)) else .error .invalid

/-- The address of a fresh block of `n` bytes, or 0. -/
def malloc (M : Malloc) (n : Nat) : Nat × Heap :=
  if hz : M.address h.live n = 0 then (0, h)
  else
    (M.address h.live n,
      { mem := h.mem
        live := ⟨M.address h.live n, n⟩ :: h.live
        apart := List.pairwise_cons.mpr ⟨M.apart h.live n hz, h.apart⟩
        placed := List.forall_mem_cons.mpr ⟨⟨hz, M.placed h.live n hz⟩, h.placed⟩ })

/-- The heap without the block at address `p`. -/
def drop (p : Nat) : Heap where
  mem := h.mem
  live := h.live.filter fun b => b.addr ≠ p
  apart := h.apart.filter _
  placed b hb := h.placed b ((List.mem_filter.mp hb).1)

def free (p : Nat) : Checked Heap :=
  if p = 0 then .ok h
  else if ∃ b ∈ h.live, b.addr = p then .ok (h.drop p)
  else .error .invalid

variable {h}

/-- An access inside a valid one. -/
theorem Valid.sub {a n a' n' : Nat} (hv : h.Valid a n) (h₁ : a ≤ a') (h₂ : a' + n' ≤ a + n) :
    h.Valid a' n' := by
  obtain ⟨b, hb, hholds⟩ := hv
  refine ⟨b, hb, ?_⟩
  unfold Block.Holds at hholds ⊢
  omega

theorem load_of_valid {a n : Nat} (hv : h.Valid a n) : h.load a n = .ok (h.mem.load a n) :=
  if_pos hv

theorem store_of_valid {a n : Nat} (hv : h.Valid a n) (v : Nat) :
    h.store a n v = .ok (h.setMem (h.mem.store a n v)) :=
  if_pos hv

theorem memset_of_valid {a n : Nat} (hv : h.Valid a n) (v : UInt8) :
    h.memset a v n = .ok (h.setMem (h.mem.memset a v n)) :=
  if_pos hv

theorem load_setMem {a n : Nat} (hv : h.Valid a n) (m : Mem) :
    (h.setMem m).load a n = .ok (m.load a n) :=
  load_of_valid (h := h.setMem m) hv

theorem store_setMem {a n : Nat} (hv : h.Valid a n) (m : Mem) (v : Nat) :
    (h.setMem m).store a n v = .ok (h.setMem (m.store a n v)) :=
  store_of_valid (h := h.setMem m) hv v

theorem store_setMem_invalid {a n : Nat} (hv : ¬ h.Valid a n) (m : Mem) (v : Nat) :
    (h.setMem m).store a n v = .error .invalid :=
  if_neg hv

theorem memset_setMem {a n : Nat} (hv : h.Valid a n) (m : Mem) (v : UInt8) :
    (h.setMem m).memset a v n = .ok (h.setMem (m.memset a v n)) :=
  memset_of_valid (h := h.setMem m) hv v

theorem free_of_mem {b : Block} (hb : b ∈ h.live) : h.free b.addr = .ok (h.drop b.addr) := by
  unfold free
  rw [if_neg (h.placed b hb).1, if_pos ⟨b, hb, rfl⟩]

theorem mem_drop {b : Block} {p : Nat} : b ∈ (h.drop p).live ↔ b ∈ h.live ∧ b.addr ≠ p := by
  simp [drop]

theorem malloc_of_eq {M : Malloc} {n : Nat} (hz : M.address h.live n = 0) :
    h.malloc M n = (0, h) := dif_pos hz

/-- A fresh block is in front of the others, the contents of the memory are as before. -/
theorem malloc_of_ne {M : Malloc} {n : Nat} (hz : M.address h.live n ≠ 0) :
    (h.malloc M n).1 = M.address h.live n
    ∧ (h.malloc M n).2.live = ⟨M.address h.live n, n⟩ :: h.live
    ∧ (h.malloc M n).2.mem = h.mem := by
  rw [malloc, dif_neg hz]
  exact ⟨rfl, rfl, rfl⟩

/-- **Live blocks share no byte.** -/
theorem apart_of_ne {b c : Block} (hb : b ∈ h.live) (hc : c ∈ h.live) (hne : b ≠ c) :
    b.Apart c :=
  h.apart.forall hb hc hne

end Heap

/-! ## §4. Frames. -/

/-- `m'` differs from `m` at most inside the blocks `bs`. -/
def Within (bs : List Block) (m m' : Mem) : Prop :=
  ∀ i, (∀ b ∈ bs, ¬ b.Holds i 1) → m' i = m i

namespace Within

variable {bs cs : List Block} {m m₁ m₂ : Mem}

theorem refl (bs : List Block) (m : Mem) : Within bs m m := fun _ _ => rfl

theorem trans (h₁ : Within bs m m₁) (h₂ : Within bs m₁ m₂) : Within bs m m₂ :=
  fun i hi => (h₂ i hi).trans (h₁ i hi)

theorem mono (h : Within bs m m₁) (hsub : ∀ b ∈ bs, b ∈ cs) : Within cs m m₁ :=
  fun i hi => h i fun b hb => hi b (hsub b hb)

/-- A write inside one of the blocks. -/
theorem fill (h : Within bs m m₁) {b : Block} {a n : Nat} (hb : b ∈ bs) (hin : b.Holds a n)
    (f : Nat → UInt8) : Within bs m (m₁.fill a n f) := by
  intro i hi
  have hout : i < a ∨ a + n ≤ i := by
    have := hi b hb
    unfold Block.Holds at hin this
    omega
  rw [Mem.fill_outside m₁ f hout, h i hi]

theorem store (h : Within bs m m₁) {b : Block} {a n : Nat} (hb : b ∈ bs) (hin : b.Holds a n)
    (v : Nat) : Within bs m (m₁.store a n v) :=
  h.fill hb hin _

/-- What is disjoint from the blocks keeps its bytes. -/
theorem at_of_disjoint (h : Within bs m m₁) {c : Block} (hd : ∀ b ∈ bs, b.Disjoint c) {i : Nat}
    (hi : c.Holds i 1) : m₁ i = m i := by
  refine h i fun b hb hin => ?_
  have := hd b hb
  unfold Block.Disjoint at this
  unfold Block.Holds at hi hin
  omega

theorem load_of_disjoint (h : Within bs m m₁) {c : Block} (hd : ∀ b ∈ bs, b.Disjoint c)
    {a n : Nat} (hin : c.Holds a n) : m₁.load a n = m.load a n := by
  refine Mem.load_congr n a fun i h₁ h₂ => h.at_of_disjoint hd ?_
  unfold Block.Holds at hin ⊢
  omega

end Within

end PreSeQL.Lib
