/-
  PreSeQL.Allocator.Copy — allocations with contents.

  `arena_realloc`, `arena_memdup` and `arena_strdup` allocate a piece and copy bytes of
  another one into it.  `Pushed` says what the caller has afterwards: the space after the
  allocation, a memory that is changed only in headers and in the new piece, and the bytes
  of the piece as far as they are known.
-/
import PreSeQL.Allocator.Stack

namespace PreSeQL.Allocator

open PreSeQL.Lib

/-! ## §1. The loops. -/

theorem store_byte_at (m : Mem) (a i : Nat) (v : UInt8) :
    m.store a 1 v.toNat i = if i = a then v else m i := by
  split
  next hi =>
    subst hi
    exact Mem.load8_store8_same m i v
  next hi => exact Mem.fill_outside m _ (by omega)

theorem load_byte (m : Mem) (a : Nat) : m.load a 1 = (m a).toNat := Mem.load_one m a

/-- The copy loop between disjoint ranges. -/
theorem copy_bytes_eq (n : Nat) : ∀ (h : Heap) (d s : Nat), h.Valid d n → h.Valid s n →
    d + n ≤ s ∨ s + n ≤ d →
      ∃ m, copy_bytes h d s n = .ok (h.setMem m) ∧ (∀ i < n, m (d + i) = h.mem (s + i))
        ∧ ∀ i, i < d ∨ d + n ≤ i → m i = h.mem i := by
  induction n with
  | zero =>
      intro h d s _ _ _
      exact ⟨h.mem, rfl, fun i hi => absurd hi (Nat.not_lt_zero i), fun _ _ => rfl⟩
  | succ n ih =>
      intro h d s hd hs hdisjoint
      obtain ⟨m, hrun, hcopied, houtside⟩ := ih (h.setMem (h.mem.store d 1 (h.mem s).toNat))
        (d + 1) (s + 1) (hd.sub (by omega) (by omega)) (hs.sub (by omega) (by omega)) (by omega)
      refine ⟨m, ?_, fun i hi => ?_, fun i hi => ?_⟩
      · rw [copy_bytes, Heap.load_of_valid (hs.sub (Nat.le_refl _) (by omega)), ok_bind,
          Heap.store_of_valid (hd.sub (Nat.le_refl _) (by omega)), ok_bind, load_byte, hrun,
          Heap.setMem_setMem]
      · cases i with
        | zero =>
            -- the byte written first is not written again
            rw [houtside _ (.inl (by omega)), Heap.setMem_mem, store_byte_at]
            exact if_pos rfl
        | succ i =>
            have hnext := hcopied i (by omega)
            rw [Heap.setMem_mem, store_byte_at, if_neg (by omega)] at hnext
            rw [Nat.add_comm i 1, ← Nat.add_assoc, ← Nat.add_assoc]
            exact hnext
      · rw [houtside i (by omega), Heap.setMem_mem, store_byte_at, if_neg (by omega)]

/-- The length of a string in memory. -/
theorem arena_strlen_eq (l : List UInt8) : ∀ {h : Heap} {fuel s : Nat}, l.length < fuel →
    h.Valid s (l.length + 1) → (∀ c ∈ l, c ≠ 0) →
      (∀ j c, (l ++ [0])[j]? = some c → h.mem (s + j) = c) →
        arena_strlen h fuel s = .ok l.length := by
  induction l with
  | nil =>
      intro h fuel s hfuel hvalid _ hmem
      obtain ⟨fuel, rfl⟩ : ∃ f, fuel = f + 1 := ⟨fuel - 1, by omega⟩
      have hzero : h.mem s = 0 := hmem 0 0 rfl
      rw [arena_strlen, Heap.load_of_valid (hvalid.sub (Nat.le_refl _) (by simp)), ok_bind,
        load_byte, hzero]
      rfl
  | cons c l ih =>
      intro h fuel s hfuel hvalid hne hmem
      obtain ⟨fuel, rfl⟩ : ∃ f, fuel = f + 1 := ⟨fuel - 1, by omega⟩
      simp only [List.length_cons] at hfuel hvalid
      have hfirst : h.mem s = c := hmem 0 c rfl
      have hcne : c.toNat ≠ 0 := fun hz => hne c List.mem_cons_self (UInt8.toNat_inj.mp hz)
      have hrest := ih (h := h) (s := s + 1) (Nat.lt_of_succ_lt_succ hfuel)
        (hvalid.sub (by omega) (by omega)) (fun c' hc' => hne c' (List.mem_cons_of_mem _ hc'))
        fun j c' hc' => by
          rw [Nat.add_assoc, Nat.add_comm 1 j]
          exact hmem (j + 1) c' hc'
      rw [arena_strlen, Heap.load_of_valid (hvalid.sub (Nat.le_refl _) (by omega)), ok_bind,
        load_byte, hfirst, if_neg hcne, hrest]
      rfl

/-! ## §2. What the caller has. -/

/-- The bytes of a block; `none` is a byte nobody has written. -/
abbrev Bytes := List (Option UInt8)

/-- The bytes from address `a` on are those of `l`, as far as `l` knows them. -/
def Shows (m : Mem) (a : Nat) (l : Bytes) : Prop := ∀ j v, l[j]? = some (some v) → m (a + j) = v

/-- A piece of `n` bytes is on top of the space `s`, with the bytes `l`. -/
structure Pushed (h : Heap) (s : Space) (n fresh : Nat) (l : Bytes) (v : Nat × Arena × Heap) :
    Prop where
  result : v.1 = data_at (addrAt (s.alloc (words n) fresh).2.regions
    (s.alloc (words n) fresh).1.1) (s.alloc (words n) fresh).1.2
  held : Held v.2.2 v.2.1 (s.alloc (words n) fresh).2
  live : v.2.2.live
    = ((s.alloc (words n) fresh).2.regions.drop s.regions.length).map Region.block ++ h.live
  within : Within (⟨v.1, n⟩ :: (s.alloc (words n) fresh).2.regions.map Region.header)
    h.mem v.2.2.mem
  shows : Shows v.2.2.mem v.1 l

/-- The piece that an allocation of `n` bytes puts on top. -/
def Space.top (s : Space) (n fresh : Nat) : Piece :=
  ⟨(s.alloc (words n) fresh).1.1, (s.alloc (words n) fresh).1.2, n⟩

theorem Pushed.block_eq {h : Heap} {s : Space} {n fresh : Nat} {l : Bytes}
    {v : Nat × Arena × Heap} (hv : Pushed h s n fresh l v) :
    (s.top n fresh).block (s.alloc (words n) fresh).2.regions = ⟨v.1, n⟩ := by
  rw [Piece.block, hv.result]
  rfl

/-- The regions are still the arena's part of the heap. -/
theorem Pushed.live_perm {h : Heap} {s : Space} {n fresh : Nat} {l : Bytes}
    {v : Nat × Arena × Heap} (hv : Pushed h s n fresh l v) {base : List Block}
    (hlive : h.live.Perm (s.regions.map Region.block ++ base)) :
    v.2.2.live.Perm ((s.alloc (words n) fresh).2.regions.map Region.block ++ base) := by
  obtain ⟨new, hregions, -⟩ := Space.alloc_regions s (words n) fresh
  rw [hv.live, hregions, List.drop_left, List.map_append]
  refine (hlive.append_left _).trans ?_
  rw [← List.append_assoc]
  exact List.perm_append_comm.append_right base

/-- A fresh piece has no known bytes. -/
theorem shows_replicate (m : Mem) (a n : Nat) : Shows m a (List.replicate n none) := by
  intro j v hj
  rw [List.getElem?_replicate] at hj
  split at hj <;> simp at hj

section Copy

variable {h : Heap} {a : Arena} {s : Space} {ps : List Piece} (hh : Held h a s)
  (hs : Stacked s ps) (M : Malloc)

include hh in
theorem arena_alloc_pushed {n : Nat} (hn : n + 32 ≤ 2 ^ 64) :
    Safe (Refused M h s (words n)) (arena_alloc M h a n)
      (Pushed h s n (fresh_region M h (words n)) (List.replicate n none)) :=
  (arena_alloc_spec hh M hn).mono id fun _ hv =>
    ⟨hv.result, hv.held, hv.live, hv.within.mono fun _ hb => List.mem_cons_of_mem _ hb,
      shows_replicate _ _ _⟩

include hs in
/-- The pieces that were there are where they were. -/
theorem Stacked.block_alloc {p : Piece} (hp : p ∈ ps) (size fresh : Nat) :
    p.block (s.alloc size fresh).2.regions = p.block s.regions := by
  obtain ⟨r, hr, -⟩ := hs.inside p hp
  rw [Piece.block, Piece.block, addrAt_of_getElem? hr,
    addrAt_of_getElem? (Space.alloc_getElem? hr)]

include hh hs in
/-- **Allocate and copy** the first `k` bytes of a piece. -/
theorem alloc_copy_pushed {q : Piece} (hq : q ∈ ps) {k n : Nat} (hk : k ≤ q.bytes) (hkn : k ≤ n)
    (hn : n + 32 ≤ 2 ^ 64) {lq : Bytes} (hlq : lq.length = q.bytes)
    (hshows : Shows h.mem (q.block s.regions).addr lq) :
    Safe (Refused M h s (words n))
      (arena_alloc M h a n >>= fun v =>
        copy_bytes v.2.2 v.1 (q.block s.regions).addr k >>= fun h' => pure (v.1, v.2.1, h'))
      (Pushed h s n (fresh_region M h (words n)) (lq.take k ++ List.replicate (n - k) none)) := by
  refine Safe.bind (arena_alloc_pushed hh M hn) fun v hv => ?_
  have hs' := hs.alloc hh.cur_lt n (fresh_region M h (words n))
  have hq' : q ∈ ps ++ [s.top n (fresh_region M h (words n))] := List.mem_append_left _ hq
  have htop : s.top n (fresh_region M h (words n)) ∈ ps ++ [s.top n (fresh_region M h (words n))] :=
    List.mem_append_right _ (List.mem_singleton_self _)
  have hqblock := hs.block_alloc hq (words n) (fresh_region M h (words n))
  have hqvalid := hs'.valid hv.held.laid hq'
  have htopvalid := hs'.valid hv.held.laid htop
  have htopheader := hs'.disjoint_header hv.held.laid htop
  have hqheader := hs'.disjoint_header hv.held.laid hq'
  -- the copy is between two pieces
  have hdisjoint : (q.block s.regions).Disjoint ⟨v.1, n⟩ := by
    have hpairwise := hs'.disjoint hv.held.laid
    rw [List.map_append, List.pairwise_append] at hpairwise
    have hqt := hpairwise.2.2 _ (List.mem_map_of_mem hq) _
      (List.mem_map_of_mem (List.mem_singleton_self _))
    exact hqblock ▸ hv.block_eq ▸ hqt
  rw [hqblock] at hqvalid hqheader
  rw [hv.block_eq] at htopvalid htopheader
  have hqsize : (q.block s.regions).size = q.bytes := rfl
  obtain ⟨m, hrun, hcopied, houtside⟩ := copy_bytes_eq k v.2.2 v.1 (q.block s.regions).addr
    (htopvalid.sub (Nat.le_refl _) (by simp only; omega))
    (hqvalid.sub (Nat.le_refl _) (by omega))
    (by simp only [Block.Disjoint] at hdisjoint; omega)
  rw [hrun]
  show Pushed _ _ _ _ _ _
  refine ⟨hv.result, hv.held.of_headers fun r hr i hi => houtside i ?_, hv.live, ?_, ?_⟩
  · -- the headers are not in the new piece
    have := htopheader _ (List.mem_map_of_mem hr)
    simp only [Block.Disjoint, Block.Holds] at this hi
    omega
  · intro i hi
    have hnew := hi _ List.mem_cons_self
    simp only [Block.Holds] at hnew
    exact (houtside i (by omega)).trans (hv.within i hi)
  · intro j w hj
    rw [List.getElem?_append] at hj
    split at hj
    next hlt =>
      rw [List.length_take] at hlt
      rw [List.getElem?_take, if_pos (by omega)] at hj
      rw [← hshows j w hj]
      refine (hcopied j (by omega)).trans
        (hv.within.at_of_disjoint (c := q.block s.regions) (fun b hb => ?_) ?_)
      · -- the allocation has not touched the source
        rcases List.mem_cons.mp hb with rfl | hb
        · exact hdisjoint.symm
        · exact hqheader b hb
      · simp only [Block.Holds]
        omega
    next => exact absurd hj (by rw [List.getElem?_replicate]; split <;> simp)

/-! ## §3. The functions. -/

/-- The string at the front of the bytes. -/
def cstring : Bytes → Option (List UInt8)
  | some c :: l => if c = 0 then some [] else (cstring l).map (c :: ·)
  | _ => none

/-- A string is followed by its terminator and has none inside. -/
theorem cstring_eq_some {l : Bytes} : ∀ {str : List UInt8}, cstring l = some str →
    (∀ c ∈ str, c ≠ 0) ∧ ∃ rest, l = str.map some ++ some 0 :: rest := by
  induction l with
  | nil => intro str h; cases h
  | cons c l ih =>
      intro str h
      cases c with
      | none => cases h
      | some c =>
          rw [cstring] at h
          split at h
          next hzero =>
            cases h
            exact ⟨by simp, l, by rw [hzero]; rfl⟩
          next hzero =>
            obtain ⟨str', hstr', rfl⟩ := Option.map_eq_some_iff.mp h
            obtain ⟨hne, rest, hrest⟩ := ih hstr'
            refine ⟨?_, rest, by rw [hrest]; rfl⟩
            rintro c' hc'
            rcases List.mem_cons.mp hc' with rfl | hc'
            · exact hzero
            · exact hne c' hc'

include hh hs

/-- **`arena_realloc` to a larger size** keeps the bytes. -/
theorem arena_realloc_pushed {q : Piece} (hq : q ∈ ps) {n : Nat} (hlt : q.bytes < n)
    (hn : n + 32 ≤ 2 ^ 64) {lq : Bytes} (hlq : lq.length = q.bytes)
    (hshows : Shows h.mem (q.block s.regions).addr lq) :
    Safe (Refused M h s (words n)) (arena_realloc M h a (q.block s.regions).addr q.bytes n)
      (Pushed h s n (fresh_region M h (words n)) (lq ++ List.replicate (n - q.bytes) none)) := by
  have hcopy := alloc_copy_pushed hh hs M hq (Nat.le_refl _) (Nat.le_of_lt hlt) hn hlq hshows
  rw [List.take_of_length_le (Nat.le_of_eq hlq)] at hcopy
  unfold arena_realloc
  rw [if_neg (by omega)]
  exact hcopy

/-- **`arena_memdup`** copies the bytes. -/
theorem arena_memdup_pushed {q : Piece} (hq : q ∈ ps) {n : Nat} (hle : n ≤ q.bytes)
    (hn : n + 32 ≤ 2 ^ 64) {lq : Bytes} (hlq : lq.length = q.bytes)
    (hshows : Shows h.mem (q.block s.regions).addr lq) :
    Safe (Refused M h s (words n)) (arena_memdup M h a (q.block s.regions).addr n)
      (Pushed h s n (fresh_region M h (words n)) (lq.take n)) := by
  have hcopy := alloc_copy_pushed hh hs M hq hle (Nat.le_refl n) hn hlq hshows
  rw [Nat.sub_self, List.replicate_zero, List.append_nil] at hcopy
  exact hcopy

/-- A byte of a piece can be written, and the arena does not notice. -/
theorem Held.write_byte {q : Piece} (hq : q ∈ ps) {j : Nat} (hj : j < q.bytes) (w : UInt8) :
    h.store ((q.block s.regions).addr + j) 1 w.toNat
        = .ok (h.setMem (h.mem.store ((q.block s.regions).addr + j) 1 w.toNat))
      ∧ Held (h.setMem (h.mem.store ((q.block s.regions).addr + j) 1 w.toNat)) a s := by
  have hsize : (q.block s.regions).size = q.bytes := rfl
  have hvalid := hs.valid hh.laid hq
  refine ⟨Heap.store_of_valid (hvalid.sub (by omega) (by omega)) _,
    hh.of_headers fun r hr i hi => ?_⟩
  have hdisjoint := hs.disjoint_header hh.laid hq _ (List.mem_map_of_mem hr)
  simp only [Block.Disjoint, Block.Holds] at hdisjoint hi
  rw [store_byte_at, if_neg (by omega)]

omit hh in
/-- A size that is in use has a region `size_t` can express. -/
theorem Stacked.bytes_le (hl : Laid h s.regions) {q : Piece} (hq : q ∈ ps) :
    q.bytes + 32 ≤ 2 ^ 64 := by
  obtain ⟨r, hr, hle⟩ := hs.inside q hq
  have hblock := block_le (hl.live _ r hr)
  have haddr := addr_ne_zero (hl.live _ r hr)
  have hwords := le_words q.bytes
  unfold Piece.stop at hle
  omega

/-- The string in a piece. -/
theorem arena_strlen_piece {q : Piece} (hq : q ∈ ps) {lq : Bytes} (hlq : lq.length = q.bytes)
    (hshows : Shows h.mem (q.block s.regions).addr lq) {str : List UInt8}
    (hstr : cstring lq = some str) :
    arena_strlen h (2 ^ 64) (q.block s.regions).addr = .ok str.length
      ∧ str.length < q.bytes := by
  obtain ⟨hne, rest, hrest⟩ := cstring_eq_some hstr
  have hlen : str.length < q.bytes := by
    rw [← hlq, hrest]
    simp
  have hbytes := hs.bytes_le hh.laid hq
  have hsize : (q.block s.regions).size = q.bytes := rfl
  refine ⟨arena_strlen_eq str (by omega)
    ((hs.valid hh.laid hq).sub (Nat.le_refl _) (by omega)) hne fun j c hc => hshows j c ?_, hlen⟩
  have hpre : lq = (str ++ [0]).map some ++ rest := by
    rw [hrest, List.map_append, List.append_assoc]
    rfl
  have hlt := (List.getElem?_eq_some_iff.mp hc).1
  rw [hpre, List.getElem?_append_left (by simpa using hlt), List.getElem?_map, hc]
  rfl

/-- **`arena_strdup`** copies the string with its terminator. -/
theorem arena_strdup_pushed {q : Piece} (hq : q ∈ ps) {lq : Bytes} (hlq : lq.length = q.bytes)
    (hshows : Shows h.mem (q.block s.regions).addr lq) {str : List UInt8}
    (hstr : cstring lq = some str) :
    Safe (Refused M h s (words (str.length + 1))) (arena_strdup M h a (q.block s.regions).addr)
      (Pushed h s (str.length + 1) (fresh_region M h (words (str.length + 1)))
        (str.map some ++ [some 0])) := by
  obtain ⟨hstrlen, hlen⟩ := arena_strlen_piece hh hs hq hlq hshows hstr
  obtain ⟨-, rest, hrest⟩ := cstring_eq_some hstr
  have hbytes := hs.bytes_le hh.laid hq
  have hcopy := alloc_copy_pushed hh hs M hq (Nat.le_of_lt hlen) (Nat.le_add_right _ 1) (by omega)
    hlq hshows
  have htake : lq.take str.length = str.map some := by
    rw [hrest, List.take_left' (by simp)]
  rw [htake] at hcopy
  unfold arena_strdup
  rw [hstrlen, ok_bind]
  -- the terminator is written into the new piece
  have hzero := hcopy.bind (Q := Pushed h s (str.length + 1)
      (fresh_region M h (words (str.length + 1))) (str.map some ++ [some 0]))
    (f := fun v => v.2.2.store (v.1 + str.length) 1 0 >>= fun h' => pure (v.1, v.2.1, h'))
    fun v hv => by
      have hs' := hs.alloc hh.cur_lt (str.length + 1) (fresh_region M h (words (str.length + 1)))
      have htop : s.top (str.length + 1) (fresh_region M h (words (str.length + 1)))
          ∈ ps ++ [s.top (str.length + 1) (fresh_region M h (words (str.length + 1)))] :=
        List.mem_append_right _ (List.mem_singleton_self _)
      obtain ⟨hstore, hheld⟩ := hv.held.write_byte hs' htop (Nat.lt_succ_self str.length) 0
      rw [hv.block_eq] at hstore hheld
      have hrun : v.2.2.store (v.1 + str.length) 1 0 = _ := hstore
      rw [hrun]
      refine ⟨hv.result, hheld, hv.live, hv.within.store List.mem_cons_self ?_ _, ?_⟩
      · simp only [Block.Holds]
        omega
      · intro j w hj
        show (v.2.2.mem.store (v.1 + str.length) 1 (0 : UInt8).toNat) (v.1 + j) = w
        rw [store_byte_at]
        by_cases hend : j = str.length
        · subst hend
          rw [if_pos rfl]
          simpa using hj
        · rw [if_neg (by omega)]
          refine hv.shows j w ?_
          have hlt := (List.getElem?_eq_some_iff.mp hj).1
          simp only [List.length_append, List.length_map, List.length_singleton] at hlt
          rw [List.getElem?_append_left (by simp; omega)] at hj ⊢
          exact hj
  simp only [bind_assoc, pure_bind] at hzero
  exact hzero

end Copy

end PreSeQL.Allocator
