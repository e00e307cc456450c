/-
  PreSeQL.Allocator.Session — programs that use an arena.

  A session is a list of calls on one arena: allocations of every kind, writes into
  what was handed out, marks, rewinds, reset, trim and free.  What such a program may rely
  on is `Store`: a list of blocks of bytes, in which allocation adds a block, a write changes
  one byte and a rewind drops the blocks that are younger than the mark.

    • `Tracks` — how the bytes of the heap realise a store,
    • `Tracks.push`, `Tracks.rewind`, `Tracks.trim` — what a call does to it,
    • `Tracks.step` — every call of a correct program keeps it,
    • `arena_realises_store` — whole sessions.
-/
import PreSeQL.Allocator.Copy
import PreSeQL.Lib.Wp

namespace PreSeQL.Allocator

open PreSeQL.Lib

/-! ## §1. The store. -/

/-- The blocks in use, the oldest first, and for every mark how many there were. -/
structure Store where
  blocks : List Bytes
  marks : List Nat
  started : Bool

inductive Call where
  | alloc (M : Malloc) (size_bytes : Nat)
  | realloc (M : Malloc) (i newsz : Nat)
  | strdup (M : Malloc) (i : Nat)
  | memdup (M : Malloc) (i size : Nat)
  | write (i j : Nat) (v : UInt8)
  | snapshot
  | rewind (k : Nat)
  | reset
  | trim
  | free

namespace Store

def empty : Store := ⟨[], [], false⟩

def push (t : Store) (b : Bytes) : Store := { t with blocks := t.blocks ++ [b], started := true }

def step (t : Store) : Call → Store
  | .alloc _ n => t.push (List.replicate n none)
  | .realloc _ i n =>
      let b := t.blocks.getD i []
      if n ≤ b.length then t else t.push (b ++ List.replicate (n - b.length) none)
  | .strdup _ i =>
      match cstring (t.blocks.getD i []) with
      | some s => t.push (s.map some ++ [some 0])
      | none => t
  | .memdup _ i n => t.push ((t.blocks.getD i []).take n)
  | .write i j v => { t with blocks := t.blocks.modify i (·.set j (some v)) }
  | .snapshot => { t with marks := t.marks ++ [t.blocks.length] }
  | .rewind k => { t with blocks := t.blocks.take (t.marks.getD k 0), marks := t.marks.take (k + 1) }
  | .reset => ⟨[], [], t.started⟩
  | .trim => t
  | .free => empty

/-- The calls that a correct program makes: sizes whose region `size_t` can express, blocks and
marks that are in use, copies of what has been written, and no trim before the first
allocation. -/
def Allows (t : Store) : Call → Prop
  | .alloc _ n => n + 32 ≤ 2 ^ 64
  | .realloc _ i n => i < t.blocks.length ∧ n + 32 ≤ 2 ^ 64
  | .strdup _ i => i < t.blocks.length ∧ (cstring (t.blocks.getD i [])).isSome
  | .memdup _ i n => i < t.blocks.length ∧ n ≤ (t.blocks.getD i []).length
  | .write i j _ => j < (t.blocks.getD i []).length
  | .rewind k => k < t.marks.length
  | .trim => t.started = true
  | .snapshot | .reset | .free => True

instance (t : Store) : ∀ call : Call, Decidable (t.Allows call)
  | .alloc _ n => inferInstanceAs (Decidable (n + 32 ≤ 2 ^ 64))
  | .realloc _ i n => inferInstanceAs (Decidable (i < t.blocks.length ∧ n + 32 ≤ 2 ^ 64))
  | .strdup _ i =>
      inferInstanceAs (Decidable (i < t.blocks.length ∧ (cstring (t.blocks.getD i [])).isSome))
  | .memdup _ i n =>
      inferInstanceAs (Decidable (i < t.blocks.length ∧ n ≤ (t.blocks.getD i []).length))
  | .write i j _ => inferInstanceAs (Decidable (j < (t.blocks.getD i []).length))
  | .rewind k => inferInstanceAs (Decidable (k < t.marks.length))
  | .trim => inferInstanceAs (Decidable (t.started = true))
  | .snapshot | .reset | .free => inferInstanceAs (Decidable True)

end Store

/-! ## §2. The program's state. -/

/-- The heap, the arena and the program's own variables: the addresses and sizes of its
blocks, and its marks with the number of blocks it had. -/
structure Client where
  heap : Heap
  arena : Arena
  blocks : List Block
  marks : List (Arena_Mark × Nat)

namespace Client

/-- A new block at the end of the list. -/
def keep (c : Client) (n : Nat) (v : Nat × Arena × Heap) : Client :=
  { c with heap := v.2.2, arena := v.2.1, blocks := c.blocks ++ [⟨v.1, n⟩] }

def step (c : Client) : Call → Checked Client
  | .alloc M n => do
      let v ← arena_alloc M c.heap c.arena n
      return c.keep n v
  | .realloc M i n =>
      match c.blocks[i]? with
      | some b => do
          let v ← arena_realloc M c.heap c.arena b.addr b.size n
          return if n ≤ b.size then c else c.keep n v
      | none => .error .invalid
  | .strdup M i =>
      match c.blocks[i]? with
      | some b => do
          let n ← arena_strlen c.heap (2 ^ 64) b.addr
          let v ← arena_strdup M c.heap c.arena b.addr
          return c.keep (n + 1) v
      | none => .error .invalid
  | .memdup M i n =>
      match c.blocks[i]? with
      | some b => do
          let v ← arena_memdup M c.heap c.arena b.addr n
          return c.keep n v
      | none => .error .invalid
  | .write i j v =>
      match c.blocks[i]? with
      | some b => do
          let h ← c.heap.store (b.addr + j) 1 v.toNat
          return { c with heap := h }
      | none => .error .invalid
  | .snapshot => do
      let m ← arena_snapshot c.heap c.arena
      return { c with marks := c.marks ++ [(m, c.blocks.length)] }
  | .rewind k =>
      match c.marks[k]? with
      | some (m, d) => do
          let (a, h) ← arena_rewind c.heap c.arena m
          return ⟨h, a, c.blocks.take d, c.marks.take (k + 1)⟩
      | none => .error .invalid
  | .reset => do
      let (a, h) ← arena_reset c.heap c.arena
      return ⟨h, a, [], []⟩
  | .trim => do
      let h ← arena_trim c.heap c.arena
      return { c with heap := h }
  | .free => do
      let (a, h) ← arena_free c.heap c.arena
      return ⟨h, a, [], []⟩

end Client

/-! ## §3. How the heap realises the store. -/

/-- The blocks of the store are the bytes of the pieces. -/
def Contents (m : Mem) (rs : List Region) (ls : List Bytes) (ps : List Piece) : Prop :=
  List.Forall₂ (fun l p => l.length = p.bytes ∧ Shows m (p.block rs).addr l) ls ps

theorem Contents.frame {m m' : Mem} {rs rs' : List Region} {ls : List Bytes} {ps : List Piece}
    (h : Contents m rs ls ps) (hblock : ∀ p ∈ ps, p.block rs' = p.block rs)
    (hm : ∀ p ∈ ps, ∀ i, (p.block rs).Holds i 1 → m' i = m i) : Contents m' rs' ls ps := by
  unfold Contents at h ⊢
  induction h with
  | nil => exact List.Forall₂.nil
  | @cons l p ls ps hp _ ih =>
      refine List.Forall₂.cons ⟨hp.1, fun j v hj => ?_⟩
        (ih (fun q hq => hblock q (List.mem_cons_of_mem _ hq))
          fun q hq => hm q (List.mem_cons_of_mem _ hq))
      have hlt := (List.getElem?_eq_some_iff.mp hj).1
      have hsize : (p.block rs).size = p.bytes := rfl
      rw [hblock p List.mem_cons_self, hm p List.mem_cons_self]
      · exact hp.2 j v hj
      · unfold Block.Holds
        omega

/-- A position that was marked, with the number of pieces below it. -/
structure Point where
  region : Nat
  word : Nat
  depth : Nat

/-- The mark of a position; a mark of an arena without regions has none. -/
def MarkOf (rs : List Region) (q : Point) (m : Arena_Mark) : Prop :=
  (m.region = 0 ∧ q = ⟨0, 0, 0⟩)
  ∨ ∃ r, rs[q.region]? = some r ∧ m = ⟨r.addr, q.word⟩ ∧ q.word ≤ r.capacity

/-- The program's state realises the store `t` with the space `s`, its pieces and marked
positions; `base` are the blocks of everybody else, with the contents `m₀`. -/
structure Tracks (base : List Block) (m₀ : Mem) (t : Store) (c : Client) (s : Space)
    (ps : List Piece) (qs : List Point) : Prop where
  held : Held c.heap c.arena s
  stacked : Stacked s ps
  aligned : ∀ r ∈ s.regions, r.addr % 16 = 0
  blocks : c.blocks = ps.map (Piece.block s.regions)
  contents : Contents c.heap.mem s.regions t.blocks ps
  marks : List.Forall₂ (fun q (m : Arena_Mark × Nat) => MarkOf s.regions q m.1 ∧ m.2 = q.depth)
    qs c.marks
  depths : t.marks = qs.map Point.depth
  covered : ∀ q ∈ qs, q.depth ≤ ps.length
    ∧ ∀ p ∈ ps.take q.depth, Before p.region p.stop q.region q.word
  reached : ∀ q ∈ qs, Before q.region q.word s.cur s.count
  ordered : qs.Pairwise fun q q' => Before q.region q.word q'.region q'.word ∧ q.depth ≤ q'.depth
  live : c.heap.live.Perm (s.regions.map Region.block ++ base)
  kept : ∀ b ∈ base, ∀ i, b.Holds i 1 → c.heap.mem i = m₀ i
  started : t.started = true ↔ s.regions ≠ []

/-! ## §4. Calls that allocate. -/

/-- A mark stays a mark in a longer list. -/
theorem MarkOf.append {rs : List Region} {q : Point} {m : Arena_Mark} (h : MarkOf rs q m)
    (new : List Region) : MarkOf (rs ++ new) q m := by
  rcases h with h | ⟨r, hr, hm⟩
  · exact .inl h
  · exact .inr ⟨r, by rw [List.getElem?_append_left (List.getElem?_eq_some_iff.mp hr).1, hr], hm⟩

variable {base : List Block} {m₀ : Mem} {t : Store} {c : Client} {s : Space} {ps : List Piece}
  {qs : List Point}

/-- **A new piece on top** is a new block of the store. -/
theorem Tracks.push (h : Tracks base m₀ t c s ps qs) {n fresh : Nat} {l : Bytes}
    {v : Nat × Arena × Heap} (hv : Pushed c.heap s n fresh l v) (hlen : l.length = n)
    (hfresh : fresh % 16 = 0) :
    Tracks base m₀ (t.push l) (c.keep n v) (s.alloc (words n) fresh).2 (ps ++ [s.top n fresh])
      qs := by
  have hs' := h.stacked.alloc h.held.cur_lt n fresh
  obtain ⟨new, hregions, hnew⟩ := Space.alloc_regions s (words n) fresh
  obtain ⟨hcur', hcount'⟩ := Space.alloc_position s (words n) fresh
  have hbefore := Space.alloc_before s (words n) fresh h.held.cur_lt
  have hblocks : ∀ p ∈ ps, p.block (s.alloc (words n) fresh).2.regions = p.block s.regions :=
    fun p hp => h.stacked.block_alloc hp _ _
  have htop : s.top n fresh ∈ ps ++ [s.top n fresh] :=
    List.mem_append_right _ (List.mem_singleton_self _)
  have hdisjoint := hs'.disjoint hv.held.laid
  rw [List.map_append, List.pairwise_append] at hdisjoint
  have hlive := hv.live_perm h.live
  refine ⟨hv.held, hs', ?_, ?_, ?_, ?_, h.depths, ?_, ?_, h.ordered, hlive, ?_, ?_⟩
  · intro r hr
    rw [hregions] at hr
    rcases List.mem_append.mp hr with hr | hr
    · exact h.aligned r hr
    · rw [hnew r hr]
      exact hfresh
  · rw [List.map_append, List.map_congr_left hblocks, List.map_singleton, hv.block_eq, Client.keep,
      h.blocks]
  · refine List.rel_append (h.contents.frame hblocks fun p hp i hi => ?_)
      (List.Forall₂.cons ⟨hlen, ?_⟩ List.Forall₂.nil)
    · -- the pieces that were there are in neither a header nor the new piece
      refine hv.within.at_of_disjoint (c := p.block s.regions) (fun b hb => ?_) hi
      rcases List.mem_cons.mp hb with rfl | hb
      · have hpt := hdisjoint.2.2 _ (List.mem_map_of_mem hp) _
          (List.mem_map_of_mem (List.mem_singleton_self _))
        exact (hblocks p hp ▸ hv.block_eq ▸ hpt).symm
      · exact hblocks p hp ▸ hs'.disjoint_header hv.held.laid (List.mem_append_left _ hp) b hb
    · rw [hv.block_eq]
      exact hv.shows
  · refine h.marks.imp fun q m hm => ⟨?_, hm.2⟩
    rw [hregions]
    exact hm.1.append new
  · intro q hq
    obtain ⟨hle, hbelow⟩ := h.covered q hq
    rw [List.length_append, List.take_append_of_le_length hle]
    exact ⟨by omega, hbelow⟩
  · intro q hq
    rw [hcur', hcount']
    exact ((h.reached q hq).trans hbefore).trans (.inr ⟨rfl, Nat.le_add_right _ _⟩)
  · refine kept_of_within hlive hv.within (fun b hb => ?_) h.kept
    rcases List.mem_cons.mp hb with rfl | hb
    · have := hs'.piece_inside htop
      rwa [hv.block_eq] at this
    · exact header_inside b hb
  · refine ⟨fun _ hnil => ?_, fun _ => rfl⟩
    obtain ⟨r, hr, -⟩ := Space.alloc_inside s (words n) fresh
    rw [hnil] at hr
    cases hr

/-! ## §5. Writes and marks. -/

/-- A byte of a piece is written: one byte of one block of the store changes. -/
theorem Contents.write {m : Mem} {rs : List Region} {ls : List Bytes} {ps : List Piece}
    (h : Contents m rs ls ps) : ∀ {i : Nat} {p : Piece}, ps[i]? = some p →
    (ps.map (Piece.block rs)).Pairwise Block.Disjoint → ∀ {j : Nat}, j < p.bytes → ∀ w : UInt8,
      Contents (m.store ((p.block rs).addr + j) 1 w.toNat) rs (ls.modify i (·.set j (some w))) ps := by
  unfold Contents at h
  induction h with
  | nil => intro i p hp; cases hp
  | @cons l p₀ ls ps hhead htail ih =>
      intro i p hp hdisjoint j hj w
      rw [List.map_cons, List.pairwise_cons] at hdisjoint
      have hsize : ∀ q : Piece, (q.block rs).size = q.bytes := fun _ => rfl
      cases i with
      | zero =>
          obtain rfl : p₀ = p := Option.some.inj hp
          refine List.Forall₂.cons ⟨(List.length_set ..).trans hhead.1, fun j' w' hj' => ?_⟩
            (Contents.frame htail (fun _ _ => rfl) fun q hq i hi => ?_)
          · rw [store_byte_at]
            rw [List.getElem?_set] at hj'
            split at hj'
            next heq =>
              subst heq
              rw [if_pos rfl]
              split at hj'
              · exact Option.some.inj (Option.some.inj hj')
              · cases hj'
            next hne =>
              rw [if_neg (by omega)]
              exact hhead.2 j' w' hj'
          · -- another piece
            have := hdisjoint.1 _ (List.mem_map_of_mem hq)
            have hp₀ := hsize p₀
            simp only [Block.Disjoint, Block.Holds] at this hi
            rw [store_byte_at, if_neg (by omega)]
      | succ i =>
          have hp' : ps[i]? = some p := hp
          refine List.Forall₂.cons ⟨hhead.1, fun j' w' hj' => ?_⟩ (ih hp' hdisjoint.2 hj w)
          have := hdisjoint.1 _ (List.mem_map_of_mem (List.mem_of_getElem? hp'))
          have hlt := (List.getElem?_eq_some_iff.mp hj').1
          have hp₀ := hsize p₀
          have hp₁ := hsize p
          simp only [Block.Disjoint] at this
          rw [store_byte_at, if_neg (by omega)]
          exact hhead.2 j' w' hj'

namespace Tracks

variable (h : Tracks base m₀ t c s ps qs)

include h

/-- The block behind an index of the store. -/
theorem block {i : Nat} (hi : i < t.blocks.length) : ∃ p, ps[i]? = some p
    ∧ c.blocks[i]? = some (p.block s.regions)
    ∧ (t.blocks.getD i []).length = p.bytes
    ∧ Shows c.heap.mem (p.block s.regions).addr (t.blocks.getD i []) := by
  obtain ⟨hlen, hget⟩ := List.forall₂_iff_get.mp h.contents
  have hi' : i < ps.length := hlen ▸ hi
  have hp : ps[i]? = some ps[i] := List.getElem?_eq_getElem hi'
  have hl : t.blocks.getD i [] = t.blocks[i] := by
    rw [List.getD_eq_getElem?_getD, List.getElem?_eq_getElem hi]
    rfl
  refine ⟨ps[i], hp, ?_, ?_⟩
  · rw [h.blocks, List.getElem?_map, hp]
    rfl
  · rw [hl]
    exact hget i hi hi'

/-- The bytes of the pieces do not depend on headers. -/
theorem contents_of_headers {m : Mem} (hw : Within (s.regions.map Region.header) c.heap.mem m) :
    Contents m s.regions t.blocks ps :=
  h.contents.frame (fun _ _ => rfl) fun _ hp _ hi =>
    hw.at_of_disjoint (h.stacked.disjoint_header h.held.laid hp) hi

theorem write {i j : Nat} (hj : j < (t.blocks.getD i []).length) (w : UInt8) :
    ∃ c', c.step (.write i j w) = .ok c'
      ∧ Tracks base m₀ (t.step (.write i j w)) c' s ps qs ∧ c'.heap.live = c.heap.live := by
  have hi : i < t.blocks.length := by
    by_contra hle
    rw [List.getD_eq_getElem?_getD, List.getElem?_eq_none (Nat.le_of_not_lt hle)] at hj
    exact absurd hj (Nat.not_lt_zero j)
  obtain ⟨p, hp, hb, hlen, -⟩ := h.block hi
  have hmem := List.mem_of_getElem? hp
  obtain ⟨hstore, hheld⟩ := h.held.write_byte h.stacked hmem (hlen ▸ hj) w
  refine ⟨{ c with heap := c.heap.setMem (c.heap.mem.store ((p.block s.regions).addr + j) 1
      w.toNat) }, ?_, ⟨hheld, h.stacked, h.aligned, h.blocks,
    h.contents.write hp (h.stacked.disjoint h.held.laid) (hlen ▸ hj) w, h.marks, h.depths,
    h.covered, h.reached, h.ordered, h.live, ?_, h.started⟩, rfl⟩
  · simp only [Client.step, hb, hstore, ok_bind]
    rfl
  · have hsize : (p.block s.regions).size = p.bytes := rfl
    have hwithin := (Within.refl [p.block s.regions] c.heap.mem).store (List.mem_singleton_self _)
      (a := (p.block s.regions).addr + j) (n := 1) (by simp only [Block.Holds]; omega) w.toNat
    refine kept_of_within h.live hwithin (fun b hb => ?_) h.kept
    rw [List.mem_singleton.mp hb]
    exact h.stacked.piece_inside hmem

theorem snapshot : ∃ c', c.step .snapshot = .ok c'
    ∧ Tracks base m₀ (t.step .snapshot) c' s ps (qs ++ [⟨s.cur, s.count, ps.length⟩]) := by
  have hlen : t.blocks.length = ps.length := h.contents.length_eq
  have hclen : c.blocks.length = ps.length := by rw [h.blocks, List.length_map]
  refine ⟨{ c with marks := c.marks ++ [(⟨addrAt s.regions s.cur, s.count⟩, c.blocks.length)] },
    ?_, h.held, h.stacked, h.aligned, h.blocks, h.contents, ?_, ?_, ?_, ?_, ?_, h.live, h.kept,
    h.started⟩
  · rw [Client.step, h.held.snapshot_eq]
    rfl
  · refine List.rel_append h.marks (List.Forall₂.cons ⟨?_, hclen⟩ List.Forall₂.nil)
    rcases h.held.cur_lt with hcur | rfl
    · have hr : s.regions[s.cur]? = some s.regions[s.cur] := List.getElem?_eq_getElem hcur
      exact .inr ⟨_, hr, by rw [addrAt_of_getElem? hr], h.held.count_le _ hr⟩
    · -- no region, hence no piece
      have hnil : ps = [] := by
        refine List.eq_nil_iff_forall_not_mem.mpr fun p hp => ?_
        obtain ⟨r, hr, -⟩ := h.stacked.inside p hp
        cases hr
      exact .inl ⟨rfl, by rw [hnil]; rfl⟩
  · show t.marks ++ [t.blocks.length] = _
    rw [h.depths, hlen, List.map_append]
    rfl
  · intro q hq
    rcases List.mem_append.mp hq with hq | hq
    · exact h.covered q hq
    · rw [List.mem_singleton.mp hq]
      exact ⟨Nat.le_refl _, fun p hp => h.stacked.below p (List.mem_of_mem_take hp)⟩
  · intro q hq
    rcases List.mem_append.mp hq with hq | hq
    · exact h.reached q hq
    · rw [List.mem_singleton.mp hq]
      exact Before.refl _ _
  · refine List.pairwise_append.mpr ⟨h.ordered, List.pairwise_singleton _ _, fun q hq q' hq' => ?_⟩
    rw [List.mem_singleton.mp hq']
    exact ⟨h.reached q hq, (h.covered q hq).1⟩

/-- A rewind to a marked position makes it the current one. -/
theorem rewind_point {q : Point} {m : Arena_Mark} (hm : MarkOf s.regions q m) :
    ∃ a' m', arena_rewind c.heap c.arena m = .ok (a', c.heap.setMem m')
      ∧ Held (c.heap.setMem m') a' ⟨s.regions, q.region, q.word⟩
      ∧ Within (s.regions.map Region.header) c.heap.mem m' := by
  rcases hm with ⟨hregion, rfl⟩ | ⟨r, hr, rfl, hword⟩
  · obtain ⟨m', hrun, hheld, hwithin⟩ := h.held.reset_eq
    refine ⟨_, m', ?_, hheld, hwithin⟩
    unfold arena_rewind
    rw [if_pos hregion]
    exact hrun
  · obtain ⟨m', hrun, hheld, hwithin⟩ := h.held.rewind_eq hr hword
    exact ⟨_, m', hrun, hheld, hwithin⟩

theorem rewind {k : Nat} {q : Point} (hq : qs[k]? = some q) : ∃ c',
    c.step (.rewind k) = .ok c'
      ∧ Tracks base m₀ (t.step (.rewind k)) c' ⟨s.regions, q.region, q.word⟩ (ps.take q.depth)
          (qs.take (k + 1))
      ∧ c'.heap.live = c.heap.live := by
  have hk' : k < qs.length := (List.getElem?_eq_some_iff.mp hq).1
  have hdepth : t.marks.getD k 0 = q.depth := by
    rw [h.depths, List.getD_eq_getElem?_getD, List.getElem?_map, hq]
    rfl
  obtain ⟨m, hcm, hm⟩ : ∃ m, c.marks[k]? = some (m, q.depth) ∧ MarkOf s.regions q m := by
    obtain ⟨hlen, hget⟩ := List.forall₂_iff_get.mp h.marks
    have hck : k < c.marks.length := hlen ▸ hk'
    have hrel := hget k hk' hck
    have hqk : qs[k] = q := Option.some.inj ((List.getElem?_eq_getElem hk').symm.trans hq)
    have hmark : MarkOf s.regions qs[k] c.marks[k].1 := hrel.1
    refine ⟨c.marks[k].1, ?_, hqk ▸ hmark⟩
    rw [List.getElem?_eq_getElem hck]
    exact congrArg some (Prod.ext rfl (hrel.2.trans (congrArg Point.depth hqk)))
  obtain ⟨hle, hbelow⟩ := h.covered q (List.mem_of_getElem? hq)
  obtain ⟨a', m', hrun, hheld, hwithin⟩ := h.rewind_point hm
  -- the marks up to this one are not behind it
  have hearlier : ∀ q' ∈ qs.take (k + 1),
      Before q'.region q'.word q.region q.word ∧ q'.depth ≤ q.depth := by
    intro q' hq'
    obtain ⟨j, hj⟩ := List.mem_iff_getElem?.mp hq'
    rw [List.getElem?_take] at hj
    split at hj
    next hlt =>
      by_cases hjk : j = k
      · subst hjk
        obtain rfl : q' = q := Option.some.inj (hj.symm.trans hq)
        exact ⟨Before.refl _ _, Nat.le_refl _⟩
      · obtain ⟨hjl, rfl⟩ := List.getElem?_eq_some_iff.mp hj
        obtain ⟨hkl, rfl⟩ := List.getElem?_eq_some_iff.mp hq
        exact List.pairwise_iff_getElem.mp h.ordered j k hjl hkl (by omega)
    next => cases hj
  refine ⟨⟨c.heap.setMem m', a', c.blocks.take q.depth, c.marks.take (k + 1)⟩, ?_, ⟨hheld,
    h.stacked.rewind hbelow, h.aligned, ?_, ?_, List.forall₂_take (k + 1) h.marks, ?_, ?_, ?_,
    h.ordered.sublist (List.take_sublist _ _), h.live, ?_, h.started⟩, rfl⟩
  · simp only [Client.step, hcm, hrun, ok_bind]
    rfl
  · rw [h.blocks, List.map_take]
  · show Contents m' s.regions (t.blocks.take (t.marks.getD k 0)) _
    rw [hdepth]
    exact List.forall₂_take _ (h.contents_of_headers hwithin)
  · show t.marks.take (k + 1) = _
    rw [h.depths, List.map_take]
  · intro q' hq'
    obtain ⟨hle', hbelow'⟩ := h.covered q' (List.mem_of_mem_take hq')
    have hdepths := (hearlier q' hq').2
    refine ⟨by rw [List.length_take]; omega, fun p hp => hbelow' p ?_⟩
    rwa [List.take_take, Nat.min_eq_left hdepths] at hp
  · exact fun q' hq' => (hearlier q' hq').1
  · exact kept_of_within h.live hwithin header_inside h.kept

/-! ## §6. Release. -/

theorem reset : ∃ c', c.step .reset = .ok c'
    ∧ Tracks base m₀ (t.step .reset) c' s.reset [] [] := by
  obtain ⟨m', hrun, hheld, hwithin⟩ := h.held.reset_eq
  refine ⟨⟨c.heap.setMem m', _, [], []⟩, by rw [Client.step, hrun]; rfl, hheld,
    ⟨by simp, by simp, List.Pairwise.nil⟩, h.aligned, rfl, List.Forall₂.nil, List.Forall₂.nil, rfl,
    by simp, by simp, List.Pairwise.nil, h.live,
    kept_of_within h.live hwithin header_inside h.kept, h.started⟩

theorem trim (hstarted : t.started = true) : ∃ c', c.step .trim = .ok c'
    ∧ Tracks base m₀ (t.step .trim) c' s.trim ps qs := by
  have hcur : s.cur < s.regions.length :=
    h.held.cur_lt.resolve_right fun heq => h.started.mp hstarted (by rw [heq]; rfl)
  obtain ⟨h', hrun, hlive', hheld, hwithin⟩ := h.held.trim_eq hcur
  -- pieces and marks are in the regions that stay
  have hstay : ∀ i, i ≤ s.cur → addrAt (s.regions.take (s.cur + 1)) i = addrAt s.regions i := by
    intro i hi
    rw [addrAt, addrAt, List.getElem?_take, if_pos (by omega)]
  have hblocks : ∀ p ∈ ps, p.block s.trim.regions = p.block s.regions := by
    intro p hp
    have hbelow := h.stacked.below p hp
    unfold Before at hbelow
    rw [Piece.block, Piece.block, Space.trim, hstay _ (by omega)]
  have hlive : h'.live.Perm (s.trim.regions.map Region.block ++ base) := by
    rw [hlive']
    exact live_filter h.live h.held.laid (s.cur + 1)
  refine ⟨{ c with heap := h' }, by rw [Client.step, hrun]; rfl, hheld, h.stacked.trim,
    fun r hr => h.aligned r (List.mem_of_mem_take hr), ?_, ?_, ?_, h.depths, h.covered, h.reached,
    h.ordered, hlive, kept_of_within hlive hwithin header_inside h.kept, ?_⟩
  · rw [h.blocks]
    exact (List.map_congr_left hblocks).symm
  · refine h.contents.frame hblocks fun p hp i hi => ?_
    rw [← hblocks p hp] at hi
    exact hwithin.at_of_disjoint (h.stacked.trim.disjoint_header hheld.laid hp) hi
  · refine List.forall₂_iff_get.mpr ⟨h.marks.length_eq, fun i hi hi' => ?_⟩
    obtain ⟨hmark, hdepth⟩ := (List.forall₂_iff_get.mp h.marks).2 i hi hi'
    refine ⟨?_, hdepth⟩
    have hreached := h.reached _ (List.get_mem qs ⟨i, hi⟩)
    unfold Before at hreached
    rcases hmark with hmark | ⟨r, hr, hm⟩
    · exact .inl hmark
    · refine .inr ⟨r, ?_, hm⟩
      rw [Space.trim, List.getElem?_take, if_pos (by omega), hr]
  · refine ⟨fun hs hnil => ?_, fun _ => hstarted⟩
    have hlen := congrArg List.length hnil
    simp only [Space.trim, List.length_take, List.length_nil] at hlen
    omega

theorem free : ∃ c', c.step .free = .ok c'
    ∧ Tracks base m₀ (t.step .free) c' Space.empty [] [] := by
  obtain ⟨h', hrun, hmem, hlive', hheld⟩ := h.held.free_eq
  have hlive := live_filter h.live h.held.laid 0
  refine ⟨⟨h', ⟨0, 0⟩, [], []⟩, by rw [Client.step, hrun]; rfl, hheld,
    ⟨by simp, by simp, List.Pairwise.nil⟩, by simp [Space.empty], rfl, List.Forall₂.nil,
    List.Forall₂.nil, rfl, by simp, by simp, List.Pairwise.nil, ?_, ?_,
    by simp [Store.step, Store.empty, Space.empty]⟩
  · rw [hlive']
    exact hlive
  · rw [hmem]
    exact h.kept

end Tracks

/-! ## §7. Sessions. -/

/-- The bytes that a call asks the arena for, and the `malloc` that serves it. -/
def Call.requests (t : Store) : Call → Option (Malloc × Nat)
  | .alloc M n | .realloc M _ n | .memdup M _ n => some (M, n)
  | .strdup M i => (cstring (t.blocks.getD i [])).map fun s => (M, s.length + 1)
  | _ => none

/-- The same where it takes something: a block that is large enough is not reallocated. -/
def Call.takes (t : Store) : Call → Option (Malloc × Nat)
  | .alloc M n | .memdup M _ n => some (M, n)
  | .realloc M i n => if n ≤ (t.blocks.getD i []).length then none else some (M, n)
  | .strdup M i => (cstring (t.blocks.getD i [])).map fun s => (M, s.length + 1)
  | _ => none

theorem Call.requests_of_takes {t : Store} {call : Call} {x : Malloc × Nat}
    (h : call.takes t = some x) : call.requests t = some x := by
  cases call <;> try exact h
  case realloc M i n =>
    rw [Call.takes] at h
    split at h
    next => cases h
    next => exact h

/-- Calls that take blocks or write into them. -/
def Call.Fills : Call → Prop
  | .alloc .. | .realloc .. | .strdup .. | .memdup .. | .write .. => True
  | .snapshot | .rewind _ | .reset | .trim | .free => False

instance : ∀ call : Call, Decidable call.Fills
  | .alloc .. | .realloc .. | .strdup .. | .memdup .. | .write .. => isTrue trivial
  | .snapshot | .rewind _ | .reset | .trim | .free => isFalse id

/-- `malloc` has no region for what the call asks for. -/
def Denied (t : Store) (c : Client) (call : Call) : Prop :=
  ∃ M n, call.requests t = some (M, n) ∧ fresh_region M c.heap (words n) = 0

/-- What the program may rely on: its blocks hold the bytes of the store, no two of them share a
byte, all can be read and written and are aligned for pointers; the blocks of everybody else are
as they were, and when the arena is not in use they are the only ones. -/
structure Realises (base : List Block) (m₀ : Mem) (t : Store) (c : Client) : Prop where
  contents : List.Forall₂ (fun l (b : Block) => l.length = b.size ∧ Shows c.heap.mem b.addr l)
    t.blocks c.blocks
  disjoint : c.blocks.Pairwise Block.Disjoint
  valid : ∀ b ∈ c.blocks, c.heap.Valid b.addr b.size ∧ b.addr % 8 = 0
  kept : ∀ b ∈ base, b ∈ c.heap.live ∧ ∀ i, b.Holds i 1 → c.heap.mem i = m₀ i
  released : t.started = false → c.heap.live.Perm base

theorem Tracks.realises (h : Tracks base m₀ t c s ps qs) : Realises base m₀ t c := by
  refine ⟨?_, h.blocks ▸ h.stacked.disjoint h.held.laid, ?_, fun b hb => ⟨?_, h.kept b hb⟩, ?_⟩
  · rw [h.blocks]
    exact List.forall₂_map_right_iff.mpr h.contents
  · rw [h.blocks]
    rintro b hb
    obtain ⟨p, hp, rfl⟩ := List.mem_map.mp hb
    refine ⟨h.stacked.valid h.held.laid hp, ?_⟩
    obtain ⟨r, hr, -⟩ := h.stacked.inside p hp
    have haligned := h.aligned r (List.mem_of_getElem? hr)
    simp only [Piece.block, addrAt_of_getElem? hr, data_at]
    omega
  · exact h.live.mem_iff.mpr (List.mem_append_right _ hb)
  · intro hstarted
    have hnil : s.regions = [] := by
      by_contra hne
      rw [h.started.mpr hne] at hstarted
      cases hstarted
    have hlive := h.live
    rwa [hnil, List.map_nil, List.nil_append] at hlive

theorem Tracks.pushed (h : Tracks base m₀ t c s ps qs) {M : Malloc} {n : Nat} {l : Bytes}
    {x : Checked (Nat × Arena × Heap)}
    (hx : Safe (Refused M c.heap s (words n)) x
      (Pushed c.heap s n (fresh_region M c.heap (words n)) l)) (hlen : l.length = n) :
    Safe (Refused M c.heap s (words n)) (x >>= fun v => pure (c.keep n v)) fun c' =>
      Tracks base m₀ (t.push l) c' (s.alloc (words n) (fresh_region M c.heap (words n))).2
        (ps ++ [s.top n (fresh_region M c.heap (words n))]) qs
      ∧ c'.heap.live = ((s.alloc (words n) (fresh_region M c.heap (words n))).2.regions.drop
          s.regions.length).map Region.block ++ c.heap.live :=
  Safe.bind hx fun _ hv => ⟨h.push hv hlen (M.aligned _ _), hv.live⟩

/-- **A call that takes a block** puts one piece on top. -/
theorem Tracks.take (h : Tracks base m₀ t c s ps qs) {call : Call} (hallow : t.Allows call)
    {M : Malloc} {n : Nat} (hcall : call.takes t = some (M, n)) :
    Safe (Refused M c.heap s (words n)) (c.step call) fun c' =>
      Tracks base m₀ (t.step call) c' (s.alloc (words n) (fresh_region M c.heap (words n))).2
        (ps ++ [s.top n (fresh_region M c.heap (words n))]) qs
      ∧ c'.heap.live = ((s.alloc (words n) (fresh_region M c.heap (words n))).2.regions.drop
          s.regions.length).map Region.block ++ c.heap.live := by
  cases call with
  | alloc M n =>
      cases hcall
      exact h.pushed (arena_alloc_pushed h.held M hallow) List.length_replicate
  | realloc M i n =>
      obtain ⟨p, hp, hb, hlen, hshows⟩ := h.block hallow.1
      have hsize : (p.block s.regions).size = p.bytes := rfl
      rw [Call.takes, hlen] at hcall
      split at hcall
      next => cases hcall
      next hlt =>
        cases hcall
        have hstep : t.step (.realloc M i n)
            = t.push (t.blocks.getD i [] ++ List.replicate (n - p.bytes) none) := by
          rw [Store.step]
          simp only [hlen]
          exact if_neg hlt
        simp only [Client.step, hb, hsize, if_neg hlt]
        rw [hstep]
        refine h.pushed (arena_realloc_pushed h.held h.stacked M (List.mem_of_getElem? hp)
          (by omega) hallow.2 hlen hshows) ?_
        rw [List.length_append, hlen, List.length_replicate]
        omega
  | strdup M i =>
      obtain ⟨p, hp, hb, hlen, hshows⟩ := h.block hallow.1
      obtain ⟨str, hstr⟩ := Option.isSome_iff_exists.mp hallow.2
      have hmem := List.mem_of_getElem? hp
      have hstrlen := (arena_strlen_piece h.held h.stacked hmem hlen hshows hstr).1
      have hstep : t.step (.strdup M i) = t.push (str.map some ++ [some 0]) := by
        rw [Store.step, hstr]
      rw [Call.takes, hstr] at hcall
      cases hcall
      simp only [Client.step, hb, hstrlen, ok_bind]
      rw [hstep]
      exact h.pushed (arena_strdup_pushed h.held h.stacked M hmem hlen hshows hstr) (by simp)
  | memdup M i n =>
      cases hcall
      obtain ⟨p, hp, hb, hlen, hshows⟩ := h.block hallow.1
      have hmem := List.mem_of_getElem? hp
      have hle : n ≤ p.bytes := hlen ▸ hallow.2
      have hbytes := h.stacked.bytes_le h.held.laid hmem
      simp only [Client.step, hb]
      exact h.pushed (arena_memdup_pushed h.held h.stacked M hmem hle (by omega) hlen hshows)
        (by rw [List.length_take]; omega)
  | write | snapshot | rewind | reset | trim | free => cases hcall

/-- A call that fills the blocks there are leaves the pieces in place. -/
theorem Tracks.fill (h : Tracks base m₀ t c s ps qs) {call : Call} (hallow : t.Allows call)
    (hfills : call.Fills) (hcall : call.takes t = none) : ∃ c', c.step call = .ok c'
      ∧ Tracks base m₀ (t.step call) c' s ps qs ∧ c'.heap.live = c.heap.live := by
  cases call with
  | alloc | memdup => cases hcall
  | strdup M i =>
      obtain ⟨str, hstr⟩ := Option.isSome_iff_exists.mp hallow.2
      rw [Call.takes, hstr] at hcall
      cases hcall
  | realloc M i n =>
      obtain ⟨p, hp, hb, hlen, -⟩ := h.block hallow.1
      have hsize : (p.block s.regions).size = p.bytes := rfl
      rw [Call.takes, hlen] at hcall
      split at hcall
      next hle =>
        have hrun : arena_realloc M c.heap c.arena (p.block s.regions).addr p.bytes n
            = .ok ((p.block s.regions).addr, c.arena, c.heap) := if_pos hle
        have hstep : t.step (.realloc M i n) = t := if_pos (by rw [hlen]; exact hle)
        refine ⟨c, ?_, hstep.symm ▸ h, rfl⟩
        simp only [Client.step, hb, hsize, hrun, ok_bind, if_pos hle]
        rfl
      next => cases hcall
  | write i j w => exact h.write hallow w
  | snapshot | rewind | reset | trim | free => exact hfills.elim

/-- **One call** that a correct program makes. -/
theorem Tracks.step (h : Tracks base m₀ t c s ps qs) {call : Call} (hallow : t.Allows call) :
    Safe (Denied t c call) (c.step call) fun c' => ∃ s' ps' qs',
      Tracks base m₀ (t.step call) c' s' ps' qs' := by
  cases htakes : call.takes t with
  | some x =>
      obtain ⟨M, n⟩ := x
      refine (h.take hallow htakes).mono
        (fun hrefused => ⟨M, n, Call.requests_of_takes htakes, hrefused.2⟩) fun c' hc' => ?_
      exact ⟨_, _, _, hc'.1⟩
  | none =>
  by_cases hfills : call.Fills
  · obtain ⟨c', hrun, htracks, -⟩ := h.fill hallow hfills htakes
    rw [hrun]
    exact ⟨s, ps, qs, htracks⟩
  cases call with
  | alloc | realloc | strdup | memdup | write => exact absurd trivial hfills
  | snapshot =>
      obtain ⟨c', hrun, htracks⟩ := h.snapshot
      rw [hrun]
      exact ⟨_, _, _, htracks⟩
  | rewind k =>
      have hk : k < qs.length := by
        rw [← List.length_map, ← h.depths]
        exact hallow
      obtain ⟨c', hrun, htracks, -⟩ := h.rewind (List.getElem?_eq_getElem hk)
      rw [hrun]
      exact ⟨_, _, _, htracks⟩
  | reset =>
      obtain ⟨c', hrun, htracks⟩ := h.reset
      rw [hrun]
      exact ⟨_, _, _, htracks⟩
  | trim =>
      obtain ⟨c', hrun, htracks⟩ := h.trim hallow
      rw [hrun]
      exact ⟨_, _, _, htracks⟩
  | free =>
      obtain ⟨c', hrun, htracks⟩ := h.free
      rw [hrun]
      exact ⟨_, _, _, htracks⟩

/-- A program before its first call, in a heap where others hold blocks. -/
def Client.start (h₀ : Heap) : Client := ⟨h₀, ⟨0, 0⟩, [], []⟩

theorem tracks_start (h₀ : Heap) :
    Tracks h₀.live h₀.mem Store.empty (Client.start h₀) Space.empty [] [] :=
  ⟨held_empty h₀, ⟨by simp, by simp, List.Pairwise.nil⟩, by simp [Space.empty], rfl,
    List.Forall₂.nil, List.Forall₂.nil, rfl, by simp, by simp, List.Pairwise.nil,
    List.Perm.refl _, fun _ _ _ _ => rfl, by simp [Store.empty, Space.empty]⟩

/-- A call of the program, beside the call on the store. -/
def Call.wp (x : Store × Client) (call : Call) (R : Store × Client → Prop) : Prop :=
  Safe (Denied x.1 x.2 call) (x.2.step call) fun c' => R (x.1.step call, c')

/-- **Whatever a correct program does with an arena**, no call accesses memory outside live
blocks, frees what `malloc` has not handed out or runs on; it aborts only where `malloc` has
nothing left; and every state realises the store. -/
theorem arena_realises_store (h₀ : Heap) (calls : List Call)
    (hallow : Run.EachStep Store.step Store.Allows Store.empty calls) :
    Wp.Surely Call.wp (fun _ _ x => Realises h₀.live h₀.mem x.1 x.2)
      (Store.empty, Client.start h₀) calls := by
  refine Wp.surely_of_tracked (H := fun _ _ => True) (G := Store.Allows)
    (I := fun t x => x.1 = t ∧ ∃ s ps qs, Tracks h₀.live h₀.mem t x.2 s ps qs)
    (fun x call R R' hR hx => hx.mono id fun c' hc' => hR _ hc') ?_ calls Store.empty _
    ⟨rfl, _, _, _, tracks_start h₀⟩ ?_ hallow
  · rintro t ⟨_, c⟩ call ⟨rfl, s, ps, qs, h⟩ - hcall
    refine (h.step hcall).mono id ?_
    rintro c' ⟨s', ps', qs', h'⟩
    exact ⟨h'.realises, rfl, s', ps', qs', h'⟩
  · exact (Run.eachStep_iff_forall (P := fun _ => True) calls _).mpr fun _ _ => trivial

/-- A heap in which others hold one block. -/
def shared_heap : Heap := ⟨fun _ => 0, [⟨640, 32⟩], by decide, by decide⟩

/-- A block is written, copied as a string, dropped by a rewind and copied again. -/
theorem arena_realises_store_witness :
    Wp.Surely Call.wp (fun _ _ x => Realises shared_heap.live shared_heap.mem x.1 x.2)
      (Store.empty, Client.start shared_heap)
      [.alloc .bump 3, .snapshot, .write 0 0 65, .write 0 1 0, .strdup .bump 0, .rewind 0,
        .realloc .bump 0 9, .memdup .bump 1 2, .trim, .reset, .alloc .bump 20, .free] :=
  arena_realises_store shared_heap _ (by decide)

end PreSeQL.Allocator
