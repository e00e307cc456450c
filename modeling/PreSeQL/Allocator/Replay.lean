/-
  PreSeQL.Allocator.Replay — what a rewind makes room for.

  A rewind gives no region back.  Whatever asks for the same sizes afterwards gets the same
  addresses, and `malloc` is not asked again: a loop between a snapshot and a rewind costs
  what its first round costs.

    • `Space.alloc_again` — an allocation where the regions it needed are there already,
    • `Took`, `Fits` — the allocations of a run, with and without further regions,
    • `Tracks.run_took`, `Tracks.run_fits` — the runs behind them,
    • `rewind_replays` — the same sizes behind a rewind.
-/
import PreSeQL.Allocator.Session

namespace PreSeQL.Allocator

open PreSeQL.Lib

/-! ## §1. First fit in a longer list. -/

theorem firstFit_append_some {size : Nat} (rs rest : List Region) : ∀ {used k : Nat},
    firstFit size used rs = some k → firstFit size used (rs ++ rest) = some k := by
  induction rs with
  | nil => intro used k h; cases h
  | cons r rs ih =>
      intro used k h
      rw [firstFit] at h
      rw [List.cons_append, firstFit]
      split at h
      next hfit => rw [if_pos hfit, h]
      next hfull =>
        obtain ⟨k', hk', rfl⟩ := Option.map_eq_some_iff.mp h
        rw [if_neg hfull, ih hk', Option.map_some]

theorem firstFit_append_none {size : Nat} {r : Region} (rs rest : List Region) : ∀ {used : Nat},
    firstFit size used rs = none → headUsed used rs.length + size ≤ r.capacity →
      firstFit size used (rs ++ r :: rest) = some rs.length := by
  induction rs with
  | nil =>
      intro used _ hfit
      have hroom : used + size ≤ r.capacity := hfit
      rw [List.nil_append, firstFit, if_pos hroom]
      rfl
  | cons r' rs ih =>
      intro used h hfit
      rw [firstFit] at h
      split at h
      next => cases h
      next hfull =>
        rw [List.cons_append, firstFit, if_neg hfull, ih (Option.map_eq_none_iff.mp h)]
        · rfl
        · unfold headUsed at hfit ⊢
          split
          next => simpa using hfit
          next => simpa using hfit

/-- Where the words are does not depend on an address that is not needed. -/
theorem Space.alloc_of_fit {s : Space} {size : Nat}
    (h : firstFit size s.count (s.regions.drop s.cur) ≠ none) (fresh fresh' : Nat) :
    s.alloc size fresh = s.alloc size fresh' := by
  unfold Space.alloc
  split
  next => rfl
  next hnone => exact absurd hnone h

theorem Space.alloc_regions_of_fit {s : Space} {size : Nat}
    (h : firstFit size s.count (s.regions.drop s.cur) ≠ none) (fresh : Nat) :
    (s.alloc size fresh).2.regions = s.regions := by
  unfold Space.alloc
  split
  next => rfl
  next hnone => exact absurd hnone h

/-- **The second time**: the regions that the allocation left are in `S`. -/
theorem Space.alloc_again {s : Space} {size fresh : Nat} {S : List Region}
    (hcur : s.cur < s.regions.length ∨ s = Space.empty)
    (hS : (s.alloc size fresh).2.regions <+: S) :
    firstFit size s.count (S.drop s.cur) ≠ none
      ∧ ∀ fresh', (Space.mk S s.cur s.count).alloc size fresh'
        = ((s.alloc size fresh).1, ⟨S, (s.alloc size fresh).2.cur, (s.alloc size fresh).2.count⟩) := by
  have hle : s.cur ≤ s.regions.length := by
    rcases hcur with hcur | rfl
    · exact Nat.le_of_lt hcur
    · exact Nat.le_refl 0
  unfold Space.alloc at hS ⊢
  cases hf : firstFit size s.count (s.regions.drop s.cur) with
  | some k =>
      simp only [hf] at hS ⊢
      obtain ⟨rest, rfl⟩ := hS
      have hagain := firstFit_append_some _ rest hf
      rw [← List.drop_append_of_le_length hle] at hagain
      exact ⟨by rw [hagain]; simp, fun fresh' => by rw [hagain]; rfl⟩
  | none =>
      simp only [hf] at hS ⊢
      obtain ⟨rest, rfl⟩ := hS
      have hused : headUsed s.count (s.regions.drop s.cur).length = 0 := by
        rcases hcur with hcur | rfl
        · rw [headUsed, if_neg (by rw [List.length_drop]; omega)]
        · rfl
      have hagain := firstFit_append_none (s.regions.drop s.cur) rest hf
        (r := Region.mk fresh (max ARENA_REGION_DEFAULT_CAPACITY size)) (by rw [hused]; simp)
      have hdrop : ∀ r : Region, (s.regions ++ [r] ++ rest).drop s.cur
          = s.regions.drop s.cur ++ r :: rest := by
        intro r
        rw [List.append_assoc, List.drop_append_of_le_length hle]
        rfl
      have hwhere : s.cur + (s.regions.drop s.cur).length = s.regions.length := by
        rw [List.length_drop]
        omega
      have hzero : (if s.regions.length = s.cur then s.count else 0) = 0 := by
        rcases hcur with hcur | rfl
        · exact if_neg (by omega)
        · rfl
      rw [hdrop, hagain]
      refine ⟨by simp, fun fresh' => ?_⟩
      simp only [hwhere, Space.used, hzero, Nat.zero_add]

/-! ## §2. Allocations one after the other. -/

/-- Pieces of the sizes `ns` have been put on top, with whatever regions were needed. -/
inductive Took : Space → List Piece → List Nat → Space → List Piece → Prop where
  | nil (s : Space) (ps : List Piece) : Took s ps [] s ps
  | cons {s s' : Space} {ps ps' : List Piece} {n : Nat} {ns : List Nat} (fresh : Nat) :
      Took (s.alloc (words n) fresh).2 (ps ++ [s.top n fresh]) ns s' ps' → Took s ps (n :: ns) s' ps'

/-- The same without a further region. -/
inductive Fits : Space → List Piece → List Nat → Space → List Piece → Prop where
  | nil (s : Space) (ps : List Piece) : Fits s ps [] s ps
  | cons {s s' : Space} {ps ps' : List Piece} {n : Nat} {ns : List Nat} (fresh : Nat) :
      firstFit (words n) s.count (s.regions.drop s.cur) ≠ none →
      Fits (s.alloc (words n) fresh).2 (ps ++ [s.top n fresh]) ns s' ps' → Fits s ps (n :: ns) s' ps'

theorem Took.grows {s s' : Space} {ps ps' : List Piece} {ns : List Nat}
    (h : Took s ps ns s' ps') : s.regions <+: s'.regions ∧ ps <+: ps' := by
  induction h with
  | nil => exact ⟨List.prefix_rfl, List.prefix_rfl⟩
  | @cons s s' ps ps' n ns fresh _ ih =>
      obtain ⟨new, hregions, -⟩ := Space.alloc_regions s (words n) fresh
      exact ⟨(hregions ▸ List.prefix_append _ _).trans ih.1, (List.prefix_append _ _).trans ih.2⟩

/-- **What has been taken once fits** where its regions are. -/
theorem Took.fits {s s' : Space} {ps ps' : List Piece} {ns : List Nat}
    (h : Took s ps ns s' ps') (hcur : s.cur < s.regions.length ∨ s = Space.empty) :
    ∀ {ns' : List Nat} {S : List Region}, ns' <+: ns → s'.regions <+: S →
      ∃ s'' ps'', Fits ⟨S, s.cur, s.count⟩ ps ns' s'' ps'' ∧ s''.regions = S ∧ ps'' <+: ps' := by
  induction h with
  | nil s ps =>
      intro ns' S hns _
      rw [List.prefix_nil.mp hns]
      exact ⟨_, _, Fits.nil _ _, rfl, List.prefix_rfl⟩
  | @cons s s' ps ps' n ns fresh htook ih =>
      intro ns' S hns hS
      cases ns' with
      | nil => exact ⟨_, _, Fits.nil _ _, rfl, (List.prefix_append ps _).trans htook.grows.2⟩
      | cons n' ns' =>
          obtain ⟨rfl, hrest⟩ := List.cons_prefix_cons.mp hns
          obtain ⟨hfit, hagain⟩ := Space.alloc_again hcur (htook.grows.1.trans hS)
          have hcur' : (s.alloc (words n') fresh).2.cur < (s.alloc (words n') fresh).2.regions.length
              := by
            obtain ⟨r, hr, -⟩ := Space.alloc_inside s (words n') fresh
            rw [(Space.alloc_position s (words n') fresh).1]
            exact (List.getElem?_eq_some_iff.mp hr).1
          obtain ⟨s'', ps'', hfits, hregions, hpieces⟩ := ih (.inl hcur') hrest hS
          refine ⟨s'', ps'', Fits.cons 0 hfit ?_, hregions, hpieces⟩
          rw [Space.top, hagain 0]
          exact hfits

/-! ## §3. Runs of calls. -/

def Client.run : Client → List Call → Checked Client
  | c, [] => .ok c
  | c, call :: calls => do
      let c ← c.step call
      c.run calls

theorem Client.run_append (calls calls' : List Call) : ∀ c : Client,
    c.run (calls ++ calls') = c.run calls >>= fun c => c.run calls' := by
  induction calls with
  | nil => intro c; rfl
  | cons call calls ih =>
      intro c
      simp only [List.cons_append, Client.run]
      cases c.step call with
      | ok c' => exact ih c'
      | error e => rfl

namespace Store

def run (t : Store) (calls : List Call) : Store := calls.foldl Store.step t

/-- The sizes that the calls take, in order. -/
def demands : Store → List Call → List Nat
  | _, [] => []
  | t, call :: calls => (call.takes t).toList.map Prod.snd ++ demands (t.step call) calls

end Store

variable {base : List Block} {m₀ : Mem} {t : Store} {c : Client} {s : Space} {ps : List Piece}
  {qs : List Point}

/-- A call that returns is one the program may make. -/
theorem Tracks.run (calls : List Call) : ∀ {t : Store} {c c' : Client} {s : Space}
    {ps : List Piece} {qs : List Point}, Tracks base m₀ t c s ps qs →
    Run.EachStep Store.step Store.Allows t calls → c.run calls = .ok c' →
      ∃ s' ps' qs', Tracks base m₀ (t.run calls) c' s' ps' qs' := by
  induction calls with
  | nil =>
      intro t c c' s ps qs h _ hrun
      cases hrun
      exact ⟨s, ps, qs, h⟩
  | cons call calls ih =>
      intro t c c' s ps qs h hallow hrun
      rw [Client.run] at hrun
      cases hstep : c.step call with
      | error e => rw [hstep] at hrun; cases hrun
      | ok c₁ =>
          rw [hstep] at hrun
          obtain ⟨s₁, ps₁, qs₁, h₁⟩ := (h.step hallow.1).of_ok hstep
          exact ih h₁ hallow.2 hrun

/-- Calls that fill, as far as `malloc` had what they took. -/
theorem Tracks.run_took (body : List Call) : ∀ {t : Store} {c c' : Client} {s : Space}
    {ps : List Piece}, Tracks base m₀ t c s ps qs →
    Run.EachStep Store.step Store.Allows t body → (∀ call ∈ body, call.Fills) →
    c.run body = .ok c' →
      ∃ s' ps', Tracks base m₀ (t.run body) c' s' ps' qs ∧ Took s ps (t.demands body) s' ps' := by
  induction body with
  | nil =>
      intro t c c' s ps h _ _ hrun
      cases hrun
      exact ⟨s, ps, h, Took.nil s ps⟩
  | cons call body ih =>
      intro t c c' s ps h hallow hfills hrun
      obtain ⟨hfill, hfills⟩ := List.forall_mem_cons.mp hfills
      rw [Client.run] at hrun
      rw [Store.demands]
      cases htakes : call.takes t with
      | none =>
          obtain ⟨c₁, hstep, h₁, -⟩ := h.fill hallow.1 hfill htakes
          rw [hstep] at hrun
          exact ih h₁ hallow.2 hfills hrun
      | some x =>
          obtain ⟨M, n⟩ := x
          cases hstep : c.step call with
          | error e => rw [hstep] at hrun; cases hrun
          | ok c₁ =>
              rw [hstep] at hrun
              obtain ⟨h₁, -⟩ := (h.take hallow.1 htakes).of_ok hstep
              obtain ⟨s', ps', h', htook⟩ := ih h₁ hallow.2 hfills hrun
              exact ⟨s', ps', h', Took.cons _ htook⟩

/-- **Calls that fit** never ask `malloc`. -/
theorem Tracks.run_fits (body : List Call) : ∀ {t : Store} {c : Client} {s s' : Space}
    {ps ps' : List Piece}, Tracks base m₀ t c s ps qs →
    Run.EachStep Store.step Store.Allows t body → (∀ call ∈ body, call.Fills) →
    Fits s ps (t.demands body) s' ps' →
      ∃ c', c.run body = .ok c' ∧ Tracks base m₀ (t.run body) c' s' ps' qs
        ∧ c'.heap.live = c.heap.live := by
  induction body with
  | nil =>
      intro t c s s' ps ps' h _ _ hfits
      cases hfits
      exact ⟨c, rfl, h, rfl⟩
  | cons call body ih =>
      intro t c s s' ps ps' h hallow hfills hfits
      obtain ⟨hfill, hfills⟩ := List.forall_mem_cons.mp hfills
      rw [Store.demands] at hfits
      cases htakes : call.takes t with
      | none =>
          rw [htakes] at hfits
          obtain ⟨c₁, hstep, h₁, hlive⟩ := h.fill hallow.1 hfill htakes
          obtain ⟨c', hrun, h', hlive'⟩ := ih h₁ hallow.2 hfills hfits
          exact ⟨c', by rw [Client.run, hstep]; exact hrun, h', hlive'.trans hlive⟩
      | some x =>
          obtain ⟨M, n⟩ := x
          rw [htakes] at hfits
          cases hfits with
          | cons fresh hfit hfits =>
              obtain ⟨c₁, hstep, h₁, hlive⟩ := (h.take hallow.1 htakes).returns
                fun hrefused => hfit hrefused.1
              have hsame := Space.alloc_of_fit hfit (fresh_region M c.heap (words n)) fresh
              rw [Space.top, hsame] at h₁
              rw [hsame, Space.alloc_regions_of_fit hfit fresh, List.drop_length] at hlive
              obtain ⟨c', hrun, h', hlive'⟩ := ih h₁ hallow.2 hfills hfits
              exact ⟨c', by rw [Client.run, hstep]; exact hrun, h', hlive'.trans hlive⟩

/-! ## §4. Behind a rewind. -/

theorem Store.run_append (t : Store) (calls calls' : List Call) :
    t.run (calls ++ calls') = (t.run calls).run calls' := List.foldl_append

/-- **A rewind makes room for the same sizes again.**  What takes them in the same order, or a
first part of them, gets the same addresses; `malloc` is not asked, whatever it would answer,
and no call aborts. -/
theorem rewind_replays (h₀ : Heap) (pre body body' : List Call)
    (hallow : Run.EachStep Store.step Store.Allows Store.empty
      (pre ++ .snapshot :: body ++ .rewind (Store.empty.run pre).marks.length :: body'))
    (hfills : ∀ call ∈ body ++ body', call.Fills)
    (hdemands : (((Store.empty.run (pre ++ .snapshot :: body)).step
        (.rewind (Store.empty.run pre).marks.length)).demands body')
      <+: (Store.empty.run (pre ++ [.snapshot])).demands body)
    {c : Client} (hrun : (Client.start h₀).run (pre ++ .snapshot :: body) = .ok c) :
    ∃ c', c.run (.rewind (Store.empty.run pre).marks.length :: body') = .ok c'
      ∧ c'.blocks <+: c.blocks ∧ c'.heap.live = c.heap.live := by
  obtain ⟨hfills, hfills'⟩ := List.forall_mem_append.mp hfills
  obtain ⟨hallow, hrewind, hallow'⟩ := (Run.eachStep_append _ _ _).mp hallow
  obtain ⟨hpre, -, hbody⟩ := (Run.eachStep_append _ _ _).mp hallow
  rw [List.foldl_append] at hallow'
  rw [Store.run_append Store.empty pre (.snapshot :: body),
    Store.run_append Store.empty pre [.snapshot]] at hdemands
  rw [Client.run_append] at hrun
  cases hstart : (Client.start h₀).run pre with
  | error e => rw [hstart] at hrun; cases hrun
  | ok c₀ =>
  rw [hstart, ok_bind, Client.run] at hrun
  obtain ⟨s, ps, qs, h⟩ := (tracks_start h₀).run pre hpre hstart
  obtain ⟨c₁, hsnapshot, h₁⟩ := h.snapshot
  rw [hsnapshot, ok_bind] at hrun
  -- the first round
  obtain ⟨s₂, ps₂, h₂, htook⟩ := h₁.run_took body hbody hfills hrun
  have hmark : (qs ++ [⟨s.cur, s.count, ps.length⟩])[(Store.empty.run pre).marks.length]?
      = some ⟨s.cur, s.count, ps.length⟩ := by
    rw [h.depths, List.length_map, List.getElem?_concat_length]
  obtain ⟨c₃, hback, h₃, hlive₃⟩ := h₂.rewind hmark
  have hpieces : ps₂.take ps.length = ps :=
    List.prefix_iff_eq_take.mp htook.grows.2 |>.symm
  rw [hpieces] at h₃
  -- the second round
  obtain ⟨s₄, ps₄, hfits, hregions, hprefix⟩ :=
    htook.fits h.held.cur_lt hdemands List.prefix_rfl
  obtain ⟨c₄, hrun₄, h₄, hlive₄⟩ := h₃.run_fits body' hallow' hfills' hfits
  refine ⟨c₄, by rw [Client.run, hback]; exact hrun₄, ?_, hlive₄.trans hlive₃⟩
  rw [h₄.blocks, h₂.blocks, hregions]
  exact hprefix.map _

/-- A `malloc` that has nothing left. -/
def Malloc.exhausted : Malloc where
  address _ _ := 0
  placed _ _ hne := absurd rfl hne
  aligned _ _ := rfl
  apart _ _ hne := absurd rfl hne

/-- The second round of a loop that needs a further region, without any memory left. -/
theorem rewind_replays_witness : ∃ c c', (Client.start shared_heap).run
      ([.alloc .bump 20] ++ .snapshot :: [.alloc .bump 70000, .write 1 3 7, .memdup .bump 0 8])
        = .ok c
    ∧ c.run (.rewind 0 :: [.alloc Malloc.exhausted 70000, .write 1 0 5, .alloc Malloc.exhausted 8])
        = .ok c'
    ∧ c'.blocks <+: c.blocks ∧ c'.heap.live = c.heap.live := by
  cases hrun : (Client.start shared_heap).run
      ([.alloc .bump 20] ++ .snapshot :: [.alloc .bump 70000, .write 1 3 7, .memdup .bump 0 8]) with
  | error e =>
      have hok : ((Client.start shared_heap).run ([.alloc .bump 20] ++ .snapshot ::
        [.alloc .bump 70000, .write 1 3 7, .memdup .bump 0 8])).isOk = true := by decide +kernel
      rw [hrun] at hok
      cases hok
  | ok c =>
      obtain ⟨c', hc'⟩ := rewind_replays shared_heap [.alloc .bump 20]
        [.alloc .bump 70000, .write 1 3 7, .memdup .bump 0 8]
        [.alloc Malloc.exhausted 70000, .write 1 0 5, .alloc Malloc.exhausted 8]
        (by decide +kernel) (by decide) (by decide +kernel) hrun
      exact ⟨c, c', rfl, hc'⟩

end PreSeQL.Allocator
