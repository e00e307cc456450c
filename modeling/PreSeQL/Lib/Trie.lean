/-
  PreSeQL.Lib.Trie — fixed-depth tries over a `k`-letter alphabet.

  A node has one optional child per letter and nothing else, so the only
  information in a trie is which paths exist: read to a fixed depth `n` it is a
  finite set of `n`-letter words.  `insert` creates a path, `erase` removes one
  and drops the nodes this leaves childless, `leftmost` follows the smallest
  letter at every level, and `words` lists the set in ascending order.

  `Reduced n t` is the shape invariant: above depth `n` no inner node is
  childless, at depth `n` no node has a child.  It is what makes `leftmost`
  complete (an empty answer means an empty set), and a trie determined by its words
  (`Reduced.ext`).
-/
import Mathlib.Logic.Function.Basic
import Mathlib.Data.List.FinRange
import Mathlib.Tactic.Ring

namespace PreSeQL.Lib

/-- A trie node: one optional child for every letter. -/
inductive Trie (k : Nat) where
  | node (children : Fin k → Option (Trie k))

namespace Trie

variable {k : Nat}

/-! ## §1. Nodes. -/

/-- The child under letter `d`. -/
def child : Trie k → Fin k → Option (Trie k)
  | node children => children

/-- A node without children. -/
def empty : Trie k := node fun _ => none

/-- Replace the child under letter `d`. -/
def setChild (t : Trie k) (d : Fin k) (c : Option (Trie k)) : Trie k :=
  node (Function.update t.child d c)

/-- Some child is present. -/
def hasChildren (t : Trie k) : Bool :=
  (List.finRange k).any fun d => (t.child d).isSome

@[simp] theorem child_empty (d : Fin k) : (empty : Trie k).child d = none := rfl

@[simp] theorem child_setChild_self (t : Trie k) (d : Fin k) (c : Option (Trie k)) :
    (t.setChild d c).child d = c := by
  simp [setChild, child]

@[simp] theorem child_setChild_of_ne (t : Trie k) {d e : Fin k} (c : Option (Trie k))
    (h : e ≠ d) : (t.setChild d c).child e = t.child e := by
  simp [setChild, child, h]

theorem hasChildren_iff (t : Trie k) :
    t.hasChildren = true ↔ ∃ d c, t.child d = some c := by
  simp [hasChildren, Option.isSome_iff_exists]

theorem child_eq_none_of_not_hasChildren {t : Trie k} (h : t.hasChildren = false)
    (d : Fin k) : t.child d = none := by
  cases hc : t.child d with
  | none => rfl
  | some c => simp [(hasChildren_iff t).mpr ⟨d, c, hc⟩] at h

/-! ## §2. Words. -/

/-- The path spelled by a word exists. -/
def contains : List (Fin k) → Trie k → Bool
  | [], _ => true
  | d :: w, t =>
      match t.child d with
      | none => false
      | some c => contains w c

/-- Create the path spelled by a word. -/
def insert : List (Fin k) → Trie k → Trie k
  | [], t => t
  | d :: w, t => t.setChild d (some (insert w ((t.child d).getD empty)))

/-- Keep a node only while it has children. -/
def prune (t : Trie k) : Option (Trie k) := if t.hasChildren then some t else none

/-- Remove the last node of the path and, going up, every node left childless. -/
def erase : List (Fin k) → Trie k → Trie k
  | [], t => t
  | [d], t => t.setChild d none
  | d :: e :: w, t => t.setChild d ((t.child d).bind fun c => prune (erase (e :: w) c))

@[simp] theorem contains_empty_cons (d : Fin k) (w : List (Fin k)) :
    contains (d :: w) (empty : Trie k) = false := rfl

theorem contains_cons (d : Fin k) (w : List (Fin k)) (t : Trie k) :
    contains (d :: w) t = true ↔ ∃ c, t.child d = some c ∧ contains w c = true := by
  cases h : t.child d with
  | none => simp [contains, h]
  | some c => simp [contains, h]

/-- A missing child reads like an empty one, below the last level. -/
theorem contains_child_getD (d e : Fin k) (w : List (Fin k)) (t : Trie k) :
    contains (e :: w) ((t.child d).getD empty) = contains (d :: e :: w) t := by
  cases h : t.child d with
  | none => simp [contains, h]
  | some c => simp [contains, h]

/-- **Insertion adds exactly one word** (among the words of that length). -/
theorem contains_insert (w : List (Fin k)) :
    ∀ (v : List (Fin k)) (t : Trie k), v.length = w.length →
      (contains v (insert w t) = true ↔ v = w ∨ contains v t = true) := by
  induction w with
  | nil =>
      intro v t hlen
      rw [List.length_eq_zero_iff.mp hlen]
      simp [contains]
  | cons d w ih =>
      intro v t hlen
      cases v with
      | nil => simp at hlen
      | cons e v =>
          have hvw : v.length = w.length := by simpa using hlen
          by_cases hed : e = d
          · -- same first letter: down into that child, an empty one if it was missing
            subst hed
            rw [insert, contains_cons]
            simp only [child_setChild_self, Option.some.injEq, exists_eq_left',
              ih v _ hvw, List.cons.injEq, true_and]
            cases v with
            | nil => simp [List.length_eq_zero_iff.mp hvw.symm]
            | cons f v => rw [contains_child_getD]
          · -- another first letter: that child is untouched
            rw [insert, contains_cons, contains_cons]
            simp [hed]

theorem contains_of_prune {c : Trie k} {e : Fin k} {v : List (Fin k)} :
    (∃ c', prune c = some c' ∧ contains (e :: v) c' = true) ↔ contains (e :: v) c = true := by
  unfold prune
  cases h : c.hasChildren with
  | true => simp
  | false => simp [contains, child_eq_none_of_not_hasChildren h]

/-- **Erasure removes exactly one word** (among the words of that length). -/
theorem contains_erase (w : List (Fin k)) :
    ∀ (v : List (Fin k)) (t : Trie k), w ≠ [] → v.length = w.length →
      (contains v (erase w t) = true ↔ v ≠ w ∧ contains v t = true) := by
  induction w with
  | nil => intro v t hw _; exact absurd rfl hw
  | cons d w ih =>
      intro v t _ hlen
      cases v with
      | nil => simp at hlen
      | cons e v =>
          have hvw : v.length = w.length := by simpa using hlen
          cases w with
          | nil =>
              -- last letter: the child itself is removed
              rw [List.length_eq_zero_iff.mp hvw, erase, contains_cons, contains_cons]
              by_cases hed : e = d
              · subst hed; simp
              · simp [hed]
          | cons f w =>
              rw [erase, contains_cons, contains_cons]
              by_cases hed : e = d
              · -- same first letter: pruning the child loses no word, its words being nonempty
                subst hed
                rw [child_setChild_self]
                cases v with
                | nil => simp at hvw
                | cons g v =>
                    cases hc : t.child e with
                    | none => simp
                    | some c =>
                        simp only [Option.bind_some, contains_of_prune,
                          ih (g :: v) c (by simp) hvw]
                        simp
              · simp [hed]

/-! ## §3. The shape invariant. -/

/-- Every node above depth `n`, the root apart, has a child, and no node at depth
`n` has one. -/
def Reduced : Nat → Trie k → Prop
  | 0, t => t.hasChildren = false
  | n + 1, t => ∀ d c, t.child d = some c → (n ≠ 0 → c.hasChildren = true) ∧ Reduced n c

theorem reduced_empty (n : Nat) : Reduced n (empty : Trie k) := by
  cases n with
  | zero => simp [Reduced, hasChildren]
  | succ n => intro d c h; simp at h

theorem hasChildren_insert (d : Fin k) (w : List (Fin k)) (t : Trie k) :
    (insert (d :: w) t).hasChildren = true :=
  (hasChildren_iff _).mpr ⟨d, _, child_setChild_self _ _ _⟩

theorem reduced_child_getD {n : Nat} {t : Trie k} (h : Reduced (n + 1) t) (d : Fin k) :
    Reduced n ((t.child d).getD empty) := by
  cases hc : t.child d with
  | none => exact reduced_empty n
  | some c => exact (h d c hc).2

theorem reduced_insert (w : List (Fin k)) :
    ∀ t : Trie k, Reduced w.length t → Reduced w.length (insert w t) := by
  induction w with
  | nil => intro t h; exact h
  | cons d w ih =>
      intro t h e c hc
      by_cases hed : e = d
      · subst hed
        rw [insert, child_setChild_self, Option.some.injEq] at hc
        subst hc
        -- the new child lies on the path, so it has the next letter below it
        refine ⟨fun hw => ?_, ih _ (reduced_child_getD h e)⟩
        cases w with
        | nil => exact absurd rfl hw
        | cons f w => exact hasChildren_insert f w _
      · rw [insert, child_setChild_of_ne _ _ hed] at hc
        exact h e c hc

theorem reduced_erase (w : List (Fin k)) :
    ∀ t : Trie k, Reduced w.length t → Reduced w.length (erase w t) := by
  induction w with
  | nil => intro t h; exact h
  | cons d w ih =>
      intro t h e c hc
      cases w with
      | nil =>
          by_cases hed : e = d
          · subst hed; simp [erase] at hc
          · rw [erase, child_setChild_of_ne _ _ hed] at hc
            exact h e c hc
      | cons f w =>
          by_cases hed : e = d
          · subst hed
            rw [erase, child_setChild_self] at hc
            obtain ⟨c₀, hc₀, hp⟩ := Option.bind_eq_some_iff.mp hc
            unfold prune at hp
            split at hp
            next hchild =>
              -- a node that is kept has children, by the test that kept it
              cases hp
              exact ⟨fun _ => hchild, ih c₀ (h e c₀ hc₀).2⟩
            next => cases hp
          · rw [erase, child_setChild_of_ne _ _ hed] at hc
            exact h e c hc

/-! ## §4. The leftmost word. -/

/-- The child under the smallest letter that has one. -/
def firstChild (t : Trie k) : Option (Fin k × Trie k) :=
  (List.finRange k).findSome? fun d => (t.child d).map fun c => (d, c)

/-- Follow the first child `n` times. -/
def leftmost : Nat → Trie k → Option (List (Fin k))
  | 0, _ => some []
  | n + 1, t => t.firstChild.bind fun dc => (leftmost n dc.2).map (dc.1 :: ·)

/-- A word read as a number in base `k`, most significant letter first. -/
def value : List (Fin k) → Nat
  | [] => 0
  | d :: w => d.val * k ^ w.length + value w

theorem value_lt (w : List (Fin k)) : value w < k ^ w.length := by
  induction w with
  | nil => simp [value]
  | cons d w ih =>
      have hd : (d.val + 1) * k ^ w.length ≤ k * k ^ w.length :=
        Nat.mul_le_mul_right _ d.isLt
      calc value (d :: w) = d.val * k ^ w.length + value w := rfl
        _ < d.val * k ^ w.length + k ^ w.length := by omega
        _ = (d.val + 1) * k ^ w.length := by ring
        _ ≤ k * k ^ w.length := hd
        _ = k ^ (d :: w).length := by rw [List.length_cons, Nat.pow_succ, Nat.mul_comm]

theorem value_cons_lt {d e : Fin k} {v w : List (Fin k)} (hde : d < e)
    (hlen : v.length = w.length) : value (d :: v) < value (e :: w) := by
  have hv := value_lt v
  have hstep : (d.val + 1) * k ^ v.length ≤ e.val * k ^ v.length :=
    Nat.mul_le_mul_right _ hde
  calc value (d :: v) = d.val * k ^ v.length + value v := rfl
    _ < d.val * k ^ v.length + k ^ v.length := by omega
    _ = (d.val + 1) * k ^ v.length := by ring
    _ ≤ e.val * k ^ v.length := hstep
    _ ≤ value (e :: w) := by rw [value, hlen]; omega

theorem value_injective :
    ∀ (v w : List (Fin k)), v.length = w.length → value v = value w → v = w
  | [], [], _, _ => rfl
  | d :: v, e :: w, hlen, h => by
      have hvw : v.length = w.length := by simpa using hlen
      rcases lt_trichotomy d e with hlt | heq | hgt
      · exact absurd h (Nat.ne_of_lt (value_cons_lt hlt hvw))
      · subst heq
        rw [value_injective v w hvw (by simpa [value, hvw] using h)]
      · exact absurd h.symm (Nat.ne_of_lt (value_cons_lt hgt hvw.symm))

/-- `firstChild` is the child under the smallest letter that has one. -/
theorem firstChild_eq_some {t : Trie k} {d : Fin k} {c : Trie k}
    (h : t.firstChild = some (d, c)) :
    t.child d = some c ∧ ∀ e, e < d → t.child e = none := by
  unfold firstChild at h
  obtain ⟨l₁, a, l₂, hl, ha, hbefore⟩ := List.findSome?_eq_some_iff.mp h
  obtain ⟨c', hc', hpair⟩ := Option.map_eq_some_iff.mp ha
  cases hpair
  refine ⟨hc', fun e he => ?_⟩
  have hsorted : (l₁ ++ d :: l₂).Pairwise (· < ·) := hl ▸ List.pairwise_lt_finRange k
  have hmem : e ∈ l₁ ++ d :: l₂ := hl ▸ List.mem_finRange e
  -- `e` stands before `d` in the sorted list of letters
  have he₁ : e ∈ l₁ := by
    rcases List.mem_append.mp hmem with h₁ | h₂
    · exact h₁
    · rcases List.mem_cons.mp h₂ with rfl | h₂
      · exact absurd he (lt_irrefl _)
      · have hgt := (List.pairwise_cons.mp (List.pairwise_append.mp hsorted).2.1).1 e h₂
        exact absurd he (lt_asymm hgt)
  exact Option.map_eq_none_iff.mp (hbefore e he₁)

theorem firstChild_eq_none {t : Trie k} (h : t.firstChild = none) (d : Fin k) :
    t.child d = none := by
  have := List.findSome?_eq_none_iff.mp h d (List.mem_finRange d)
  exact Option.map_eq_none_iff.mp this

/-- The leftmost word is in the trie, and no word of its length is smaller. -/
theorem leftmost_eq_some : ∀ (n : Nat) (t : Trie k) (w : List (Fin k)),
    leftmost n t = some w →
      w.length = n ∧ contains w t = true
        ∧ ∀ v, v.length = n → contains v t = true → value w ≤ value v
  | 0, t, w, h => by
      cases h
      exact ⟨rfl, rfl, fun v _ _ => Nat.zero_le _⟩
  | n + 1, t, w, h => by
      obtain ⟨⟨d, c⟩, hfirst, hrest⟩ := Option.bind_eq_some_iff.mp h
      obtain ⟨w', hw', rfl⟩ := Option.map_eq_some_iff.mp hrest
      obtain ⟨hlen, hmem, hmin⟩ := leftmost_eq_some n c w' hw'
      obtain ⟨hchild, hbefore⟩ := firstChild_eq_some hfirst
      refine ⟨by simp [hlen], (contains_cons _ _ _).mpr ⟨c, hchild, hmem⟩, ?_⟩
      intro v hv hvt
      cases v with
      | nil => simp at hv
      | cons e v =>
          have hvn : v.length = n := by simpa using hv
          obtain ⟨ce, hce, hvc⟩ := (contains_cons _ _ _).mp hvt
          rcases lt_trichotomy d e with hlt | heq | hgt
          · -- the first letters decide
            exact Nat.le_of_lt (value_cons_lt hlt (hlen.trans hvn.symm))
          · -- one child: its leftmost word is minimal below it
            subst heq
            have hcc : ce = c := Option.some.inj (hce.symm.trans hchild)
            have hle := hmin v hvn (hcc ▸ hvc)
            show d.val * k ^ w'.length + value w' ≤ d.val * k ^ v.length + value v
            rw [hlen, hvn]
            omega
          · -- no child stands before the first one
            rw [hbefore e hgt] at hce
            cases hce

/-- A node of a reduced trie that is a leaf or has children lies on some word. -/
theorem leftmost_isSome_of_hasChildren : ∀ (n : Nat) (t : Trie k),
    Reduced n t → (n ≠ 0 → t.hasChildren = true) → ∃ w, leftmost n t = some w
  | 0, _, _, _ => ⟨[], rfl⟩
  | n + 1, t, hred, hchild => by
      obtain ⟨d, c, hc⟩ := (hasChildren_iff t).mp (hchild (Nat.succ_ne_zero n))
      cases hfirst : t.firstChild with
      | none => rw [firstChild_eq_none hfirst d] at hc; cases hc
      | some dc =>
          obtain ⟨hdc, _⟩ := firstChild_eq_some (d := dc.1) (c := dc.2) hfirst
          obtain ⟨hne, hredc⟩ := hred dc.1 dc.2 hdc
          obtain ⟨w, hw⟩ := leftmost_isSome_of_hasChildren n dc.2 hredc hne
          exact ⟨dc.1 :: w, by simp [leftmost, hfirst, hw]⟩

/-- **In a reduced trie an empty answer means an empty set.** -/
theorem leftmost_eq_none {n : Nat} {t : Trie k} (hred : Reduced n t)
    (h : leftmost n t = none) (v : List (Fin k)) (hv : v.length = n) :
    contains v t = false := by
  cases hb : t.hasChildren with
  | true =>
      -- a node with children has a leftmost word, so the answer was not empty
      obtain ⟨w, hw⟩ := leftmost_isSome_of_hasChildren n t hred (fun _ => hb)
      rw [h] at hw
      cases hw
  | false =>
      cases v with
      | nil => subst hv; cases h
      | cons d v => simp [contains, child_eq_none_of_not_hasChildren hb d]

/-! ## §5. All words, in order. -/

/-- The words of length `n`, smaller letters first at every node. -/
def words : Nat → Trie k → List (List (Fin k))
  | 0, _ => [[]]
  | n + 1, t => (List.finRange k).flatMap fun d =>
      match t.child d with
      | none => []
      | some c => (words n c).map (d :: ·)

/-- The words below letter `d`. -/
theorem mem_words_child {n : Nat} {t : Trie k} {d : Fin k} {w : List (Fin k)} :
    w ∈ (match t.child d with
      | none => []
      | some c => (words n c).map (d :: ·))
      ↔ ∃ c, t.child d = some c ∧ ∃ v ∈ words n c, w = d :: v := by
  cases hc : t.child d with
  | none => simp
  | some c => simp [eq_comm]

theorem mem_words (n : Nat) : ∀ (t : Trie k) (w : List (Fin k)),
    w ∈ words n t ↔ w.length = n ∧ contains w t = true := by
  induction n with
  | zero =>
      intro t w
      rw [words, List.mem_singleton, List.length_eq_zero_iff]
      exact ⟨fun h => ⟨h, by rw [h]; rfl⟩, fun h => h.1⟩
  | succ n ih =>
      intro t w
      rw [words, List.mem_flatMap]
      constructor
      · rintro ⟨d, -, hd⟩
        obtain ⟨c, hc, v, hv, rfl⟩ := mem_words_child.mp hd
        obtain ⟨hlen, hmem⟩ := (ih c v).mp hv
        exact ⟨by rw [List.length_cons, hlen], (contains_cons _ _ _).mpr ⟨c, hc, hmem⟩⟩
      · rintro ⟨hlen, hmem⟩
        cases w with
        | nil => simp at hlen
        | cons d v =>
            obtain ⟨c, hc, hv⟩ := (contains_cons _ _ _).mp hmem
            exact ⟨d, List.mem_finRange d, mem_words_child.mpr
              ⟨c, hc, v, (ih c v).mpr ⟨by simpa using hlen, hv⟩, rfl⟩⟩

/-- **The words are listed in ascending order.** -/
theorem words_pairwise (n : Nat) : ∀ t : Trie k,
    (words n t).Pairwise fun v w => value v < value w := by
  induction n with
  | zero => intro t; exact List.pairwise_singleton _ _
  | succ n ih =>
      intro t
      rw [words, List.pairwise_flatMap]
      refine ⟨fun d _ => ?_, (List.pairwise_lt_finRange k).imp fun {d e} hde v hv w hw => ?_⟩
      · -- below one letter the rest of the word decides
        cases t.child d with
        | none => exact List.Pairwise.nil
        | some c =>
            refine List.pairwise_map.mpr ((ih c).imp_of_mem fun {v w} hv hw hvw => ?_)
            have hlen := ((mem_words n c v).mp hv).1.trans ((mem_words n c w).mp hw).1.symm
            rw [value, value, hlen]
            omega
      · -- the first letters decide
        obtain ⟨c, -, v, hvc, rfl⟩ := mem_words_child.mp hv
        obtain ⟨c', -, w, hwc, rfl⟩ := mem_words_child.mp hw
        exact value_cons_lt hde
          (((mem_words n c v).mp hvc).1.trans ((mem_words n c' w).mp hwc).1.symm)

/-! ## §6. A reduced trie is determined by its words. -/

theorem ext_child {t t' : Trie k} (h : ∀ d, t.child d = t'.child d) : t = t' := by
  cases t with
  | node children =>
      cases t' with
      | node children' => rw [show children = children' from funext h]

/-- Every child of a reduced trie lies on a word. -/
theorem Reduced.exists_word {n : Nat} {t c : Trie k} {d : Fin k} (h : Reduced (n + 1) t)
    (hc : t.child d = some c) : ∃ w, w.length = n ∧ contains (d :: w) t = true := by
  obtain ⟨hne, hred⟩ := h d c hc
  obtain ⟨w, hw⟩ := leftmost_isSome_of_hasChildren n c hred hne
  obtain ⟨hlen, hmem, -⟩ := leftmost_eq_some n c w hw
  exact ⟨w, hlen, (contains_cons d w t).mpr ⟨c, hc, hmem⟩⟩

/-- A child of one reduced trie is there in every other with the same words. -/
theorem Reduced.child_of_words {n : Nat} {t t' c : Trie k} {d : Fin k} (h : Reduced (n + 1) t)
    (hwords : ∀ w, w.length = n + 1 → contains w t = contains w t') (hc : t.child d = some c) :
    ∃ c', t'.child d = some c' := by
  obtain ⟨w, hlen, hmem⟩ := h.exists_word hc
  rw [hwords (d :: w) (by simp [hlen])] at hmem
  obtain ⟨c', hc', -⟩ := (contains_cons d w t').mp hmem
  exact ⟨c', hc'⟩

/-- **Reduced tries with the same words are equal**, node for node. -/
theorem Reduced.ext (n : Nat) : ∀ {t t' : Trie k}, Reduced n t → Reduced n t' →
    (∀ w, w.length = n → contains w t = contains w t') → t = t' := by
  induction n with
  | zero =>
      intro t t' h h' _
      apply ext_child
      intro d
      rw [child_eq_none_of_not_hasChildren h d, child_eq_none_of_not_hasChildren h' d]
  | succ n ih =>
      intro t t' h h' hwords
      apply ext_child
      intro d
      cases hc : t.child d with
      | none =>
          cases hc' : t'.child d with
          | none => rfl
          | some c' =>
              obtain ⟨c, hsome⟩ := h'.child_of_words (fun w hw => (hwords w hw).symm) hc'
              rw [hc] at hsome
              cases hsome
      | some c =>
          obtain ⟨c', hc'⟩ := h.child_of_words hwords hc
          -- below this letter both have the words of the child
          have hbelow : ∀ w, w.length = n → contains w c = contains w c' := by
            intro w hw
            have hword := hwords (d :: w) (by simp [hw])
            simpa [contains, hc, hc'] using hword
          rw [hc', ih (h d c hc).2 (h' d c' hc').2 hbelow]

end Trie

end PreSeQL.Lib
