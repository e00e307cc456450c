/-
  PreSeQL.Lib.MaximalMunch — maximal-munch segmentation of a text.

  A `Lexicon` says which words are lexemes, of which type, and which characters may
  stand between them.  `Munch text pieces` is the segmentation that takes the longest
  lexeme at every point:

    • a text has at most one (`Munch.unique`) and its pieces spell the text
      (`Munch.spells`),
    • a lexer proves agreement step by step with `munch_token_iff` and
      `munch_skip_iff`.

  `located` are the tokens with the text in front of each.

  `Tokens` keeps the tokens of a segmentation only, and is read off a text from the left
  (`tokens_skip_iff`, `tokens_token_iff`).

  `LaidOut` pieces are given back by the segmentation of their characters
  (`LaidOut.munch`).  `FirstOf` makes the lexemes of a list of classes, the earlier
  class winning, and `lastMatch` is the scan over all prefixes that keeps the last hit.
-/
import Mathlib.Tactic.Common

namespace PreSeQL.Lib

variable {α τ : Type*}

/-! ## §1. Lexemes of a list of classes. -/

/-- `w` is in a class of the list, and `t` is its type in the first such class. -/
def FirstOf : List (List α → τ → Prop) → List α → τ → Prop
  | [], _, _ => False
  | c :: cs, w, t => c w t ∨ ((∀ t', ¬ c w t') ∧ FirstOf cs w t)

theorem FirstOf.exists_mem {cs : List (List α → τ → Prop)} {w : List α} {t : τ} :
    FirstOf cs w t → ∃ c ∈ cs, c w t := by
  induction cs with
  | nil => exact False.elim
  | cons c cs ih =>
      rintro (h | ⟨-, h⟩)
      · exact ⟨c, by simp, h⟩
      · obtain ⟨c', hc', h'⟩ := ih h
        exact ⟨c', by simp [hc'], h'⟩

/-- A word in a class of the list has a type. -/
theorem FirstOf.exists_of_mem {cs : List (List α → τ → Prop)} {c : List α → τ → Prop} {w : List α}
    {t : τ} (hc : c ∈ cs) (h : c w t) : ∃ t', FirstOf cs w t' := by
  induction cs with
  | nil => cases hc
  | cons d cs ih =>
      by_cases hd : ∃ t', d w t'
      · obtain ⟨t', hd⟩ := hd
        exact ⟨t', .inl hd⟩
      · -- no type in the first class, so `c` is a later one
        rcases List.mem_cons.mp hc with rfl | hc
        · exact absurd ⟨t, h⟩ hd
        · obtain ⟨t', hcs⟩ := ih hc
          exact ⟨t', .inr ⟨fun t'' hd' => hd ⟨t'', hd'⟩, hcs⟩⟩

/-- Classes that give a word one type make a list that does. -/
theorem FirstOf.unique {cs : List (List α → τ → Prop)}
    (hcs : ∀ c ∈ cs, ∀ w t t', c w t → c w t' → t = t') {w : List α} {t t' : τ} :
    FirstOf cs w t → FirstOf cs w t' → t = t' := by
  induction cs with
  | nil => exact False.elim
  | cons c cs ih =>
      rintro (h | ⟨hno, h⟩) (h' | ⟨hno', h'⟩)
      · exact hcs c (by simp) w t t' h h'
      · exact absurd h (hno' t)
      · exact absurd h' (hno t')
      · exact ih (fun c hc => hcs c (by simp [hc])) h h'

structure Lexicon (α τ : Type*) where
  lexeme : List α → τ → Prop
  skip : α → Prop
  unique : ∀ w t t', lexeme w t → lexeme w t' → t = t'
  not_lexeme_nil : ∀ t, ¬ lexeme [] t
  not_lexeme_skip : ∀ a w t, skip a → ¬ lexeme (a :: w) t

/-! ## §2. The longest lexeme. -/

namespace Lexicon

variable (L : Lexicon α τ)

/-- `w`, of type `t`, is the longest lexeme the text starts with. -/
structure Longest (text w : List α) (t : τ) : Prop where
  starts : w <+: text
  lexeme : L.lexeme w t
  longest : ∀ w' t', w' <+: text → L.lexeme w' t' → w'.length ≤ w.length

variable {L}

theorem Longest.unique {text w w' : List α} {t t' : τ} (h : L.Longest text w t)
    (h' : L.Longest text w' t') : w = w' ∧ t = t' := by
  have hle := h.longest w' t' h'.starts h'.lexeme
  have hle' := h'.longest w t h.starts h.lexeme
  -- two prefixes of one text, each at least as long as the other
  have hw : w = w' := (List.prefix_of_prefix_length_le h.starts h'.starts hle').eq_of_length
    (by omega)
  subst hw
  exact ⟨rfl, L.unique w t t' h.lexeme h'.lexeme⟩

theorem Longest.ne_nil {text w : List α} {t : τ} (h : L.Longest text w t) : w ≠ [] := by
  rintro rfl
  exact L.not_lexeme_nil t h.lexeme

/-- The lexeme a text starts with is the longest unless what follows carries it on. -/
theorem longest_append_iff {w rest : List α} {t : τ} :
    L.Longest (w ++ rest) w t
      ↔ L.lexeme w t ∧ ∀ u t', u ≠ [] → u <+: rest → ¬ L.lexeme (w ++ u) t' := by
  constructor
  · intro h
    refine ⟨h.lexeme, fun u t' hne hu hlexeme => ?_⟩
    have hle := h.longest _ t' ((List.prefix_append_right_inj w).mpr hu) hlexeme
    have hpos := List.length_pos_iff.mpr hne
    rw [List.length_append] at hle
    omega
  · intro h
    refine ⟨List.prefix_append w rest, h.1, fun w' t' hpre hw' => ?_⟩
    by_contra hlt
    -- a longer prefix has `w` in front
    obtain ⟨u, rfl⟩ := List.prefix_of_prefix_length_le (List.prefix_append w rest) hpre (by omega)
    have hne : u ≠ [] := by
      rintro rfl
      exact hlt (Nat.le_of_eq (by rw [List.append_nil]))
    exact h.2 u t' hne ((List.prefix_append_right_inj w).mp hpre) hw'

/-! ## §3. Segmentations. -/

inductive Piece (α τ : Type*) where
  | skip (a : α)
  | token (t : τ) (w : List α)

/-- The characters of a piece. -/
def Piece.chars : Piece α τ → List α
  | .skip a => [a]
  | .token _ w => w

/-- The token a piece is, if it is one. -/
def Piece.token? : Piece α τ → Option (τ × List α)
  | .skip _ => none
  | .token t w => some (t, w)

/-- The tokens of the pieces, each with the text in front of it; `front` is what stands in
front of the pieces. -/
def located : List α → List (Piece α τ) → List (List α × τ × List α)
  | _, [] => []
  | front, .skip a :: pieces => located (front ++ [a]) pieces
  | front, .token t w :: pieces => (front, t, w) :: located (front ++ w) pieces

variable (L) in
/-- The text falls into skipped characters and longest lexemes, from left to right. -/
inductive Munch : List α → List (Piece α τ) → Prop
  | nil : Munch [] []
  | skip {a : α} {text : List α} {pieces : List (Piece α τ)} :
      L.skip a → Munch text pieces → Munch (a :: text) (.skip a :: pieces)
  | token {text w rest : List α} {t : τ} {pieces : List (Piece α τ)} :
      L.Longest text w t → text = w ++ rest → Munch rest pieces →
        Munch text (.token t w :: pieces)

/-- The pieces spell the text. -/
theorem Munch.spells {text : List α} {pieces : List (Piece α τ)} (h : L.Munch text pieces) :
    pieces.flatMap Piece.chars = text := by
  induction h with
  | nil => rfl
  | skip _ _ ih => rw [List.flatMap_cons, ih]; rfl
  | token _ heq _ ih => rw [List.flatMap_cons, ih, heq]; rfl

/-- Nothing but what the lexicon skips stands between the tokens. -/
theorem Munch.skips {text : List α} {pieces : List (Piece α τ)} (h : L.Munch text pieces) :
    ∀ a, Piece.skip a ∈ pieces → L.skip a := by
  induction h with
  | nil => simp
  | skip ha _ ih =>
      intro b hb
      rcases List.mem_cons.mp hb with heq | hb
      · cases heq; exact ha
      · exact ih b hb
  | token _ _ _ ih =>
      intro b hb
      rcases List.mem_cons.mp hb with heq | hb
      · cases heq
      · exact ih b hb

/-- The tokens are lexemes. -/
theorem Munch.lexemes {text : List α} {pieces : List (Piece α τ)} (h : L.Munch text pieces) :
    ∀ t w, Piece.token t w ∈ pieces → L.lexeme w t := by
  induction h with
  | nil => simp
  | skip _ _ ih =>
      intro t w hw
      rcases List.mem_cons.mp hw with heq | hw
      · cases heq
      · exact ih t w hw
  | token hlongest _ _ ih =>
      intro t w hw
      rcases List.mem_cons.mp hw with heq | hw
      · cases heq; exact hlongest.lexeme
      · exact ih t w hw

theorem munch_nil_iff {pieces : List (Piece α τ)} : L.Munch [] pieces ↔ pieces = [] := by
  constructor
  · intro h
    cases h with
    | nil => rfl
    | token hw heq _ => exact absurd (List.append_eq_nil_iff.mp heq.symm).1 hw.ne_nil
  · rintro rfl
    exact .nil

/-- A text with a longest lexeme is segmented by cutting it off. -/
theorem munch_token_iff {text w rest : List α} {t : τ} {pieces : List (Piece α τ)}
    (hw : L.Longest text w t) (htext : text = w ++ rest) :
    L.Munch text pieces ↔ ∃ pieces', pieces = .token t w :: pieces' ∧ L.Munch rest pieces' := by
  constructor
  · intro h
    cases h with
    -- an empty text has no longest lexeme, lexemes being nonempty
    | nil => exact absurd (List.append_eq_nil_iff.mp htext.symm).1 hw.ne_nil
    | @skip a text pieces ha _ =>
        -- nor does a skipped character start one
        obtain ⟨b, w, rfl⟩ := List.exists_cons_of_ne_nil hw.ne_nil
        obtain ⟨rfl, -⟩ := List.cons_eq_cons.mp htext
        exact absurd hw.lexeme (L.not_lexeme_skip _ w t ha)
    | @token _ w' rest' t' pieces hw' htext' hrest =>
        -- so the segmentation starts with this lexeme, and the rests agree
        obtain ⟨rfl, rfl⟩ := hw.unique hw'
        have hrests : rest = rest' := List.append_cancel_left (htext.symm.trans htext')
        exact ⟨pieces, rfl, hrests ▸ hrest⟩
  · rintro ⟨pieces', rfl, h⟩
    exact .token hw htext h

/-- A text that starts with no lexeme is segmented only by skipping a character. -/
theorem munch_skip_iff {a : α} {rest : List α} {pieces : List (Piece α τ)}
    (hno : ∀ w t, w <+: a :: rest → ¬ L.lexeme w t) :
    L.Munch (a :: rest) pieces ↔
      L.skip a ∧ ∃ pieces', pieces = .skip a :: pieces' ∧ L.Munch rest pieces' := by
  constructor
  · intro h
    cases h with
    | skip ha hrest => exact ⟨ha, _, rfl, hrest⟩
    | @token _ w _ t _ hw _ _ => exact absurd hw.lexeme (hno w t hw.starts)
  · rintro ⟨ha, pieces', rfl, h⟩
    exact .skip ha h

/-- **A text has at most one segmentation.** -/
theorem Munch.unique {text : List α} {pieces pieces' : List (Piece α τ)}
    (h : L.Munch text pieces) (h' : L.Munch text pieces') : pieces = pieces' := by
  induction h generalizing pieces' with
  | nil => exact (munch_nil_iff.mp h').symm
  | @skip a text pieces ha _ ih =>
      cases h' with
      | skip _ hrest => rw [ih hrest]
      | @token _ w _ t _ hw htext _ =>
          obtain ⟨b, w, rfl⟩ := List.exists_cons_of_ne_nil hw.ne_nil
          obtain ⟨rfl, -⟩ := List.cons_eq_cons.mp htext
          exact absurd hw.lexeme (L.not_lexeme_skip _ w t ha)
  | token hw htext _ ih =>
      obtain ⟨pieces'', rfl, hrest⟩ := (munch_token_iff hw htext).mp h'
      rw [ih hrest]

variable (L) in
/-- The text has a segmentation, with these tokens. -/
def Tokens (text : List α) (tokens : List (τ × List α)) : Prop :=
  ∃ pieces, L.Munch text pieces ∧ pieces.filterMap Piece.token? = tokens

theorem tokens_skip_iff {a : α} {rest : List α} {tokens : List (τ × List α)} (ha : L.skip a) :
    L.Tokens (a :: rest) tokens ↔ L.Tokens rest tokens := by
  have hno : ∀ w t, w <+: a :: rest → ¬ L.lexeme w t := by
    intro w t hpre hw
    cases w with
    | nil => exact L.not_lexeme_nil t hw
    | cons b w =>
        obtain ⟨rfl, -⟩ := List.cons_prefix_cons.mp hpre
        exact L.not_lexeme_skip b w t ha hw
  constructor
  · rintro ⟨pieces, h, rfl⟩
    obtain ⟨-, pieces', rfl, h'⟩ := (munch_skip_iff hno).mp h
    exact ⟨pieces', h', rfl⟩
  · rintro ⟨pieces, h, rfl⟩
    exact ⟨_, .skip ha h, rfl⟩

/-- The first token is a lexeme in front of the text: it has to be the longest. -/
theorem tokens_token_iff {w rest : List α} {t : τ} {tokens : List (τ × List α)}
    (hw : L.lexeme w t) :
    L.Tokens (w ++ rest) ((t, w) :: tokens) ↔ L.Longest (w ++ rest) w t ∧ L.Tokens rest tokens := by
  constructor
  · rintro ⟨pieces, h, htokens⟩
    generalize htext : w ++ rest = text at h
    cases h with
    | nil => cases htokens
    | @skip a text pieces ha _ =>
        -- a lexeme starts with no skipped character
        cases w with
        | nil => exact absurd hw (L.not_lexeme_nil t)
        | cons b w =>
            obtain ⟨rfl, -⟩ := List.cons_eq_cons.mp htext
            exact absurd hw (L.not_lexeme_skip b w t ha)
    | @token _ w' rest' t' pieces hw' htext' hrest =>
        obtain ⟨hfirst, hothers⟩ := List.cons_eq_cons.mp htokens
        cases hfirst
        obtain rfl := List.append_cancel_left (htext.trans htext')
        exact ⟨hw', pieces, hrest, hothers⟩
  · rintro ⟨hlongest, pieces, h, rfl⟩
    exact ⟨_, .token hlongest rfl h, rfl⟩

theorem Tokens.unique {text : List α} {tokens tokens' : List (τ × List α)}
    (h : L.Tokens text tokens) (h' : L.Tokens text tokens') : tokens = tokens' := by
  obtain ⟨pieces, hpieces, rfl⟩ := h
  obtain ⟨pieces', hpieces', rfl⟩ := h'
  rw [hpieces.unique hpieces']

/-- What is counted outside the skipped characters is counted in the tokens. -/
theorem Tokens.countP_eq {p : α → Bool} (hp : ∀ a, L.skip a → p a = false) {text : List α}
    {tokens : List (τ × List α)} (h : L.Tokens text tokens) :
    text.countP p = (tokens.flatMap Prod.snd).countP p := by
  obtain ⟨pieces, h, rfl⟩ := h
  induction h with
  | nil => rfl
  | @skip a text pieces ha _ ih =>
      rw [List.countP_cons_of_neg (by rw [hp a ha]; exact Bool.false_ne_true), ih]
      rfl
  | @token text w rest t pieces _ htext _ ih =>
      rw [htext, List.countP_append, ih, ← List.countP_append]
      rfl

/-! ## §4. Laying tokens out. -/

variable (L) in
/-- No lexeme goes on from `w` with the character `a`. -/
def Stops (w : List α) (a : α) : Prop := ∀ u t, ¬ L.lexeme (w ++ a :: u) t

theorem longest_of_stops {w rest : List α} {t : τ} (hw : L.lexeme w t)
    (hstop : ∀ a ∈ rest.head?, L.Stops w a) : L.Longest (w ++ rest) w t := by
  rw [longest_append_iff]
  refine ⟨hw, fun u t' hne hu hlexeme => ?_⟩
  -- a longer lexeme goes on with the first character of the rest
  obtain ⟨a, u, rfl⟩ := List.exists_cons_of_ne_nil hne
  obtain ⟨v, rfl⟩ := hu
  exact hstop a rfl u t' hlexeme

variable (L) in
/-- Tokens and skipped characters in a row, where nothing behind a token lets it go on. -/
inductive LaidOut : List (Piece α τ) → Prop
  | nil : LaidOut []
  | skip {a : α} {pieces : List (Piece α τ)} :
      L.skip a → LaidOut pieces → LaidOut (.skip a :: pieces)
  | token {w : List α} {t : τ} {pieces : List (Piece α τ)} :
      L.lexeme w t → (∀ a ∈ (pieces.flatMap Piece.chars).head?, L.Stops w a) →
        LaidOut pieces → LaidOut (.token t w :: pieces)

/-- **Segmentation gives back what was laid out.** -/
theorem LaidOut.munch {pieces : List (Piece α τ)} (h : L.LaidOut pieces) :
    L.Munch (pieces.flatMap Piece.chars) pieces := by
  induction h with
  | nil => exact .nil
  | skip ha _ ih =>
      rw [List.flatMap_cons]
      exact .skip ha ih
  | token hw hstop _ ih =>
      rw [List.flatMap_cons]
      exact .token (longest_of_stops hw hstop) rfl ih

end Lexicon

/-! ## §5. Scanning the prefixes. -/

/-- The last prefix of length `1 … n` that `f` takes, with its length. -/
def lastMatch (f : List α → Option τ) (text : List α) : Nat → Option (τ × Nat)
  | 0 => none
  | n + 1 =>
      match f (text.take (n + 1)) with
      | some t => some (t, n + 1)
      | none => lastMatch f text n

theorem lastMatch_eq_none_iff {f : List α → Option τ} {text : List α} {n : Nat} :
    lastMatch f text n = none ↔ ∀ k, 0 < k → k ≤ n → f (text.take k) = none := by
  induction n with
  | zero =>
      -- no prefix to try
      simp only [lastMatch, true_iff]
      intro k hpos hle
      omega
  | succ n ih =>
      rw [lastMatch]
      cases hf : f (text.take (n + 1)) with
      | some t =>
          -- a hit ends the scan, so there is one
          simp only [reduceCtorEq, false_iff]
          intro h
          exact absurd (h (n + 1) (by omega) (Nat.le_refl _)) (by simp [hf])
      | none =>
          -- no hit here: the shorter prefixes decide
          rw [ih]
          constructor
          · intro h k hpos hle
            rcases Nat.lt_or_eq_of_le hle with hlt | rfl
            · exact h k hpos (by omega)
            · exact hf
          · intro h k hpos hle
            exact h k hpos (by omega)

theorem lastMatch_eq_some {f : List α → Option τ} {text : List α} {n k : Nat} {t : τ} :
    lastMatch f text n = some (t, k) →
      0 < k ∧ k ≤ n ∧ f (text.take k) = some t ∧
        ∀ j, k < j → j ≤ n → f (text.take j) = none := by
  induction n with
  | zero => intro h; simp [lastMatch] at h
  | succ n ih =>
      rw [lastMatch]
      cases hf : f (text.take (n + 1)) with
      | some t' =>
          simp only [Option.some.injEq, Prod.mk.injEq]
          rintro ⟨rfl, rfl⟩
          -- the hit is the longest prefix tried
          exact ⟨by omega, Nat.le_refl _, hf, fun j hlt hle => by omega⟩
      | none =>
          intro h
          obtain ⟨hpos, hle, hk, hlast⟩ := ih h
          refine ⟨hpos, by omega, hk, fun j hlt hj => ?_⟩
          rcases Nat.lt_or_eq_of_le hj with hlt' | rfl
          · exact hlast j hlt (by omega)
          · exact hf

namespace Lexicon

variable {L : Lexicon α τ} {f : List α → Option τ}

/-- The last hit of a scan over all prefixes is the longest lexeme. -/
theorem longest_of_lastMatch (hf : ∀ w t, f w = some t ↔ L.lexeme w t) {text : List α}
    {t : τ} {k : Nat} (h : lastMatch f text text.length = some (t, k)) :
    L.Longest text (text.take k) t := by
  obtain ⟨-, hle, hk, hlast⟩ := lastMatch_eq_some h
  refine ⟨List.take_prefix k text, (hf _ t).mp hk, fun w' t' hpre hw' => ?_⟩
  -- a longer lexeme would be a later hit
  by_contra hlt
  rw [List.length_take, Nat.min_eq_left hle] at hlt
  have htake : text.take w'.length = w' := (List.prefix_iff_eq_take.mp hpre).symm
  have hnone := hlast w'.length (by omega) hpre.length_le
  rw [htake, (hf w' t').mpr hw'] at hnone
  cases hnone

/-- A scan over all prefixes without a hit shows that no lexeme starts the text. -/
theorem not_lexeme_of_lastMatch (hf : ∀ w t, f w = some t ↔ L.lexeme w t) {text : List α}
    (h : lastMatch f text text.length = none) (w : List α) (t : τ) (hpre : w <+: text) :
    ¬ L.lexeme w t := by
  intro hw
  have hpos : 0 < w.length := List.length_pos_iff.mpr fun hnil => L.not_lexeme_nil t (hnil ▸ hw)
  have hnone := lastMatch_eq_none_iff.mp h w.length hpos hpre.length_le
  rw [← List.prefix_iff_eq_take.mp hpre, (hf w t).mpr hw] at hnone
  cases hnone

end Lexicon

end PreSeQL.Lib
