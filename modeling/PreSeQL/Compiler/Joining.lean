/-
  PreSeQL.Compiler.Joining — lexemes that go on into the next one.

  Whether a lexeme is the longest depends on what follows it, and that on little: on the
  next character for a word or a text in quotes, on all quotes to come for a bare quote.
  So whitespace can be left out of a text, without another effect on its tokens, unless
  two tokens that meet `Joins`:

    • `carried_on` — how a lexeme can go on to a longer one,
    • `longest_before_space`, `longest_before_token` — which lexemes stay the longest.
-/
import PreSeQL.Compiler.Layout

namespace PreSeQL.Compiler

open TokenType
open PreSeQL.Lib (Regex FirstOf Lexicon)

/-! ## §1. Texts in quotes. -/

/-- What is left of a literal is a content, its quotes doubled, and the last quote. -/
theorem exists_content {rest : Text} (h : rest ∈ quoted_rest.language) :
    ∃ content, rest = escape content ++ ['\''] := by
  induction hlen : rest.length using Nat.strong_induction_on generalizing rest with
  | _ n ih =>
      subst hlen
      cases rest with
      | nil => exact absurd h (by rw [← Regex.accepts_iff]; decide)
      | cons c rest =>
          by_cases hc : c = '\''
          · subst hc
            rcases (quoted_rest_quote rest).mp h with rfl | ⟨rest', rfl, h'⟩
            · exact ⟨[], rfl⟩
            · -- two quotes stand for one
              have hlt : rest'.length < ('\'' :: '\'' :: rest').length := by
                rw [List.length_cons, List.length_cons]
                omega
              obtain ⟨content, rfl⟩ := ih _ hlt h' rfl
              refine ⟨'\'' :: content, ?_⟩
              rw [escape, if_pos rfl]
              rfl
          · obtain ⟨content, rfl⟩ :=
              ih _ (Nat.lt_succ_self _) ((quoted_rest_cons hc rest).mp h) rfl
            refine ⟨c :: content, ?_⟩
            rw [escape, if_neg hc]
            rfl

theorem mem_varchar_literal_iff (lexeme : Text) :
    lexeme ∈ varchar_literal_pattern.language ↔ ∃ content, lexeme = quote content := by
  rw [mem_varchar_literal]
  constructor
  · intro h
    obtain ⟨rest, rfl, hrest⟩ := h
    obtain ⟨content, rfl⟩ := exists_content hrest
    exact ⟨content, rfl⟩
  · intro h
    obtain ⟨content, rfl⟩ := h
    exact ⟨_, rfl, escape_mem content⟩

theorem escape_append (content content' : Text) :
    escape (content ++ content') = escape content ++ escape content' := by
  induction content with
  | nil => rfl
  | cons c content ih =>
      rw [List.cons_append, escape, escape, ih]
      split <;> rfl

/-- Two literals in a row are one, of the contents with a quote between them. -/
theorem quote_append (content content' : Text) :
    quote content ++ quote content' = quote (content ++ '\'' :: content') := by
  have hquote : escape ('\'' :: content') = '\'' :: '\'' :: escape content' := by
    rw [escape, if_pos rfl]
  unfold quote
  rw [escape_append, hquote]
  simp

theorem count_escape (content : Text) :
    (escape content).count '\'' = 2 * content.count '\'' := by
  induction content with
  | nil => rfl
  | cons c content ih =>
      rw [escape]
      split
      next hc =>
        rw [hc, List.count_cons_self, List.count_cons_self, List.count_cons_self, ih]
        omega
      next hc => rw [List.count_cons_of_ne hc, List.count_cons_of_ne hc, ih]

/-- The quotes of a literal are even in number. -/
theorem count_quote (content : Text) :
    (quote content).count '\'' = 2 * (content.count '\'' + 1) := by
  unfold quote
  rw [List.count_cons_self, List.count_append, count_escape]
  show 2 * content.count '\'' + 1 + 1 = _
  omega

/-- With a quote to come, a literal starts at a quote. -/
theorem exists_literal_of_mem {text : Text} (h : '\'' ∈ text) :
    ∃ content rest, '\'' :: text = quote content ++ rest := by
  obtain ⟨content, rest, rfl, hno⟩ := List.eq_append_cons_of_mem h
  refine ⟨content, rest, ?_⟩
  rw [quote, escape_of_not_mem hno]
  simp

/-- No quote follows a bare one. -/
theorem bare_quote_notMem {rest : Text} {type : TokenType}
    (h : lexicon.Longest (['\''] ++ rest) ['\''] type) : '\'' ∉ rest := by
  intro hquote
  obtain ⟨content, rest', heq⟩ := exists_literal_of_mem hquote
  have hpre : quote content <+: ['\''] ++ rest := ⟨rest', heq.symm⟩
  have hle := h.longest _ _ hpre (varchar_lexeme content)
  rw [quote, List.length_cons, List.length_append, List.length_singleton] at hle
  omega

/-- A lexeme that starts with a quote is the bare quote or a text in quotes. -/
theorem quote_lexeme {rest : Text} {type : TokenType} (h : lexicon.lexeme ('\'' :: rest) type) :
    rest = [] ∨ ∃ content, '\'' :: rest = quote content := by
  rcases lexeme_shape h with ⟨m, hm, heq⟩ | hword | heq | hliteral
  · exact absurd (List.cons_eq_cons.mp heq).1.symm (marks_plain m hm).2
  · exact absurd (hword.2 '\'' List.mem_cons_self) (by decide)
  · exact Or.inl (List.cons_eq_cons.mp heq).2
  · exact Or.inr ((mem_varchar_literal_iff _).mp hliteral)

/-! ## §2. How a lexeme goes on. -/

theorem table_names : ∀ entry ∈ keywords.entries ++ types.entries, IsName entry.1 := by
  decide

/-- A word is a name or a number. -/
theorem word_lexeme {lexeme : Text} {type : TokenType} (h : lexicon.lexeme lexeme type)
    (hword : IsWord lexeme) : IsName lexeme ∨ lexeme ∈ integer_literal_pattern.language := by
  obtain ⟨c, hc, hclass⟩ := FirstOf.exists_mem h
  have hother : ∀ entry ∈ operators.entries ++ punctuations.entries,
      ∃ c ∈ entry.1, word_char c = false := by decide
  have hno : (lexeme, type) ∉ operators.entries ++ punctuations.entries := by
    intro hmem
    obtain ⟨c, hc, hplain⟩ := hother _ hmem
    rw [hword.2 c hc] at hplain
    cases hplain
  simp only [token_classes, List.mem_cons, List.not_mem_nil, or_false] at hc
  rcases hc with rfl | rfl | rfl | rfl | rfl | rfl | rfl
  · exact Or.inl (table_names _ (List.mem_append_left _ hclass))
  · exact Or.inl (table_names _ (List.mem_append_right _ hclass))
  · exact absurd (List.mem_append_left _ hclass) hno
  · exact absurd (List.mem_append_right _ hclass) hno
  · exact Or.inl ((identifier_iff lexeme).mp hclass.1)
  · obtain ⟨_, rfl, -⟩ := (mem_varchar_literal lexeme).mp hclass.1
    exact absurd (hword.2 '\'' List.mem_cons_self) (by decide)
  · exact Or.inr hclass.1

/-- The beginnings of a word are words of its kind. -/
theorem word_prefix {w u : Text} {c : Char} (hw : w ≠ [])
    (h : IsName (w ++ c :: u) ∨ w ++ c :: u ∈ integer_literal_pattern.language) :
    ∃ type, lexicon.lexeme (w ++ [c]) type := by
  obtain ⟨a, w, rfl⟩ := List.exists_cons_of_ne_nil hw
  rcases h with hname | hnumber
  · have hfront : IsName (a :: w ++ [c]) := by
      constructor
      · exact hname.1
      · intro d hd
        apply hname.2 d
        rcases List.mem_append.mp hd with hd | hd
        · exact List.mem_append_left _ hd
        · rw [List.mem_singleton.mp hd]
          simp
    exact FirstOf.exists_of_mem (c := Matching identifier_pattern TOKEN_IDENTIFIER)
      (by simp [token_classes]) ⟨(identifier_iff _).mpr hfront, rfl⟩
  · rw [integer_literal_pattern, Regex.language, Language.mem_add] at hnumber
    rcases hnumber with hzero | hnumber
    · -- the number 0 has one digit
      obtain ⟨b, -, heq⟩ := hzero
      simp at heq
    · rw [List.cons_append, Regex.cons_mem_seq_cls, Regex.mem_star_cls] at hnumber
      have hfront : a :: w ++ [c] ∈ integer_literal_pattern.language := by
        rw [integer_literal_pattern, Regex.language, Language.mem_add]
        right
        rw [List.cons_append, Regex.cons_mem_seq_cls, Regex.mem_star_cls]
        refine ⟨hnumber.1, fun d hd => hnumber.2 d ?_⟩
        rcases List.mem_append.mp hd with hd | hd
        · exact List.mem_append_left _ hd
        · rw [List.mem_singleton.mp hd]
          simp
      exact FirstOf.exists_of_mem (c := Matching integer_literal_pattern TOKEN_INT_LITERAL)
        (by simp [token_classes]) ⟨hfront, rfl⟩

/-- **A lexeme goes on** by a word character, if it is a word; to a quote, if it is the bare
quote; to a second literal, if it is a text in quotes. -/
theorem carried_on {w u : Text} {c : Char} {type type' : TokenType} (hw : lexicon.lexeme w type)
    (h : lexicon.lexeme (w ++ c :: u) type') :
    (word_char c = true ∧ ∃ type'', lexicon.lexeme (w ++ [c]) type'')
    ∨ (w = ['\''] ∧ '\'' ∈ c :: u)
    ∨ (c = '\'' ∧ '\'' ∈ u ∧ ∃ content, w = quote content) := by
  have hne : w ≠ [] := by
    rintro rfl
    exact lexicon.not_lexeme_nil _ hw
  obtain ⟨a, v, rfl⟩ := List.exists_cons_of_ne_nil hne
  rcases lexeme_shape h with ⟨m, -, heq⟩ | hword | heq | hliteral
  · simp at heq
  · left
    exact ⟨hword.2 c (by simp), word_prefix hne (word_lexeme h hword)⟩
  · simp at heq
  · right
    obtain ⟨content, heq⟩ := (mem_varchar_literal_iff _).mp hliteral
    obtain ⟨rfl, htail⟩ := List.cons_eq_cons.mp heq
    rcases quote_lexeme hw with rfl | ⟨content', hquote⟩
    · -- the bare quote, and what ends the literal
      left
      refine ⟨rfl, ?_⟩
      change c :: u = escape content ++ ['\''] at htail
      rw [htail]
      simp
    · right
      have hc : c = '\'' := by
        by_contra hc
        obtain ⟨rest, hrest, hmem⟩ := (mem_varchar_literal _).mp hliteral
        rw [hquote, quote, List.cons_append, List.append_assoc] at hrest
        obtain ⟨-, rfl⟩ := List.cons_eq_cons.mp hrest
        exact escape_notMem content' hc u hmem
      refine ⟨hc, ?_, content', hquote⟩
      -- an odd number of quotes is left for the rest
      have hcount := congrArg (List.count '\'') heq
      rw [hquote, List.count_append, count_quote, count_quote, hc, List.count_cons_self] at hcount
      exact List.count_pos_iff.mp (by omega)

/-! ## §3. Leaving whitespace out. -/

/-- The first lexeme goes on into the second. -/
def Joins (w₁ w₂ : Text) : Prop :=
  ∃ n < w₂.length, candidate_type (w₁ ++ w₂.take (n + 1)) ≠ TOKEN_UNKNOWN

theorem joins_iff {w₁ w₂ : Text} :
    Joins w₁ w₂ ↔ ∃ u type, u ≠ [] ∧ u <+: w₂ ∧ lexicon.lexeme (w₁ ++ u) type := by
  constructor
  · intro h
    obtain ⟨n, hn, htype⟩ := h
    refine ⟨w₂.take (n + 1), _, ?_, List.take_prefix _ _,
      (candidate_type_decides _ _).mp ⟨rfl, htype⟩⟩
    intro hnil
    have hlen := congrArg List.length hnil
    rw [List.length_take, List.length_nil] at hlen
    omega
  · intro h
    obtain ⟨u, type, hne, hu, hlexeme⟩ := h
    have hpos := List.length_pos_iff.mpr hne
    have htake : w₂.take (u.length - 1 + 1) = u := by
      rw [Nat.sub_add_cancel hpos]
      exact (List.prefix_iff_eq_take.mp hu).symm
    refine ⟨u.length - 1, ?_, ?_⟩
    · have hle := hu.length_le
      omega
    · rw [htake]
      obtain ⟨htype, hknown⟩ := (candidate_type_decides _ _).mpr hlexeme
      rw [htype]
      exact hknown

section LeftOut

variable {w rest rest' : Text} {type : TokenType}

/-- A bare quote stays one when part of what follows is left out. -/
theorem bare_quote_rest (h : lexicon.Longest (w ++ rest) w type) (hsub : rest'.Sublist rest)
    (hw : w = ['\'']) : '\'' ∉ rest' := by
  subst hw
  exact fun hmem => bare_quote_notMem h (hsub.subset hmem)

/-- **In front of whitespace** a lexeme is the longest. -/
theorem longest_before_space (h : lexicon.Longest (w ++ rest) w type)
    (hsub : rest'.Sublist rest) (hspace : ∀ c ∈ rest'.head?, c ∈ whitespace) :
    lexicon.Longest (w ++ rest') w type := by
  rw [Lexicon.longest_append_iff]
  refine ⟨h.lexeme, fun u type' hne hu hlexeme => ?_⟩
  obtain ⟨c, u, rfl⟩ := List.exists_cons_of_ne_nil hne
  obtain ⟨v, rfl⟩ := hu
  obtain ⟨hplain, hquote⟩ := whitespace_plain c (hspace c rfl)
  rcases carried_on h.lexeme hlexeme with ⟨hword, -⟩ | ⟨hw, hmem⟩ | ⟨hc, -, -⟩
  · rw [hplain] at hword
    cases hword
  · exact bare_quote_rest h hsub hw (List.mem_append_left v hmem)
  · exact hquote hc

/-- **In front of another lexeme** it is, unless they join. -/
theorem longest_before_token {next after after' : Text} {type' : TokenType}
    (h : lexicon.Longest (w ++ rest) w type) (hsub : (next ++ after').Sublist rest)
    (hnext : lexicon.Longest (next ++ after) next type') (hafter : after'.Sublist after) :
    lexicon.Longest (w ++ (next ++ after')) w type ↔ ¬ Joins w next := by
  rw [Lexicon.longest_append_iff, joins_iff]
  constructor
  · intro hlongest hjoins
    obtain ⟨u, type'', hne, hu, hlexeme⟩ := hjoins
    exact hlongest.2 u type'' hne (hu.trans (List.prefix_append _ _)) hlexeme
  · intro hjoins
    refine ⟨h.lexeme, fun u type'' hne hu hlexeme => hjoins ?_⟩
    obtain ⟨c, u, rfl⟩ := List.exists_cons_of_ne_nil hne
    obtain ⟨a, v, rfl⟩ := List.exists_cons_of_ne_nil hnext.ne_nil
    obtain ⟨rfl, hu'⟩ := List.cons_prefix_cons.mp hu
    rcases carried_on h.lexeme hlexeme with ⟨-, type₁, hone⟩ | ⟨hw, hmem⟩ | ⟨rfl, hmem, hw⟩
    · -- a word goes on by the first character
      exact ⟨[c], type₁, List.cons_ne_nil _ _, ⟨v, rfl⟩, hone⟩
    · exact absurd (hu.subset hmem) (bare_quote_rest h hsub hw)
    · -- a text in quotes goes on by the whole of another one
      rcases quote_lexeme hnext.lexeme with rfl | ⟨content, hquote⟩
      · exact absurd (hu'.subset hmem) (bare_quote_rest hnext hafter rfl)
      · obtain ⟨content', rfl⟩ := hw
        refine ⟨'\'' :: v, TOKEN_VARCHAR_LITERAL, List.cons_ne_nil _ _, List.prefix_rfl, ?_⟩
        rw [hquote, quote_append]
        exact varchar_lexeme _

end LeftOut

end PreSeQL.Compiler
