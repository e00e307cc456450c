/-
  PreSeQL.Compiler.LineNumbers — the line numbers of the tokens.

  The tokenizer counts a newline when it passes over it as whitespace.  One that stands
  in a lexeme, which only a string literal has, is not counted, so the tokens behind it
  have too small a number:

    • `counted_lines` — the counter, along the pieces of the text,
    • `tokenize_loop_lines` — the tokens have the numbers it gives them,
    • `counted_lines_iff` — when these are the lines the tokens stand on,
    • `line_numbers_iff` — every text the tokenizer accepts.
-/
import PreSeQL.Compiler.Lexing

namespace PreSeQL.Compiler

open TokenType
open PreSeQL.Lib (Lexicon)
open PreSeQL.Lib.Lexicon (Piece located)

abbrev TokenPiece := Piece Char TokenType

/-! ## §1. The counter. -/

/-- The value of `current_line_number` at each token. -/
def counted_lines : Nat → List TokenPiece → List Nat
  | _, [] => []
  | line, .skip c :: pieces => counted_lines (if c = '\n' then line + 1 else line) pieces
  | line, .token _ _ :: pieces => line :: counted_lines line pieces

/-- Every round cuts a piece off, and counts when it is a newline. -/
theorem tokenize_loop_lines (fuel : Nat) : ∀ (rest : Text) (line : Nat)
    (token_stream result : List Token),
    tokenize_loop fuel rest line token_stream = some (0, result) →
    ∃ pieces tokens, lexicon.Munch rest pieces ∧ result = token_stream ++ tokens
      ∧ tokens.map Token.line_number = counted_lines line pieces := by
  induction fuel with
  | zero =>
      intro rest line token_stream result h
      cases rest with
      | nil =>
          obtain rfl := (Prod.mk.inj (Option.some.inj h)).2
          exact ⟨[], [], .nil, (List.append_nil _).symm, rfl⟩
      | cons c rest => cases h
  | succ fuel ih =>
      intro rest line token_stream result h
      cases rest with
      | nil =>
          obtain rfl := (Prod.mk.inj (Option.some.inj h)).2
          exact ⟨[], [], .nil, (List.append_nil _).symm, rfl⟩
      | cons c rest =>
          have hlen : (c :: rest).length < LEXEME_BUFFER := by
            by_contra hlong
            rw [tokenize_loop_long hlong] at h
            cases h
          by_cases htoken : (scan (c :: rest) (c :: rest).length).token_type = TOKEN_UNKNOWN
          · rw [tokenize_loop_unknown hlen htoken] at h
            by_cases hspace : is_space c = true
            · rw [if_pos hspace] at h
              obtain ⟨pieces, tokens, hpieces, hresult, hlines⟩ := ih rest _ token_stream _ h
              exact ⟨.skip c :: pieces, tokens, .skip ((is_space_iff c).mp hspace) hpieces,
                hresult, hlines⟩
            · rw [if_neg hspace] at h
              cases h
          · -- the token has the number of this round
            obtain ⟨hlongest, hrest, -⟩ := scan_token htoken
            rw [tokenize_loop_token hlen htoken] at h
            obtain ⟨pieces, tokens, hpieces, hresult, hlines⟩ := ih _ line _ _ h
            exact ⟨_, _, .token hlongest hrest hpieces,
              hresult.trans (List.append_assoc _ _ _), congrArg (line :: ·) hlines⟩

/-! ## §2. The lines the tokens stand on. -/

/-- One more than the newlines in front of it. -/
def line_of (front : Text) : Nat := 1 + front.count '\n'

theorem line_of_append (front w : Text) : line_of (front ++ w) = line_of front + w.count '\n' := by
  rw [line_of, line_of, List.count_append, Nat.add_assoc]

/-- A whitespace character is counted as it should be. -/
theorem line_of_skip (front : Text) (c : Char) {line hidden : Nat}
    (h : line_of front = line + hidden) :
    line_of (front ++ [c]) = (if c = '\n' then line + 1 else line) + hidden := by
  rw [line_of_append, h]
  by_cases hc : c = '\n'
  · rw [if_pos hc, hc, List.count_singleton_self]
    omega
  · rw [if_neg hc, List.count_singleton, if_neg (by simpa using hc), Nat.add_zero]

/-- Behind newlines that were not counted, the counter is right for no token. -/
theorem counted_lines_hidden_iff {hidden : Nat} (h0 : hidden ≠ 0) (pieces : List TokenPiece) :
    ∀ (front : Text) (line : Nat), line_of front = line + hidden →
      (counted_lines line pieces = (located front pieces).map (fun x => line_of x.1)
        ↔ pieces.filterMap Piece.token? = []) := by
  induction pieces with
  | nil => intro front line _; exact iff_of_true rfl rfl
  | cons piece pieces ih =>
      intro front line hfront
      cases piece with
      | skip c => exact ih _ _ (line_of_skip front c hfront)
      | token t w =>
          refine iff_of_false (fun heq => ?_) (List.cons_ne_nil _ _)
          have hline : line = line_of front := (List.cons_eq_cons.mp heq).1
          rw [hfront] at hline
          exact h0 (by omega)

/-- No lexeme but the last one has a newline. -/
def NewlineLast (forms : List TokenForm) : Prop := forms.Pairwise fun form _ => '\n' ∉ form.2

instance decidableNewlineLast (forms : List TokenForm) : Decidable (NewlineLast forms) :=
  inferInstanceAs (Decidable (forms.Pairwise _))

/-- **The counter is right** exactly when no token stands behind one with a newline. -/
theorem counted_lines_iff (pieces : List TokenPiece) : ∀ (front : Text) (line : Nat),
    line_of front = line →
      (counted_lines line pieces = (located front pieces).map (fun x => line_of x.1)
        ↔ NewlineLast (pieces.filterMap Piece.token?)) := by
  induction pieces with
  | nil => intro front line _; exact iff_of_true rfl List.Pairwise.nil
  | cons piece pieces ih =>
      intro front line hfront
      cases piece with
      | skip c => exact ih _ _ (line_of_skip front c (hfront.trans (Nat.add_zero line).symm))
      | token t w =>
          have hrest : counted_lines line pieces
                = (located (front ++ w) pieces).map (fun x => line_of x.1)
              ↔ ('\n' ∈ w → pieces.filterMap Piece.token? = [])
                ∧ NewlineLast (pieces.filterMap Piece.token?) := by
            have hnext := line_of_append front w
            rw [hfront] at hnext
            by_cases hw : '\n' ∈ w
            · rw [counted_lines_hidden_iff (List.count_pos_iff.mpr hw).ne' pieces _ _ hnext]
              constructor
              · intro hnone
                exact ⟨fun _ => hnone, hnone ▸ List.Pairwise.nil⟩
              · exact fun h => h.1 hw
            · rw [List.count_eq_zero.mpr hw, Nat.add_zero] at hnext
              rw [ih _ _ hnext]
              exact (and_iff_right fun h => absurd h hw).symm
          have hhead : (∀ form ∈ pieces.filterMap Piece.token?, '\n' ∉ w)
              ↔ ('\n' ∈ w → pieces.filterMap Piece.token? = []) := by
            rw [List.eq_nil_iff_forall_not_mem]
            exact ⟨fun h hw form hform => h form hform hw, fun h form hform hw => h hw form hform⟩
          have hcons : NewlineLast ((Piece.token t w :: pieces).filterMap Piece.token?)
              ↔ ('\n' ∈ w → pieces.filterMap Piece.token? = [])
                ∧ NewlineLast (pieces.filterMap Piece.token?) :=
            List.pairwise_cons.trans (and_congr_left' hhead)
          rw [hcons, ← hrest, counted_lines, located, List.map_cons, List.cons.injEq]
          exact and_iff_right hfront.symm

/-! ## §3. Accepted texts. -/

/-- Every token has the number of the line it stands on. -/
def LinesRight (text : Text) (tokens : List Token) : Prop :=
  ∀ pieces, lexicon.Munch text pieces →
    tokens.map Token.line_number = (located [] pieces).map fun x => line_of x.1

/-- **The line numbers are right** exactly when no lexeme but the last one has a newline. -/
theorem line_numbers_iff {text : Text} {tokens : List Token}
    (h : tokenize text [] = some (0, tokens)) :
    LinesRight text tokens ↔ ∀ forms, lexicon.Tokens text forms → NewlineLast forms := by
  obtain ⟨pieces, tokens', hpieces, htokens, hlines⟩ := tokenize_loop_lines _ _ _ _ _ h
  obtain rfl : tokens = tokens' := htokens
  have hright : LinesRight text tokens
      ↔ counted_lines 1 pieces = (located [] pieces).map fun x => line_of x.1 := by
    rw [← hlines]
    exact ⟨fun hr => hr pieces hpieces, fun hr other hother => hpieces.unique hother ▸ hr⟩
  have hforms : (∀ forms, lexicon.Tokens text forms → NewlineLast forms)
      ↔ NewlineLast (pieces.filterMap Piece.token?) :=
    ⟨fun hn => hn _ ⟨pieces, hpieces, rfl⟩,
      fun hn forms hother => hother.unique ⟨pieces, hpieces, rfl⟩ ▸ hn⟩
  rw [hforms]
  exact hright.trans (counted_lines_iff pieces [] 1 rfl)

/-- A newline between two tokens, and one in the last. -/
theorem line_numbers_iff_last :
    LinesRight "1\n'\n'".toList
      [⟨TOKEN_INT_LITERAL, "1".toList, 1⟩, ⟨TOKEN_VARCHAR_LITERAL, "'\n'".toList, 2⟩] := by
  have hrun : tokenize "1\n'\n'".toList [] = some (0, [⟨TOKEN_INT_LITERAL, "1".toList, 1⟩,
      ⟨TOKEN_VARCHAR_LITERAL, "'\n'".toList, 2⟩]) := by
    decide +kernel
  refine (line_numbers_iff hrun).mpr fun forms hforms => ?_
  obtain ⟨tokens, hrun', rfl⟩ := (tokenize_forms_iff (by decide)).mpr hforms
  obtain ⟨-, rfl⟩ := Prod.mk.inj (Option.some.inj (hrun.symm.trans hrun'))
  decide +kernel

/-- The semicolon stands on the second line, and has number 1. -/
theorem literal_hides_newline :
    let text := "'\n';".toList
    let tokens : List Token := [⟨TOKEN_VARCHAR_LITERAL, "'\n'".toList, 1⟩,
      ⟨TOKEN_END_OF_LINE, ";".toList, 1⟩]
    tokenize text [] = some (0, tokens) ∧ ¬ LinesRight text tokens := by
  intro text tokens
  refine ⟨by decide +kernel, fun h => ?_⟩
  have hfirst : scan text text.length = ⟨TOKEN_VARCHAR_LITERAL, 3, "'\n'".toList⟩ := by
    decide +kernel
  have hsecond : scan [';'] 1 = ⟨TOKEN_END_OF_LINE, 1, ";".toList⟩ := by decide +kernel
  obtain ⟨hliteral, -⟩ := @scan_token text (by rw [hfirst]; decide)
  obtain ⟨hend, -⟩ := @scan_token [';'] (by rw [List.length_singleton, hsecond]; decide)
  rw [hfirst] at hliteral
  rw [List.length_singleton, hsecond] at hend
  have hlines := h _ (.token hliteral rfl (.token hend rfl .nil))
  exact absurd hlines (by decide)

end PreSeQL.Compiler
