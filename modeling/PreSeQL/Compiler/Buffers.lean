/-
  PreSeQL.Compiler.Buffers — the two buffers of `tokenize`.

  Round `i` of the scan copies all characters from the current position up to `i`, not
  those of a token, so the longest copy is the whole remaining text:

    • `memcpy_mem_tokenize_copies` — the first scan copies all of the text,
    • `scan_copies_fit` — a scan of a text that fits copies nothing longer,
    • `tokenize_copies_fit_iff` — the copies of a whole run, for every text.
-/
import PreSeQL.Compiler.Lexing

namespace PreSeQL.Compiler

open TokenType

/-! ## §1. Copies. -/

/-- A copy to the start of a buffer, with the number of characters in it. -/
inductive Copy where
  | memcpy (n : Nat)
  | strcpy (n : Nat)

/-- The bytes written; `strcpy` writes the terminator too. -/
def Copy.bytes : Copy → Nat
  | memcpy n => n
  | strcpy n => n + 1

/-- The length of the string that the buffer holds then, when it is terminated. -/
def Copy.string_length : Copy → Nat
  | memcpy n | strcpy n => n

/-- The copy stays in its buffer, which was zero before, and leaves a terminator in it. -/
structure Copy.Fits (copy : Copy) : Prop where
  inside : copy.bytes ≤ LEXEME_BUFFER
  terminated : copy.string_length < LEXEME_BUFFER

theorem Copy.fits_iff (copy : Copy) : copy.Fits ↔ copy.string_length < LEXEME_BUFFER := by
  refine ⟨fun h => h.terminated, fun h => ⟨?_, h⟩⟩
  cases copy with
  | memcpy n => exact Nat.le_of_lt h
  | strcpy n => exact h

/-- The copies of the first `n` rounds of the scan. -/
def scan_copies (rest : Text) : Nat → List Copy
  | 0 => []
  | n + 1 =>
      scan_copies rest n ++ .memcpy (n + 1) ::
        if candidate_type (rest.take (n + 1)) ≠ TOKEN_UNKNOWN then [.strcpy (n + 1)] else []

/-- The copies of the main loop.  Nothing is said about what comes after a scan that
writes past its buffer. -/
def tokenize_loop_copies : Nat → Text → List Copy
  | _, [] => []
  | 0, _ :: _ => []
  | fuel + 1, c :: rest =>
      scan_copies (c :: rest) (c :: rest).length ++
        match longest_match (c :: rest) with
        | none => []
        | some m =>
            if m.token_type ≠ TOKEN_UNKNOWN then
              tokenize_loop_copies fuel ((c :: rest).drop m.longest_match)
            else if !is_space c then []
            else tokenize_loop_copies fuel rest

/-- The copies of a call, in order. -/
def tokenize_copies (sql_commands : Text) : List Copy :=
  tokenize_loop_copies sql_commands.length sql_commands

/-! ## §2. Which of them fit. -/

theorem scan_copies_fit (rest : Text) {n : Nat} (h : n < LEXEME_BUFFER) :
    ∀ copy ∈ scan_copies rest n, copy.Fits := by
  induction n with
  | zero => exact fun copy hcopy => nomatch hcopy
  | succ n ih =>
      rw [scan_copies, List.forall_mem_append, List.forall_mem_cons]
      refine ⟨ih (Nat.lt_of_succ_lt h), (Copy.fits_iff _).mpr h, ?_⟩
      split
      · exact List.forall_mem_singleton.mpr ((Copy.fits_iff _).mpr h)
      · exact fun copy hcopy => nomatch hcopy

/-- Every round starts on a part of the text. -/
theorem tokenize_loop_copies_fit (fuel : Nat) : ∀ rest : Text, rest.length < LEXEME_BUFFER →
    ∀ copy ∈ tokenize_loop_copies fuel rest, copy.Fits := by
  induction fuel with
  | zero =>
      intro rest _ copy hcopy
      cases rest <;> cases hcopy
  | succ fuel ih =>
      intro rest hlen
      cases rest with
      | nil => exact fun copy hcopy => nomatch hcopy
      | cons c rest =>
          rw [tokenize_loop_copies, List.forall_mem_append]
          refine ⟨scan_copies_fit (c :: rest) hlen, ?_⟩
          split
          next => exact fun copy hcopy => nomatch hcopy
          next m _ =>
            split
            · refine ih _ (Nat.lt_of_le_of_lt ?_ hlen)
              rw [List.length_drop]
              exact Nat.sub_le _ _
            split
            · exact fun copy hcopy => nomatch hcopy
            · exact ih rest (Nat.lt_of_succ_lt hlen)

/-- The last round of the first scan copies all of the text. -/
theorem memcpy_mem_tokenize_copies {sql_commands : Text} (h : sql_commands ≠ []) :
    .memcpy sql_commands.length ∈ tokenize_copies sql_commands := by
  cases sql_commands with
  | nil => exact absurd rfl h
  | cons c rest =>
      rw [tokenize_copies, List.length_cons, tokenize_loop_copies]
      refine List.mem_append_left _ ?_
      rw [List.length_cons, scan_copies]
      exact List.mem_append_right _ List.mem_cons_self

/-- **The buffers are not overrun** exactly by the texts shorter than a buffer. -/
theorem tokenize_copies_fit_iff (sql_commands : Text) :
    (∀ copy ∈ tokenize_copies sql_commands, copy.Fits) ↔ sql_commands.length < LEXEME_BUFFER := by
  constructor
  · intro h
    by_cases hempty : sql_commands = []
    · rw [hempty]
      decide
    · exact (h _ (memcpy_mem_tokenize_copies hempty)).terminated
  · exact tokenize_loop_copies_fit _ sql_commands

/-- A statement of 1024 characters leaves no room for the terminator, one of 1025 is
copied past the end. -/
theorem long_statement_overruns :
    let blanks (n : Nat) : Text := List.replicate n ' '
    (∃ copy ∈ tokenize_copies (blanks 1023 ++ [';']), ¬ copy.Fits)
    ∧ ∃ copy ∈ tokenize_copies (blanks 1024 ++ [';']), LEXEME_BUFFER < copy.bytes := by
  intro blanks
  have hcopied : ∀ n, .memcpy (n + 1) ∈ tokenize_copies (blanks n ++ [';']) := by
    intro n
    have hlen : (blanks n ++ [';']).length = n + 1 := by
      rw [List.length_append, List.length_replicate, List.length_singleton]
    rw [← hlen]
    exact memcpy_mem_tokenize_copies (List.append_ne_nil_of_right_ne_nil _ (List.cons_ne_nil _ _))
  refine ⟨⟨_, hcopied 1023, fun h => ?_⟩, ⟨_, hcopied 1024, by decide⟩⟩
  exact absurd h.terminated (by decide)

/-- The runs that have a result are those whose copies fit. -/
theorem tokenize_isSome_iff (sql_commands : Text) (token_stream : List Token) :
    (tokenize sql_commands token_stream).isSome
      ↔ ∀ copy ∈ tokenize_copies sql_commands, copy.Fits := by
  constructor
  · intro h
    refine tokenize_loop_copies_fit _ sql_commands ?_
    by_contra hlong
    cases sql_commands with
    | nil => exact hlong (by decide)
    | cons c rest =>
        rw [tokenize, List.length_cons, tokenize_loop_long hlong] at h
        cases h
  · intro h
    by_cases hempty : sql_commands = []
    · rw [hempty]
      rfl
    · obtain ⟨code, tokens, hresult, -⟩ := tokenize_loop_munch sql_commands.length sql_commands 1
        token_stream (Nat.le_refl _) (h _ (memcpy_mem_tokenize_copies hempty)).terminated
      rw [tokenize, hresult]
      rfl

end PreSeQL.Compiler
