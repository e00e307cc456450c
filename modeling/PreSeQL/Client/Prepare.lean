/-
  PreSeQL.Client.Prepare — preparing a statement (`psql_prepare` in `client.c`).

  The stages in turn: tokens, statement, program.  What they print is left out, and the
  program is freed again, so the status is all that the caller learns.  Where the
  generator reads out of bounds there is no result.

    • `psql_prepare_ok` — a text that tokenizes is never refused,
    • `reports_validity_iff` — for which texts the status says whether they are valid.
-/
import PreSeQL.Status
import PreSeQL.Compiler.Acceptance
import PreSeQL.Compiler.Decoding
import PreSeQL.Compiler.Lexing

namespace PreSeQL.Client

open PreSeQL.Compiler

/-! ## §1. The status. -/

/-- The field that is set here; the others are for the machine. -/
structure PSqlStatement where
  pc : Int32
  deriving DecidableEq

def psql_prepare (preseql_input : Text) (statement : PSqlStatement) :
    Option (PSqlStatus × PSqlStatement) :=
  match tokenize preseql_input [] with
  | none => none
  | some (code, token_stream) =>
      if code ≠ 0 then some (.PSQL_ERROR, statement)
      else
        match parse_tokens_with_type token_stream with
        -- `Parsing failed` is printed, and no more
        | none => some (.PSQL_OK, { statement with pc := 0 })
        | some stmt =>
            match generate_code stmt with
            | some _ => some (.PSQL_OK, { statement with pc := 0 })
            | none =>
                -- the values of an INSERT were read past their end; for another statement
                -- `Code generation failed` is printed
                if stmt.stmt_type = .STMT_INSERT then none
                else some (.PSQL_OK, { statement with pc := 0 })

/-- **A text that tokenizes** is not refused, whatever its tokens are. -/
theorem psql_prepare_ok {text : Text} {tokens : List Token} {statement statement' : PSqlStatement}
    {status : PSqlStatus} (htokens : tokenize text [] = some (0, tokens))
    (h : psql_prepare text statement = some (status, statement')) : status = .PSQL_OK := by
  simp only [psql_prepare, htokens, ne_eq, not_true_eq_false, if_false] at h
  split at h
  next => cases h; rfl
  next stmt _ =>
    split at h
    next => cases h; rfl
    next =>
      split at h
      next => cases h
      next => cases h; rfl

theorem psql_prepare_error {text : Text} {code : Nat} {tokens : List Token}
    (htokens : tokenize text [] = some (code, tokens)) (hcode : code ≠ 0)
    (statement : PSqlStatement) :
    psql_prepare text statement = some (.PSQL_ERROR, statement) := by
  simp only [psql_prepare, htokens, if_pos hcode]

theorem psql_prepare_program {text : Text} {tokens : List Token} {stmt : Statement}
    {program : CompiledProgram} (htokens : tokenize text [] = some (0, tokens))
    (hparse : parse_tokens_with_type tokens = some stmt)
    (hprogram : generate_code stmt = some program) (statement : PSqlStatement) :
    psql_prepare text statement = some (.PSQL_OK, ⟨0⟩) := by
  simp only [psql_prepare, htokens, hparse, hprogram, ne_eq, not_true_eq_false, if_false]

/-! ## §2. Valid texts. -/

/-- The tokens, from the first to the last, are one statement, which parses and compiles. -/
def Valid (text : Text) : Prop :=
  ∃ tokens stmt, tokenize text [] = some (0, tokens) ∧ Sentence tokens stmt
    ∧ parse_tokens_with_type tokens = some stmt
    ∧ ∃ program, generate_code stmt = some program

/-- There is a status, and it is `PSQL_OK` for a valid text and no other. -/
def ReportsValidity (text : Text) : Prop :=
  ∀ statement, ∃ status statement', psql_prepare text statement = some (status, statement')
    ∧ (status = .PSQL_OK ↔ Valid text)

/-- If the text tokenizes, its tokens are one sentence. -/
def OneSentence (text : Text) : Prop :=
  ∀ tokens, tokenize text [] = some (0, tokens) → ∃ stmt, Sentence tokens stmt ∧ Covered stmt

/-- **The status reports validity** of a text that does not tokenize, and of one whose tokens
are one sentence. -/
theorem reports_validity_iff (text : Text) (h : text.length ≤ 1023) :
    ReportsValidity text ↔ OneSentence text := by
  obtain ⟨code, tokens, htokens, -, -⟩ :=
    tokenize_loop_munch text.length text 1 [] (Nat.le_refl _) (Nat.lt_succ_of_le h)
  rw [List.nil_append] at htokens
  change tokenize text [] = some (code, tokens) at htokens
  by_cases hcode : code = 0
  · subst hcode
    constructor
    · intro hreports tokens' htokens'
      obtain ⟨status, statement', hprepare, hiff⟩ := hreports ⟨0⟩
      -- the status is `PSQL_OK`, so the text has to be valid
      obtain ⟨_, stmt, hvalid, hsentence, -, hprogram⟩ :=
        hiff.mp (psql_prepare_ok htokens hprepare)
      rw [hvalid, Option.some.injEq, Prod.mk.injEq] at htokens'
      obtain ⟨-, rfl⟩ := htokens'
      exact ⟨stmt, hsentence, hsentence.generates_iff.mp hprogram⟩
    · intro hone statement
      obtain ⟨stmt, hsentence, hcovered⟩ := hone tokens htokens
      obtain ⟨program, hprogram⟩ := hsentence.generates_iff.mpr hcovered
      have hparse := hsentence.accepted []
      rw [List.append_nil] at hparse
      refine ⟨_, _, psql_prepare_program htokens hparse hprogram statement, ?_⟩
      exact iff_of_true rfl ⟨tokens, stmt, htokens, hsentence, hparse, program, hprogram⟩
  · -- refused, and not valid
    refine iff_of_true (fun statement => ?_) (fun tokens' htokens' => ?_)
    · refine ⟨_, _, psql_prepare_error htokens hcode statement, ?_⟩
      refine iff_of_false PSqlStatus.noConfusion ?_
      intro hvalid
      obtain ⟨_, _, hzero, -⟩ := hvalid
      rw [htokens, Option.some.injEq, Prod.mk.injEq] at hzero
      exact hcode hzero.1
    · rw [htokens, Option.some.injEq, Prod.mk.injEq] at htokens'
      exact absurd htokens'.1 hcode

/-- `COMMIT;` -/
theorem reports_validity_iff_commit :
    ReportsValidity "COMMIT;".toList ↔ OneSentence "COMMIT;".toList :=
  reports_validity_iff _ (by decide)

/-- The tokens of `COMMIT;COMMIT;` -/
def two_commits : List Token :=
  [⟨.TOKEN_KEYWORD_COMMIT, "COMMIT".toList, 1⟩, ⟨.TOKEN_END_OF_LINE, [';'], 1⟩,
   ⟨.TOKEN_KEYWORD_COMMIT, "COMMIT".toList, 1⟩, ⟨.TOKEN_END_OF_LINE, [';'], 1⟩]

/-- The parser passes the first two tokens, and it would pass all of a sentence. -/
theorem two_commits_not_sentence (stmt : Statement) : ¬ Sentence two_commits stmt := by
  intro h
  have hahead : remaining ⟨two_commits, 0⟩ = two_commits ++ [] := rfl
  obtain ⟨parser', hparse, htook⟩ := parse_statement_complete h hahead
  have hpos : parser'.pos = 4 := htook.pos
  cases hparse
  cases hpos

/-- A text without a statement, one with a second statement, and one whose program cannot be
generated. -/
theorem invalid_texts_prepared :
    (psql_prepare "SELECT".toList ⟨0⟩ = some (.PSQL_OK, ⟨0⟩) ∧ ¬ Valid "SELECT".toList)
    ∧ (psql_prepare "COMMIT;COMMIT;".toList ⟨0⟩ = some (.PSQL_OK, ⟨0⟩)
      ∧ ¬ Valid "COMMIT;COMMIT;".toList)
    ∧ psql_prepare "INSERT INTO t (a, b) VALUES (7);".toList ⟨0⟩ = none
    ∧ ¬ ∀ text : Text, text.length ≤ 1023 → ReportsValidity text := by
  have hselect : psql_prepare "SELECT".toList ⟨0⟩ = some (.PSQL_OK, ⟨0⟩) := by decide +kernel
  have hselect' : ¬ Valid "SELECT".toList := by
    intro hvalid
    obtain ⟨tokens, stmt, htokens, -, hparse, -⟩ := hvalid
    have hrun : tokenize "SELECT".toList []
        = some (0, [⟨.TOKEN_KEYWORD_SELECT, "SELECT".toList, 1⟩]) := by decide +kernel
    rw [hrun, Option.some.injEq, Prod.mk.injEq] at htokens
    obtain ⟨-, rfl⟩ := htokens
    cases hparse
  refine ⟨⟨hselect, hselect'⟩, ⟨by decide +kernel, ?_⟩, by decide +kernel, ?_⟩
  · intro hvalid
    obtain ⟨tokens, stmt, htokens, hsentence, -⟩ := hvalid
    have hrun : tokenize "COMMIT;COMMIT;".toList [] = some (0, two_commits) := by decide +kernel
    rw [hrun, Option.some.injEq, Prod.mk.injEq] at htokens
    obtain ⟨-, rfl⟩ := htokens
    exact two_commits_not_sentence stmt hsentence
  · intro hclaim
    obtain ⟨status, statement', hprepare, hiff⟩ := hclaim "SELECT".toList (by decide) ⟨0⟩
    rw [hselect, Option.some.injEq, Prod.mk.injEq] at hprepare
    exact hselect' (hiff.mp hprepare.1.symm)

end PreSeQL.Client
