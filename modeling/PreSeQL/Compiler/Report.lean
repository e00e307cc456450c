/-
  PreSeQL.Compiler.Report — the entry point that prints what it parsed (`parse_tokens`).

  It dispatches as `parse_tokens_with_type` does, but reads the type of the first token
  without a check that there is one, and refuses an INSERT whose counts differ.

    • `parse_tokens_eq` — it reports the statement of the other entry point, those apart,
    • `parse_tokens_agrees_iff` — for which token lists the two agree.
-/
import PreSeQL.Compiler.InsertCode
import PreSeQL.Compiler.Printing

namespace PreSeQL.Compiler

open TokenType

/-! ## §1. The printed line. -/

/-- `printf("%d", n)` -/
def int_text (n : Int32) : Text :=
  if n.toInt < 0 then '-' :: decimal n.toInt.natAbs else decimal n.toInt.natAbs

def value_text : Value → Text
  | .VALUE_TEXT text_value => '\'' :: (text_value ++ "' ".toList)
  | .VALUE_INTEGER int_value => int_text int_value ++ [' ']

def column_type_text (column : ColumnDef) : Text :=
  match column.type with
  | .COLTYPE_INT => "INT ".toList
  | .COLTYPE_VARCHAR => "VARCHAR(".toList ++ int_text column.type_length ++ ") ".toList

def select_report (stmt : SelectStatement) : Text :=
  "Parsed SELECT statement on table ".toList ++ stmt.table_name ++ " with columns: ".toList
    ++ stmt.columns.flatMap (fun column => column ++ [' ']) ++ ['\n']

/-- One loop prints the columns and, by the same index, the values. -/
def insert_report (stmt : InsertStatement) : Text :=
  "Parsed INSERT statement on table ".toList ++ stmt.table_name
    ++ " with columns and values: ".toList
    ++ (stmt.columns.zip stmt.values).flatMap (fun pair => pair.1 ++ ' ' :: value_text pair.2)
    ++ ['\n']

def create_report (stmt : CreateStatement) : Text :=
  "Parsed Create statement on table ".toList ++ stmt.table_name
    ++ " with columns and types: ".toList
    ++ stmt.columns.flatMap (fun column => column.name ++ ' ' :: column_type_text column) ++ ['\n']

def begin_report : Text := "Parsed BEGIN TRANSACTION statement\n".toList

def commit_report : Text := "Parsed COMMIT statement\n".toList

/-- The line that reports a statement. -/
def report : Statement → Text
  | .select stmt => select_report stmt
  | .insert stmt => insert_report stmt
  | .create stmt => create_report stmt
  | .control stmt => if stmt.type = .STMT_BEGIN then begin_report else commit_report

/-! ## §2. The entry point. -/

inductive ParseOutcome where
  /-- `token->type` is read of a `NULL` token. -/
  | null_token
  /-- A message on `stderr`. -/
  | error
  | reported (line : Text)
  deriving DecidableEq

def parse_tokens (token_streams : List Token) : ParseOutcome :=
  let parser : Parser := ⟨token_streams, 0⟩
  match peek parser with
  | none => .null_token
  | some token =>
      if token.type = TOKEN_KEYWORD_SELECT then
        match parse_select parser with
        | none => .error
        | some (stmt, _) => .reported (select_report stmt)
      else if token.type = TOKEN_KEYWORD_INSERT then
        match parse_insert parser with
        | none => .error
        | some (stmt, _) =>
            -- the check that the other entry point does not make
            if stmt.columns.length ≠ stmt.values.length then .error
            else .reported (insert_report stmt)
      else if token.type = TOKEN_KEYWORD_CREATE then
        match parse_create parser with
        | none => .error
        | some (stmt, _) => .reported (create_report stmt)
      else if token.type = TOKEN_KEYWORD_BEGIN then
        match parse_begin parser with
        | none => .error
        | some _ => .reported begin_report
      else if token.type = TOKEN_KEYWORD_COMMIT then
        match parse_commit parser with
        | none => .error
        | some _ => .reported commit_report
      else .error

/-! ## §3. Agreement with the other entry point. -/

/-- The counts of an INSERT differ. -/
def Mismatched : Statement → Prop
  | .insert stmt => stmt.columns.length ≠ stmt.values.length
  | _ => False

instance : DecidablePred Mismatched
  | .insert stmt => inferInstanceAs (Decidable (stmt.columns.length ≠ stmt.values.length))
  | .select _ | .create _ | .control _ => inferInstanceAs (Decidable False)

theorem parse_begin_type {parser parser' : Parser} {stmt : ControlStatement}
    (h : parse_begin parser = some (stmt, parser')) : stmt = ⟨.STMT_BEGIN⟩ := by
  simp only [parse_begin, Option.bind_eq_bind, Option.bind_eq_some_iff, Option.some.injEq,
    Prod.mk.injEq] at h
  obtain ⟨_, _, _, _, _, _, h, -⟩ := h
  exact h.symm

theorem parse_commit_type {parser parser' : Parser} {stmt : ControlStatement}
    (h : parse_commit parser = some (stmt, parser')) : stmt = ⟨.STMT_COMMIT⟩ := by
  simp only [parse_commit, Option.bind_eq_bind, Option.bind_eq_some_iff, Option.some.injEq,
    Prod.mk.injEq] at h
  obtain ⟨_, _, _, _, h, -⟩ := h
  exact h.symm

/-- **On a list with a token** it reports the statement that the other entry point returns,
unless that is an INSERT whose counts differ. -/
theorem parse_tokens_eq (token : Token) (tokens : List Token) :
    parse_tokens (token :: tokens) =
      match parse_tokens_with_type (token :: tokens) with
      | none => .error
      | some stmt => if Mismatched stmt then .error else .reported (report stmt) := by
  have hpeek : peek ⟨token :: tokens, 0⟩ = some token := rfl
  unfold parse_tokens parse_tokens_with_type parse_statement
  simp only [hpeek]
  by_cases hselect : token.type = TOKEN_KEYWORD_SELECT
  · rw [if_pos hselect, if_pos hselect]
    cases parse_select ⟨token :: tokens, 0⟩ with
    | none => rfl
    | some found => rfl
  · rw [if_neg hselect, if_neg hselect]
    by_cases hinsert : token.type = TOKEN_KEYWORD_INSERT
    · rw [if_pos hinsert, if_pos hinsert]
      cases parse_insert ⟨token :: tokens, 0⟩ with
      | none => rfl
      | some found => rfl
    · rw [if_neg hinsert, if_neg hinsert]
      by_cases hcreate : token.type = TOKEN_KEYWORD_CREATE
      · rw [if_pos hcreate, if_pos hcreate]
        cases parse_create ⟨token :: tokens, 0⟩ with
        | none => rfl
        | some found => rfl
      · rw [if_neg hcreate, if_neg hcreate]
        by_cases hbegin : token.type = TOKEN_KEYWORD_BEGIN
        · rw [if_pos hbegin, if_pos hbegin]
          cases hparse : parse_begin ⟨token :: tokens, 0⟩ with
          | none => rfl
          | some found =>
              obtain ⟨stmt, p⟩ := found
              obtain rfl := parse_begin_type hparse
              rfl
        · rw [if_neg hbegin, if_neg hbegin]
          by_cases hcommit : token.type = TOKEN_KEYWORD_COMMIT
          · rw [if_pos hcommit, if_pos hcommit]
            cases hparse : parse_commit ⟨token :: tokens, 0⟩ with
            | none => rfl
            | some found =>
                obtain ⟨stmt, p⟩ := found
                obtain rfl := parse_commit_type hparse
                rfl
          · rw [if_neg hcommit, if_neg hcommit]
            rfl

/-- It completes, reports a statement exactly when the other entry point returns one, and
reports that one. -/
structure Agrees (tokens : List Token) : Prop where
  completes : parse_tokens tokens ≠ .null_token
  reports_iff : (∃ line, parse_tokens tokens = .reported line)
    ↔ ∃ stmt, parse_tokens_with_type tokens = some stmt
  contents : ∀ stmt line, parse_tokens_with_type tokens = some stmt →
    parse_tokens tokens = .reported line → line = report stmt

/-- No INSERT at the start of the list has other numbers of columns and of values. -/
def InsertsMatch (tokens : List Token) : Prop :=
  ∀ ts rest stmt, tokens = ts ++ rest → Sentence ts (.insert stmt) →
    stmt.columns.length = stmt.values.length

/-- The INSERT at the start of the list is the one that is parsed. -/
theorem insertsMatch_iff (tokens : List Token) :
    InsertsMatch tokens
      ↔ ∀ stmt, parse_tokens_with_type tokens = some stmt → ¬ Mismatched stmt := by
  constructor
  · intro h stmt hparse
    cases stmt with
    | insert stmt =>
        obtain ⟨ts, rest, htokens, hsentence⟩ := insert_accepted_iff.mp hparse
        exact not_not_intro (h ts rest stmt htokens hsentence)
    | select _ | create _ | control _ => exact not_false
  · intro h ts rest stmt htokens hsentence
    exact not_not.mp (h (.insert stmt) (insert_accepted_iff.mpr ⟨ts, rest, htokens, hsentence⟩))

/-- A list whose statement is reported, if it has one. -/
theorem agrees_of_eq {tokens : List Token}
    (h : parse_tokens tokens = match parse_tokens_with_type tokens with
      | none => .error
      | some stmt => .reported (report stmt)) : Agrees tokens := by
  cases hparse : parse_tokens_with_type tokens with
  | none =>
      rw [hparse] at h
      constructor
      · rw [h]
        exact ParseOutcome.noConfusion
      · rw [h, hparse]
        simp
      · intro stmt line hstmt
        rw [hparse] at hstmt
        cases hstmt
  | some stmt =>
      rw [hparse] at h
      constructor
      · rw [h]
        exact ParseOutcome.noConfusion
      · rw [h, hparse]
        simp
      · intro stmt' line hstmt hline
        rw [hparse] at hstmt
        rw [h] at hline
        cases hstmt
        cases hline
        rfl

/-- **The entry points agree** on every list of at least one token, unless it starts with an
INSERT whose numbers of columns and of values differ. -/
theorem parse_tokens_agrees_iff (tokens : List Token) :
    Agrees tokens ↔ tokens ≠ [] ∧ InsertsMatch tokens := by
  rw [insertsMatch_iff]
  cases tokens with
  | nil => exact iff_of_false (fun h => h.completes rfl) (fun h => h.1 rfl)
  | cons token tokens =>
      have heq := parse_tokens_eq token tokens
      constructor
      · intro h
        refine ⟨List.cons_ne_nil _ _, fun stmt hparse hmismatch => ?_⟩
        -- refused here, returned there
        simp only [hparse, if_pos hmismatch] at heq
        obtain ⟨line, hline⟩ := h.reports_iff.mpr ⟨stmt, hparse⟩
        rw [heq] at hline
        cases hline
      · intro h
        apply agrees_of_eq
        rw [heq]
        cases hparse : parse_tokens_with_type (token :: tokens) with
        | none => rfl
        | some stmt => exact if_neg (h.2 stmt hparse)

/-- The tokens of `INSERT INTO t VALUES (7);` -/
def insert_without_columns : List Token := insert_tokens [] [⟨TOKEN_INT_LITERAL, ['7'], 1⟩]

/-- An INSERT without a column list is returned by the one entry point and refused by the
other; an empty list crashes the other. -/
theorem entry_points_disagree :
    (parse_tokens_with_type insert_without_columns
        = some (.insert ⟨[], ['t'], [.VALUE_INTEGER 7]⟩)
      ∧ parse_tokens insert_without_columns = .error
      ∧ ¬ Agrees insert_without_columns)
    ∧ parse_tokens_with_type [] = none ∧ parse_tokens [] = .null_token ∧ ¬ Agrees [] := by
  have hparse : parse_tokens_with_type insert_without_columns
      = some (.insert ⟨[], ['t'], [.VALUE_INTEGER 7]⟩) := rfl
  have herror : parse_tokens insert_without_columns = .error := rfl
  refine ⟨⟨hparse, herror, fun h => ?_⟩, rfl, rfl, fun h => h.completes rfl⟩
  obtain ⟨line, hline⟩ := h.reports_iff.mpr ⟨_, hparse⟩
  rw [herror] at hline
  cases hline

end PreSeQL.Compiler
