/-
  PreSeQL.Compiler.OwnedStatement — what statements own.

  The parser of `Blocks.lean` against the parser on values, in the stages that its error
  exits lie between.  SELECT and CREATE give everything back when they are rejected; an
  INSERT gives back its columns only.

    • `parse_insert_spec` — the values of a rejected INSERT stay in use,
    • `parse_statement_spec` — every other statement owns what is left of its parsing,
    • `free_insert_statement_spec`, … — the blocks of a statement are given back,
    • `parse_tokens_spec` — what the entry point that prints its statement leaves in use.
-/
import PreSeQL.Compiler.Owned

namespace PreSeQL.Compiler.Blocks

open PreSeQL.Lib PreSeQL.Lib.Alloc
open PreSeQL.Compiler TokenType

/-! ## §1. SELECT and the columns of INSERT. -/

/-- An error exit that gives an array back. -/
theorem refused_spec {γ δ : Type} {owned base : Multiset Cell} {give_back : Alloc Unit}
    {f : γ → Multiset Cell} {g : γ → δ}
    (h : Spec (owned + base) give_back fun _ left => left = base) :
    Spec (owned + base) (do give_back; return none) fun r left =>
      left = r.elim 0 f + base ∧ r.map g = none := by
  refine h.bind ?_
  rintro _ _ rfl
  exact Spec.pure ⟨(zero_add _).symm, rfl⟩

/-- The columns of `parse_select` as values. -/
def read_columns (parser : Parser) : Option (List Text × Parser) :=
  if (match_token parser TOKEN_OP_STAR).1 then
    some ([['*']], (match_token parser TOKEN_OP_STAR).2)
  else Compiler.comma_list parse_name (match_token parser TOKEN_OP_STAR).2

theorem select_columns_spec (parser : Parser) (base : Multiset Cell) :
    Spec base (select_columns parser) fun v left =>
      left = v.1.own POINTER_SIZE CString.own + base
      ∧ v.2.map (Prod.mk (v.1.elems.map CString.text)) = read_columns parser := by
  unfold select_columns read_columns
  rcases match_token parser TOKEN_OP_STAR with ⟨star, next⟩
  cases star with
  | true =>
      refine (Spec.of_eq (by rw [CArray.own_null, zero_add])
        (add_name_spec .null ['*'] base)).bind ?_
      rintro columns _ ⟨rfl, hcolumns⟩
      exact Spec.pure ⟨rfl, by simp [hcolumns, CArray.null]⟩
  | false =>
      refine (comma_list_spec add_name_spec next base).mono ?_
      rintro v _ ⟨rfl, _, hnext⟩
      exact ⟨rfl, hnext⟩

/-- The statement of the columns and the table that follows them. -/
theorem parse_select_columns {parser next : Parser} {token : Token}
    (h : require parser TOKEN_KEYWORD_SELECT = some (token, next)) :
    Compiler.parse_select parser = (read_columns next).bind fun columns =>
      (select_table columns.2).map fun table =>
        (⟨columns.1, table.1.lexeme⟩, (expect table.2 TOKEN_END_OF_LINE).2) := by
  rw [Compiler.parse_select, h, read_columns]
  simp only [select_table, Option.bind_eq_bind, Option.bind_some, Option.map_eq_bind]
  rcases match_token next TOKEN_OP_STAR with ⟨_ | _, _⟩ <;>
    simp [Option.bind_assoc]

/-- A statement, or `NULL` with nothing left. -/
theorem parse_select_spec (parser : Parser) (base : Multiset Cell) :
    Spec base (parse_select parser) fun r left =>
      left = r.elim 0 (·.1.own) + base
      ∧ r.map (Prod.map SelectPtr.value id) = Compiler.parse_select parser := by
  rw [parse_select]
  cases hselect : require parser TOKEN_KEYWORD_SELECT with
  | none =>
      rw [Compiler.parse_select, hselect]
      exact Spec.pure ⟨(zero_add base).symm, rfl⟩
  | some found =>
      obtain ⟨_, start⟩ := found
      rw [parse_select_columns hselect]
      refine (select_columns_spec start base).bind ?_
      rintro ⟨columns, next⟩ _ ⟨rfl, hcolumns⟩
      rw [← hcolumns, Option.bind_map]
      have hrefused := @refused_spec (SelectPtr × Parser) (SelectStatement × Parser) _ base
        _ (·.1.own) (Prod.map SelectPtr.value id) (free_strings_spec columns base)
      cases next with
      | none => exact hrefused
      | some parser =>
          simp only [Option.bind_some, Function.comp_apply]
          cases select_table parser with
          | none => exact hrefused
          | some table =>
              refine (Spec.malloc _ SELECT_SIZE).bind ?_
              rintro addr _ rfl
              refine (strdup_spec table.1.lexeme _).bind ?_
              rintro table_name _ ⟨rfl, hname⟩
              refine Spec.pure ⟨?_, ?_⟩
              · simp only [Option.elim_some, SelectPtr.own]
                abel
              · simp [SelectPtr.value, hname]

theorem parse_columns_spec (parser : Parser) (base : Multiset Cell) :
    Spec base (parse_columns parser) fun v left =>
      left = v.1.own POINTER_SIZE CString.own + base
      ∧ v.2.map (Prod.mk (v.1.elems.map CString.text)) = Compiler.parse_columns parser := by
  unfold parse_columns Compiler.parse_columns
  rcases match_token parser TOKEN_PUNC_OPEN_PAREN with ⟨paren, start⟩
  cases paren with
  | true =>
      refine (comma_list_spec add_name_spec start base).bind ?_
      rintro ⟨columns, next⟩ _ ⟨rfl, _, hcolumns⟩
      refine Spec.pure ⟨rfl, ?_⟩
      dsimp only at hcolumns ⊢
      rw [← hcolumns]
      cases next with
      | none => rfl
      | some next => simp
  | false => exact Spec.pure ⟨by rw [CArray.own_null, zero_add], rfl⟩

/-! ## §2. INSERT. -/

/-- The stages of `parse_insert`. -/
theorem parse_insert_stages (parser : Parser) :
    Compiler.parse_insert parser = (insert_table parser).bind fun table =>
      (Compiler.parse_columns table.2).bind fun columns =>
        (open_values columns.2).bind fun start =>
          (Compiler.comma_list parse_value start.2).bind fun values =>
            (close_list values.2).map fun last =>
              (⟨columns.1, table.1.lexeme, values.1⟩, last.2) := by
  simp [Compiler.parse_insert, insert_table, open_values, close_list, Option.map_eq_bind,
    Option.bind_assoc]

/-- The values in front of the first one that is missing. -/
def values_read (parser : Parser) : List Value :=
  (((insert_table parser).bind fun table =>
      (Compiler.parse_columns table.2).bind fun columns =>
        (open_values columns.2).map fun start =>
          comma_read parse_value start.2.tokens.length start.2) : Option (List Value)).getD []

/-- The values that have been read when an INSERT is rejected. -/
def values_rejected (parser : Parser) : List Value :=
  (Compiler.parse_insert parser).elim (values_read parser) fun _ => []

def value_sizes : Value → Multiset Nat
  | .VALUE_TEXT text_value => {text_size text_value}
  | .VALUE_INTEGER _ => 0

abbrev values_sizes : List Value → Multiset Nat := array_sizes VALUE_SIZE value_sizes

theorem ValuePtr.own_sizes (p : ValuePtr) : p.own.map Cell.size = value_sizes p.value := by
  cases p with
  | VALUE_TEXT text_value => rfl
  | VALUE_INTEGER int_value => rfl

/-- The error exit of an INSERT, with its values still in use. -/
theorem insert_refused_spec {columns : CArray CString} {lost base : Multiset Cell}
    {values : List Value} (hlost : lost.map Cell.size = values_sizes values) :
    Spec (columns.own POINTER_SIZE CString.own + (lost + base))
      (do free_strings columns; return none) fun (r : Option (InsertPtr × Parser)) left =>
        ∃ kept : Multiset Cell, left = r.elim 0 (fun p => p.1.own) + (kept + base)
        ∧ kept.map Cell.size = values_sizes values
        ∧ r.map (Prod.map InsertPtr.value id) = none := by
  refine (free_strings_spec columns (lost + base)).bind ?_
  rintro _ _ rfl
  exact Spec.pure ⟨lost, (zero_add _).symm, hlost, rfl⟩

/-- **A rejected INSERT** leaves the values that have been read. -/
theorem parse_insert_spec (parser : Parser) (base : Multiset Cell) :
    Spec base (parse_insert parser) fun r left => ∃ lost : Multiset Cell,
      left = r.elim 0 (·.1.own) + (lost + base)
      ∧ lost.map Cell.size = values_sizes (values_rejected parser)
      ∧ r.map (Prod.map InsertPtr.value id) = Compiler.parse_insert parser := by
  rw [parse_insert, values_rejected, values_read, parse_insert_stages]
  cases insert_table parser with
  | none => exact Spec.pure ⟨0, by simp, rfl, rfl⟩
  | some table =>
      simp only [Option.bind_some]
      refine (parse_columns_spec table.2 base).bind ?_
      rintro ⟨columns, next⟩ _ ⟨rfl, hcolumns⟩
      rw [← hcolumns]
      -- the exits in front of the values
      have hnone := @insert_refused_spec columns 0 base [] rfl
      rw [zero_add] at hnone
      cases next with
      | none => exact hnone
      | some parser =>
          simp only [Option.map_some, Option.bind_some]
          cases open_values parser with
          | none => exact hnone
          | some start =>
              simp only [Option.bind_some, Option.map_some, Option.getD_some]
              refine (comma_list_spec add_value_spec start.2 _).bind ?_
              rintro ⟨values, next'⟩ _ ⟨rfl, hread, hvalues⟩
              -- the exits behind them: what has been read is not given back
              have hsizes : (values.own VALUE_SIZE ValuePtr.own).map Cell.size
                  = values_sizes (comma_read parse_value start.2.tokens.length start.2) := by
                rw [CArray.own_sizes ValuePtr.own_sizes, ← hread]
              have hlost := Spec.of_eq (add_left_comm _ _ base)
                (@insert_refused_spec columns _ base _ hsizes)
              rw [← hvalues]
              cases next' with
              | none => exact hlost
              | some parser' =>
                  simp only [Option.map_some, Option.bind_some]
                  cases close_list parser' with
                  | none => exact hlost
                  | some last =>
                      refine (Spec.malloc _ INSERT_SIZE).bind ?_
                      rintro addr _ rfl
                      refine (strdup_spec table.1.lexeme _).bind ?_
                      rintro table_name _ ⟨rfl, hname⟩
                      refine Spec.pure ⟨0, ?_, rfl, ?_⟩
                      · simp only [Option.elim_some, InsertPtr.own]
                        abel
                      · simp [InsertPtr.value, hname]

/-! ## §3. CREATE and the other statements. -/

theorem free_column_defs_spec (columns : CArray ColumnDefPtr) (base : Multiset Cell) :
    Spec (columns.own VALUE_SIZE (·.name.own) + base) (free_column_defs columns)
      fun _ left => left = base :=
  CArray.free_spec (fun column own => Spec.free ⟨column.name.addr, _⟩ own) base

/-- The stages of `parse_create`. -/
theorem parse_create_stages (parser : Parser) :
    Compiler.parse_create parser = (create_table parser).bind fun table =>
      (Compiler.comma_list parse_column_def table.2).bind fun columns =>
        (close_list columns.2).map fun last => (⟨table.1.lexeme, columns.1⟩, last.2) := by
  simp [Compiler.parse_create, create_table, close_list, Option.map_eq_bind, Option.bind_assoc]

theorem parse_create_spec (parser : Parser) (base : Multiset Cell) :
    Spec base (parse_create parser) fun r left =>
      left = r.elim 0 (·.1.own) + base
      ∧ r.map (Prod.map CreatePtr.value id) = Compiler.parse_create parser := by
  rw [parse_create, parse_create_stages]
  cases create_table parser with
  | none => exact Spec.pure ⟨(zero_add base).symm, rfl⟩
  | some table =>
      simp only [Option.bind_some]
      refine (comma_list_spec add_column_def_spec table.2 base).bind ?_
      rintro ⟨columns, next⟩ _ ⟨rfl, _, hcolumns⟩
      rw [← hcolumns]
      have hrefused : Spec (columns.own VALUE_SIZE (·.name.own) + base)
          (do free_column_defs columns; return none) fun (r : Option (CreatePtr × Parser)) left =>
            left = r.elim 0 (fun p => p.1.own) + base
            ∧ r.map (Prod.map CreatePtr.value id) = none :=
        refused_spec (free_column_defs_spec columns base)
      cases next with
      | none => exact hrefused
      | some parser =>
          simp only [Option.map_some, Option.bind_some]
          cases close_list parser with
          | none => exact hrefused
          | some last =>
              refine (Spec.malloc _ CREATE_SIZE).bind ?_
              rintro addr _ rfl
              refine (strdup_spec table.1.lexeme _).bind ?_
              rintro table_name _ ⟨rfl, hname⟩
              refine Spec.pure ⟨?_, ?_⟩
              · simp only [Option.elim_some, CreatePtr.own]
                abel
              · simp [CreatePtr.value, hname]

theorem make_control_spec (parsed : Option (ControlStatement × Parser)) (base : Multiset Cell) :
    Spec base (make_control parsed) fun r left =>
      left = r.elim 0 (fun p => (StatementPtr.control p.1).own) + base
      ∧ r.map (Prod.map (fun stmt => ⟨stmt.type⟩) id) = parsed := by
  cases parsed with
  | none => exact Spec.pure ⟨(zero_add base).symm, rfl⟩
  | some found =>
      refine (Spec.malloc base CONTROL_SIZE).bind ?_
      rintro addr _ rfl
      exact Spec.pure ⟨rfl, rfl⟩

theorem parse_begin_spec (parser : Parser) (base : Multiset Cell) :
    Spec base (parse_begin parser) fun r left =>
      left = r.elim 0 (fun p => (StatementPtr.control p.1).own) + base
      ∧ r.map (Prod.map (fun stmt => ⟨stmt.type⟩) id) = Compiler.parse_begin parser :=
  make_control_spec _ base

theorem parse_commit_spec (parser : Parser) (base : Multiset Cell) :
    Spec base (parse_commit parser) fun r left =>
      left = r.elim 0 (fun p => (StatementPtr.control p.1).own) + base
      ∧ r.map (Prod.map (fun stmt => ⟨stmt.type⟩) id) = Compiler.parse_commit parser :=
  make_control_spec _ base

theorem values_read_of_type {parser : Parser} {token : Token} (hpeek : peek parser = some token)
    (htype : token.type ≠ TOKEN_KEYWORD_INSERT) : values_read parser = [] := by
  have htoken : parser.tokens[parser.pos]? = some token := hpeek
  simp [values_read, insert_table, require, expect, advance, htoken, htype]

theorem values_rejected_of_read {parser : Parser} (h : values_read parser = []) :
    values_rejected parser = [] := by
  unfold values_rejected
  cases Compiler.parse_insert parser with
  | none => exact h
  | some found => rfl

/-- The statement behind the pointer that a parser returns. -/
theorem statement_spec {γ δ : Type} {parse : Alloc (Option (γ × Parser))}
    {own : γ → Multiset Cell} {value : γ → δ} {parsed : Option (δ × Parser)}
    {ptr : γ → StatementPtr} {stmt : δ → Statement} {lost : List Value} {base : Multiset Cell}
    (hparse : Spec base parse fun r left => ∃ kept : Multiset Cell,
      left = r.elim 0 (own ·.1) + (kept + base)
      ∧ kept.map Cell.size = values_sizes lost ∧ r.map (Prod.map value id) = parsed)
    (hown : ∀ s, (ptr s).own = own s) (hvalue : ∀ s, (ptr s).value = stmt (value s)) :
    Spec base (do return (← parse).map (Prod.map ptr id)) fun r left => ∃ kept : Multiset Cell,
      left = r.elim 0 (·.1.own) + (kept + base)
      ∧ kept.map Cell.size = values_sizes lost
      ∧ r.map (Prod.map StatementPtr.value id) = parsed.map (Prod.map stmt id) := by
  refine hparse.bind ?_
  rintro r _ ⟨kept, rfl, hkept, rfl⟩
  refine Spec.pure ⟨kept, ?_, hkept, ?_⟩
  · cases r with
    | none => rfl
    | some found => simp [hown]
  · cases r with
    | none => rfl
    | some found => obtain ⟨s, next⟩ := found; simp [hvalue]

theorem nothing_kept {γ δ : Type} {parse : Alloc (Option (γ × Parser))} {own : γ → Multiset Cell}
    {value : γ → δ} {parsed : Option (δ × Parser)} {base : Multiset Cell}
    (hparse : Spec base parse fun r left =>
      left = r.elim 0 (own ·.1) + base ∧ r.map (Prod.map value id) = parsed) :
    Spec base parse fun r left => ∃ kept : Multiset Cell,
      left = r.elim 0 (own ·.1) + (kept + base)
      ∧ kept.map Cell.size = values_sizes [] ∧ r.map (Prod.map value id) = parsed := by
  refine hparse.mono ?_
  rintro r _ ⟨rfl, hr⟩
  exact ⟨0, by rw [zero_add], rfl, hr⟩

/-- **A statement owns its blocks**; a rejected one leaves the values it has read. -/
theorem parse_statement_spec (parser : Parser) (base : Multiset Cell) :
    Spec base (parse_statement parser) fun r left => ∃ kept : Multiset Cell,
      left = r.elim 0 (·.1.own) + (kept + base)
      ∧ kept.map Cell.size = values_sizes (values_rejected parser)
      ∧ r.map (Prod.map StatementPtr.value id) = Compiler.parse_statement parser := by
  rw [parse_statement, Compiler.parse_statement]
  cases hpeek : peek parser with
  | none =>
      have htoken : parser.tokens[parser.pos]? = none := hpeek
      have hread : values_read parser = [] := by
        simp [values_read, insert_table, require, expect, advance, htoken]
      exact Spec.pure ⟨0, by simp, by rw [values_rejected_of_read hread]; rfl, rfl⟩
  | some token =>
      dsimp only
      by_cases hinsert : token.type = TOKEN_KEYWORD_INSERT
      · have hselect : token.type ≠ TOKEN_KEYWORD_SELECT := by rw [hinsert]; decide
        rw [if_neg hselect, if_neg hselect, if_pos hinsert, if_pos hinsert]
        exact statement_spec (parse_insert_spec parser base) (fun _ => rfl) (fun _ => rfl)
      · rw [values_rejected_of_read (values_read_of_type hpeek hinsert), if_neg hinsert,
          if_neg hinsert]
        split
        next =>
          exact statement_spec (nothing_kept (parse_select_spec parser base)) (fun _ => rfl)
            (fun _ => rfl)
        next =>
          split
          next =>
            exact statement_spec (nothing_kept (parse_create_spec parser base)) (fun _ => rfl)
              (fun _ => rfl)
          next =>
            split
            next =>
              exact statement_spec (nothing_kept (parse_begin_spec parser base)) (fun _ => rfl)
                (fun _ => rfl)
            next =>
              split
              next =>
                exact statement_spec (nothing_kept (parse_commit_spec parser base)) (fun _ => rfl)
                  (fun _ => rfl)
              next => exact Spec.pure ⟨0, by simp, rfl, rfl⟩

theorem values_rejected_of_parsed {parser : Parser}
    (h : (Compiler.parse_statement parser).isSome) : values_rejected parser = [] := by
  rw [Compiler.parse_statement] at h
  cases hpeek : peek parser with
  | none => rw [hpeek] at h; cases h
  | some token =>
      by_cases hinsert : token.type = TOKEN_KEYWORD_INSERT
      · have hselect : token.type ≠ TOKEN_KEYWORD_SELECT := by rw [hinsert]; decide
        simp only [hpeek, if_neg hselect, if_pos hinsert, Option.isSome_map] at h
        obtain ⟨found, hfound⟩ := Option.isSome_iff_exists.mp h
        rw [values_rejected, hfound]
        rfl
      · exact values_rejected_of_read (values_read_of_type hpeek hinsert)

theorem parse_tokens_with_type_spec (token_streams : List Token) (base : Multiset Cell) :
    Spec base (parse_tokens_with_type token_streams) fun r left => ∃ kept : Multiset Cell,
      left = r.elim 0 StatementPtr.own + (kept + base)
      ∧ kept.map Cell.size = values_sizes (values_rejected ⟨token_streams, 0⟩)
      ∧ r.map StatementPtr.value = Compiler.parse_tokens_with_type token_streams := by
  refine (parse_statement_spec ⟨token_streams, 0⟩ base).bind ?_
  rintro r _ ⟨kept, rfl, hkept, hr⟩
  refine Spec.pure ⟨kept, ?_, hkept, ?_⟩
  · cases r with
    | none => rfl
    | some found => rfl
  · rw [Compiler.parse_tokens_with_type, ← hr]
    cases r with
    | none => rfl
    | some found => rfl

/-! ## §4. Statements are freed. -/

theorem free_select_statement_spec (stmt : SelectPtr) (base : Multiset Cell) :
    Spec (stmt.own + base) (free_select_statement stmt) fun _ left => left = base := by
  refine (Spec.of_eq (by unfold SelectPtr.own; abel)
    (free_strings_spec stmt.columns
      (stmt.table_name.own + ({⟨stmt.addr, SELECT_SIZE⟩} + base)))).bind ?_
  rintro _ _ rfl
  refine (Spec.free ⟨stmt.table_name.addr, _⟩ _).bind ?_
  rintro _ _ rfl
  exact Spec.free ⟨stmt.addr, _⟩ base

theorem free_values_spec (values : CArray ValuePtr) (base : Multiset Cell) :
    Spec (values.own VALUE_SIZE ValuePtr.own + base) (free_values values)
      fun _ left => left = base := by
  refine CArray.free_spec (fun p own => ?_) base
  cases p with
  | VALUE_TEXT text_value => exact Spec.free ⟨text_value.addr, _⟩ own
  | VALUE_INTEGER int_value => exact Spec.pure (zero_add own)

theorem free_insert_statement_spec (stmt : InsertPtr) (base : Multiset Cell) :
    Spec (stmt.own + base) (free_insert_statement stmt) fun _ left => left = base := by
  refine (Spec.of_eq (by unfold InsertPtr.own CString.own; abel)
    (Spec.free ⟨stmt.table_name.addr, text_size stmt.table_name.text⟩
      (stmt.columns.own POINTER_SIZE CString.own
        + (stmt.values.own VALUE_SIZE ValuePtr.own + ({⟨stmt.addr, INSERT_SIZE⟩} + base))))).bind ?_
  rintro _ _ rfl
  refine (free_strings_spec stmt.columns _).bind ?_
  rintro _ _ rfl
  refine (free_values_spec stmt.values _).bind ?_
  rintro _ _ rfl
  exact Spec.free ⟨stmt.addr, _⟩ base

theorem free_create_statement_spec (stmt : CreatePtr) (base : Multiset Cell) :
    Spec (stmt.own + base) (free_create_statement stmt) fun _ left => left = base := by
  refine (Spec.of_eq (by unfold CreatePtr.own; abel)
    (free_column_defs_spec stmt.columns
      (stmt.table_name.own + ({⟨stmt.addr, CREATE_SIZE⟩} + base)))).bind ?_
  rintro _ _ rfl
  refine (Spec.free ⟨stmt.table_name.addr, _⟩ _).bind ?_
  rintro _ _ rfl
  exact Spec.free ⟨stmt.addr, _⟩ base

/-! ## §5. Sizes. -/

def name_sizes (name : Text) : Multiset Nat := {text_size name}

abbrev names_sizes : List Text → Multiset Nat := array_sizes POINTER_SIZE name_sizes

abbrev columns_sizes : List ColumnDef → Multiset Nat :=
  array_sizes VALUE_SIZE fun column => name_sizes column.name

/-- The sizes of the blocks of a statement. -/
def statement_sizes : Statement → Multiset Nat
  | .select stmt => {SELECT_SIZE} + names_sizes stmt.columns + name_sizes stmt.table_name
  | .insert stmt => {INSERT_SIZE} + names_sizes stmt.columns + name_sizes stmt.table_name
      + values_sizes stmt.values
  | .create stmt => {CREATE_SIZE} + name_sizes stmt.table_name + columns_sizes stmt.columns
  | .control _ => {CONTROL_SIZE}

theorem CString.own_sizes (s : CString) : s.own.map Cell.size = name_sizes s.text := rfl

theorem StatementPtr.own_sizes (p : StatementPtr) :
    p.own.map Cell.size = statement_sizes p.value := by
  cases p with
  | select stmt =>
      simp only [own, SelectPtr.own, Multiset.map_add, CArray.own_sizes CString.own_sizes,
        CString.own_sizes]
      rfl
  | insert stmt =>
      simp only [own, InsertPtr.own, Multiset.map_add, CArray.own_sizes CString.own_sizes,
        CArray.own_sizes ValuePtr.own_sizes, CString.own_sizes]
      rfl
  | create stmt =>
      have hcolumns : (stmt.columns.own VALUE_SIZE (·.name.own)).map Cell.size
          = columns_sizes (stmt.columns.elems.map ColumnDefPtr.value) :=
        @CArray.own_sizes ColumnDefPtr VALUE_SIZE (·.name.own) ColumnDef ColumnDefPtr.value
          (fun column => name_sizes column.name) (fun _ => rfl) stmt.columns
      simp only [own, CreatePtr.own, Multiset.map_add, hcolumns, CString.own_sizes]
      rfl
  | control stmt => rfl

/-! ## §6. The entry point that prints. -/

/-- The sizes of the blocks of a statement that `parse_tokens` does not free. -/
def unreported_sizes : Statement → Multiset Nat
  | .insert stmt =>
      if stmt.columns.length ≠ stmt.values.length then statement_sizes (.insert stmt) else 0
  | _ => 0

theorem free_reported_spec (stmt : StatementPtr) (base : Multiset Cell) :
    Spec (stmt.own + base) (free_reported stmt) fun _ left => ∃ kept : Multiset Cell,
      left = kept + base ∧ kept.map Cell.size = unreported_sizes stmt.value := by
  -- nothing is kept when everything is given back
  have hfreed : ∀ {free : Alloc Unit}, unreported_sizes stmt.value = 0 →
      Spec (stmt.own + base) free (fun _ left => left = base) →
      Spec (stmt.own + base) free fun _ left => ∃ kept : Multiset Cell,
        left = kept + base ∧ kept.map Cell.size = unreported_sizes stmt.value := by
    intro free hnone hfree
    refine hfree.mono ?_
    rintro _ _ rfl
    exact ⟨0, (zero_add _).symm, hnone.symm⟩
  cases stmt with
  | select stmt => exact hfreed rfl (free_select_statement_spec stmt base)
  | create stmt => exact hfreed rfl (free_create_statement_spec stmt base)
  | control stmt => exact hfreed rfl (Spec.free ⟨stmt.addr, CONTROL_SIZE⟩ base)
  | insert stmt =>
      have hlengths : (InsertPtr.value stmt).columns.length ≠ (InsertPtr.value stmt).values.length
          ↔ stmt.columns.elems.length ≠ stmt.values.elems.length := by
        rw [InsertPtr.value, List.length_map, List.length_map]
      rw [free_reported]
      split
      next hne =>
        refine Spec.pure ⟨_, rfl, ?_⟩
        rw [StatementPtr.own_sizes]
        exact (if_pos (hlengths.mpr hne)).symm
      next heq =>
        exact hfreed (if_neg (mt hlengths.mp heq)) (free_insert_statement_spec stmt base)

/-- The sizes of the blocks a call leaves in use. -/
def parse_tokens_kept (token_streams : List Token) : Multiset Nat :=
  (Compiler.parse_tokens_with_type token_streams).elim
    (values_sizes (values_rejected ⟨token_streams, 0⟩)) unreported_sizes

/-- **Parsing and printing** gives every block back, but for the values of a rejected INSERT and
an INSERT whose lists have different lengths. -/
theorem parse_tokens_spec (token : Token) (token_streams : List Token) (base : Multiset Cell) :
    Spec base (parse_tokens (token :: token_streams)) fun _ left => ∃ kept : Multiset Cell,
      left = kept + base ∧ kept.map Cell.size = parse_tokens_kept (token :: token_streams) := by
  refine (parse_tokens_with_type_spec (token :: token_streams) base).bind ?_
  rintro r _ ⟨kept, rfl, hkept, hr⟩
  rw [parse_tokens_kept, ← hr]
  cases r with
  | none => exact Spec.pure ⟨kept, by rw [Option.elim_none, zero_add], hkept⟩
  | some stmt =>
      -- what was accepted has no values that were rejected
      have hparsed : (Compiler.parse_statement ⟨token :: token_streams, 0⟩).isSome := by
        rw [Compiler.parse_tokens_with_type] at hr
        rw [← Option.isSome_map, ← hr]
        rfl
      rw [values_rejected_of_parsed hparsed] at hkept
      obtain rfl : kept = 0 := Multiset.map_eq_zero.mp hkept
      rw [zero_add]
      exact free_reported_spec stmt base

end PreSeQL.Compiler.Blocks
