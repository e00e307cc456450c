/-
  PreSeQL.Compiler.Printing — parsing undoes printing.

  `Sql` is what a statement says: its invariants (non-empty lists, numbers that fit an
  `int`, texts without quotes) are part of its type.  `Sql.print` is its token form and
  `Sql.statement` the parsed statement it stands for.

  What is printed is a sentence of the grammar (`Sql.sentence`), and the parser accepts
  sentences.  An item is specified by what its routine does when the cursor reads a given
  form (`Reads`, `Parses`): it returns the value the form prints and stops behind it.
-/
import PreSeQL.Compiler.Acceptance
import Mathlib.Data.List.TakeWhile
import Mathlib.Tactic.Ring

namespace PreSeQL.Compiler

open TokenType

/-! ## §1. SQL and its token form. -/

abbrev NonemptyList (α : Type) := { l : List α // l ≠ [] }

/-- An integer from 0 to `INT_MAX`. -/
abbrev SqlNumber := { n : Nat // n < 2 ^ 31 }

/-- A text without quote characters. -/
abbrev SqlText := { text : Text // '\'' ∉ text }

inductive SqlType where
  | INT
  | VARCHAR (length : Option SqlNumber)

inductive SqlValue where
  | number (n : SqlNumber)
  | text (t : SqlText)

inductive Sql where
  | select_all (table : Text)
  | select (columns : NonemptyList Text) (table : Text)
  | create (table : Text) (columns : NonemptyList (Text × SqlType))
  | insert (table : Text) (columns : Option (NonemptyList Text)) (values : NonemptyList SqlValue)
  | begin_transaction
  | commit

/-- Decimal digits, without leading zeros. -/
def decimal (n : Nat) : Text :=
  if n < 10 then [Nat.digitChar n] else decimal (n / 10) ++ [Nat.digitChar (n % 10)]

/-- Double every quote. -/
def escape : Text → Text
  | [] => []
  | c :: text => if c = '\'' then '\'' :: '\'' :: escape text else c :: escape text

def quote (text : Text) : Text := '\'' :: (escape text ++ ['\''])

/-- The items with commas between them. -/
def separated {α : Type} (print : α → List TokenForm) : List α → List TokenForm
  | [] => []
  | [a] => print a
  | a :: b :: l => print a ++ (TOKEN_PUNC_COMMA, [',']) :: separated print (b :: l)

def open_paren : TokenForm := (TOKEN_PUNC_OPEN_PAREN, ['('])

def close_paren : TokenForm := (TOKEN_PUNC_CLOSE_PAREN, [')'])

def end_of_line : TokenForm := (TOKEN_END_OF_LINE, [';'])

def print_name (name : Text) : List TokenForm := [(TOKEN_IDENTIFIER, name)]

def print_number (n : Nat) : List TokenForm := [(TOKEN_INT_LITERAL, decimal n)]

def SqlType.print : SqlType → List TokenForm
  | INT => [(TOKEN_TYPE_INT, "INT".toList)]
  | VARCHAR none => [(TOKEN_TYPE_VARCHAR, "VARCHAR".toList)]
  | VARCHAR (some n) =>
      (TOKEN_TYPE_VARCHAR, "VARCHAR".toList) :: open_paren :: (print_number n ++ [close_paren])

def print_column (column : Text × SqlType) : List TokenForm :=
  print_name column.1 ++ column.2.print

def SqlValue.print : SqlValue → List TokenForm
  | number n => print_number n
  | text t => [(TOKEN_VARCHAR_LITERAL, quote t)]

/-- The optional column list of an INSERT. -/
def print_columns : Option (NonemptyList Text) → List TokenForm
  | none => []
  | some columns => open_paren :: (separated print_name columns ++ [close_paren])

/-- The token form, ending in `;`. -/
def Sql.print : Sql → List TokenForm
  | select_all table =>
      (TOKEN_KEYWORD_SELECT, "SELECT".toList) :: (TOKEN_OP_STAR, ['*'])
        :: (TOKEN_KEYWORD_FROM, "FROM".toList) :: (TOKEN_IDENTIFIER, table) :: [end_of_line]
  | select columns table =>
      (TOKEN_KEYWORD_SELECT, "SELECT".toList) :: (separated print_name columns
        ++ (TOKEN_KEYWORD_FROM, "FROM".toList) :: (TOKEN_IDENTIFIER, table) :: [end_of_line])
  | create table columns =>
      (TOKEN_KEYWORD_CREATE, "CREATE".toList) :: (TOKEN_KEYWORD_TABLE, "TABLE".toList)
        :: (TOKEN_IDENTIFIER, table) :: open_paren
        :: (separated print_column columns ++ close_paren :: [end_of_line])
  | insert table columns values =>
      (TOKEN_KEYWORD_INSERT, "INSERT".toList) :: (TOKEN_KEYWORD_INTO, "INTO".toList)
        :: (TOKEN_IDENTIFIER, table)
        :: (print_columns columns
          ++ (TOKEN_KEYWORD_VALUES, "VALUES".toList) :: open_paren
            :: (separated SqlValue.print values ++ close_paren :: [end_of_line]))
  | begin_transaction =>
      (TOKEN_KEYWORD_BEGIN, "BEGIN".toList)
        :: (TOKEN_KEYWORD_TRANSACTION, "TRANSACTION".toList) :: [end_of_line]
  | commit => (TOKEN_KEYWORD_COMMIT, "COMMIT".toList) :: [end_of_line]

/-! ## §2. The statement it stands for. -/

def SqlValue.value : SqlValue → Value
  | number n => .VALUE_INTEGER (Int32.ofNat n)
  | text t => .VALUE_TEXT t

/-- The type and its length; a `VARCHAR` without one has length 255. -/
def SqlType.column_type : SqlType → ColumnType × Int32
  | INT => (.COLTYPE_INT, -1)
  | VARCHAR none => (.COLTYPE_VARCHAR, 255)
  | VARCHAR (some n) => (.COLTYPE_VARCHAR, Int32.ofNat n)

def column_def (column : Text × SqlType) : ColumnDef :=
  ⟨column.1, column.2.column_type.1, column.2.column_type.2⟩

def Sql.statement : Sql → Statement
  | select_all table => .select ⟨[['*']], table⟩
  | select columns table => .select ⟨columns, table⟩
  | create table columns => .create ⟨table, columns.1.map column_def⟩
  | insert table columns values =>
      .insert ⟨(columns.map Subtype.val).getD [], table, values.1.map SqlValue.value⟩
  | begin_transaction => .control ⟨.STMT_BEGIN⟩
  | commit => .control ⟨.STMT_COMMIT⟩

/-! ## §3. Literals. -/

theorem digitChar_lt_ten : ∀ {n : Nat}, n < 10 →
    (Nat.digitChar n).isDigit = true ∧ (Nat.digitChar n).toNat = '0'.toNat + n := by
  decide

theorem decimal_isDigit (n : Nat) : ∀ c ∈ decimal n, c.isDigit = true := by
  induction n using Nat.strong_induction_on with
  | _ n ih =>
      intro c hc
      rw [decimal] at hc
      split at hc
      next hn =>
        -- one digit
        rw [List.mem_singleton.mp hc]
        exact (digitChar_lt_ten hn).1
      next hn =>
        -- the digits in front, then the last one
        rcases List.mem_append.mp hc with hc | hc
        · exact ih _ (Nat.div_lt_self (by omega) (by decide)) c hc
        · rw [List.mem_singleton.mp hc]
          exact (digitChar_lt_ten (Nat.mod_lt n (by decide))).1

theorem digits_value_append (digits : Text) (c : Char) :
    digits_value (digits ++ [c]) = 10 * digits_value digits + (c.toNat - '0'.toNat) := by
  simp [digits_value]

/-- **Digits denote their number.** -/
theorem digits_value_decimal (n : Nat) : digits_value (decimal n) = n := by
  induction n using Nat.strong_induction_on with
  | _ n ih =>
      rw [decimal]
      split
      next hn =>
        have := (digitChar_lt_ten hn).2
        rw [← List.nil_append [_], digits_value_append, this]
        simp [digits_value]
      next hn =>
        have := (digitChar_lt_ten (Nat.mod_lt n (by decide : 0 < 10))).2
        rw [digits_value_append, ih _ (Nat.div_lt_self (by omega) (by decide)), this]
        omega

theorem isspace_of_isDigit {c : Char} (h : c.isDigit = true) : isspace c = false := by
  cases hspace : isspace c with
  | false => rfl
  | true =>
      simp only [isspace, Bool.or_eq_true, decide_eq_true_eq] at hspace
      rcases hspace with ((((rfl | rfl) | rfl) | rfl) | rfl) | rfl <;> exact absurd h (by decide)

/-- `atoi` of a lexeme made of digits. -/
theorem atoi_of_digits {digits : Text} (h : ∀ c ∈ digits, c.isDigit = true) :
    atoi digits = Int32.ofInt (clamp_long (digits_value digits)) := by
  -- digits are not skipped as space
  have hdrop : digits.dropWhile isspace = digits := by
    cases digits with
    | nil => rfl
    | cons c rest =>
        refine List.dropWhile_cons_of_neg ?_
        rw [isspace_of_isDigit (h c List.mem_cons_self)]
        exact Bool.false_ne_true
  have hall : digits.takeWhile Char.isDigit = digits := List.takeWhile_eq_self_iff.mpr h
  rw [atoi, strtol, hdrop]
  -- nor is the first one a sign
  split
  next => exact absurd (h _ List.mem_cons_self) (by decide)
  next => exact absurd (h _ List.mem_cons_self) (by decide)
  next => rw [hall]

/-- A number of an `int` is far inside a `long`. -/
theorem clamp_long_of_lt {n : Nat} (hn : n < 2 ^ 31) : clamp_long (n : Int) = n := by
  rw [clamp_long, if_neg (by rw [LONG_MIN]; omega), if_neg (by rw [LONG_MAX]; omega)]

theorem atoi_decimal (n : SqlNumber) : atoi (decimal n) = Int32.ofNat n := by
  rw [atoi_of_digits (decimal_isDigit n), digits_value_decimal, clamp_long_of_lt n.2]
  rfl

theorem escape_of_not_mem {text : Text} (h : '\'' ∉ text) : escape text = text := by
  induction text with
  | nil => rfl
  | cons c text ih =>
      rw [List.mem_cons, not_or] at h
      rw [escape, if_neg (Ne.symm h.1), ih h.2]

theorem unquote_quote (t : SqlText) : unquote (quote t) = t := by
  rw [quote, escape_of_not_mem t.2, unquote, List.drop_one, List.tail_cons]
  simp

/-! ## §4. Reading forms. -/

/-- The tokens from the cursor on have these forms. -/
def Reads (parser : Parser) (forms : List TokenForm) : Prop :=
  (parser.tokens.drop parser.pos).map Token.form = forms

section Reads

variable {parser : Parser} {type : TokenType} {lexeme : Text} {forms : List TokenForm}

/-- The token at the cursor, and the parser behind it. -/
theorem Reads.token (h : Reads parser ((type, lexeme) :: forms)) :
    ∃ token : Token, parser.tokens[parser.pos]? = some token ∧ token.type = type
      ∧ token.lexeme = lexeme ∧ Reads ⟨parser.tokens, parser.pos + 1⟩ forms := by
  unfold Reads at h
  obtain ⟨token, rest, hdrop, hform, hrest⟩ := List.map_eq_cons_iff.mp h
  -- the token is the first of the tokens that are left
  refine ⟨token, ?_, congrArg Prod.fst hform, congrArg Prod.snd hform, ?_⟩
  · rw [← List.head?_drop, hdrop]
    rfl
  · -- the tokens behind it are those one step on
    rw [Reads, ← List.drop_drop, hdrop]
    exact hrest

theorem Reads.require (h : Reads parser ((type, lexeme) :: forms)) :
    ∃ token parser', require parser type = some (token, parser') ∧ token.lexeme = lexeme
      ∧ Reads parser' forms := by
  obtain ⟨token, hget, htype, hlexeme, hrest⟩ := h.token
  refine ⟨token, _, ?_, hlexeme, hrest⟩
  simp only [Compiler.require, Compiler.expect, advance, hget, if_pos htype]

theorem Reads.match_token (h : Reads parser ((type, lexeme) :: forms)) :
    ∃ parser', match_token parser type = (true, parser') ∧ Reads parser' forms := by
  obtain ⟨token, hget, htype, -, hrest⟩ := h.token
  refine ⟨_, ?_, hrest⟩
  simp only [Compiler.match_token, peek, hget, if_pos htype]

theorem Reads.match_token_ne (h : Reads parser ((type, lexeme) :: forms)) {type' : TokenType}
    (hne : type ≠ type') : Compiler.match_token parser type' = (false, parser) := by
  obtain ⟨token, hget, htype, -, -⟩ := h.token
  simp only [Compiler.match_token, peek, hget, htype, if_neg hne]

end Reads

/-- `item` parses the forms `print` gives, before a comma or a token of type `stop`. -/
def Parses {α β : Type} (item : Parser → Option (β × Parser)) (print : α → List TokenForm)
    (value : α → β) (stop : TokenType) : Prop :=
  ∀ (a : α) (parser : Parser) (type : TokenType) (lexeme : Text) (forms : List TokenForm),
    type = TOKEN_PUNC_COMMA ∨ type = stop →
    Reads parser (print a ++ (type, lexeme) :: forms) →
    ∃ parser', item parser = some (value a, parser') ∧ Reads parser' ((type, lexeme) :: forms)

/-- What the routine reads is of every form it is sound for. -/
theorem Parses.form {α β : Type} {item : Parser → Option (β × Parser)}
    {print : α → List TokenForm} {value : α → β} {stop : TokenType}
    {Form : List Token → β → Prop} (h : Parses item print value stop) (hsound : Sound item Form)
    {a : α} {ts : List Token} (hts : ts.map Token.form = print a) : Form ts (value a) := by
  -- in front of a token that may follow
  have hreads : Reads ⟨ts ++ [⟨stop, [], 0⟩], 0⟩ (print a ++ [(stop, [])]) := by
    rw [Reads, List.drop_zero, List.map_append, hts]
    rfl
  obtain ⟨parser', hparse, hrest⟩ := h a _ stop [] [] (Or.inr rfl) hreads
  obtain ⟨us, hform, htook⟩ := hsound _ _ _ hparse
  have hone : (remaining parser').length = 1 := by
    rw [← List.length_map Token.form]
    exact congrArg List.length hrest
  have hfront : ts ++ [⟨stop, [], 0⟩] = us ++ remaining parser' := htook.front
  obtain ⟨rfl, -⟩ := List.append_inj' hfront hone.symm
  exact hform

/-- Printed items with commas between them: induction on the items. -/
theorem Parses.items {α β : Type} {item : Parser → Option (β × Parser)}
    {print : α → List TokenForm} {value : α → β} {stop : TokenType}
    {Form : List Token → β → Prop} (h : Parses item print value stop) (hsound : Sound item Form)
    (l : List α) : ∀ ts : List Token, l ≠ [] → ts.map Token.form = separated print l →
    Items Form ts (l.map value) := by
  induction l with
  | nil => intro _ hne; exact absurd rfl hne
  | cons a l ih =>
      intro ts _ hts
      cases l with
      | nil => exact .one (h.form hsound hts)
      | cons b l =>
          obtain ⟨front, others, rfl, hfront, hothers⟩ := List.map_eq_append_iff.mp hts
          obtain ⟨comma, rest, rfl, hcomma, hrest⟩ := List.map_eq_cons_iff.mp hothers
          exact .more ⟨comma, congrArg Prod.fst hcomma⟩ (h.form hsound hfront)
            (ih rest (List.cons_ne_nil b l) hrest)

/-! ## §5. Items. -/

theorem parses_name {stop : TokenType} : Parses parse_name print_name id stop := by
  intro name parser type lexeme forms _ hreads
  obtain ⟨token, p₁, hname, hlexeme, h₁⟩ := hreads.require
  refine ⟨p₁, ?_, h₁⟩
  simp only [parse_name, hname, hlexeme, id]

theorem parses_value {stop : TokenType} :
    Parses parse_value SqlValue.print SqlValue.value stop := by
  intro value parser type lexeme forms _ hreads
  cases value with
  | number n =>
      obtain ⟨token, hget, htype, hlexeme, h₁⟩ := Reads.token hreads
      refine ⟨_, ?_, h₁⟩
      simp only [parse_value, advance, hget, htype, hlexeme, SqlValue.value, atoi_decimal]
      rfl
  | text t =>
      obtain ⟨token, hget, htype, hlexeme, h₁⟩ := Reads.token hreads
      refine ⟨_, ?_, h₁⟩
      simp only [parse_value, advance, hget, htype, hlexeme, SqlValue.value, unquote_quote]
      rfl

/-- A type, before a token other than an opening parenthesis. -/
theorem parse_type_reads (t : SqlType) {parser : Parser} {type : TokenType} {lexeme : Text}
    {forms : List TokenForm} (hne : type ≠ TOKEN_PUNC_OPEN_PAREN)
    (hreads : Reads parser (t.print ++ (type, lexeme) :: forms)) :
    ∃ parser', parse_type parser = some (t.column_type, parser')
      ∧ Reads parser' ((type, lexeme) :: forms) := by
  cases t with
  | INT =>
      obtain ⟨token, hget, htype, -, h₁⟩ := Reads.token hreads
      refine ⟨_, ?_, h₁⟩
      simp only [parse_type, peek, advance, hget, htype]
      rfl
  | VARCHAR length =>
      cases length with
      | none =>
          obtain ⟨token, hget, htype, -, h₁⟩ := Reads.token hreads
          refine ⟨_, ?_, h₁⟩
          simp only [parse_type, peek, advance, hget, htype, h₁.match_token_ne hne]
          rfl
      | some n =>
          obtain ⟨token, hget, htype, -, h₁⟩ := Reads.token hreads
          obtain ⟨p₂, hopen, h₂⟩ := Reads.match_token h₁
          obtain ⟨number, p₃, hnumber, hlexeme, h₃⟩ := Reads.require h₂
          obtain ⟨close, p₄, hclose, -, h₄⟩ := Reads.require h₃
          refine ⟨p₄, ?_, h₄⟩
          simp only [parse_type, peek, advance, hget, htype, hopen, hnumber, hclose, hlexeme,
            Option.bind_eq_bind, Option.bind_some, atoi_decimal]
          rfl

theorem parses_column : Parses parse_column_def print_column column_def TOKEN_PUNC_CLOSE_PAREN := by
  intro column parser type lexeme forms hstop hreads
  -- what follows a column is a comma or the closing parenthesis
  have hne : type ≠ TOKEN_PUNC_OPEN_PAREN := by
    rcases hstop with rfl | rfl <;> decide
  obtain ⟨name, p₁, hname, hlexeme, h₁⟩ := Reads.require hreads
  obtain ⟨p₂, htype, h₂⟩ := parse_type_reads column.2 hne h₁
  refine ⟨p₂, ?_, h₂⟩
  simp only [parse_column_def, hname, htype, hlexeme, Option.bind_eq_bind, Option.bind_some]
  rfl

/-! ## §6. Statements. -/

/-- The first token of a printed list. -/
theorem forms_cons {ts : List Token} {type : TokenType} {lexeme : Text} {forms : List TokenForm}
    (h : ts.map Token.form = (type, lexeme) :: forms) :
    ∃ (token : TokenOf type) (rest : List Token), ts = token.1 :: rest ∧ token.1.lexeme = lexeme
      ∧ rest.map Token.form = forms := by
  obtain ⟨token, rest, hts, hform, hrest⟩ := List.map_eq_cons_iff.mp h
  exact ⟨⟨token, congrArg Prod.fst hform⟩, rest, hts, congrArg Prod.snd hform, hrest⟩

theorem columns_form {columns : Option (NonemptyList Text)} {ts : List Token}
    (h : ts.map Token.form = print_columns columns) :
    ColumnsForm ts ((columns.map Subtype.val).getD []) := by
  cases columns with
  | none =>
      obtain rfl := List.map_eq_nil_iff.mp h
      exact .omitted
  | some columns =>
      obtain ⟨open_, ts, rfl, -, h⟩ := forms_cons h
      obtain ⟨names, ts, rfl, hnames, h⟩ := List.map_eq_append_iff.mp h
      obtain ⟨close, ts, rfl, -, h⟩ := forms_cons h
      obtain rfl := List.map_eq_nil_iff.mp h
      have hprints : Parses parse_name print_name id TOKEN_PUNC_CLOSE_PAREN := parses_name
      have hitems := hprints.items parse_name_sound columns.1 names columns.2 hnames
      rw [List.map_id] at hitems
      exact .listed open_ close hitems

/-- An INSERT whose values are printed one by one. -/
def print_insert (table : Text) (columns : Option (NonemptyList Text)) (values : List TokenForm) :
    List TokenForm :=
  (TOKEN_KEYWORD_INSERT, "INSERT".toList) :: (TOKEN_KEYWORD_INTO, "INTO".toList)
    :: (TOKEN_IDENTIFIER, table)
    :: (print_columns columns
      ++ (TOKEN_KEYWORD_VALUES, "VALUES".toList) :: open_paren
        :: (values ++ close_paren :: [end_of_line]))

/-- An INSERT, whatever kind of values `parse_value` reads. -/
theorem insert_sentence {α : Type} {print : α → List TokenForm} {value : α → Value}
    (hvalue : Parses parse_value print value TOKEN_PUNC_CLOSE_PAREN) (table : Text)
    (columns : Option (NonemptyList Text)) (values : NonemptyList α) {ts : List Token}
    (h : ts.map Token.form = print_insert table columns (separated print values.1)) :
    Sentence ts (.insert ⟨(columns.map Subtype.val).getD [], table, values.1.map value⟩) := by
  obtain ⟨insert, ts, rfl, -, h⟩ := forms_cons h
  obtain ⟨into, ts, rfl, -, h⟩ := forms_cons h
  obtain ⟨name, ts, rfl, hname, h⟩ := forms_cons h
  obtain ⟨cs, ts, rfl, hcolumns, h⟩ := List.map_eq_append_iff.mp h
  obtain ⟨keyword, ts, rfl, -, h⟩ := forms_cons h
  obtain ⟨open_, ts, rfl, -, h⟩ := forms_cons h
  obtain ⟨vs, ts, rfl, hvalues, h⟩ := List.map_eq_append_iff.mp h
  obtain ⟨close, ts, rfl, -, h⟩ := forms_cons h
  obtain ⟨semicolon, ts, rfl, -, h⟩ := forms_cons h
  obtain rfl := List.map_eq_nil_iff.mp h
  subst hname
  have hbody := Body.insert insert into name keyword open_ close (columns_form hcolumns)
    (hvalue.items parse_value_sound values.1 vs values.2 hvalues)
  have hsentence := Sentence.ends semicolon hbody
  simpa using hsentence

/-- **What is printed is a sentence** that prints the statement. -/
theorem Sql.sentence (sql : Sql) {ts : List Token} (h : ts.map Token.form = sql.print) :
    Sentence ts sql.statement := by
  cases sql with
  | select_all table =>
      obtain ⟨select, ts, rfl, -, h⟩ := forms_cons h
      obtain ⟨star, ts, rfl, -, h⟩ := forms_cons h
      obtain ⟨from_, ts, rfl, -, h⟩ := forms_cons h
      obtain ⟨name, ts, rfl, hname, h⟩ := forms_cons h
      obtain ⟨semicolon, ts, rfl, -, h⟩ := forms_cons h
      obtain rfl := List.map_eq_nil_iff.mp h
      subst hname
      exact .ends semicolon (.select_all select star from_ name)
  | select columns table =>
      obtain ⟨select, ts, rfl, -, h⟩ := forms_cons h
      obtain ⟨names, ts, rfl, hnames, h⟩ := List.map_eq_append_iff.mp h
      obtain ⟨from_, ts, rfl, -, h⟩ := forms_cons h
      obtain ⟨name, ts, rfl, hname, h⟩ := forms_cons h
      obtain ⟨semicolon, ts, rfl, -, h⟩ := forms_cons h
      obtain rfl := List.map_eq_nil_iff.mp h
      subst hname
      have hprints : Parses parse_name print_name id TOKEN_KEYWORD_FROM := parses_name
      have hitems := hprints.items parse_name_sound columns.1 names columns.2 hnames
      have hsentence := Sentence.ends semicolon (Body.select select from_ name hitems)
      simpa [Sql.statement] using hsentence
  | create table columns =>
      obtain ⟨create, ts, rfl, -, h⟩ := forms_cons h
      obtain ⟨keyword, ts, rfl, -, h⟩ := forms_cons h
      obtain ⟨name, ts, rfl, hname, h⟩ := forms_cons h
      obtain ⟨open_, ts, rfl, -, h⟩ := forms_cons h
      obtain ⟨cs, ts, rfl, hcolumns, h⟩ := List.map_eq_append_iff.mp h
      obtain ⟨close, ts, rfl, -, h⟩ := forms_cons h
      obtain ⟨semicolon, ts, rfl, -, h⟩ := forms_cons h
      obtain rfl := List.map_eq_nil_iff.mp h
      subst hname
      have hitems := parses_column.items parse_column_def_sound columns.1 cs columns.2 hcolumns
      have hsentence := Sentence.ends semicolon (Body.create create keyword name open_ close hitems)
      simpa [Sql.statement] using hsentence
  | insert table columns values => exact insert_sentence parses_value table columns values h
  | begin_transaction =>
      obtain ⟨begin_, ts, rfl, -, h⟩ := forms_cons h
      obtain ⟨transaction, ts, rfl, -, h⟩ := forms_cons h
      obtain ⟨semicolon, ts, rfl, -, h⟩ := forms_cons h
      obtain rfl := List.map_eq_nil_iff.mp h
      exact .ends semicolon (.begin_transaction begin_ transaction)
  | commit =>
      obtain ⟨commit, ts, rfl, -, h⟩ := forms_cons h
      obtain ⟨semicolon, ts, rfl, -, h⟩ := forms_cons h
      obtain rfl := List.map_eq_nil_iff.mp h
      exact .ends semicolon (.commit commit)

/-- **Parsing undoes printing**, whatever the line numbers are and whatever follows. -/
theorem parse_print (sql : Sql) (tokens rest : List Token)
    (h : tokens.map Token.form = sql.print) :
    parse_tokens_with_type (tokens ++ rest) = some sql.statement :=
  (sql.sentence h).accepted rest

/-- `INSERT INTO t VALUES (7, 'x');` on one line, before a stray `;`. -/
theorem parse_print_insert :
    parse_tokens_with_type
        ((Sql.print (.insert ['t'] none ⟨[.number ⟨7, by decide⟩, .text ⟨['x'], by decide⟩],
            by simp⟩)).map (fun form => ⟨form.1, form.2, 1⟩) ++ [⟨TOKEN_END_OF_LINE, [';'], 1⟩])
      = some (.insert ⟨[], ['t'], [.VALUE_INTEGER 7, .VALUE_TEXT ['x']]⟩) :=
  parse_print (.insert ['t'] none ⟨[.number ⟨7, by decide⟩, .text ⟨['x'], by decide⟩], by simp⟩)
    _ _ (by rw [List.map_map]; exact List.map_id _)

end PreSeQL.Compiler
