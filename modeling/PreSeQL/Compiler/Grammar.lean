/-
  PreSeQL.Compiler.Grammar — the grammar of statements, and what the parser accepts.

  `Sentence` is the grammar over tokens: it relates the tokens of a statement to the
  statement they print.  `Took` says which tokens a routine has passed, and every
  routine is sound: the tokens it passed are of its form.

    • `parse_statement_sound` — what is accepted is a sentence, up to the end of SELECT,
    • `accepted_sentence_iff` — which of the accepted lists start with a sentence.
-/
import PreSeQL.Compiler.Parser

namespace PreSeQL.Compiler

open TokenType

/-! ## §1. The grammar. -/

/-- A token of one type. -/
abbrev TokenOf (type : TokenType) := { token : Token // token.type = type }

/-- One item or more, with commas between them. -/
inductive Items {α : Type} (Form : List Token → α → Prop) : List Token → List α → Prop
  | one {ts : List Token} {a : α} : Form ts a → Items Form ts [a]
  | more {ts rest : List Token} {a : α} {as : List α} (comma : TokenOf TOKEN_PUNC_COMMA) :
      Form ts a → Items Form rest as → Items Form (ts ++ comma.1 :: rest) (a :: as)

inductive NameForm : List Token → Text → Prop
  | identifier (name : TokenOf TOKEN_IDENTIFIER) : NameForm [name.1] name.1.lexeme

inductive ValueForm : List Token → Value → Prop
  | text (literal : TokenOf TOKEN_VARCHAR_LITERAL) :
      ValueForm [literal.1] (.VALUE_TEXT (unquote literal.1.lexeme))
  | integer (literal : TokenOf TOKEN_INT_LITERAL) :
      ValueForm [literal.1] (.VALUE_INTEGER (atoi literal.1.lexeme))

/-- A type with its length: -1 for `INT`, 255 for a `VARCHAR` that gives none. -/
inductive TypeForm : List Token → ColumnType × Int32 → Prop
  | int (type : TokenOf TOKEN_TYPE_INT) : TypeForm [type.1] (.COLTYPE_INT, -1)
  | varchar (type : TokenOf TOKEN_TYPE_VARCHAR) : TypeForm [type.1] (.COLTYPE_VARCHAR, 255)
  | varchar_length (type : TokenOf TOKEN_TYPE_VARCHAR) (open_ : TokenOf TOKEN_PUNC_OPEN_PAREN)
      (length : TokenOf TOKEN_INT_LITERAL) (close : TokenOf TOKEN_PUNC_CLOSE_PAREN) :
      TypeForm [type.1, open_.1, length.1, close.1] (.COLTYPE_VARCHAR, atoi length.1.lexeme)

inductive ColumnForm : List Token → ColumnDef → Prop
  | column {ts : List Token} {type : ColumnType × Int32} (name : TokenOf TOKEN_IDENTIFIER) :
      TypeForm ts type → ColumnForm (name.1 :: ts) ⟨name.1.lexeme, type.1, type.2⟩

/-- The optional column list of an INSERT. -/
inductive ColumnsForm : List Token → List Text → Prop
  | omitted : ColumnsForm [] []
  | listed {ts : List Token} {columns : List Text} (open_ : TokenOf TOKEN_PUNC_OPEN_PAREN)
      (close : TokenOf TOKEN_PUNC_CLOSE_PAREN) :
      Items NameForm ts columns → ColumnsForm (open_.1 :: (ts ++ [close.1])) columns

/-- A statement in front of its `;`. -/
inductive Body : List Token → Statement → Prop
  | select_all (select : TokenOf TOKEN_KEYWORD_SELECT) (star : TokenOf TOKEN_OP_STAR)
      (from_ : TokenOf TOKEN_KEYWORD_FROM) (table : TokenOf TOKEN_IDENTIFIER) :
      Body [select.1, star.1, from_.1, table.1] (.select ⟨[['*']], table.1.lexeme⟩)
  | select {ts : List Token} {columns : List Text} (select : TokenOf TOKEN_KEYWORD_SELECT)
      (from_ : TokenOf TOKEN_KEYWORD_FROM) (table : TokenOf TOKEN_IDENTIFIER) :
      Items NameForm ts columns →
        Body (select.1 :: (ts ++ [from_.1, table.1])) (.select ⟨columns, table.1.lexeme⟩)
  | insert {cs vs : List Token} {columns : List Text} {list : List Value}
      (insert : TokenOf TOKEN_KEYWORD_INSERT) (into : TokenOf TOKEN_KEYWORD_INTO)
      (table : TokenOf TOKEN_IDENTIFIER) (values : TokenOf TOKEN_KEYWORD_VALUES)
      (open_ : TokenOf TOKEN_PUNC_OPEN_PAREN) (close : TokenOf TOKEN_PUNC_CLOSE_PAREN) :
      ColumnsForm cs columns → Items ValueForm vs list →
        Body (insert.1 :: into.1 :: table.1 :: (cs ++ values.1 :: open_.1 :: (vs ++ [close.1])))
          (.insert ⟨columns, table.1.lexeme, list⟩)
  | create {ts : List Token} {columns : List ColumnDef} (create : TokenOf TOKEN_KEYWORD_CREATE)
      (keyword : TokenOf TOKEN_KEYWORD_TABLE) (table : TokenOf TOKEN_IDENTIFIER)
      (open_ : TokenOf TOKEN_PUNC_OPEN_PAREN) (close : TokenOf TOKEN_PUNC_CLOSE_PAREN) :
      Items ColumnForm ts columns →
        Body (create.1 :: keyword.1 :: table.1 :: open_.1 :: (ts ++ [close.1]))
          (.create ⟨table.1.lexeme, columns⟩)
  | begin_transaction (begin_ : TokenOf TOKEN_KEYWORD_BEGIN)
      (transaction : TokenOf TOKEN_KEYWORD_TRANSACTION) :
      Body [begin_.1, transaction.1] (.control ⟨.STMT_BEGIN⟩)
  | commit (commit : TokenOf TOKEN_KEYWORD_COMMIT) : Body [commit.1] (.control ⟨.STMT_COMMIT⟩)

/-- The tokens of a statement with its `;`, and the statement they print. -/
inductive Sentence : List Token → Statement → Prop
  | ends {ts : List Token} {stmt : Statement} (semicolon : TokenOf TOKEN_END_OF_LINE) :
      Body ts stmt → Sentence (ts ++ [semicolon.1]) stmt

/-! ## §2. Tokens passed. -/

/-- The tokens from the cursor on. -/
def remaining (parser : Parser) : List Token := parser.tokens.drop parser.pos

/-- The routine went from one cursor to the other over these tokens. -/
structure Took (parser : Parser) (taken : List Token) (parser' : Parser) : Prop where
  tokens : parser'.tokens = parser.tokens
  pos : parser'.pos = parser.pos + taken.length
  front : remaining parser = taken ++ remaining parser'

section Took

variable {p₁ p₂ p₃ : Parser} {ts us : List Token}

theorem Took.refl (parser : Parser) : Took parser [] parser := ⟨rfl, rfl, rfl⟩

theorem Took.trans (h : Took p₁ ts p₂) (h' : Took p₂ us p₃) : Took p₁ (ts ++ us) p₃ := by
  constructor
  · rw [h'.tokens, h.tokens]
  · rw [h'.pos, h.pos, List.length_append, Nat.add_assoc]
  · rw [h.front, h'.front, List.append_assoc]

/-- What is left behind tokens that were ahead. -/
theorem Took.remaining (h : Took p₁ ts p₂) (hahead : remaining p₁ = ts ++ us) :
    remaining p₂ = us := by
  rw [h.front] at hahead
  exact List.append_cancel_left hahead

/-- From the first token on, the tokens passed are the front of the list. -/
theorem Took.take (h : Took ⟨ts, 0⟩ us p₂) : ts.take p₂.pos = us := by
  have hfront : ts = us ++ Compiler.remaining p₂ := h.front
  rw [h.pos, hfront, Nat.zero_add, List.take_left]

end Took

theorem remaining_cons {parser : Parser} {token : Token} {rest : List Token}
    (h : remaining parser = token :: rest) :
    parser.tokens[parser.pos]? = some token
      ∧ Took parser [token] { parser with pos := parser.pos + 1 }
      ∧ remaining { parser with pos := parser.pos + 1 } = rest := by
  have hrest : remaining { parser with pos := parser.pos + 1 } = rest := by
    show parser.tokens.drop (parser.pos + 1) = rest
    rw [← List.drop_drop, show parser.tokens.drop parser.pos = token :: rest from h]
    rfl
  refine ⟨?_, ⟨rfl, rfl, ?_⟩, hrest⟩
  · rw [← List.head?_drop, show parser.tokens.drop parser.pos = token :: rest from h]
    rfl
  · rw [h, hrest]
    rfl

theorem remaining_nil {parser : Parser} (h : remaining parser = []) :
    parser.tokens[parser.pos]? = none := by
  rw [← List.head?_drop, show parser.tokens.drop parser.pos = [] from h]
  rfl

theorem require_sound {parser parser' : Parser} {type : TokenType} {token : Token}
    (h : require parser type = some (token, parser')) :
    token.type = type ∧ Took parser [token] parser' := by
  cases hahead : remaining parser with
  | nil => simp [require, expect, advance, remaining_nil hahead] at h
  | cons next rest =>
      obtain ⟨hget, htook, -⟩ := remaining_cons hahead
      by_cases htype : next.type = type
      · simp only [require, expect, advance, hget, if_pos htype, Option.some.injEq,
          Prod.mk.injEq] at h
        obtain ⟨rfl, rfl⟩ := h
        exact ⟨htype, htook⟩
      · simp [require, expect, advance, hget, htype] at h

theorem match_token_sound {parser parser' : Parser} {type : TokenType} {found : Bool}
    (h : match_token parser type = (found, parser')) :
    (found = true ∧ ∃ token : TokenOf type, Took parser [token.1] parser')
      ∨ (found = false ∧ parser' = parser) := by
  cases hahead : remaining parser with
  | nil =>
      simp only [match_token, peek, remaining_nil hahead, Prod.mk.injEq] at h
      exact Or.inr ⟨h.1.symm, h.2.symm⟩
  | cons next rest =>
      obtain ⟨hget, htook, -⟩ := remaining_cons hahead
      by_cases htype : next.type = type
      · simp only [match_token, peek, hget, if_pos htype, Prod.mk.injEq] at h
        obtain ⟨rfl, rfl⟩ := h
        exact Or.inl ⟨rfl, ⟨next, htype⟩, htook⟩
      · simp only [match_token, peek, hget, if_neg htype, Prod.mk.injEq] at h
        exact Or.inr ⟨h.1.symm, h.2.symm⟩

/-! ## §3. What a routine passes is of its form. -/

def Sound {α : Type} (item : Parser → Option (α × Parser)) (Form : List Token → α → Prop) :
    Prop :=
  ∀ parser a parser', item parser = some (a, parser') →
    ∃ ts, Form ts a ∧ Took parser ts parser'

/-- The comma loop: induction on the rounds. -/
theorem Sound.comma_loop {α : Type} {item : Parser → Option (α × Parser)}
    {Form : List Token → α → Prop} (hitem : Sound item Form) (fuel : Nat) :
    Sound (Compiler.comma_loop item fuel) (Items Form) := by
  induction fuel with
  | zero => intro parser items parser' h; cases h
  | succ fuel ih =>
      intro parser items parser' h
      rw [Compiler.comma_loop] at h
      cases hfirst : item parser with
      | none => rw [hfirst] at h; cases h
      | some first =>
          obtain ⟨a, p₁⟩ := first
          obtain ⟨ts, hform, htook⟩ := hitem parser a p₁ hfirst
          simp only [hfirst] at h
          rcases hmatch : match_token p₁ TOKEN_PUNC_COMMA with ⟨found, p₂⟩
          simp only [hmatch] at h
          rcases match_token_sound hmatch with ⟨rfl, comma, hcomma⟩ | ⟨rfl, rfl⟩
          · -- a comma, and the other items
            cases hloop : Compiler.comma_loop item fuel p₂ with
            | none => simp [hloop] at h
            | some rest =>
                obtain ⟨as, p₃⟩ := rest
                simp only [hloop, Option.some.injEq, Prod.mk.injEq] at h
                obtain ⟨rfl, rfl⟩ := h
                obtain ⟨us, hrest, htook'⟩ := ih p₂ as p₃ hloop
                exact ⟨_, .more comma hform hrest, htook.trans (hcomma.trans htook')⟩
          · -- the last item
            simp only [Option.some.injEq, Prod.mk.injEq] at h
            obtain ⟨rfl, rfl⟩ := h
            exact ⟨ts, .one hform, htook⟩

theorem Sound.comma_list {α : Type} {item : Parser → Option (α × Parser)}
    {Form : List Token → α → Prop} (hitem : Sound item Form) :
    Sound (Compiler.comma_list item) (Items Form) :=
  fun parser => hitem.comma_loop parser.tokens.length parser

theorem parse_name_sound : Sound parse_name NameForm := by
  intro parser name parser' h
  cases hname : require parser TOKEN_IDENTIFIER with
  | none => simp [parse_name, hname] at h
  | some found =>
      simp only [parse_name, hname, Option.some.injEq, Prod.mk.injEq] at h
      obtain ⟨rfl, rfl⟩ := h
      obtain ⟨htype, htook⟩ := require_sound hname
      exact ⟨_, .identifier ⟨found.1, htype⟩, htook⟩

theorem parse_value_sound : Sound parse_value ValueForm := by
  intro parser value parser' h
  cases hahead : remaining parser with
  | nil => simp [parse_value, advance, remaining_nil hahead] at h
  | cons token rest =>
      obtain ⟨hget, htook, -⟩ := remaining_cons hahead
      simp only [parse_value, advance, hget] at h
      by_cases htext : token.type = TOKEN_VARCHAR_LITERAL
      · simp only [if_pos htext, Option.some.injEq, Prod.mk.injEq] at h
        obtain ⟨rfl, rfl⟩ := h
        exact ⟨_, .text ⟨token, htext⟩, htook⟩
      · by_cases hint : token.type = TOKEN_INT_LITERAL
        · simp only [if_neg htext, if_pos hint, Option.some.injEq, Prod.mk.injEq] at h
          obtain ⟨rfl, rfl⟩ := h
          exact ⟨_, .integer ⟨token, hint⟩, htook⟩
        · simp only [if_neg htext, if_neg hint, reduceCtorEq] at h

theorem parse_type_sound : Sound parse_type TypeForm := by
  intro parser type parser' h
  cases hahead : remaining parser with
  | nil => simp [parse_type, peek, remaining_nil hahead] at h
  | cons token rest =>
      obtain ⟨hget, htook, -⟩ := remaining_cons hahead
      simp only [parse_type, peek, advance, hget] at h
      by_cases hint : token.type = TOKEN_TYPE_INT
      · simp only [if_pos hint, Option.some.injEq, Prod.mk.injEq] at h
        obtain ⟨rfl, rfl⟩ := h
        exact ⟨_, .int ⟨token, hint⟩, htook⟩
      · by_cases hvarchar : token.type = TOKEN_TYPE_VARCHAR
        · simp only [if_neg hint, if_pos hvarchar] at h
          rcases hmatch : match_token { parser with pos := parser.pos + 1 }
            TOKEN_PUNC_OPEN_PAREN with ⟨found, p₁⟩
          simp only [hmatch] at h
          rcases match_token_sound hmatch with ⟨rfl, open_, hopen⟩ | ⟨rfl, rfl⟩
          · simp only [Option.bind_eq_bind, Option.bind_eq_some_iff] at h
            obtain ⟨⟨length, p₂⟩, hlength, ⟨close, p₃⟩, hclose, h⟩ := h
            simp only [Option.some.injEq, Prod.mk.injEq] at h
            obtain ⟨rfl, rfl⟩ := h
            obtain ⟨hlength, h₂⟩ := require_sound hlength
            obtain ⟨hclose, h₃⟩ := require_sound hclose
            exact ⟨_, .varchar_length ⟨token, hvarchar⟩ open_ ⟨length, hlength⟩ ⟨close, hclose⟩,
              htook.trans (hopen.trans (h₂.trans h₃))⟩
          · -- no length is given
            simp only [Option.some.injEq, Prod.mk.injEq] at h
            obtain ⟨rfl, rfl⟩ := h
            exact ⟨_, .varchar ⟨token, hvarchar⟩, htook⟩
        · simp only [if_neg hint, if_neg hvarchar, reduceCtorEq] at h

theorem parse_column_def_sound : Sound parse_column_def ColumnForm := by
  intro parser column parser' h
  simp only [parse_column_def, Option.bind_eq_bind, Option.bind_eq_some_iff] at h
  obtain ⟨⟨name, p₁⟩, hname, ⟨type, p₂⟩, htype, h⟩ := h
  simp only [Option.some.injEq, Prod.mk.injEq] at h
  obtain ⟨rfl, rfl⟩ := h
  obtain ⟨hname, h₁⟩ := require_sound hname
  obtain ⟨ts, hform, h₂⟩ := parse_type_sound _ _ _ htype
  exact ⟨_, .column ⟨name, hname⟩ hform, h₁.trans h₂⟩

theorem parse_columns_sound : Sound parse_columns ColumnsForm := by
  intro parser columns parser' h
  rcases hmatch : match_token parser TOKEN_PUNC_OPEN_PAREN with ⟨found, p₁⟩
  simp only [parse_columns, hmatch] at h
  rcases match_token_sound hmatch with ⟨rfl, open_, hopen⟩ | ⟨rfl, rfl⟩
  · simp only [Option.bind_eq_bind, Option.bind_eq_some_iff] at h
    obtain ⟨⟨names, p₂⟩, hlist, ⟨close, p₃⟩, hclose, h⟩ := h
    simp only [Option.some.injEq, Prod.mk.injEq] at h
    obtain ⟨rfl, rfl⟩ := h
    obtain ⟨ts, hnames, h₂⟩ := parse_name_sound.comma_list _ _ _ hlist
    obtain ⟨hclose, h₃⟩ := require_sound hclose
    exact ⟨_, .listed open_ ⟨close, hclose⟩ hnames, hopen.trans (h₂.trans h₃)⟩
  · simp only [Option.some.injEq, Prod.mk.injEq] at h
    obtain ⟨rfl, rfl⟩ := h
    exact ⟨[], .omitted, Took.refl _⟩

/-- The end of `parse_select`: behind the table it passes one token, whatever it is. -/
theorem select_table_sound {parser parser' : Parser} {columns : List Text}
    {stmt : SelectStatement}
    (h : ((require parser TOKEN_KEYWORD_FROM).bind fun from_ =>
      (require from_.2 TOKEN_IDENTIFIER).bind fun table =>
        some ((⟨columns, table.1.lexeme⟩ : SelectStatement),
          (expect table.2 TOKEN_END_OF_LINE).2)) = some (stmt, parser')) :
    ∃ (from_ : TokenOf TOKEN_KEYWORD_FROM) (table : TokenOf TOKEN_IDENTIFIER) (p : Parser),
      stmt = ⟨columns, table.1.lexeme⟩ ∧ Took parser [from_.1, table.1] p
        ∧ parser' = (expect p TOKEN_END_OF_LINE).2 := by
  simp only [Option.bind_eq_some_iff, Option.some.injEq, Prod.mk.injEq] at h
  obtain ⟨⟨from_, p₁⟩, hfrom, ⟨table, p₂⟩, htable, rfl, rfl⟩ := h
  obtain ⟨hfrom, h₁⟩ := require_sound hfrom
  obtain ⟨htable, h₂⟩ := require_sound htable
  exact ⟨⟨from_, hfrom⟩, ⟨table, htable⟩, p₂, rfl, h₁.trans h₂, rfl⟩

theorem parse_select_sound {parser parser' : Parser} {stmt : SelectStatement}
    (h : parse_select parser = some (stmt, parser')) :
    ∃ ts p, Body ts (.select stmt) ∧ Took parser ts p
      ∧ parser' = (expect p TOKEN_END_OF_LINE).2 := by
  simp only [parse_select, Option.bind_eq_bind] at h
  obtain ⟨⟨select, p₁⟩, hselect, h⟩ := Option.bind_eq_some_iff.mp h
  obtain ⟨htype, h₁⟩ := require_sound hselect
  rcases hmatch : match_token p₁ TOKEN_OP_STAR with ⟨found, p⟩
  simp only [hmatch] at h
  rcases match_token_sound hmatch with ⟨rfl, star, hstar⟩ | ⟨rfl, rfl⟩
  · obtain ⟨from_, table, p₄, rfl, h₂, rfl⟩ := select_table_sound h
    exact ⟨_, p₄, .select_all ⟨select, htype⟩ star from_ table, h₁.trans (hstar.trans h₂), rfl⟩
  · obtain ⟨⟨columns, p₂⟩, hcolumns, h⟩ := Option.bind_eq_some_iff.mp h
    obtain ⟨ts, hnames, h₂⟩ := parse_name_sound.comma_list _ _ _ hcolumns
    obtain ⟨from_, table, p₄, rfl, h₃, rfl⟩ := select_table_sound h
    exact ⟨_, p₄, .select ⟨select, htype⟩ from_ table hnames, h₁.trans (h₂.trans h₃), rfl⟩

/-- The forms of the other statements, with their `;`. -/
def SentenceOf {α : Type} (statement : α → Statement) (ts : List Token) (a : α) : Prop :=
  Sentence ts (statement a)

theorem parse_insert_sound : Sound parse_insert (SentenceOf .insert) := by
  intro parser stmt parser' h
  simp only [parse_insert, Option.bind_eq_bind, Option.bind_eq_some_iff] at h
  obtain ⟨⟨insert, p₁⟩, hinsert, ⟨into, p₂⟩, hinto, ⟨table, p₃⟩, htable, ⟨columns, p₄⟩, hcolumns,
    ⟨values, p₅⟩, hvalues, ⟨open_, p₆⟩, hopen, ⟨list, p₇⟩, hlist, ⟨close, p₈⟩, hclose,
    ⟨semicolon, p₉⟩, hend, h⟩ := h
  simp only [Option.some.injEq, Prod.mk.injEq] at h
  obtain ⟨rfl, rfl⟩ := h
  obtain ⟨hinsert, h₁⟩ := require_sound hinsert
  obtain ⟨hinto, h₂⟩ := require_sound hinto
  obtain ⟨htable, h₃⟩ := require_sound htable
  obtain ⟨cs, hcs, h₄⟩ := parse_columns_sound _ _ _ hcolumns
  obtain ⟨hvalues, h₅⟩ := require_sound hvalues
  obtain ⟨hopen, h₆⟩ := require_sound hopen
  obtain ⟨vs, hvs, h₇⟩ := parse_value_sound.comma_list _ _ _ hlist
  obtain ⟨hclose, h₈⟩ := require_sound hclose
  obtain ⟨hend, h₉⟩ := require_sound hend
  have hbody := Body.insert ⟨insert, hinsert⟩ ⟨into, hinto⟩ ⟨table, htable⟩ ⟨values, hvalues⟩
    ⟨open_, hopen⟩ ⟨close, hclose⟩ hcs hvs
  exact ⟨_, .ends ⟨semicolon, hend⟩ hbody,
    (h₁.trans (h₂.trans (h₃.trans (h₄.trans (h₅.trans (h₆.trans (h₇.trans h₈))))))).trans h₉⟩

theorem parse_create_sound : Sound parse_create (SentenceOf .create) := by
  intro parser stmt parser' h
  simp only [parse_create, Option.bind_eq_bind, Option.bind_eq_some_iff] at h
  obtain ⟨⟨create, p₁⟩, hcreate, ⟨keyword, p₂⟩, hkeyword, ⟨table, p₃⟩, htable, ⟨open_, p₄⟩, hopen,
    ⟨columns, p₅⟩, hlist, ⟨close, p₆⟩, hclose, ⟨semicolon, p₇⟩, hend, h⟩ := h
  simp only [Option.some.injEq, Prod.mk.injEq] at h
  obtain ⟨rfl, rfl⟩ := h
  obtain ⟨hcreate, h₁⟩ := require_sound hcreate
  obtain ⟨hkeyword, h₂⟩ := require_sound hkeyword
  obtain ⟨htable, h₃⟩ := require_sound htable
  obtain ⟨hopen, h₄⟩ := require_sound hopen
  obtain ⟨ts, hts, h₅⟩ := parse_column_def_sound.comma_list _ _ _ hlist
  obtain ⟨hclose, h₆⟩ := require_sound hclose
  obtain ⟨hend, h₇⟩ := require_sound hend
  have hbody := Body.create ⟨create, hcreate⟩ ⟨keyword, hkeyword⟩ ⟨table, htable⟩ ⟨open_, hopen⟩
    ⟨close, hclose⟩ hts
  exact ⟨_, .ends ⟨semicolon, hend⟩ hbody,
    (h₁.trans (h₂.trans (h₃.trans (h₄.trans (h₅.trans h₆))))).trans h₇⟩

theorem parse_begin_sound : Sound parse_begin (SentenceOf .control) := by
  intro parser stmt parser' h
  simp only [parse_begin, Option.bind_eq_bind, Option.bind_eq_some_iff] at h
  obtain ⟨⟨begin_, p₁⟩, hbegin, ⟨transaction, p₂⟩, htransaction, ⟨semicolon, p₃⟩, hend, h⟩ := h
  simp only [Option.some.injEq, Prod.mk.injEq] at h
  obtain ⟨rfl, rfl⟩ := h
  obtain ⟨hbegin, h₁⟩ := require_sound hbegin
  obtain ⟨htransaction, h₂⟩ := require_sound htransaction
  obtain ⟨hend, h₃⟩ := require_sound hend
  exact ⟨_, .ends ⟨semicolon, hend⟩
    (.begin_transaction ⟨begin_, hbegin⟩ ⟨transaction, htransaction⟩), (h₁.trans h₂).trans h₃⟩

theorem parse_commit_sound : Sound parse_commit (SentenceOf .control) := by
  intro parser stmt parser' h
  simp only [parse_commit, Option.bind_eq_bind, Option.bind_eq_some_iff] at h
  obtain ⟨⟨commit, p₁⟩, hcommit, ⟨semicolon, p₂⟩, hend, h⟩ := h
  simp only [Option.some.injEq, Prod.mk.injEq] at h
  obtain ⟨rfl, rfl⟩ := h
  obtain ⟨hcommit, h₁⟩ := require_sound hcommit
  obtain ⟨hend, h₂⟩ := require_sound hend
  exact ⟨_, .ends ⟨semicolon, hend⟩ (.commit ⟨commit, hcommit⟩), h₁.trans h₂⟩

/-- **What is accepted**: a sentence, or a SELECT with any token, or none, behind its table. -/
theorem parse_statement_sound {parser parser' : Parser} {stmt : Statement}
    (h : parse_statement parser = some (stmt, parser')) :
    (∃ ts, Sentence ts stmt ∧ Took parser ts parser')
    ∨ ∃ ts select p, Body ts (.select select) ∧ stmt = .select select ∧ Took parser ts p
      ∧ parser' = (expect p TOKEN_END_OF_LINE).2 := by
  cases hpeek : peek parser with
  | none => simp [parse_statement, hpeek] at h
  | some token =>
      simp only [parse_statement, hpeek] at h
      split at h
      next =>
        obtain ⟨⟨select, p⟩, hparse, heq⟩ := Option.map_eq_some_iff.mp h
        cases heq
        obtain ⟨ts, p₁, hbody, htook, hlast⟩ := parse_select_sound hparse
        exact Or.inr ⟨ts, select, p₁, hbody, rfl, htook, hlast⟩
      next =>
        left
        split at h
        next =>
          obtain ⟨⟨insert, p⟩, hparse, heq⟩ := Option.map_eq_some_iff.mp h
          cases heq
          exact parse_insert_sound _ _ _ hparse
        next =>
          split at h
          next =>
            obtain ⟨⟨create, p⟩, hparse, heq⟩ := Option.map_eq_some_iff.mp h
            cases heq
            exact parse_create_sound _ _ _ hparse
          next =>
            split at h
            next =>
              obtain ⟨⟨control, p⟩, hparse, heq⟩ := Option.map_eq_some_iff.mp h
              cases heq
              exact parse_begin_sound _ _ _ hparse
            next =>
              split at h
              next =>
                obtain ⟨⟨control, p⟩, hparse, heq⟩ := Option.map_eq_some_iff.mp h
                cases heq
                exact parse_commit_sound _ _ _ hparse
              next => cases h

/-! ## §4. Which accepted lists start with a sentence. -/

def other_than_from (token : Token) : Bool := token.type ≠ TOKEN_KEYWORD_FROM

/-- A list that starts with `SELECT` has a `;` behind the table, two tokens after its first
`FROM`. -/
def SelectEnded (tokens : List Token) : Prop :=
  tokens.head?.map Token.type = some TOKEN_KEYWORD_SELECT →
    (tokens.dropWhile other_than_from)[2]?.map Token.type = some TOKEN_END_OF_LINE

theorem other_than_from_iff {type : TokenType} (token : TokenOf type) :
    other_than_from token.1 = decide (type ≠ TOKEN_KEYWORD_FROM) := by
  rw [other_than_from, token.2]

theorem Items.names_type {ts : List Token} {names : List Text} (h : Items NameForm ts names) :
    ∀ token ∈ ts, other_than_from token = true := by
  have hname : ∀ {us : List Token} {name : Text}, NameForm us name →
      ∀ token ∈ us, other_than_from token = true := by
    intro us name hform token hmem
    cases hform with
    | identifier name =>
        rw [List.mem_singleton.mp hmem, other_than_from_iff]
        decide
  induction h with
  | one hform => exact hname hform
  | more comma hform _ ih =>
      intro token hmem
      rcases List.mem_append.mp hmem with hmem | hmem
      · exact hname hform token hmem
      · rcases List.mem_cons.mp hmem with rfl | hmem
        · rw [other_than_from_iff]
          decide
        · exact ih token hmem

/-- A SELECT ends in `FROM` and its table, and its first `FROM` is that one. -/
theorem Body.select_shape {ts : List Token} {stmt : SelectStatement}
    (h : Body ts (.select stmt)) :
    ∃ (select : TokenOf TOKEN_KEYWORD_SELECT) (list : List Token)
      (from_ : TokenOf TOKEN_KEYWORD_FROM) (table : TokenOf TOKEN_IDENTIFIER),
      ts = select.1 :: (list ++ [from_.1, table.1])
        ∧ ∀ token ∈ list, other_than_from token = true := by
  cases h with
  | select_all select star from_ table =>
      refine ⟨select, [star.1], from_, table, rfl, ?_⟩
      intro token hmem
      rw [List.mem_singleton.mp hmem, other_than_from_iff]
      decide
  | select select from_ table hnames =>
      exact ⟨select, _, from_, table, rfl, hnames.names_type⟩

theorem Sentence.last {ts : List Token} {stmt : Statement} (h : Sentence ts stmt) :
    ∃ (front : List Token) (semicolon : TokenOf TOKEN_END_OF_LINE), ts = front ++ [semicolon.1] := by
  cases h with
  | ends semicolon _ => exact ⟨_, semicolon, rfl⟩

/-- The table is no `;`, so a SELECT up to its table is not a sentence. -/
theorem Body.select_not_sentence {ts : List Token} {stmt : SelectStatement} {stmt' : Statement}
    (h : Body ts (.select stmt)) : ¬ Sentence ts stmt' := by
  obtain ⟨select, list, from_, table, rfl, -⟩ := h.select_shape
  intro hsentence
  obtain ⟨front, semicolon, heq⟩ := hsentence.last
  have htable : select.1 :: (list ++ [from_.1, table.1])
      = (select.1 :: (list ++ [from_.1])) ++ [table.1] := by simp
  obtain ⟨-, hlast⟩ := List.append_inj' (htable.symm.trans heq) rfl
  have htype := congrArg Token.type (List.cons_eq_cons.mp hlast).1
  rw [table.2, semicolon.2] at htype
  cases htype

/-- The token that decides is the one behind the table. -/
theorem selectEnded_iff {ts rest : List Token} {stmt : SelectStatement}
    (h : Body ts (.select stmt)) :
    SelectEnded (ts ++ rest) ↔ rest.head?.map Token.type = some TOKEN_END_OF_LINE := by
  obtain ⟨select, list, from_, table, rfl, hlist⟩ := h.select_shape
  have hdrop : (select.1 :: (list ++ [from_.1, table.1]) ++ rest).dropWhile other_than_from
      = from_.1 :: table.1 :: rest := by
    have hfirst : other_than_from select.1 = true := by
      rw [other_than_from_iff]
      decide
    have hlast : ¬ other_than_from from_.1 = true := by
      rw [other_than_from_iff]
      decide
    rw [List.cons_append, List.append_assoc, List.dropWhile_cons_of_pos hfirst,
      List.dropWhile_append_of_pos hlist, List.cons_append, List.dropWhile_cons_of_neg hlast]
    rfl
  unfold SelectEnded
  rw [hdrop]
  constructor
  · intro hended
    rw [← hended (congrArg some select.2)]
    cases rest <;> rfl
  · intro hhead _
    rw [← hhead]
    cases rest <;> rfl

/-- A sentence has its `;`. -/
theorem Sentence.selectEnded {ts rest : List Token} {stmt : Statement} (h : Sentence ts stmt) :
    SelectEnded (ts ++ rest) := by
  have hother : ∀ {type : TokenType} (token : TokenOf type) {us : List Token},
      type ≠ TOKEN_KEYWORD_SELECT → SelectEnded (token.1 :: us) := by
    intro type token us hne hfirst
    exact absurd (token.2.symm.trans (Option.some.inj hfirst)) hne
  cases h with
  | ends semicolon hbody =>
      rw [List.append_assoc]
      cases hbody with
      | select_all select star from_ table =>
          rw [selectEnded_iff (.select_all select star from_ table)]
          exact congrArg some semicolon.2
      | select select from_ table hnames =>
          rw [selectEnded_iff (.select select from_ table hnames)]
          exact congrArg some semicolon.2
      | insert insert _ _ _ _ _ _ _ => exact hother insert (by decide)
      | create create _ _ _ _ _ => exact hother create (by decide)
      | begin_transaction begin_ _ => exact hother begin_ (by decide)
      | commit commit => exact hother commit (by decide)

/-- The token behind the table is passed, if there is one. -/
theorem expect_take (type : TokenType) {tokens ts : List Token} {p : Parser}
    (h : Took ⟨tokens, 0⟩ ts p) :
    tokens.take (expect p type).2.pos = ts ++ (remaining p).take 1 := by
  have hfront : tokens = ts ++ remaining p := h.front
  have hpos : p.pos = ts.length := by rw [h.pos, Nat.zero_add]
  cases hahead : remaining p with
  | nil =>
      have hstays : (expect p type).2 = p := by
        simp only [expect, advance, remaining_nil hahead]
      rw [hstays, hpos, hfront, List.take_left, List.take_nil, List.append_nil]
  | cons next rest =>
      have hmoves : (expect p type).2.pos = p.pos + 1 := by
        simp only [expect, advance, (remaining_cons hahead).1]
      rw [hmoves, hpos, hfront, List.take_length_add_append, hahead]

/-- **The parser accepts sentences**, and a SELECT without its `;`: the tokens passed for a
statement are a sentence that prints it exactly when the list is not such a SELECT. -/
theorem accepted_sentence_iff {tokens : List Token} {stmt : Statement}
    (h : parse_tokens_with_type tokens = some stmt) :
    ∃ parser', parse_statement ⟨tokens, 0⟩ = some (stmt, parser')
      ∧ (Sentence (tokens.take parser'.pos) stmt ↔ SelectEnded tokens) := by
  obtain ⟨⟨stmt', parser'⟩, hparse, rfl⟩ := Option.map_eq_some_iff.mp h
  refine ⟨parser', hparse, ?_⟩
  rcases parse_statement_sound hparse with ⟨ts, hsentence, htook⟩ | ⟨ts, select, p, hbody, rfl,
    htook, rfl⟩
  · have hfront : tokens = ts ++ remaining parser' := htook.front
    rw [htook.take]
    exact iff_of_true hsentence (hfront ▸ hsentence.selectEnded)
  · have hfront : tokens = ts ++ remaining p := htook.front
    rw [expect_take _ htook, hfront, selectEnded_iff hbody]
    constructor
    · intro hsentence
      -- the last token of the sentence is not the table
      cases hahead : remaining p with
      | nil =>
          rw [hahead, List.take_nil, List.append_nil] at hsentence
          exact absurd hsentence hbody.select_not_sentence
      | cons next rest =>
          rw [hahead] at hsentence
          obtain ⟨front, semicolon, heq⟩ := hsentence.last
          obtain ⟨-, hlast⟩ := List.append_inj' heq rfl
          rw [List.head?_cons, Option.map_some, (List.cons_eq_cons.mp hlast).1, semicolon.2]
    · intro hend
      cases hahead : remaining p with
      | nil => rw [hahead] at hend; cases hend
      | cons next rest =>
          rw [hahead] at hend
          exact .ends ⟨next, Option.some.inj hend⟩ hbody

/-- `SELECT * FROM t` and what follows it. -/
def select_from (rest : List Token) : List Token :=
  ⟨TOKEN_KEYWORD_SELECT, "SELECT".toList, 1⟩ :: ⟨TOKEN_OP_STAR, ['*'], 1⟩
    :: ⟨TOKEN_KEYWORD_FROM, "FROM".toList, 1⟩ :: ⟨TOKEN_IDENTIFIER, ['t'], 1⟩ :: rest

theorem accepted_sentence_iff_select :
    ∃ parser', parse_statement ⟨select_from [⟨TOKEN_END_OF_LINE, [';'], 1⟩], 0⟩
        = some (.select ⟨[['*']], ['t']⟩, parser')
      ∧ (Sentence ((select_from [⟨TOKEN_END_OF_LINE, [';'], 1⟩]).take parser'.pos)
          (.select ⟨[['*']], ['t']⟩)
        ↔ SelectEnded (select_from [⟨TOKEN_END_OF_LINE, [';'], 1⟩])) :=
  accepted_sentence_iff rfl

/-- In `SELECT * FROM t u;` the name `u` is accepted in the place of the `;`. -/
theorem unfinished_select_accepted :
    ¬ ∀ tokens stmt parser', parse_statement ⟨tokens, 0⟩ = some (stmt, parser') →
      Sentence (tokens.take parser'.pos) stmt := by
  intro hclaim
  have hparse : ∃ parser', parser'.pos = 5 ∧ parse_statement
      ⟨select_from [⟨TOKEN_IDENTIFIER, ['u'], 1⟩, ⟨TOKEN_END_OF_LINE, [';'], 1⟩], 0⟩
        = some (.select ⟨[['*']], ['t']⟩, parser') := ⟨⟨_, 5⟩, rfl, rfl⟩
  obtain ⟨parser', hpos, hparse⟩ := hparse
  obtain ⟨front, semicolon, heq⟩ := (hclaim _ _ _ hparse).last
  have hlast : select_from [] ++ [⟨TOKEN_IDENTIFIER, ['u'], 1⟩] = front ++ [semicolon.1] := by
    rw [← heq, hpos]
    rfl
  have htype := congrArg Token.type (List.cons_eq_cons.mp (List.append_inj' hlast rfl).2).1
  rw [semicolon.2] at htype
  cases htype

end PreSeQL.Compiler
