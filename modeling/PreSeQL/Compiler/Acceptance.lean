/-
  PreSeQL.Compiler.Acceptance — every sentence is accepted.

  A routine is complete when it passes the tokens of its form in front of a token that
  may follow, and returns what they print.

    • `parse_statement_complete` — the parser passes a sentence and returns its statement,
    • `insert_accepted_iff` — the accepted INSERTs are the sentences a list starts with.
-/
import PreSeQL.Compiler.Grammar

namespace PreSeQL.Compiler

open TokenType

/-! ## §1. Tokens ahead. -/

theorem require_complete {parser : Parser} {type : TokenType} (token : TokenOf type)
    {rest : List Token} (h : remaining parser = token.1 :: rest) :
    ∃ parser', require parser type = some (token.1, parser') ∧ remaining parser' = rest
      ∧ Took parser [token.1] parser' := by
  obtain ⟨hget, htook, hrest⟩ := remaining_cons h
  refine ⟨_, ?_, hrest, htook⟩
  simp only [require, expect, advance, hget, if_pos token.2]

theorem expect_complete {parser : Parser} {type : TokenType} (token : TokenOf type)
    {rest : List Token} (h : remaining parser = token.1 :: rest) :
    ∃ parser', expect parser type = (some token.1, parser') ∧ remaining parser' = rest
      ∧ Took parser [token.1] parser' := by
  obtain ⟨hget, htook, hrest⟩ := remaining_cons h
  refine ⟨_, ?_, hrest, htook⟩
  simp only [expect, advance, hget, if_pos token.2]

theorem match_token_complete {parser : Parser} {type : TokenType} (token : TokenOf type)
    {rest : List Token} (h : remaining parser = token.1 :: rest) :
    ∃ parser', match_token parser type = (true, parser') ∧ remaining parser' = rest
      ∧ Took parser [token.1] parser' := by
  obtain ⟨hget, htook, hrest⟩ := remaining_cons h
  refine ⟨_, ?_, hrest, htook⟩
  simp only [match_token, peek, hget, if_pos token.2]

theorem match_token_other (type : TokenType) {parser : Parser} {next : Token}
    {rest : List Token} (h : remaining parser = next :: rest) (hne : next.type ≠ type) :
    match_token parser type = (false, parser) := by
  obtain ⟨hget, -, -⟩ := remaining_cons h
  simp only [match_token, peek, hget, if_neg hne]

/-! ## §2. Every token list of a form is passed. -/

/-- The item parser returns what the tokens ahead print, when a token of these types follows. -/
def Complete {α : Type} (item : Parser → Option (α × Parser)) (Form : List Token → α → Prop)
    (follows : TokenType → Prop) : Prop :=
  ∀ ts a, Form ts a → ∀ (parser : Parser) (next : Token) (rest : List Token),
    follows next.type → remaining parser = ts ++ next :: rest →
      ∃ parser', item parser = some (a, parser') ∧ remaining parser' = next :: rest
        ∧ Took parser ts parser'

theorem Items.length_le {α : Type} {Form : List Token → α → Prop}
    (hne : ∀ ts a, Form ts a → ts ≠ []) {ts : List Token} {as : List α}
    (h : Items Form ts as) : as.length ≤ ts.length := by
  induction h with
  | one hform => exact List.length_pos_iff.mpr (hne _ _ hform)
  | more comma hform _ ih =>
      rw [List.length_append, List.length_cons, List.length_cons]
      omega

/-- The comma loop, with enough rounds: induction on the items. -/
theorem Complete.comma_loop {α : Type} {item : Parser → Option (α × Parser)}
    {Form : List Token → α → Prop} {stop : TokenType} (hstop : stop ≠ TOKEN_PUNC_COMMA)
    (hitem : Complete item Form fun type => type = TOKEN_PUNC_COMMA ∨ type = stop)
    {ts : List Token} {as : List α} (h : Items Form ts as) :
    ∀ (fuel : Nat) (parser : Parser) (next : Token) (rest : List Token), as.length ≤ fuel →
      next.type = stop → remaining parser = ts ++ next :: rest →
        ∃ parser', Compiler.comma_loop item fuel parser = some (as, parser')
          ∧ remaining parser' = next :: rest ∧ Took parser ts parser' := by
  induction h with
  | one hform =>
      intro fuel parser next rest hfuel hnext hahead
      obtain ⟨p₁, hparse, h₁, htook⟩ :=
        hitem _ _ hform parser next rest (Or.inr hnext) hahead
      have hlast := match_token_other TOKEN_PUNC_COMMA h₁ (hnext ▸ hstop)
      cases fuel with
      | zero => cases hfuel
      | succ fuel =>
          refine ⟨p₁, ?_, h₁, htook⟩
          simp only [Compiler.comma_loop, hparse, hlast]
  | @more ts us a as comma hform _ ih =>
      intro fuel parser next rest hfuel hnext hahead
      rw [List.append_assoc, List.cons_append] at hahead
      obtain ⟨p₁, hparse, h₁, htook₁⟩ :=
        hitem _ _ hform parser comma.1 _ (Or.inl comma.2) hahead
      obtain ⟨p₂, hcomma, h₂, htook₂⟩ := match_token_complete comma h₁
      cases fuel with
      | zero => cases hfuel
      | succ fuel =>
          obtain ⟨p₃, hloop, h₃, htook₃⟩ :=
            ih fuel p₂ next rest (Nat.le_of_succ_le_succ hfuel) hnext h₂
          refine ⟨p₃, ?_, h₃, htook₁.trans (htook₂.trans htook₃)⟩
          simp only [Compiler.comma_loop, hparse, hcomma, hloop]

theorem Complete.comma_list {α : Type} {item : Parser → Option (α × Parser)}
    {Form : List Token → α → Prop} (stop : TokenType) (hstop : stop ≠ TOKEN_PUNC_COMMA)
    (hne : ∀ ts a, Form ts a → ts ≠ [])
    (hitem : Complete item Form fun type => type = TOKEN_PUNC_COMMA ∨ type = stop) :
    Complete (Compiler.comma_list item) (Items Form) fun type => type = stop := by
  intro ts as h parser next rest hnext hahead
  apply Complete.comma_loop hstop hitem h _ _ _ _ _ hnext hahead
  have hlen : (remaining parser).length ≤ parser.tokens.length := by
    show (parser.tokens.drop parser.pos).length ≤ _
    rw [List.length_drop]
    exact Nat.sub_le _ _
  rw [hahead, List.length_append] at hlen
  exact Nat.le_trans (h.length_le hne) (Nat.le_trans (Nat.le_add_right _ _) hlen)

theorem NameForm.ne_nil {ts : List Token} {name : Text} (h : NameForm ts name) : ts ≠ [] := by
  cases h
  exact List.cons_ne_nil _ _

theorem ValueForm.ne_nil {ts : List Token} {value : Value} (h : ValueForm ts value) :
    ts ≠ [] := by
  cases h <;> exact List.cons_ne_nil _ _

theorem ColumnForm.ne_nil {ts : List Token} {column : ColumnDef} (h : ColumnForm ts column) :
    ts ≠ [] := by
  cases h
  exact List.cons_ne_nil _ _

theorem parse_name_complete {follows : TokenType → Prop} :
    Complete parse_name NameForm follows := by
  intro ts name hform parser next rest _ hahead
  cases hform with
  | identifier token =>
      obtain ⟨p, hname, h, htook⟩ := require_complete token hahead
      refine ⟨p, ?_, h, htook⟩
      simp only [parse_name, hname]

theorem parse_value_complete {follows : TokenType → Prop} :
    Complete parse_value ValueForm follows := by
  intro ts value hform parser next rest _ hahead
  cases hform with
  | text literal =>
      obtain ⟨hget, htook, hrest⟩ := remaining_cons hahead
      refine ⟨_, ?_, hrest, htook⟩
      simp only [parse_value, advance, hget, literal.2, if_true]
  | integer literal =>
      obtain ⟨hget, htook, hrest⟩ := remaining_cons hahead
      refine ⟨_, ?_, hrest, htook⟩
      simp only [parse_value, advance, hget, literal.2, reduceCtorEq, if_false, if_true]

/-- A type, in front of a token other than an opening parenthesis. -/
theorem parse_type_complete :
    Complete parse_type TypeForm fun type => type ≠ TOKEN_PUNC_OPEN_PAREN := by
  intro ts type hform parser next rest hnext hahead
  cases hform with
  | int token =>
      obtain ⟨hget, htook, hrest⟩ := remaining_cons hahead
      refine ⟨_, ?_, hrest, htook⟩
      simp only [parse_type, peek, advance, hget, token.2, if_true]
  | varchar token =>
      obtain ⟨hget, htook, hrest⟩ := remaining_cons hahead
      refine ⟨_, ?_, hrest, htook⟩
      simp only [parse_type, peek, advance, hget, token.2, match_token_other _ hrest hnext,
        reduceCtorEq, if_false, if_true]
  | varchar_length token open_ length close =>
      obtain ⟨hget, htook₁, h₁⟩ := remaining_cons hahead
      obtain ⟨p₂, hopen, h₂, htook₂⟩ := match_token_complete open_ h₁
      obtain ⟨p₃, hlength, h₃, htook₃⟩ := require_complete length h₂
      obtain ⟨p₄, hclose, h₄, htook₄⟩ := require_complete close h₃
      refine ⟨p₄, ?_, h₄, htook₁.trans (htook₂.trans (htook₃.trans htook₄))⟩
      simp only [parse_type, peek, advance, hget, token.2, hopen, hlength, hclose,
        Option.bind_eq_bind, Option.bind_some, reduceCtorEq, if_false, if_true]

theorem parse_column_def_complete : Complete parse_column_def ColumnForm
    fun type => type = TOKEN_PUNC_COMMA ∨ type = TOKEN_PUNC_CLOSE_PAREN := by
  intro ts column hform parser next rest hnext hahead
  have hother : next.type ≠ TOKEN_PUNC_OPEN_PAREN := by
    rcases hnext with h | h <;> rw [h] <;> decide
  cases hform with
  | column name htype =>
      obtain ⟨p₁, hname, h₁, htook₁⟩ := require_complete name hahead
      obtain ⟨p₂, htype, h₂, htook₂⟩ := parse_type_complete _ _ htype _ _ _ hother h₁
      refine ⟨p₂, ?_, h₂, htook₁.trans htook₂⟩
      simp only [parse_column_def, hname, htype, Option.bind_eq_bind, Option.bind_some]

/-- A column list, in front of `VALUES`. -/
theorem parse_columns_complete :
    Complete parse_columns ColumnsForm fun type => type = TOKEN_KEYWORD_VALUES := by
  intro ts columns hform parser next rest hnext hahead
  cases hform with
  | omitted =>
      have hopen := match_token_other TOKEN_PUNC_OPEN_PAREN hahead (by rw [hnext]; decide)
      refine ⟨parser, ?_, hahead, Took.refl parser⟩
      simp only [parse_columns, hopen]
  | listed open_ close hnames =>
      rw [List.cons_append, List.append_assoc, List.singleton_append] at hahead
      obtain ⟨p₁, hopen, h₁, htook₁⟩ := match_token_complete open_ hahead
      obtain ⟨p₂, hlist, h₂, htook₂⟩ :=
        parse_name_complete.comma_list TOKEN_PUNC_CLOSE_PAREN (by decide)
          (fun _ _ => NameForm.ne_nil) _ _ hnames _ _ _ close.2 h₁
      obtain ⟨p₃, hclose, h₃, htook₃⟩ := require_complete close h₂
      refine ⟨p₃, ?_, h₃, htook₁.trans (htook₂.trans htook₃)⟩
      simp only [parse_columns, hopen, hlist, hclose, Option.bind_eq_bind, Option.bind_some]

/-- A list of names starts with an identifier. -/
theorem Items.first_name {ts : List Token} {names : List Text} (h : Items NameForm ts names) :
    ∃ (name : TokenOf TOKEN_IDENTIFIER) (rest : List Token), ts = name.1 :: rest := by
  cases h with
  | one hname =>
      cases hname with
      | identifier name => exact ⟨name, [], rfl⟩
  | more comma hname _ =>
      cases hname with
      | identifier name => exact ⟨name, _, rfl⟩

/-! ## §3. Statements. -/

section Statements

variable {parser : Parser} {rest : List Token} (semicolon : TokenOf TOKEN_END_OF_LINE)

/-- The end of `parse_select`. -/
theorem select_table_complete (from_ : TokenOf TOKEN_KEYWORD_FROM)
    (table : TokenOf TOKEN_IDENTIFIER) (columns : List Text)
    (hahead : remaining parser = from_.1 :: table.1 :: semicolon.1 :: rest) :
    ∃ parser', ((require parser TOKEN_KEYWORD_FROM).bind fun from_ =>
        (require from_.2 TOKEN_IDENTIFIER).bind fun table =>
          some ((⟨columns, table.1.lexeme⟩ : SelectStatement),
            (expect table.2 TOKEN_END_OF_LINE).2)) = some (⟨columns, table.1.lexeme⟩, parser')
      ∧ Took parser [from_.1, table.1, semicolon.1] parser' := by
  obtain ⟨p₁, hfrom, h₁, htook₁⟩ := require_complete from_ hahead
  obtain ⟨p₂, htable, h₂, htook₂⟩ := require_complete table h₁
  obtain ⟨p₃, hend, -, htook₃⟩ := expect_complete semicolon h₂
  refine ⟨p₃, ?_, htook₁.trans (htook₂.trans htook₃)⟩
  simp only [hfrom, htable, hend, Option.bind_some]

theorem select_all_complete (select : TokenOf TOKEN_KEYWORD_SELECT) (star : TokenOf TOKEN_OP_STAR)
    (from_ : TokenOf TOKEN_KEYWORD_FROM) (table : TokenOf TOKEN_IDENTIFIER)
    (hahead : remaining parser
      = select.1 :: star.1 :: from_.1 :: table.1 :: semicolon.1 :: rest) :
    ∃ parser', parse_select parser = some (⟨[['*']], table.1.lexeme⟩, parser')
      ∧ Took parser [select.1, star.1, from_.1, table.1, semicolon.1] parser' := by
  obtain ⟨p₁, hselect, h₁, htook₁⟩ := require_complete select hahead
  obtain ⟨p₂, hstar, h₂, htook₂⟩ := match_token_complete star h₁
  obtain ⟨p₃, htable, htook₃⟩ := select_table_complete semicolon from_ table [['*']] h₂
  refine ⟨p₃, ?_, htook₁.trans (htook₂.trans htook₃)⟩
  simp only [parse_select, hselect, hstar, Option.bind_eq_bind, Option.bind_some]
  exact htable

theorem select_complete {ts : List Token} {columns : List Text}
    (select : TokenOf TOKEN_KEYWORD_SELECT) (from_ : TokenOf TOKEN_KEYWORD_FROM)
    (table : TokenOf TOKEN_IDENTIFIER) (hnames : Items NameForm ts columns)
    (hahead : remaining parser
      = select.1 :: (ts ++ from_.1 :: table.1 :: semicolon.1 :: rest)) :
    ∃ parser', parse_select parser = some (⟨columns, table.1.lexeme⟩, parser')
      ∧ Took parser (select.1 :: (ts ++ [from_.1, table.1, semicolon.1])) parser' := by
  obtain ⟨p₁, hselect, h₁, htook₁⟩ := require_complete select hahead
  have hstar : match_token p₁ TOKEN_OP_STAR = (false, p₁) := by
    obtain ⟨name, rest', rfl⟩ := hnames.first_name
    exact match_token_other _ h₁ (by rw [name.2]; decide)
  obtain ⟨p₂, hlist, h₂, htook₂⟩ :=
    parse_name_complete.comma_list TOKEN_KEYWORD_FROM (by decide)
      (fun _ _ => NameForm.ne_nil) _ _ hnames _ _ _ from_.2 h₁
  obtain ⟨p₃, htable, htook₃⟩ := select_table_complete semicolon from_ table columns h₂
  refine ⟨p₃, ?_, htook₁.trans (htook₂.trans htook₃)⟩
  simp only [parse_select, hselect, hstar, hlist, Option.bind_eq_bind, Option.bind_some]
  exact htable

theorem insert_complete {cs vs : List Token} {columns : List Text} {list : List Value}
    (insert : TokenOf TOKEN_KEYWORD_INSERT) (into : TokenOf TOKEN_KEYWORD_INTO)
    (table : TokenOf TOKEN_IDENTIFIER) (values : TokenOf TOKEN_KEYWORD_VALUES)
    (open_ : TokenOf TOKEN_PUNC_OPEN_PAREN) (close : TokenOf TOKEN_PUNC_CLOSE_PAREN)
    (hcolumns : ColumnsForm cs columns) (hvalues : Items ValueForm vs list)
    (hahead : remaining parser = insert.1 :: into.1 :: table.1
      :: (cs ++ values.1 :: open_.1 :: (vs ++ close.1 :: semicolon.1 :: rest))) :
    ∃ parser', parse_insert parser = some (⟨columns, table.1.lexeme, list⟩, parser')
      ∧ Took parser (insert.1 :: into.1 :: table.1
        :: (cs ++ values.1 :: open_.1 :: (vs ++ [close.1, semicolon.1]))) parser' := by
  obtain ⟨p₁, hinsert, h₁, htook₁⟩ := require_complete insert hahead
  obtain ⟨p₂, hinto, h₂, htook₂⟩ := require_complete into h₁
  obtain ⟨p₃, htable, h₃, htook₃⟩ := require_complete table h₂
  obtain ⟨p₄, hcs, h₄, htook₄⟩ := parse_columns_complete _ _ hcolumns _ _ _ values.2 h₃
  obtain ⟨p₅, hkeyword, h₅, htook₅⟩ := require_complete values h₄
  obtain ⟨p₆, hopen, h₆, htook₆⟩ := require_complete open_ h₅
  obtain ⟨p₇, hlist, h₇, htook₇⟩ :=
    parse_value_complete.comma_list TOKEN_PUNC_CLOSE_PAREN (by decide)
      (fun _ _ => ValueForm.ne_nil) _ _ hvalues _ _ _ close.2 h₆
  obtain ⟨p₈, hclose, h₈, htook₈⟩ := require_complete close h₇
  obtain ⟨p₉, hend, -, htook₉⟩ := require_complete semicolon h₈
  refine ⟨p₉, ?_, htook₁.trans (htook₂.trans (htook₃.trans (htook₄.trans (htook₅.trans
    (htook₆.trans (htook₇.trans (htook₈.trans htook₉)))))))⟩
  simp only [parse_insert, hinsert, hinto, htable, hcs, hkeyword, hopen, hlist, hclose, hend,
    Option.bind_eq_bind, Option.bind_some]

theorem create_complete {ts : List Token} {columns : List ColumnDef}
    (create : TokenOf TOKEN_KEYWORD_CREATE) (keyword : TokenOf TOKEN_KEYWORD_TABLE)
    (table : TokenOf TOKEN_IDENTIFIER) (open_ : TokenOf TOKEN_PUNC_OPEN_PAREN)
    (close : TokenOf TOKEN_PUNC_CLOSE_PAREN) (hcolumns : Items ColumnForm ts columns)
    (hahead : remaining parser = create.1 :: keyword.1 :: table.1 :: open_.1
      :: (ts ++ close.1 :: semicolon.1 :: rest)) :
    ∃ parser', parse_create parser = some (⟨table.1.lexeme, columns⟩, parser')
      ∧ Took parser (create.1 :: keyword.1 :: table.1 :: open_.1
        :: (ts ++ [close.1, semicolon.1])) parser' := by
  obtain ⟨p₁, hcreate, h₁, htook₁⟩ := require_complete create hahead
  obtain ⟨p₂, hkeyword, h₂, htook₂⟩ := require_complete keyword h₁
  obtain ⟨p₃, htable, h₃, htook₃⟩ := require_complete table h₂
  obtain ⟨p₄, hopen, h₄, htook₄⟩ := require_complete open_ h₃
  obtain ⟨p₅, hlist, h₅, htook₅⟩ :=
    parse_column_def_complete.comma_list TOKEN_PUNC_CLOSE_PAREN (by decide)
      (fun _ _ => ColumnForm.ne_nil) _ _ hcolumns _ _ _ close.2 h₄
  obtain ⟨p₆, hclose, h₆, htook₆⟩ := require_complete close h₅
  obtain ⟨p₇, hend, -, htook₇⟩ := require_complete semicolon h₆
  refine ⟨p₇, ?_, htook₁.trans (htook₂.trans (htook₃.trans (htook₄.trans (htook₅.trans
    (htook₆.trans htook₇)))))⟩
  simp only [parse_create, hcreate, hkeyword, htable, hopen, hlist, hclose, hend,
    Option.bind_eq_bind, Option.bind_some]

theorem begin_complete (begin_ : TokenOf TOKEN_KEYWORD_BEGIN)
    (transaction : TokenOf TOKEN_KEYWORD_TRANSACTION)
    (hahead : remaining parser = begin_.1 :: transaction.1 :: semicolon.1 :: rest) :
    ∃ parser', parse_begin parser = some (⟨.STMT_BEGIN⟩, parser')
      ∧ Took parser [begin_.1, transaction.1, semicolon.1] parser' := by
  obtain ⟨p₁, hbegin, h₁, htook₁⟩ := require_complete begin_ hahead
  obtain ⟨p₂, htransaction, h₂, htook₂⟩ := require_complete transaction h₁
  obtain ⟨p₃, hend, -, htook₃⟩ := require_complete semicolon h₂
  refine ⟨p₃, ?_, htook₁.trans (htook₂.trans htook₃)⟩
  simp only [parse_begin, hbegin, htransaction, hend, Option.bind_eq_bind, Option.bind_some]

theorem commit_complete (commit : TokenOf TOKEN_KEYWORD_COMMIT)
    (hahead : remaining parser = commit.1 :: semicolon.1 :: rest) :
    ∃ parser', parse_commit parser = some (⟨.STMT_COMMIT⟩, parser')
      ∧ Took parser [commit.1, semicolon.1] parser' := by
  obtain ⟨p₁, hcommit, h₁, htook₁⟩ := require_complete commit hahead
  obtain ⟨p₂, hend, -, htook₂⟩ := require_complete semicolon h₁
  refine ⟨p₂, ?_, htook₁.trans htook₂⟩
  simp only [parse_commit, hcommit, hend, Option.bind_eq_bind, Option.bind_some]

theorem Sentence.parse_insert {ts : List Token} {stmt : InsertStatement}
    (h : Sentence ts (.insert stmt)) (hahead : remaining parser = ts ++ rest) :
    ∃ parser', Compiler.parse_insert parser = some (stmt, parser') ∧ Took parser ts parser' := by
  cases h with
  | ends semicolon hbody =>
      cases hbody with
      | insert insert into table values open_ close hcs hvs =>
          simp only [List.cons_append, List.append_assoc, List.nil_append] at hahead ⊢
          exact insert_complete semicolon insert into table values open_ close hcs hvs hahead

/-- **Every sentence is accepted** as the statement it prints, and passed as a whole. -/
theorem parse_statement_complete {ts : List Token} {stmt : Statement} (h : Sentence ts stmt)
    (hahead : remaining parser = ts ++ rest) :
    ∃ parser', parse_statement parser = some (stmt, parser') ∧ Took parser ts parser' := by
  have hpeek : ∀ {token : Token} {rest' : List Token}, remaining parser = token :: rest' →
      peek parser = some token := fun h => (remaining_cons h).1
  cases h with
  | ends semicolon hbody =>
      cases hbody with
      | select_all select star from_ table =>
          obtain ⟨p, hparse, htook⟩ := select_all_complete semicolon select star from_ table hahead
          refine ⟨p, ?_, htook⟩
          simp only [parse_statement, hpeek hahead, select.2, hparse, if_true]
          rfl
      | select select from_ table hnames =>
          simp only [List.cons_append, List.append_assoc, List.nil_append] at hahead ⊢
          obtain ⟨p, hparse, htook⟩ := select_complete semicolon select from_ table hnames hahead
          refine ⟨p, ?_, htook⟩
          simp only [parse_statement, hpeek hahead, select.2, hparse, if_true]
          rfl
      | insert insert into table values open_ close hcs hvs =>
          have hsentence :=
            Sentence.ends semicolon (.insert insert into table values open_ close hcs hvs)
          obtain ⟨p, hparse, htook⟩ := hsentence.parse_insert hahead
          simp only [List.cons_append] at hahead
          refine ⟨p, ?_, htook⟩
          simp only [parse_statement, hpeek hahead, insert.2, hparse, reduceCtorEq, if_false,
            if_true]
          rfl
      | create create keyword table open_ close hcolumns =>
          simp only [List.cons_append, List.append_assoc, List.nil_append] at hahead ⊢
          obtain ⟨p, hparse, htook⟩ :=
            create_complete semicolon create keyword table open_ close hcolumns hahead
          refine ⟨p, ?_, htook⟩
          simp only [parse_statement, hpeek hahead, create.2, hparse, reduceCtorEq, if_false,
            if_true]
          rfl
      | begin_transaction begin_ transaction =>
          obtain ⟨p, hparse, htook⟩ := begin_complete semicolon begin_ transaction hahead
          refine ⟨p, ?_, htook⟩
          simp only [parse_statement, hpeek hahead, begin_.2, hparse, reduceCtorEq, if_false,
            if_true]
          rfl
      | commit commit =>
          obtain ⟨p, hparse, htook⟩ := commit_complete semicolon commit hahead
          refine ⟨p, ?_, htook⟩
          simp only [parse_statement, hpeek hahead, commit.2, hparse, reduceCtorEq, if_false,
            if_true]
          rfl

end Statements

/-- A list that starts with a sentence is accepted as the statement it prints. -/
theorem Sentence.accepted {ts : List Token} {stmt : Statement} (h : Sentence ts stmt)
    (rest : List Token) : parse_tokens_with_type (ts ++ rest) = some stmt := by
  obtain ⟨parser', hparse, -⟩ := parse_statement_complete h
    (show remaining ⟨ts ++ rest, 0⟩ = ts ++ rest from rfl)
  exact congrArg (Option.map Prod.fst) hparse

/-- **The accepted INSERTs** are those the list starts with. -/
theorem insert_accepted_iff {tokens : List Token} {stmt : InsertStatement} :
    parse_tokens_with_type tokens = some (.insert stmt)
      ↔ ∃ ts rest, tokens = ts ++ rest ∧ Sentence ts (.insert stmt) := by
  constructor
  · intro hparse
    obtain ⟨⟨stmt', p⟩, hstmt, hfst⟩ := Option.map_eq_some_iff.mp hparse
    rcases parse_statement_sound hstmt with ⟨ts, hsentence, htook⟩ | ⟨_, _, _, _, rfl, _⟩
    · obtain rfl : stmt' = .insert stmt := hfst
      exact ⟨ts, _, htook.front, hsentence⟩
    · cases hfst
  · intro h
    obtain ⟨ts, rest, rfl, hsentence⟩ := h
    exact hsentence.accepted rest

end PreSeQL.Compiler
