/-
  PreSeQL.Compiler.Owned — what tokens, arrays and programs own.

  Each function of `Blocks.lean` against the one of the same name on values: the values
  agree, and the blocks in use afterwards are those that the result owns.

    • `tokenize_spec` — the tokens of a text,
    • `comma_list_spec` — the array of a list with commas, also where the list is cut off,
    • `generate_code_spec` — programs.
-/
import Mathlib.Tactic.Abel
import PreSeQL.Compiler.Blocks

namespace PreSeQL.Compiler.Blocks

open PreSeQL.Lib PreSeQL.Lib.Alloc
open PreSeQL.Compiler TokenType

/-! ## §1. Strings and arrays. -/

theorem strdup_spec (text : Text) (base : Multiset Cell) :
    Spec base (strdup text) fun s left => left = s.own + base ∧ s.text = text := by
  refine (Spec.malloc base _).bind ?_
  rintro addr _ rfl
  exact Spec.pure ⟨rfl, rfl⟩

/-- The sizes of an array and of the blocks of its elements. -/
def array_sizes {γ : Type} (size : Nat) (sizes : γ → Multiset Nat) (elems : List γ) :
    Multiset Nat :=
  (if elems.isEmpty then 0 else {size * elems.length}) + (elems.map sizes).sum

namespace CArray

variable {α : Type} {size : Nat} {cells : α → Multiset Cell}

@[simp] theorem own_null : (null : CArray α).own size cells = 0 := by simp [own, null]

theorem realloc_spec (a : CArray α) (n : Nat) (base : Multiset Cell) :
    Spec (a.own size cells + base) (realloc a.addr n) fun addr left =>
      left = {⟨addr, n⟩} + ((a.elems.map cells).sum + base) := by
  unfold own
  cases a.addr with
  | none =>
      rw [Option.elim_none, zero_add]
      exact Spec.realloc_null n _
  | some addr =>
      rw [Option.elim_some, add_assoc]
      exact Spec.realloc ⟨addr, _⟩ n _

/-- An element that owns its cells is put behind the others. -/
theorem push_spec {a : CArray α} {elem : Alloc α} {own₀ : Multiset Cell} {P : α → Prop}
    (helem : ∀ base, Spec (own₀ + base) elem fun x left => left = cells x + base ∧ P x)
    (base : Multiset Cell) :
    Spec (own₀ + (a.own size cells + base)) (a.push size elem) fun a' left =>
      left = a'.own size cells + base ∧ ∃ x, P x ∧ a'.elems = a.elems ++ [x] := by
  refine (Spec.of_eq (by abel) (realloc_spec a _ (own₀ + base))).bind ?_
  rintro addr _ rfl
  refine (Spec.of_eq (by abel) (helem ({⟨addr, size * (a.elems.length + 1)⟩}
    + ((a.elems.map cells).sum + base)))).bind ?_
  rintro x _ ⟨rfl, hx⟩
  refine Spec.pure ⟨?_, x, hx, rfl⟩
  simp only [own, Option.elim_some, List.map_append, List.sum_append, List.map_cons, List.map_nil,
    List.sum_cons, List.sum_nil, List.length_append, List.length_singleton]
  abel

/-- An element that has been built before. -/
theorem push_return_spec (a : CArray α) (x : α) (base : Multiset Cell) :
    Spec (cells x + (a.own size cells + base)) (a.push size (return x)) fun a' left =>
      left = a'.own size cells + base ∧ a'.elems = a.elems ++ [x] := by
  have hpush := @push_spec _ size cells a (return x) (cells x) (· = x)
    (fun _ => Spec.pure ⟨rfl, rfl⟩) base
  refine hpush.mono ?_
  rintro a' _ ⟨rfl, _, rfl, helems⟩
  exact ⟨rfl, helems⟩

/-- The elements are given back, then the array. -/
theorem free_spec {a : CArray α} {body : α → Alloc PUnit}
    (hbody : ∀ x base, Spec (cells x + base) (body x) fun _ left => left = base)
    (base : Multiset Cell) :
    Spec (a.own size cells + base) (do a.elems.forM body; free a.addr)
      fun _ left => left = base := by
  refine (Spec.of_eq (by unfold own; abel) (Spec.forM_free hbody a.elems
    (a.addr.elim 0 (fun addr => {⟨addr, size * a.elems.length⟩}) + base))).bind ?_
  rintro _ _ rfl
  cases a.addr with
  | none =>
      rw [Option.elim_none, zero_add]
      exact Spec.free_null base
  | some addr => exact Spec.free ⟨addr, _⟩ base

theorem own_sizes {γ : Type} {value : α → γ} {sizes : γ → Multiset Nat}
    (h : ∀ x, (cells x).map Cell.size = sizes (value x))
    (a : CArray α) :
    (a.own size cells).map Cell.size = array_sizes size sizes (a.elems.map value) := by
  have hsum : ∀ elems : List α,
      (elems.map cells).sum.map Cell.size = ((elems.map value).map sizes).sum := by
    intro elems
    induction elems with
    | nil => rfl
    | cons x elems ih => simp only [List.map_cons, List.sum_cons, Multiset.map_add, ih, h]
  rw [own, array_sizes, Multiset.map_add, hsum, List.length_map]
  congr 1
  have hnull := a.null_iff
  cases haddr : a.addr with
  | none => simp [hnull.mp haddr]
  | some addr =>
      have hne : a.elems ≠ [] := fun hnil => absurd (hnull.mpr hnil) (by simp [haddr])
      simp [hne]

end CArray

theorem free_strings_spec (a : CArray CString) (base : Multiset Cell) :
    Spec (a.own POINTER_SIZE CString.own + base) (free_strings a) fun _ left => left = base :=
  CArray.free_spec (fun s own => Spec.free ⟨s.addr, text_size s.text⟩ own) base

/-! ## §2. Tokens. -/

theorem create_token_spec (type : TokenType) (lexeme : Text) (line_number : Nat)
    (base : Multiset Cell) :
    Spec base (create_token type lexeme line_number) fun t left =>
      left = t.own + base ∧ t.value = Compiler.create_token type lexeme line_number := by
  refine (Spec.malloc base _).bind ?_
  rintro addr _ rfl
  refine (strdup_spec lexeme _).bind ?_
  rintro s _ ⟨rfl, rfl⟩
  refine Spec.pure ⟨?_, rfl⟩
  unfold TokenPtr.own
  abel

theorem free_tokens_spec (token_stream : CArray TokenPtr) (base : Multiset Cell) :
    Spec (token_stream.own POINTER_SIZE TokenPtr.own + base) (free_tokens token_stream)
      fun _ left => left = base := by
  refine CArray.free_spec (fun t own => ?_) base
  refine (Spec.of_eq (by unfold TokenPtr.own CString.own; abel)
    (Spec.free ⟨t.lexeme.addr, text_size t.lexeme.text⟩ ({⟨t.addr, TOKEN_SIZE⟩} + own))).bind ?_
  rintro _ _ rfl
  exact Spec.free ⟨t.addr, TOKEN_SIZE⟩ own

def token_sizes (token : Token) : Multiset Nat := {TOKEN_SIZE} + {text_size token.lexeme}

abbrev tokens_sizes : List Token → Multiset Nat := array_sizes POINTER_SIZE token_sizes

theorem TokenPtr.own_sizes (t : TokenPtr) : t.own.map Cell.size = token_sizes t.value := rfl

/-- **The tokens of a text** are in the array, whether or not the rest of it tokenizes. -/
theorem tokenize_loop_spec (fuel : Nat) : ∀ (rest : Text) (line : Nat)
    (token_stream : CArray TokenPtr) (code : Nat) (tokens : List Token) (base : Multiset Cell),
    Compiler.tokenize_loop fuel rest line (token_stream.elems.map TokenPtr.value)
      = some (code, tokens) →
    Spec (token_stream.own POINTER_SIZE TokenPtr.own + base)
      (tokenize_loop fuel rest line token_stream) fun v left =>
        left = v.2.own POINTER_SIZE TokenPtr.own + base
        ∧ v.1 = code ∧ v.2.elems.map TokenPtr.value = tokens := by
  induction fuel with
  | zero =>
      intro rest line token_stream code tokens base h
      cases rest with
      | nil => cases h; exact Spec.pure ⟨rfl, rfl, rfl⟩
      | cons c rest => cases h
  | succ fuel ih =>
      intro rest line token_stream code tokens base h
      cases rest with
      | nil => cases h; exact Spec.pure ⟨rfl, rfl, rfl⟩
      | cons c rest =>
          rw [Compiler.tokenize_loop] at h
          rw [tokenize_loop]
          cases hmatch : longest_match (c :: rest) with
          | none => simp only [hmatch, reduceCtorEq] at h
          | some m =>
              simp only [hmatch] at h ⊢
              by_cases htoken : m.token_type ≠ TOKEN_UNKNOWN
              · rw [if_pos htoken] at h ⊢
                refine (create_token_spec m.token_type m.matched_lexeme line _).bind ?_
                rintro t _ ⟨rfl, ht⟩
                refine (CArray.push_return_spec token_stream t base).bind ?_
                rintro token_stream' _ ⟨rfl, helems⟩
                refine ih _ _ _ _ _ _ ?_
                rw [helems, List.map_append, List.map_singleton, ht]
                exact h
              · rw [if_neg htoken] at h ⊢
                by_cases hspace : (!is_space c) = true
                · simp only [if_pos hspace] at h ⊢
                  cases h
                  exact Spec.pure ⟨rfl, rfl, rfl⟩
                · simp only [if_neg hspace] at h ⊢
                  exact ih _ _ _ _ _ _ h

theorem tokenize_spec {sql_commands : Text} {code : Nat} {tokens : List Token}
    (h : Compiler.tokenize sql_commands [] = some (code, tokens)) (base : Multiset Cell) :
    Spec base (tokenize sql_commands .null) fun v left =>
      left = v.2.own POINTER_SIZE TokenPtr.own + base
      ∧ v.1 = code ∧ v.2.elems.map TokenPtr.value = tokens :=
  Spec.of_eq (by rw [CArray.own_null, zero_add])
    (tokenize_loop_spec _ _ _ .null code tokens base h)

/-- The scan that overruns its buffer does so here too. -/
theorem tokenize_loop_faults (fuel : Nat) : ∀ (rest : Text) (line : Nat)
    (token_stream : CArray TokenPtr) (base : Multiset Cell),
    Compiler.tokenize_loop fuel rest line (token_stream.elems.map TokenPtr.value) = none →
    Faults (token_stream.own POINTER_SIZE TokenPtr.own + base)
      (tokenize_loop fuel rest line token_stream) := by
  induction fuel with
  | zero =>
      intro rest line token_stream base h
      cases rest with
      | nil => cases h
      | cons c rest => exact Faults.fault _
  | succ fuel ih =>
      intro rest line token_stream base h
      cases rest with
      | nil => cases h
      | cons c rest =>
          rw [Compiler.tokenize_loop] at h
          rw [tokenize_loop]
          cases hmatch : longest_match (c :: rest) with
          | none => exact Faults.fault _
          | some m =>
              simp only [hmatch] at h ⊢
              by_cases htoken : m.token_type ≠ TOKEN_UNKNOWN
              · rw [if_pos htoken] at h ⊢
                refine (create_token_spec m.token_type m.matched_lexeme line _).faults ?_
                rintro t _ ⟨rfl, ht⟩
                refine (CArray.push_return_spec token_stream t base).faults ?_
                rintro token_stream' _ ⟨rfl, helems⟩
                refine ih _ _ _ _ ?_
                rw [helems, List.map_append, List.map_singleton, ht]
                exact h
              · rw [if_neg htoken] at h ⊢
                by_cases hspace : (!is_space c) = true
                · rw [if_pos hspace] at h
                  cases h
                · simp only [if_neg hspace] at h ⊢
                  exact ih _ _ _ _ h

theorem tokenize_faults {sql_commands : Text} (h : Compiler.tokenize sql_commands [] = none)
    (base : Multiset Cell) : Faults base (tokenize sql_commands .null) := by
  have hloop := tokenize_loop_faults _ _ _ .null base h
  rw [CArray.own_null, zero_add] at hloop
  exact hloop

/-! ## §3. Arrays of a statement. -/

/-- The items in front of the first one that is missing. -/
def comma_read {α : Type} (item : Parser → Option (α × Parser)) : Nat → Parser → List α
  | 0, _ => []
  | fuel + 1, parser =>
      match item parser with
      | none => []
      | some (a, parser) =>
          match match_token parser TOKEN_PUNC_COMMA with
          | (true, parser) => a :: comma_read item fuel parser
          | (false, _) => [a]

section Arrays

variable {α β : Type} {item : Parser → Option (α × Parser)} {size : Nat}
  {cells : β → Multiset Cell} {value : β → α} {add : CArray β → α → Alloc (CArray β)}

/-- **A list with commas**: the array owns what has been read, also where an item is missing. -/
theorem comma_loop_spec
    (hadd : ∀ items a base, Spec (items.own size cells + base) (add items a) fun items' left =>
      left = items'.own size cells + base
      ∧ items'.elems.map value = items.elems.map value ++ [a])
    (fuel : Nat) : ∀ (parser : Parser) (items : CArray β) (base : Multiset Cell),
    Spec (items.own size cells + base) (comma_loop item add fuel parser items) fun v left =>
      left = v.1.own size cells + base
      ∧ v.1.elems.map value = items.elems.map value ++ comma_read item fuel parser
      ∧ v.2.map (Prod.mk (v.1.elems.map value))
        = (Compiler.comma_loop item fuel parser).map
            (Prod.map (items.elems.map value ++ ·) id) := by
  induction fuel with
  | zero =>
      intro parser items base
      exact Spec.pure ⟨rfl, (List.append_nil _).symm, rfl⟩
  | succ fuel ih =>
      intro parser items base
      rw [comma_loop, Compiler.comma_loop, comma_read]
      cases item parser with
      | none => exact Spec.pure ⟨rfl, (List.append_nil _).symm, rfl⟩
      | some found =>
          obtain ⟨a, next⟩ := found
          dsimp only
          rcases match_token next TOKEN_PUNC_COMMA with ⟨comma, next'⟩
          refine (hadd items a base).bind ?_
          rintro items' _ ⟨rfl, helems⟩
          cases comma with
          | false => exact Spec.pure ⟨rfl, helems, by simp [helems]⟩
          | true =>
              refine (ih next' items' base).mono ?_
              rintro v _ ⟨rfl, hread, hnext⟩
              refine ⟨rfl, by simp [hread, helems], ?_⟩
              rw [hnext, helems]
              dsimp only
              cases Compiler.comma_loop item fuel next' with
              | none => rfl
              | some found => obtain ⟨as, last⟩ := found; simp

/-- The array and, if no item is missing, the parser behind it. -/
theorem comma_list_spec
    (hadd : ∀ items a base, Spec (items.own size cells + base) (add items a) fun items' left =>
      left = items'.own size cells + base
      ∧ items'.elems.map value = items.elems.map value ++ [a])
    (parser : Parser) (base : Multiset Cell) :
    Spec base (comma_list item add parser) fun v left =>
      left = v.1.own size cells + base
      ∧ v.1.elems.map value = comma_read item parser.tokens.length parser
      ∧ v.2.map (Prod.mk (v.1.elems.map value)) = Compiler.comma_list item parser := by
  have hloop := @comma_loop_spec α β item size cells value add hadd parser.tokens.length parser
    .null base
  rw [CArray.own_null, zero_add] at hloop
  refine hloop.mono ?_
  rintro v _ ⟨rfl, hread, hnext⟩
  refine ⟨rfl, hread, hnext.trans ?_⟩
  exact Option.map_id_apply

end Arrays

theorem add_name_spec (columns : CArray CString) (name : Text) (base : Multiset Cell) :
    Spec (columns.own POINTER_SIZE CString.own + base) (add_name columns name)
      fun columns' left => left = columns'.own POINTER_SIZE CString.own + base
        ∧ columns'.elems.map CString.text = columns.elems.map CString.text ++ [name] := by
  have hname : ∀ base, Spec (0 + base) (strdup name) fun s left =>
      left = s.own + base ∧ s.text = name :=
    fun base => Spec.of_eq (zero_add base) (strdup_spec name base)
  refine (Spec.of_eq (zero_add _).symm (CArray.push_spec hname base)).mono ?_
  rintro columns' _ ⟨rfl, s, rfl, helems⟩
  exact ⟨rfl, by rw [helems, List.map_append, List.map_singleton]⟩

theorem make_value_spec (val : Value) (base : Multiset Cell) :
    Spec base (make_value val) fun p left => left = p.own + base ∧ p.value = val := by
  cases val with
  | VALUE_TEXT text_value =>
      refine (strdup_spec text_value base).bind ?_
      rintro s _ ⟨rfl, rfl⟩
      exact Spec.pure ⟨rfl, rfl⟩
  | VALUE_INTEGER int_value => exact Spec.pure ⟨(zero_add base).symm, rfl⟩

theorem add_value_spec (values : CArray ValuePtr) (val : Value) (base : Multiset Cell) :
    Spec (values.own VALUE_SIZE ValuePtr.own + base) (add_value values val)
      fun values' left => left = values'.own VALUE_SIZE ValuePtr.own + base
        ∧ values'.elems.map ValuePtr.value = values.elems.map ValuePtr.value ++ [val] := by
  refine (make_value_spec val _).bind ?_
  rintro p _ ⟨rfl, rfl⟩
  refine (CArray.push_return_spec values p base).mono ?_
  rintro values' _ ⟨rfl, helems⟩
  exact ⟨rfl, by rw [helems, List.map_append, List.map_singleton]⟩

theorem add_column_def_spec (columns : CArray ColumnDefPtr) (column : ColumnDef)
    (base : Multiset Cell) :
    Spec (columns.own VALUE_SIZE (·.name.own) + base) (add_column_def columns column)
      fun columns' left => left = columns'.own VALUE_SIZE (·.name.own) + base
        ∧ columns'.elems.map ColumnDefPtr.value
          = columns.elems.map ColumnDefPtr.value ++ [column] := by
  refine (strdup_spec column.name _).bind ?_
  rintro name _ ⟨rfl, hname⟩
  refine (@CArray.push_return_spec ColumnDefPtr VALUE_SIZE (·.name.own) columns
    ⟨name, column.type, column.type_length⟩ base).mono ?_
  rintro columns' _ ⟨rfl, helems⟩
  refine ⟨rfl, ?_⟩
  rw [helems, List.map_append, List.map_singleton, ColumnDefPtr.value, hname]

/-! ## §4. Programs. -/

theorem ensure_capacity_spec (program : ProgramPtr) (base : Multiset Cell) :
    Spec (program.own + base) (ensure_capacity program) fun program' left =>
      left = program'.own + base ∧ program'.string_params = program.string_params := by
  unfold ensure_capacity
  split
  next =>
    refine (Spec.of_eq (by unfold ProgramPtr.own; abel)
      (Spec.realloc ⟨program.instructions, INSTRUCTION_SIZE * program.capacity⟩ _
        ({⟨program.addr, PROGRAM_SIZE⟩}
          + (program.string_params.map fun s => s.elim 0 CString.own).sum + base))).bind ?_
    rintro instructions _ rfl
    refine Spec.pure ⟨?_, rfl⟩
    unfold ProgramPtr.own
    abel
  next => exact Spec.pure ⟨rfl, rfl⟩

theorem emit_instruction_spec (program : ProgramPtr) (string_param : Option Text)
    (base : Multiset Cell) :
    Spec (program.own + base) (emit_instruction program string_param) fun program' left =>
      left = program'.own + base := by
  refine (ensure_capacity_spec program base).bind ?_
  rintro program' _ ⟨rfl, _⟩
  have hcopy : Spec (program'.own + base) (copy_param string_param) fun s left =>
      left = s.elim 0 CString.own + (program'.own + base) := by
    cases string_param with
    | none => exact Spec.pure (zero_add _).symm
    | some text =>
        refine (strdup_spec text _).bind ?_
        rintro s _ ⟨rfl, _⟩
        exact Spec.pure rfl
  refine hcopy.bind ?_
  rintro s _ rfl
  refine Spec.pure ?_
  simp only [ProgramPtr.own, List.map_append, List.map_singleton, List.sum_append,
    List.sum_singleton]
  abel

theorem emit_all_spec (instructions : List Instruction) : ∀ (program : ProgramPtr)
    (base : Multiset Cell),
    Spec (program.own + base) (emit_all program instructions) fun program' left =>
      left = program'.own + base := by
  induction instructions with
  | nil => intro program base; exact Spec.pure rfl
  | cons inst instructions ih =>
      intro program base
      refine (emit_instruction_spec program inst.string_param base).bind ?_
      rintro program' _ rfl
      exact ih program' base

theorem init_program_spec (base : Multiset Cell) :
    Spec base init_program fun program left => left = program.own + base := by
  refine (Spec.malloc base _).bind ?_
  rintro addr _ rfl
  refine (Spec.malloc _ _).bind ?_
  rintro instructions _ rfl
  refine Spec.pure ?_
  simp only [ProgramPtr.own, List.map_nil, List.sum_nil, add_zero]
  abel

theorem free_program_spec (program : ProgramPtr) (base : Multiset Cell) :
    Spec (program.own + base) (free_program program) fun _ left => left = base := by
  have hparam : ∀ (s : Option CString) (own : Multiset Cell),
      Spec (s.elim 0 CString.own + own) (free (s.map CString.addr)) fun _ left => left = own := by
    intro s own
    cases s with
    | none => exact Spec.of_eq (zero_add own) (Spec.free_null own)
    | some s => exact Spec.free ⟨s.addr, _⟩ own
  refine (Spec.of_eq (by unfold ProgramPtr.own; abel) (Spec.forM_free hparam program.string_params
    ({⟨program.instructions, INSTRUCTION_SIZE * program.capacity⟩}
      + ({⟨program.addr, PROGRAM_SIZE⟩} + base)))).bind ?_
  rintro _ _ rfl
  refine (Spec.free ⟨program.instructions, _⟩ _).bind ?_
  rintro _ _ rfl
  exact Spec.free ⟨program.addr, _⟩ base

/-- **A program owns its blocks**, and without one nothing is left. -/
theorem generate_code_spec {stmt : Statement}
    (h : stmt.stmt_type = .STMT_INSERT → (Compiler.generate_code stmt).isSome)
    (base : Multiset Cell) :
    Spec base (generate_code stmt) fun r left => left = r.elim 0 ProgramPtr.own + base := by
  refine (init_program_spec base).bind ?_
  rintro program _ rfl
  cases hcode : Compiler.generate_code stmt with
  | some instructions =>
      refine (emit_all_spec instructions program base).bind ?_
      rintro program' _ rfl
      exact Spec.pure rfl
  | none =>
      have hinsert : ¬ stmt.stmt_type = .STMT_INSERT := fun hinsert => by
        simpa [hcode] using h hinsert
      rw [if_neg hinsert]
      refine (free_program_spec program base).bind ?_
      rintro _ _ rfl
      exact Spec.pure (zero_add _).symm

/-- An INSERT that reads past its values. -/
theorem generate_code_faults {stmt : Statement} (hinsert : stmt.stmt_type = .STMT_INSERT)
    (h : Compiler.generate_code stmt = none) (base : Multiset Cell) :
    Faults base (generate_code stmt) := by
  refine (init_program_spec base).faults ?_
  rintro program _ rfl
  rw [h]
  dsimp only
  rw [if_pos hinsert]
  exact Faults.fault _

end PreSeQL.Compiler.Blocks
