/-
  PreSeQL.Client.Lines — the input loop of the client (`main` in `client.c`).

  Lines are collected without their newlines until one has a `;`, and the collected text
  is passed to `psql_prepare`.  A statement is typed as its tokens and the whitespace
  between them, with newlines around or in the place of whitespace (`Break`).

    • `client_loop_collects` — what is passed is the text without its newlines,
    • `lines_keep_tokens_iff` — for which ways to break it the tokens stay the same.
-/
import PreSeQL.Client.Prepare
import PreSeQL.Compiler.Joining

namespace PreSeQL.Client

open PreSeQL.Compiler
open PreSeQL.Lib (Lexicon)
open PreSeQL.Lib.Lexicon (Piece)

/-! ## §1. The loop. -/

def INPUT_BUFFER_SIZE : Nat := 1024

/-- At most this many characters, and none behind a newline. -/
def take_line : Nat → Text → Text
  | 0, _ => []
  | _, [] => []
  | n + 1, c :: stdin => if c = '\n' then [c] else c :: take_line n stdin

/-- The characters read and the input left, unless it is at its end. -/
def fgets (size : Nat) (stdin : Text) : Option (Text × Text) :=
  if stdin = [] then none
  else some (take_line (size - 1) stdin, stdin.drop (take_line (size - 1) stdin).length)

def strip_newline (preseql_input : Text) : Text :=
  if preseql_input.getLast? = some '\n' then preseql_input.dropLast else preseql_input

/-- The texts passed to `psql_prepare`, in order.  `fuel` bounds the rounds; every round
takes a character from the input. -/
def client_loop : Nat → Text → Text → PSqlStatement → List Text
  | 0, _, _, _ => []
  | fuel + 1, stdin, statement_buffer, statement =>
      match fgets INPUT_BUFFER_SIZE stdin with
      | none => []
      | some (line, stdin) =>
          let preseql_input := strip_newline line
          if statement_buffer = []
              ∧ (preseql_input = "exit".toList ∨ preseql_input = ".quit".toList) then []
          else if statement_buffer = [] ∧ preseql_input = "clear".toList then
            client_loop fuel stdin statement_buffer statement
          else
            let statement_buffer := statement_buffer ++ preseql_input
            if ';' ∈ preseql_input then
              match psql_prepare statement_buffer statement with
              | none => [statement_buffer]
              -- the buffer is given up, whatever the status is
              | some (_, statement) => statement_buffer :: client_loop fuel stdin [] statement
            else client_loop fuel stdin statement_buffer statement

def main (stdin : Text) (statement : PSqlStatement) : List Text :=
  client_loop stdin.length stdin [] statement

/-! ## §2. One round. -/

section Round

variable {line rest buffer : Text} {statement : PSqlStatement} {fuel : Nat}

theorem take_line_newline (hline : '\n' ∉ line) : ∀ {n : Nat}, line.length < n →
    take_line n (line ++ '\n' :: rest) = line ++ ['\n'] := by
  induction line with
  | nil =>
      intro n hn
      cases n with
      | zero => cases hn
      | succ n => rfl
  | cons c line ih =>
      intro n hn
      have hc : c ≠ '\n' := fun h => hline (h ▸ List.mem_cons_self)
      cases n with
      | zero => cases hn
      | succ n =>
          rw [List.cons_append, take_line, if_neg hc,
            ih (fun h => hline (List.mem_cons_of_mem c h)) (Nat.lt_of_succ_lt_succ hn)]
          rfl

theorem take_line_full (hline : '\n' ∉ line) : take_line line.length (line ++ rest) = line := by
  induction line with
  | nil => cases rest <;> rfl
  | cons c line ih =>
      have hc : c ≠ '\n' := fun h => hline (h ▸ List.mem_cons_self)
      rw [List.cons_append, List.length_cons, take_line, if_neg hc,
        ih fun h => hline (List.mem_cons_of_mem c h)]

/-- A line is read up to its newline, or up to the end of the buffer. -/
theorem fgets_line (hline : '\n' ∉ line) (hlen : line.length ≤ 1023) (rest : Text) :
    ∃ read left, fgets INPUT_BUFFER_SIZE (line ++ '\n' :: rest) = some (read, left)
      ∧ strip_newline read = line ∧ (line.length < 1023 → left = rest) := by
  have hne : line ++ '\n' :: rest ≠ [] := by simp
  have hlast : line.getLast? ≠ some '\n' := fun h => hline (List.mem_of_getLast? h)
  rcases Nat.lt_or_eq_of_le hlen with hlt | heq
  · refine ⟨line ++ ['\n'], rest, ?_, ?_, fun _ => rfl⟩
    · have htake : take_line (INPUT_BUFFER_SIZE - 1) (line ++ '\n' :: rest) = line ++ ['\n'] :=
        take_line_newline hline hlt
      rw [fgets, if_neg hne, htake, List.append_cons line '\n' rest, List.drop_left]
    · rw [strip_newline, if_pos (by simp), List.dropLast_concat]
  · refine ⟨line, '\n' :: rest, ?_, if_neg hlast, fun hlt => by omega⟩
    have htake : take_line (INPUT_BUFFER_SIZE - 1) (line ++ '\n' :: rest) = line := by
      show take_line 1023 _ = line
      rw [← heq]
      exact take_line_full hline
    rw [fgets, if_neg hne, htake, List.drop_left]

/-- The lines that are not taken for statement text at the start of a statement. -/
def commands : List Text := ["exit".toList, ".quit".toList, "clear".toList]

/-- What the loop tests of a line that is not taken for a command. -/
theorem not_command (hcommand : buffer = [] → line ∉ commands) :
    ¬ (buffer = [] ∧ (line = "exit".toList ∨ line = ".quit".toList))
      ∧ ¬ (buffer = [] ∧ line = "clear".toList) := by
  constructor
  · intro h
    apply hcommand h.1
    rcases h.2 with rfl | rfl <;> decide
  · intro h
    apply hcommand h.1
    rw [h.2]
    decide

/-- A line without a `;` is put behind the others. -/
theorem client_loop_more (hline : '\n' ∉ line) (hlen : line.length < 1023) (hmore : ';' ∉ line)
    (hcommand : buffer = [] → line ∉ commands) :
    client_loop (fuel + 1) (line ++ '\n' :: rest) buffer statement
      = client_loop fuel rest (buffer ++ line) statement := by
  obtain ⟨read, left, hread, hstrip, hleft⟩ := fgets_line hline (Nat.le_of_lt hlen) rest
  obtain rfl := hleft hlen
  obtain ⟨hexit, hclear⟩ := not_command hcommand
  rw [client_loop]
  simp only [hread, hstrip, if_neg hexit, if_neg hclear, if_neg hmore]

/-- A line with a `;` is the last one. -/
theorem client_loop_last (hline : '\n' ∉ line) (hlen : line.length ≤ 1023) (hlast : ';' ∈ line) :
    (client_loop (fuel + 1) (line ++ '\n' :: rest) buffer statement).head?
      = some (buffer ++ line) := by
  obtain ⟨read, left, hread, hstrip, -⟩ := fgets_line hline hlen rest
  have hother : ∀ command ∈ commands, ';' ∉ command := by decide
  have hcommand : buffer = [] → line ∉ commands := fun _ hmem => hother line hmem hlast
  obtain ⟨hexit, hclear⟩ := not_command hcommand
  rw [client_loop]
  simp only [hread, hstrip, if_neg hexit, if_neg hclear, if_pos hlast]
  split <;> rfl

theorem client_loop_exit (hcommand : line = "exit".toList ∨ line = ".quit".toList) :
    client_loop (fuel + 1) (line ++ '\n' :: rest) [] statement = [] := by
  have hline : '\n' ∉ line ∧ line.length ≤ 1023 := by
    rcases hcommand with rfl | rfl <;> decide
  obtain ⟨read, left, hread, hstrip, -⟩ := fgets_line hline.1 hline.2 rest
  rw [client_loop]
  simp only [hread, hstrip, true_and, if_pos hcommand]

theorem client_loop_clear :
    client_loop (fuel + 1) ("clear".toList ++ '\n' :: rest) [] statement
      = client_loop fuel rest [] statement := by
  obtain ⟨read, left, hread, hstrip, hleft⟩ :=
    fgets_line (by decide : '\n' ∉ "clear".toList) (by decide) rest
  obtain rfl := hleft (by decide)
  rw [client_loop]
  simp only [hread, hstrip]
  rfl

end Round

/-! ## §3. A statement over several lines. -/

/-- What is passed behind a command is passed by the rounds behind its line. -/
theorem client_loop_command {line rest passed : Text} {statement : PSqlStatement} {fuel : Nat}
    (hcommand : line ∈ commands)
    (h : (client_loop (fuel + 1) (line ++ '\n' :: rest) [] statement).head? = some passed) :
    (client_loop fuel rest [] statement).head? = some passed := by
  simp only [commands, List.mem_cons, List.not_mem_nil, or_false] at hcommand
  rw [← or_assoc] at hcommand
  rcases hcommand with hexit | rfl
  · rw [client_loop_exit hexit] at h
    cases h
  · rwa [client_loop_clear] at h

/-- The text ends in its only `;`. -/
def Terminated (text : Text) : Prop := ∃ body, text = body ++ [';'] ∧ ';' ∉ body

theorem Terminated.mem {text : Text} (h : Terminated text) : ';' ∈ text := by
  obtain ⟨body, rfl, -⟩ := h
  simp

theorem Terminated.append {front rest : Text} (hfront : ';' ∉ front) (h : Terminated rest) :
    Terminated (front ++ rest) := by
  obtain ⟨body, rfl, hbody⟩ := h
  refine ⟨front ++ body, (List.append_assoc _ _ _).symm, ?_⟩
  rw [List.mem_append, not_or]
  exact ⟨hfront, hbody⟩

theorem Terminated.of_append {front rest : Text} (h : Terminated (front ++ rest))
    (hne : rest ≠ []) : ';' ∉ front ∧ Terminated rest := by
  obtain ⟨body, heq, hbody⟩ := h
  obtain ⟨body', c, rfl⟩ := (List.eq_nil_or_concat rest).resolve_left hne
  rw [List.concat_eq_append] at heq
  rw [← List.append_assoc] at heq
  obtain ⟨rfl, hlast⟩ := List.append_inj' heq rfl
  obtain ⟨rfl, -⟩ := List.cons_eq_cons.mp hlast
  rw [List.mem_append, not_or] at hbody
  exact ⟨hbody.1, body', List.concat_eq_append, hbody.2⟩

/-- A character in front of the end is another one. -/
theorem Terminated.of_cons {c : Char} {rest : Text} (h : Terminated (c :: rest)) (hc : c ≠ ';') :
    Terminated rest := by
  cases rest with
  | nil =>
      obtain ⟨body, heq, -⟩ := h
      obtain ⟨-, hlast⟩ := List.append_inj' (show [] ++ [c] = body ++ [';'] from heq) rfl
      exact absurd (List.cons_eq_cons.mp hlast).1 hc
  | cons d rest =>
      rw [← List.singleton_append] at h
      exact (h.of_append (List.cons_ne_nil d rest)).2

/-- The `;` is on the last line. -/
theorem Terminated.after_newline {line rest : Text} (h : Terminated (line ++ '\n' :: rest)) :
    ';' ∉ line ∧ Terminated rest := by
  obtain ⟨hline, hrest⟩ := h.of_append (List.cons_ne_nil _ _)
  exact ⟨hline, hrest.of_cons (by decide)⟩

/-- The text without its newlines. -/
def joined (text : Text) : Text := text.filter fun c => c ≠ '\n'

theorem joined_of_notMem {line : Text} (hline : '\n' ∉ line) : joined line = line := by
  rw [joined, List.filter_eq_self]
  intro c hc
  exact decide_eq_true fun h => hline (h ▸ hc)

theorem joined_append (line rest : Text) : joined (line ++ rest) = joined line ++ joined rest :=
  List.filter_append line rest

theorem joined_line {line : Text} (hline : '\n' ∉ line) (rest : Text) :
    joined (line ++ '\n' :: rest) = line ++ joined rest := by
  rw [joined_append, joined_of_notMem hline]
  rfl

theorem Terminated.joined_length {text : Text} (h : Terminated text) :
    0 < (joined text).length := by
  apply List.length_pos_of_mem (a := ';')
  rw [joined, List.mem_filter]
  exact ⟨h.mem, by decide⟩

/-- The characters that are not whitespace. -/
def weight (text : Text) : Nat := text.countP fun c => !is_space c

theorem weight_append (text text' : Text) : weight (text ++ text') = weight text + weight text' :=
  List.countP_append

section Loop

variable {rest : Text}

/-- **The lines are collected** up to the one with the `;`: induction on the rounds. -/
theorem client_loop_collects (fuel : Nat) : ∀ {text buffer : Text} (statement : PSqlStatement),
    text.length < fuel → Terminated text → (joined text).length ≤ 1023 →
    (buffer = [] → ∀ line after, text = line ++ '\n' :: after → '\n' ∉ line →
      line ∉ commands ∧ line ≠ []) →
    (client_loop fuel (text ++ '\n' :: rest) buffer statement).head?
      = some (buffer ++ joined text) := by
  induction fuel with
  | zero => intro text buffer statement hfuel; cases hfuel
  | succ fuel ih =>
      intro text buffer statement hfuel hterminated hlen hstart
      by_cases hnewline : '\n' ∈ text
      · obtain ⟨line, after, rfl, hline⟩ := List.eq_append_cons_of_mem hnewline
        obtain ⟨hmore, hafter⟩ := hterminated.after_newline
        have hpos := hafter.joined_length
        rw [joined_line hline, List.length_append] at hlen
        rw [List.length_append, List.length_cons] at hfuel
        rw [joined_line hline, ← List.append_assoc, List.append_assoc line, List.cons_append,
          client_loop_more hline (by omega) hmore fun h => (hstart h _ _ rfl hline).1]
        apply ih statement (by omega) hafter (by omega)
        -- something of the statement is in the buffer now
        intro hnil
        obtain ⟨hbuffer, hnil⟩ := List.append_eq_nil_iff.mp hnil
        exact absurd hnil (hstart hbuffer _ _ rfl hline).2
      · rw [joined_of_notMem hnewline] at hlen ⊢
        exact client_loop_last hnewline hlen hterminated.mem

/-- Nothing but what was typed is collected. -/
theorem client_loop_sublist (fuel : Nat) :
    ∀ {text buffer passed : Text} {statement : PSqlStatement},
    Terminated text → (joined text).length ≤ 1023 →
    (client_loop fuel (text ++ '\n' :: rest) buffer statement).head? = some passed →
    passed.Sublist (buffer ++ joined text) := by
  induction fuel with
  | zero => intro text buffer passed statement _ _ h; cases h
  | succ fuel ih =>
      intro text buffer passed statement hterminated hlen h
      by_cases hnewline : '\n' ∈ text
      · obtain ⟨line, after, rfl, hline⟩ := List.eq_append_cons_of_mem hnewline
        obtain ⟨hmore, hafter⟩ := hterminated.after_newline
        have hpos := hafter.joined_length
        rw [joined_line hline, List.length_append] at hlen
        rw [List.append_assoc, List.cons_append] at h
        rw [joined_line hline, ← List.append_assoc]
        by_cases hcommand : buffer = [] ∧ line ∈ commands
        · obtain ⟨rfl, hcommand⟩ := hcommand
          have hsub := ih hafter (by omega) (client_loop_command hcommand h)
          exact hsub.trans (List.sublist_append_right _ _)
        · rw [client_loop_more hline (by omega) hmore fun hb hc => hcommand ⟨hb, hc⟩] at h
          exact ih hafter (by omega) h
      · rw [joined_of_notMem hnewline] at hlen ⊢
        rw [client_loop_last hnewline hlen hterminated.mem, Option.some.injEq] at h
        rw [← h]

end Loop

/-! ## §4. Statements as they are typed. -/

/-- The newlines at a whitespace character: so many around it, or one or more in its place. -/
inductive Break where
  | kept (before after : Nat)
  | replaced (more : Nat)

inductive Typed where
  | token (type : TokenType) (lexeme : Text)
  | space (c : Char) (newlines : Break)

/-- The piece of the statement on one line. -/
def Typed.piece : Typed → Piece Char TokenType
  | .token type lexeme => .token type lexeme
  | .space c _ => .skip c

/-- The characters that are entered for it. -/
def Typed.entered : Typed → Text
  | .token _ lexeme => lexeme
  | .space c (.kept before after) =>
      List.replicate before '\n' ++ c :: List.replicate after '\n'
  | .space _ (.replaced more) => List.replicate (more + 1) '\n'

/-- The characters that are collected of it. -/
def Typed.collected : Typed → Text
  | .token _ lexeme => lexeme
  | .space c (.kept _ _) => [c]
  | .space _ (.replaced _) => []

/-- Newlines are entered between two tokens, so behind the first one. -/
structure TypedStatement where
  indent : Text
  first : TokenForm
  rest : List Typed

namespace TypedStatement

variable (s : TypedStatement)

def items : List Typed :=
  s.indent.map (fun c => .space c (.kept 0 0)) ++ .token s.first.1 s.first.2 :: s.rest

/-- The statement on one line. -/
def text : Text := (s.items.map Typed.piece).flatMap Piece.chars

/-- The statement on its lines. -/
def entered : Text := s.items.flatMap Typed.entered

/-- A statement of at most 1023 characters that ends in its only `;`. -/
structure Fits : Prop where
  munch : lexicon.Munch s.text (s.items.map Typed.piece)
  terminated : Terminated s.text
  one_line : '\n' ∉ s.text
  length_le : s.text.length ≤ 1023

end TypedStatement

/-- The next token, when no whitespace is left in front of it. -/
def meets : List Typed → Option Text
  | .token _ lexeme :: _ => some lexeme
  | .space _ (.replaced _) :: items => meets items
  | _ => none

/-- No two tokens that meet join. -/
def StandApart : List Typed → Prop
  | [] => True
  | .token _ lexeme :: items =>
      (∀ next, meets items = some next → ¬ Joins lexeme next) ∧ StandApart items
  | .space _ _ :: items => StandApart items

/-! ## §5. The tokens of what is collected. -/

def collected_text (items : List Typed) : Text := items.flatMap Typed.collected

theorem collected_sublist (items : List Typed) :
    (collected_text items).Sublist ((items.map Typed.piece).flatMap Piece.chars) := by
  induction items with
  | nil => exact List.Sublist.slnil
  | cons item items ih =>
      cases item with
      | token type lexeme => exact ih.append_left lexeme
      | space c newlines =>
          cases newlines with
          | kept before after => exact ih.cons_cons c
          | replaced more => exact ih.cons c

/-- What the collected text starts with: whitespace, or the token that is met. -/
theorem meets_spec {items : List Typed} {text : Text}
    (h : lexicon.Munch text (items.map Typed.piece)) :
    (∃ next type after after', meets items = some next ∧ collected_text items = next ++ after'
      ∧ lexicon.Longest (next ++ after) next type ∧ after'.Sublist after)
    ∨ (meets items = none ∧ ∀ c ∈ (collected_text items).head?, c ∈ whitespace) := by
  induction items generalizing text with
  | nil => exact Or.inr ⟨rfl, fun c hc => nomatch hc⟩
  | cons item items ih =>
      cases item with
      | token type lexeme =>
          cases h with
          | token hlongest htext hrest =>
              left
              rw [htext, ← hrest.spells] at hlongest
              exact ⟨lexeme, type, _, _, rfl, rfl, hlongest, collected_sublist items⟩
      | space c newlines =>
          cases h with
          | skip hc hrest =>
              cases newlines with
              | kept before after =>
                  right
                  refine ⟨rfl, fun d hd => ?_⟩
                  obtain rfl := Option.some.inj hd
                  exact hc
              | replaced more => exact ih hrest

theorem longest_collected_iff {items : List Typed} {lexeme rest : Text} {type : TokenType}
    (h : lexicon.Longest (lexeme ++ rest) lexeme type)
    (hrest : lexicon.Munch rest (items.map Typed.piece)) :
    lexicon.Longest (lexeme ++ collected_text items) lexeme type
      ↔ ∀ next, meets items = some next → ¬ Joins lexeme next := by
  have hsub := collected_sublist items
  rw [hrest.spells] at hsub
  rcases meets_spec hrest with ⟨next, type', after, after', hmeets, hleft, hnext, hafter⟩ |
    ⟨hmeets, hspace⟩
  · rw [hleft] at hsub ⊢
    rw [longest_before_token h hsub hnext hafter, hmeets]
    simp
  · rw [hmeets]
    exact iff_of_true (longest_before_space h hsub hspace) (fun next hnext => nomatch hnext)

/-- **The collected text has the tokens of the statement** exactly when those that meet do
not join: induction on the items. -/
theorem tokens_collected_iff {items : List Typed} {text : Text}
    (h : lexicon.Munch text (items.map Typed.piece)) :
    lexicon.Tokens (collected_text items) ((items.map Typed.piece).filterMap Piece.token?)
      ↔ StandApart items := by
  induction items generalizing text with
  | nil => exact iff_of_true ⟨[], .nil, rfl⟩ trivial
  | cons item items ih =>
      cases item with
      | token type lexeme =>
          cases h with
          | token hlongest htext hrest =>
              show lexicon.Tokens (lexeme ++ collected_text items) ((type, lexeme) :: _)
                ↔ _ ∧ StandApart items
              rw [htext] at hlongest
              rw [Lexicon.tokens_token_iff hlongest.lexeme, ih hrest,
                longest_collected_iff hlongest hrest]
      | space c newlines =>
          cases h with
          | skip hc hrest =>
              cases newlines with
              | kept before after =>
                  show lexicon.Tokens (c :: collected_text items) _ ↔ StandApart items
                  rw [Lexicon.tokens_skip_iff hc]
                  exact ih hrest
              | replaced more => exact ih hrest

/-! ## §6. One statement, entered in two ways. -/

/-- What the newlines add is whitespace, and what they replace. -/
theorem joined_entered {items : List Typed}
    (h : '\n' ∉ (items.map Typed.piece).flatMap Piece.chars) :
    joined (items.flatMap Typed.entered) = collected_text items := by
  have hnewlines : ∀ n : Nat, joined (List.replicate n '\n') = [] := by
    intro n
    exact List.filter_eq_nil_iff.mpr fun c hc => by
      rw [List.eq_of_mem_replicate hc]
      decide
  induction items with
  | nil => rfl
  | cons item items ih =>
      rw [List.map_cons, List.flatMap_cons, List.mem_append, not_or] at h
      rw [List.flatMap_cons, joined_append, ih h.2]
      cases item with
      | token type lexeme =>
          have hlexeme : joined lexeme = lexeme := joined_of_notMem h.1
          rw [Typed.entered, hlexeme]
          rfl
      | space c newlines =>
          cases newlines with
          | kept before after =>
              have hc : joined [c] = [c] := joined_of_notMem h.1
              rw [Typed.entered, ← List.singleton_append, joined_append, joined_append, hnewlines,
                hnewlines, hc]
              rfl
          | replaced more =>
              rw [Typed.entered, hnewlines]
              rfl

/-- The entered text ends in its only `;` as the statement does. -/
theorem terminated_entered {items : List Typed} {text : Text}
    (h : lexicon.Munch text (items.map Typed.piece)) (hterminated : Terminated text) :
    Terminated (items.flatMap Typed.entered) := by
  have hother : ∀ c ∈ whitespace, c ≠ ';' := by decide
  have hnewlines : ∀ n : Nat, ';' ∉ List.replicate n '\n' := by
    intro n hmem
    exact absurd (List.eq_of_mem_replicate hmem) (by decide)
  induction items generalizing text with
  | nil =>
      cases h
      exact absurd hterminated.mem List.not_mem_nil
  | cons item items ih =>
      rw [List.flatMap_cons]
      cases item with
      | token type lexeme =>
          cases h with
          | @token _ _ rest _ _ _ htext hrest =>
              by_cases hnil : rest = []
              · -- the last token
                subst hnil
                obtain rfl : items = [] := List.map_eq_nil_iff.mp (Lexicon.munch_nil_iff.mp hrest)
                rw [htext] at hterminated
                exact hterminated
              · rw [htext] at hterminated
                obtain ⟨hlexeme, hterminated⟩ := hterminated.of_append hnil
                exact (ih hrest hterminated).append hlexeme
      | space c newlines =>
          cases h with
          | skip hc hrest =>
              have hsemi := hother c hc
              apply (ih hrest (hterminated.of_cons hsemi)).append
              cases newlines with
              | kept before after =>
                  rw [Typed.entered, List.mem_append, List.mem_cons, not_or, not_or]
                  exact ⟨hnewlines before, hsemi.symm, hnewlines after⟩
              | replaced more => exact hnewlines (more + 1)

theorem skip_weightless (c : Char) (hc : lexicon.skip c) : (!is_space c) = false := by
  rw [(is_space_iff c).mpr hc]
  rfl

theorem takeWhile_line {line : Text} (hline : '\n' ∉ line) (after : Text) :
    (line ++ '\n' :: after).takeWhile (fun c => c ≠ '\n') = line := by
  have hall : ∀ c ∈ line, decide (c ≠ '\n') = true :=
    fun c hc => decide_eq_true fun heq => hline (heq ▸ hc)
  rw [List.takeWhile_append_of_pos hall, List.takeWhile_cons_of_neg (by decide), List.append_nil]

/-- The types and lexemes of the statement. -/
def TypedStatement.forms (s : TypedStatement) : List TokenForm :=
  (s.items.map Typed.piece).filterMap Piece.token?

namespace TypedStatement.Fits

variable {s : TypedStatement} (h : s.Fits)
include h

theorem tokens : lexicon.Tokens s.text s.forms := ⟨_, h.munch, rfl⟩

theorem joined_entered_eq : joined s.entered = collected_text s.items :=
  joined_entered h.one_line

theorem joined_length_le : (joined s.entered).length ≤ 1023 := by
  rw [h.joined_entered_eq]
  exact Nat.le_trans (collected_sublist s.items).length_le h.length_le

/-- The first token, or whitespace in front of it, is on the first line. -/
theorem entered_head : s.entered.head? ≠ some '\n' := by
  have hfirst : s.first.2 ≠ [] := by
    intro hnil
    have hlexeme := h.munch.lexemes s.first.1 s.first.2 (by simp [items, Typed.piece])
    rw [hnil] at hlexeme
    exact lexicon.not_lexeme_nil _ hlexeme
  have hentered : s.entered = s.indent ++ s.first.2 ++ s.rest.flatMap Typed.entered := by
    simp [entered, items, List.flatMap_map, Typed.entered]
  have htext : ∀ c ∈ s.indent ++ s.first.2, c ∈ s.text := by
    intro c hc
    simp only [text, items, List.map_append, List.map_map, List.map_cons, List.flatMap_append,
      List.flatMap_map, List.flatMap_cons, List.mem_append] at hc ⊢
    rcases hc with hc | hc
    · exact Or.inl (List.mem_flatMap.mpr ⟨c, hc, List.mem_singleton_self c⟩)
    · exact Or.inr (Or.inl hc)
  obtain ⟨c, front, heq⟩ := List.exists_cons_of_ne_nil
    (fun hnil => hfirst (List.append_eq_nil_iff.mp hnil).2 : s.indent ++ s.first.2 ≠ [])
  rw [hentered, heq]
  intro hhead
  obtain rfl : c = '\n' := Option.some.inj hhead
  exact h.one_line (htext _ (heq ▸ List.mem_cons_self))

theorem terminated_entered_eq : Terminated s.entered :=
  terminated_entered h.munch h.terminated

/-- What is passed for its lines, unless the first one is a command. -/
theorem main_lines (hcommand : s.entered.takeWhile (fun c => c ≠ '\n') ∉ commands) (rest : Text)
    (statement : PSqlStatement) :
    (main (s.entered ++ '\n' :: rest) statement).head? = some (collected_text s.items) := by
  rw [← h.joined_entered_eq]
  apply client_loop_collects _ statement _ h.terminated_entered_eq h.joined_length_le
  · intro _ line after heq hline
    constructor
    · rwa [heq, takeWhile_line hline] at hcommand
    · rintro rfl
      exact h.entered_head (congrArg List.head? heq)
  · rw [List.length_append, List.length_cons]
    omega

/-- **On one line** the statement is passed as it is. -/
theorem main_one_line (rest : Text) (statement : PSqlStatement) :
    (main (s.text ++ '\n' :: rest) statement).head? = some s.text := by
  have hjoined : joined s.text = s.text := joined_of_notMem h.one_line
  have hcollects : (main (s.text ++ '\n' :: rest) statement).head?
      = some ([] ++ joined s.text) := by
    apply client_loop_collects _ statement _ h.terminated (hjoined.symm ▸ h.length_le)
    · intro _ line after heq
      exact absurd (heq ▸ by simp) h.one_line
    · rw [List.length_append, List.length_cons]
      omega
  rwa [hjoined] at hcollects

/-- Behind a command the text passed lacks characters of the statement. -/
theorem main_command (hcommand : s.entered.takeWhile (fun c => c ≠ '\n') ∈ commands) {rest : Text}
    {statement : PSqlStatement} {passed : Text}
    (hpassed : (main (s.entered ++ '\n' :: rest) statement).head? = some passed) :
    passed.length ≤ 1023 ∧ weight passed < weight s.text := by
  have hplain : ∀ command ∈ commands, ';' ∉ command ∧ 0 < weight command := by decide
  obtain ⟨hsemi, hpos⟩ := hplain _ hcommand
  by_cases hnewline : '\n' ∈ s.entered
  · obtain ⟨line, after, heq, hline⟩ := List.eq_append_cons_of_mem hnewline
    have hterminated := h.terminated_entered_eq
    have hlen := h.joined_length_le
    have htext : weight (joined s.entered) ≤ weight s.text := by
      rw [h.joined_entered_eq]
      exact (collected_sublist s.items).countP_le
    rw [heq] at hterminated hlen hpassed htext
    rw [heq, takeWhile_line hline] at hcommand hpos
    rw [joined_line hline, List.length_append] at hlen
    rw [joined_line hline, weight_append] at htext
    rw [main, List.append_assoc, List.cons_append, List.length_append, List.length_cons,
      ← Nat.add_assoc] at hpassed
    -- the lines behind the command are all that can be passed
    have hsub : passed.Sublist ([] ++ joined after) :=
      client_loop_sublist _ hterminated.after_newline.2 (by omega)
        (client_loop_command hcommand hpassed)
    have hshort := hsub.length_le
    have hlight : weight passed ≤ weight (joined after) := hsub.countP_le
    rw [List.nil_append] at hshort
    omega
  · -- a command has no `;`
    have hall : s.entered.takeWhile (fun c => c ≠ '\n') = s.entered :=
      List.takeWhile_eq_self_iff.mpr fun c hc => decide_eq_true fun heq => hnewline (heq ▸ hc)
    rw [hall] at hsemi
    exact absurd h.terminated_entered_eq.mem hsemi

end TypedStatement.Fits

/-- The texts passed for the lines and for the one line have the same types and lexemes. -/
def SameTokens (s : TypedStatement) : Prop :=
  ∀ (rest : Text) (statement : PSqlStatement), ∃ lines one_line tokens tokens',
    (main (s.entered ++ '\n' :: rest) statement).head? = some lines
    ∧ (main (s.text ++ '\n' :: rest) statement).head? = some one_line
    ∧ tokenize lines [] = some (0, tokens) ∧ tokenize one_line [] = some (0, tokens')
    ∧ tokens.map Token.form = tokens'.map Token.form

/-- **The lines keep the tokens** exactly when the first one is no command and the tokens that
meet when the newlines are taken out do not join. -/
theorem lines_keep_tokens_iff (s : TypedStatement) (h : s.Fits) :
    SameTokens s
      ↔ s.entered.takeWhile (fun c => c ≠ '\n') ∉ commands ∧ StandApart s.items := by
  have hlength : (collected_text s.items).length ≤ 1023 :=
    Nat.le_trans (collected_sublist s.items).length_le h.length_le
  rw [← tokens_collected_iff h.munch]
  obtain ⟨tokens', htext, hforms'⟩ := (tokenize_forms_iff h.length_le).mpr h.tokens
  constructor
  · intro hsame
    obtain ⟨lines, one_line, tokens, tokens'', hlines, hone, htokens, htokens'', hforms⟩ :=
      hsame [] ⟨0⟩
    obtain rfl := Option.some.inj ((h.main_one_line [] ⟨0⟩).symm.trans hone)
    obtain ⟨-, rfl⟩ := Prod.mk.inj (Option.some.inj (htext.symm.trans htokens''))
    rw [hforms'] at hforms
    by_cases hcommand : s.entered.takeWhile (fun c => c ≠ '\n') ∈ commands
    · -- the same tokens have the same characters
      obtain ⟨hshort, hlight⟩ := h.main_command hcommand hlines
      have hlines' := (tokenize_forms_iff hshort).mp ⟨tokens, htokens, hforms⟩
      have hweight : weight lines = weight s.text :=
        (hlines'.countP_eq skip_weightless).trans (h.tokens.countP_eq skip_weightless).symm
      omega
    · refine ⟨hcommand, ?_⟩
      obtain rfl := Option.some.inj ((h.main_lines hcommand [] ⟨0⟩).symm.trans hlines)
      exact (tokenize_forms_iff hlength).mp ⟨tokens, htokens, hforms⟩
  · intro hkept rest statement
    obtain ⟨hcommand, htokens⟩ := hkept
    obtain ⟨tokens, htokenize, hforms⟩ := (tokenize_forms_iff hlength).mpr htokens
    exact ⟨_, _, tokens, tokens', h.main_lines hcommand rest statement,
      h.main_one_line rest statement, htokenize, htext, hforms.trans hforms'.symm⟩

/-- `BEGIN TRANSACTION;` -/
def begin_transaction (newlines : Break) : TypedStatement where
  indent := []
  first := (.TOKEN_KEYWORD_BEGIN, "BEGIN".toList)
  rest := [.space ' ' newlines, .token .TOKEN_KEYWORD_TRANSACTION "TRANSACTION".toList,
    .token .TOKEN_END_OF_LINE [';']]

theorem begin_transaction_fits (newlines : Break) : (begin_transaction newlines).Fits := by
  have hbegin : ("BEGIN".toList, TokenType.TOKEN_KEYWORD_BEGIN) ∈ keywords.entries := by decide
  have hlayout : Layout ((begin_transaction newlines).items.map Typed.piece) :=
    .token (.keyword hbegin) trivial <| .space (by decide) <|
      .token (.keyword (by decide)) (.inr ⟨';', by decide, rfl⟩) <|
      .token (.punctuation (by decide) (by decide)) trivial .nil
  exact ⟨hlayout.laidOut.munch, ⟨"BEGIN TRANSACTION".toList, rfl, by decide⟩,
    (by decide : '\n' ∉ "BEGIN TRANSACTION;".toList),
    (by decide : "BEGIN TRANSACTION;".toList.length ≤ 1023)⟩

/-- With the newline behind the space. -/
theorem lines_keep_tokens_iff_begin :
    SameTokens (begin_transaction (.kept 0 1))
      ↔ (begin_transaction (.kept 0 1)).entered.takeWhile (fun c => c ≠ '\n') ∉ commands
        ∧ StandApart (begin_transaction (.kept 0 1)).items :=
  lines_keep_tokens_iff _ (begin_transaction_fits _)

/-- With the newline in the place of the space, the two keywords become one name. -/
theorem keywords_fused :
    (begin_transaction (.replaced 0)).Fits
    ∧ (main "BEGIN\nTRANSACTION;\n".toList ⟨0⟩).head? = some "BEGINTRANSACTION;".toList
    ∧ ¬ ∀ s : TypedStatement, s.Fits → SameTokens s := by
  have hfits := begin_transaction_fits (.replaced 0)
  have hlines : (main ((begin_transaction (.replaced 0)).entered ++ ['\n']) ⟨0⟩).head?
      = some "BEGINTRANSACTION;".toList := by decide +kernel
  refine ⟨hfits, hlines, ?_⟩
  intro hclaim
  obtain ⟨lines, one_line, tokens, tokens', hpassed, hone, htokens, htokens', hforms⟩ :=
    hclaim _ hfits [] ⟨0⟩
  obtain rfl := Option.some.inj (hlines.symm.trans hpassed)
  obtain rfl := Option.some.inj ((hfits.main_one_line [] ⟨0⟩).symm.trans hone)
  have hfused : tokenize "BEGINTRANSACTION;".toList []
      = some (0, [⟨.TOKEN_IDENTIFIER, "BEGINTRANSACTION".toList, 1⟩,
        ⟨.TOKEN_END_OF_LINE, [';'], 1⟩]) := by decide +kernel
  have hapart : tokenize (begin_transaction (.replaced 0)).text []
      = some (0, [⟨.TOKEN_KEYWORD_BEGIN, "BEGIN".toList, 1⟩,
        ⟨.TOKEN_KEYWORD_TRANSACTION, "TRANSACTION".toList, 1⟩,
        ⟨.TOKEN_END_OF_LINE, [';'], 1⟩]) := by decide +kernel
  obtain ⟨-, rfl⟩ := Prod.mk.inj (Option.some.inj (hfused.symm.trans htokens))
  obtain ⟨-, rfl⟩ := Prod.mk.inj (Option.some.inj (hapart.symm.trans htokens'))
  exact absurd (congrArg List.length hforms) (by decide)

end PreSeQL.Client
