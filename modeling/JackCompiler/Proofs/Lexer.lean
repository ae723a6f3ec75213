import JackCompiler.Lexer
import JackCompiler.Proofs.Phrase.Grammar
import JackCompiler.Proofs.Phrase.Reading
import Mathlib.Data.List.TakeWhile

namespace JackCompiler

/-- What the lexer makes sure of. -/
def Token.WellFormed (token : Token) : Prop :=
  match token.kind with
  | .keyword => token.value ∈ keywords
  | .symbol => ∃ c ∈ symbols, token.value = String.singleton c
  | .identifier => isIdentifier token.value.toList = true ∧ token.value ∉ keywords
  | .integerConstant =>
    token.value.toList ≠ [] ∧ token.value.toList.all isDigit = true ∧
      decimalValue token.value.toList ≤ maxIntegerConstant
  | .stringConstant | .eof => True

theorem Token.WellFormed.proper {token : Token} (formed : token.WellFormed) : token.Proper := by
  unfold WellFormed at formed
  refine ⟨fun kind => ?_, fun kind => ?_⟩
  · simpa [kind] using formed
  · simpa [kind] using formed

private theorem wordKind_wellFormed {line : Nat} {word : List Char} {kind : TokenKind}
    (some : word ≠ []) (same : wordKind word = .ok kind) :
    Token.WellFormed ⟨line, kind, String.ofList word⟩ := by
  unfold wordKind at same
  simp only at same
  split at same
  · split at same
    · cases same
    · split at same
      · cases same
        rename_i digits bound
        simpa [Token.WellFormed, some] using ⟨by simpa using digits, bound⟩
      · cases same
  · split at same
    · cases same
      rename_i reserved
      simpa [Token.WellFormed] using reserved
    · split at same
      · cases same
        rename_i free identifier
        simpa [Token.WellFormed] using ⟨identifier, by simpa using free⟩
      · cases same

namespace Lexeme

/-- What a lexeme can be, and where it has to stop. -/
inductive Read : Lexeme → Prop
  | blank {run rest : List Char} : (∀ c ∈ run, isBlank c = true) → Read ⟨.blank, run, rest⟩
  | lineComment {body rest : List Char} : '\n' ∉ body → (∀ c ∈ rest.head?, c = '\n') →
    Read ⟨.lineComment, '/' :: '/' :: body, rest⟩
  | blockComment {body rest : List Char} : ¬ ['*', '/'] <:+: body ++ ['*'] →
    Read ⟨.blockComment true, '/' :: '*' :: (body ++ ['*', '/']), rest⟩
  | openComment {body : List Char} : ¬ ['*', '/'] <:+: body →
    Read ⟨.blockComment false, '/' :: '*' :: body, []⟩
  | string {body rest : List Char} : (∀ c ∈ body, c ≠ '"' ∧ c ≠ '\n') →
    Read ⟨.string true, '"' :: (body ++ ['"']), rest⟩
  | openString {body rest : List Char} : (∀ c ∈ body, c ≠ '"' ∧ c ≠ '\n') →
    (∀ c ∈ rest.head?, c = '\n') → Read ⟨.string false, '"' :: body, rest⟩
  | symbol {c : Char} {rest : List Char} : c ∈ symbols →
    (c = '/' → ∀ d ∈ rest.head?, d ≠ '/' ∧ d ≠ '*') → Read ⟨.symbol, [c], rest⟩
  | word {word rest : List Char} : word ≠ [] → (∀ c ∈ word, isWordChar c = true) →
    (∀ c ∈ rest.head?, isWordChar c = false) → Read ⟨.word, word, rest⟩

theorem head?_dropWhile {test : Char → Bool} {cs : List Char} :
    ∀ c ∈ (cs.dropWhile test).head?, test c = false := by
  intro c member
  have found := List.head?_dropWhile_not test cs
  rw [Option.mem_def.mp member] at found
  simpa using found

private theorem closing_infix {cs : List Char} {c d : Char}
    (inside : ['*', '/'] <:+: cs ++ [c, d]) :
    ['*', '/'] <:+: cs ++ [c] ∨ c = '*' ∧ d = '/' := by
  have split : cs ++ [c, d] = (cs ++ [c]) ++ [d] := by simp
  rw [split, List.infix_concat_iff] at inside
  rcases inside with last | before
  · right
    rw [← split] at last
    have same := List.append_inj_right' last.choose_spec rfl
    simpa [eq_comm] using same
  · exact .inl before

theorem ofBlockComment_read (body cs : List Char) :
    ∀ inner, body = inner ++ ['*', '/'] → ¬ ['*', '/'] <:+: inner.reverse ++ cs.head?.toList →
      (ofBlockComment body cs).Read ∧
      (ofBlockComment body cs).text ++ (ofBlockComment body cs).rest = body.reverse ++ cs := by
  -- A comment that has been read up to somewhere goes on to the first closing mark after that.
  fun_induction ofBlockComment body cs with
  | case1 body rest =>
    rintro inner rfl opened
    refine ⟨?_, by simp⟩
    have read : Read ⟨_, _, rest⟩ := .blockComment opened
    simpa using read
  | case2 body c rest other ih =>
    rintro inner rfl opened
    have still : ¬ ['*', '/'] <:+: (c :: inner).reverse ++ rest.head?.toList := by
      intro closed
      cases rest with
      | nil => exact opened (by simpa using closed)
      | cons d rest =>
        rcases closing_infix (by simpa using closed) with before | ⟨rfl, rfl⟩
        · exact opened before
        · exact other rest rfl rfl
    obtain ⟨read, same⟩ := ih (c :: inner) rfl still
    exact ⟨read, by simpa using same⟩
  | case3 body =>
    rintro inner rfl opened
    refine ⟨?_, by simp⟩
    have read : Read ⟨_, '/' :: '*' :: inner.reverse, _⟩ := .openComment (by simpa using opened)
    simpa using read

theorem ofString_read (cs : List Char) :
    (ofString cs).Read ∧ (ofString cs).text ++ (ofString cs).rest = '"' :: cs := by
  have inner : ∀ c ∈ cs.takeWhile fun c => c != '"' && c != '\n', c ≠ '"' ∧ c ≠ '\n' := by
    intro c member
    simpa using List.mem_takeWhile_imp member
  have whole : cs.takeWhile (fun c => c != '"' && c != '\n') ++
      cs.dropWhile (fun c => c != '"' && c != '\n') = cs := List.takeWhile_append_dropWhile
  simp only [ofString]
  split
  case h_1 rest next =>
    rw [next] at whole
    exact ⟨.string inner, by simpa using whole⟩
  case h_2 rest other =>
    refine ⟨.openString inner fun c member => ?_, congrArg _ whole⟩
    -- What stops the string is a quote or the end of the line, and it is no quote.
    have stop := head?_dropWhile c member
    obtain ⟨more, next⟩ := List.head?_eq_some_iff.mp (Option.mem_def.mp member)
    rcases Bool.and_eq_false_iff.mp stop with quote | line
    · obtain rfl : c = '"' := by simpa using quote
      exact absurd next (other more)
    · simpa using line

theorem ofRun_text (kind : LexemeKind) (test : Char → Bool) (c : Char) (cs : List Char) :
    (ofRun kind test c cs).text ++ (ofRun kind test c cs).rest = c :: cs :=
  congrArg _ List.takeWhile_append_dropWhile

theorem first_read (c : Char) (cs : List Char) :
    (first c cs).Read ∧ (first c cs).text ++ (first c cs).rest = c :: cs := by
  unfold first
  split
  · rename_i blank
    refine ⟨.blank (List.forall_mem_cons.mpr ⟨blank, ?_⟩), ofRun_text _ _ _ _⟩
    exact fun _ member => List.mem_takeWhile_imp member
  split
  · rename_i slashes
    obtain ⟨rfl, next⟩ := slashes
    obtain ⟨cs, rfl⟩ := List.head?_eq_some_iff.mp next
    refine ⟨@Read.lineComment (cs.takeWhile (· != '\n')) _ ?_ ?_, ofRun_text _ _ _ _⟩
    · exact fun member => by simpa using List.mem_takeWhile_imp member
    · intro c member
      simpa using head?_dropWhile c member
  split
  · rename_i _ marks
    obtain ⟨rfl, next⟩ := marks
    obtain ⟨cs, rfl⟩ := List.head?_eq_some_iff.mp next
    refine ofBlockComment_read _ cs [] rfl fun closed => ?_
    have short := closed.length_le
    cases cs <;> simp at short
  split
  · rename_i quote
    exact quote ▸ ofString_read cs
  split
  · rename_i _ line block _ symbol
    refine ⟨.symbol (by simpa using symbol) ?_, rfl⟩
    rintro rfl d member
    exact ⟨fun same => line ⟨rfl, same ▸ member⟩, fun same => block ⟨rfl, same ▸ member⟩⟩
  · rename_i blank _ _ quote symbol
    have own : isWordChar c = true := by simp_all [isWordChar]
    refine ⟨.word (List.cons_ne_nil _ _) (List.forall_mem_cons.mpr ⟨own, ?_⟩) head?_dropWhile,
      ofRun_text _ _ _ _⟩
    exact fun _ member => List.mem_takeWhile_imp member

end Lexeme

theorem item_wellFormed {line : Nat} {lexeme : Lexeme} {token : Token} (read : lexeme.Read)
    (same : lexeme.item? line = some (.ok token)) : token.WellFormed := by
  cases read with
  | blank | lineComment | blockComment | openComment | openString => cases same
  | string => cases same; trivial
  | symbol symbol => cases same; exact ⟨_, symbol, rfl⟩
  | word some =>
    simp only [Lexeme.item?] at same
    split at same
    · cases same
      exact wordKind_wellFormed some ‹_›
    · cases same

theorem itemsFrom_nil (line : Nat) (done : List Item) :
    itemsFrom line done [] = (.ok (.endOfFile line) :: done).reverse := by
  rw [itemsFrom.eq_def]

theorem itemsFrom_cons (line : Nat) (done : List Item) (c : Char) (cs : List Char) :
    itemsFrom line done (c :: cs) =
      match (Lexeme.first c cs).item? line with
      | none => itemsFrom (line + (Lexeme.first c cs).lines) done (Lexeme.first c cs).rest
      | some (.ok token) =>
        itemsFrom (line + (Lexeme.first c cs).lines) (.ok token :: done) (Lexeme.first c cs).rest
      | some (.error e) => (.error e :: done).reverse :=
  itemsFrom.eq_def line done (c :: cs)

private theorem itemsFrom_wellFormed {line : Nat} {done : List Item} {cs : List Char}
    (formed : ∀ token, .ok token ∈ done → token.WellFormed) :
    ∀ token, .ok token ∈ itemsFrom line done cs → token.WellFormed := by
  fun_induction itemsFrom line done cs with
  | case1 line done =>
    intro token member
    rcases List.mem_cons.mp (List.mem_reverse.mp member) with same | member
    · cases same
      trivial
    · exact formed token member
  | case2 line done c cs lexeme none ih => exact ih formed
  | case3 line done c cs lexeme token item ih =>
    refine ih fun other member => ?_
    rcases List.mem_cons.mp member with same | member
    · cases same
      exact item_wellFormed (Lexeme.first_read c cs).1 item
    · exact formed other member
  | case4 line done c cs lexeme e item =>
    intro token member
    rcases List.mem_cons.mp (List.mem_reverse.mp member) with same | member
    · cases same
    · exact formed token member

theorem items_wellFormed (source : List Char) :
    ∀ token, .ok token ∈ items source → token.WellFormed :=
  itemsFrom_wellFormed (by simp)

theorem source_tokens_wellFormed {entry : EntryPoint} {source : List Char} {phrase : Phrase}
    (read : parse entry (items source) = .ok phrase) : ∀ t ∈ phrase.tokens, t.WellFormed := by
  obtain ⟨close, rest, stream, -⟩ := parse_reads read
  intro t member
  apply items_wellFormed source t
  rw [stream]
  exact List.mem_append_left _ (List.mem_map_of_mem member)

end JackCompiler
