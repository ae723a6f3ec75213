import JackCompiler.Proofs.Lexer
import JackCompiler.Proofs.Phrase.Acceptance

namespace JackCompiler

section Characters

variable {c : Char}

theorem toNat_of_isBlank (blank : isBlank c = true) : c.toNat ≤ 32 ∨ 133 ≤ c.toNat := by
  simp only [isBlank, Bool.or_eq_true, Bool.and_eq_true, decide_eq_true_eq, beq_iff_eq,
    Char.le_def, UInt32.le_iff_toNat_le] at blank
  change (((((((((((9 ≤ c.toNat ∧ c.toNat ≤ 13) ∨ _) ∨ _) ∨ _) ∨ _) ∨
    8192 ≤ c.toNat ∧ c.toNat ≤ 8202) ∨ _) ∨ _) ∨ _) ∨ _) ∨ _) at blank
  rcases blank with ((((((((((h | rfl) | rfl) | rfl) | rfl) | h) | rfl) | rfl) | rfl) | rfl) | rfl)
  all_goals first | omega | decide

theorem toNat_of_isLetter (letter : isLetter c = true) : 65 ≤ c.toNat ∧ c.toNat ≤ 122 := by
  simp only [isLetter, Bool.or_eq_true, Bool.and_eq_true, decide_eq_true_eq, beq_iff_eq,
    Char.le_def, UInt32.le_iff_toNat_le] at letter
  change ((97 ≤ c.toNat ∧ c.toNat ≤ 122) ∨ (65 ≤ c.toNat ∧ c.toNat ≤ 90)) ∨ _ at letter
  rcases letter with (h | h) | rfl
  · omega
  · omega
  · decide

theorem toNat_of_isDigit (digit : isDigit c = true) : 48 ≤ c.toNat ∧ c.toNat ≤ 57 := by
  simp only [isDigit, Bool.and_eq_true, decide_eq_true_eq, Char.le_def,
    UInt32.le_iff_toNat_le] at digit
  exact digit

theorem isBlank_of_mem_symbols (symbol : c ∈ symbols) : isBlank c = false := by
  have all : symbols.all (!isBlank ·) = true := by decide
  simpa using List.all_eq_true.mp all c symbol

theorem isWordChar_of_named (named : (isLetter c || isDigit c) = true) : isWordChar c = true := by
  have range : 48 ≤ c.toNat ∧ c.toNat ≤ 122 := by
    rcases Bool.or_eq_true_iff.mp named with letter | digit
    · have := toNat_of_isLetter letter
      omega
    · have := toNat_of_isDigit digit
      omega
  have marks : ('"' :: symbols).all (fun s => !(isLetter s || isDigit s)) = true := by decide
  have other : c ∉ '"' :: symbols := fun member => by
    simpa [named] using List.all_eq_true.mp marks c member
  have blank : isBlank c = false := by
    apply Bool.eq_false_iff.mpr
    intro blank
    have := toNat_of_isBlank blank
    omega
  rw [List.mem_cons, not_or] at other
  simp [isWordChar, blank, other.1, other.2]

theorem isDigit_of_isLetter (letter : isLetter c = true) : isDigit c = false := by
  apply Bool.eq_false_iff.mpr
  intro digit
  have := toNat_of_isLetter letter
  have := toNat_of_isDigit digit
  omega

theorem isWordChar_iff : isWordChar c = true ↔ isBlank c = false ∧ c ∉ symbols ∧ c ≠ '"' := by
  simp [isWordChar, and_assoc]

end Characters

def Token.Printable (token : Token) : Prop :=
  token.WellFormed ∧ token.kind ≠ .eof ∧
    (token.kind = .stringConstant → ∃ body, token.value.toList = '"' :: (body ++ ['"']) ∧
      ∀ c ∈ body, c ≠ '"' ∧ c ≠ '\n')

instance : DecidablePred Token.WellFormed := fun token =>
  match token with
  | ⟨_, .keyword, value⟩ => inferInstanceAs (Decidable (value ∈ keywords))
  | ⟨_, .symbol, value⟩ =>
    decidable_of_iff (symbols.any (value == String.singleton ·) = true)
      (by simp only [List.any_eq_true, beq_iff_eq, Token.WellFormed])
  | ⟨_, .identifier, value⟩ =>
    inferInstanceAs (Decidable (isIdentifier value.toList = true ∧ value ∉ keywords))
  | ⟨_, .integerConstant, value⟩ =>
    inferInstanceAs (Decidable (value.toList ≠ [] ∧ value.toList.all isDigit = true ∧
      decimalValue value.toList ≤ maxIntegerConstant))
  | ⟨_, .stringConstant, _⟩ | ⟨_, .eof, _⟩ => inferInstanceAs (Decidable True)

theorem Token.WellFormed.printable {token : Token} (formed : token.WellFormed)
    (inside : token.kind ≠ .eof) (bare : token.kind ≠ .stringConstant) : token.Printable :=
  ⟨formed, inside, fun quoted => absurd quoted bare⟩

def Token.quote (line : Nat) (body : List Char) : Token :=
  ⟨line, .stringConstant, String.ofList ('"' :: (body ++ ['"']))⟩

theorem Token.quote_printable (line : Nat) {body : List Char}
    (inner : ∀ c ∈ body, c ≠ '"' ∧ c ≠ '\n') : (quote line body).Printable :=
  ⟨trivial, nofun, fun _ => ⟨body, by simp [quote], inner⟩⟩

@[simp]
theorem Token.unquoted_quote (line : Nat) (body : List Char) :
    (quote line body).unquoted = String.ofList body := by
  have quotes : 2 ≤ (quote line body).value.utf8ByteSize := by
    have mark := '"'.utf8Size_pos
    simp only [quote, String.ofList_cons, String.ofList_append, String.utf8ByteSize_append,
      String.utf8ByteSize_singleton, String.ofList_nil]
    omega
  rw [unquoted, if_pos ⟨rfl, quotes⟩]
  simp [quote]

def TokenKind.isWord : TokenKind → Bool
  | .keyword | .identifier | .integerConstant => true
  | .symbol | .stringConstant | .eof => false

def Apart (rest : List Char) : Prop := ∀ c, rest.head? = some c → isBlank c = true

theorem isWordChar_of_isBlank {c : Char} (blank : isBlank c = true) : isWordChar c = false := by
  simp [isWordChar, blank]

theorem division_of_isBlank {c : Char} (blank : isBlank c = true) : c ≠ '/' ∧ c ≠ '*' := by
  constructor <;> rintro rfl <;> revert blank <;> decide

theorem Apart.maximal {rest : List Char} (apart : Apart rest) :
    ∀ c ∈ rest.head?, isWordChar c = false :=
  fun c next => isWordChar_of_isBlank (apart c next)

theorem Apart.division {rest : List Char} (apart : Apart rest) :
    ∀ c ∈ rest.head?, c ≠ '/' ∧ c ≠ '*' :=
  fun c next => division_of_isBlank (apart c next)

section Words

variable {token : Token} {rest : List Char}

theorem takeWhile_of_head (test : Char → Bool) (stop : ∀ c ∈ rest.head?, test c = false) :
    rest.takeWhile test = [] ∧ rest.dropWhile test = rest := by
  cases rest with
  | nil => exact ⟨rfl, rfl⟩
  | cons c rest =>
    have first := stop c rfl
    exact ⟨List.takeWhile_cons_of_neg (by simp [first]),
      List.dropWhile_cons_of_neg (by simp [first])⟩

theorem wordKind_keyword (reserved : token.value ∈ keywords) :
    token.value.toList ≠ [] ∧ (∀ c ∈ token.value.toList, isWordChar c = true) ∧
      wordKind token.value.toList = .ok .keyword := by
  have all : ∀ text ∈ keywords, text.toList ≠ [] ∧ text.toList.all isLetter = true := by decide
  obtain ⟨some, letters⟩ := all _ reserved
  rw [List.all_eq_true] at letters
  have first : token.value.toList.head?.any isDigit = false := by
    cases text : token.value.toList with
    | nil => rfl
    | cons c cs => exact isDigit_of_isLetter (letters c (text ▸ .head _))
  refine ⟨some, fun c member => isWordChar_of_named (by simp [letters c member]), ?_⟩
  rw [wordKind, first, String.ofList_toList]
  simp [reserved]

theorem wordKind_identifier (identifier : isIdentifier token.value.toList = true)
    (free : token.value ∉ keywords) :
    token.value.toList ≠ [] ∧ (∀ c ∈ token.value.toList, isWordChar c = true) ∧
      wordKind token.value.toList = .ok .identifier := by
  rw [wordKind, identifier, String.ofList_toList]
  cases text : token.value.toList with
  | nil =>
    rw [text] at identifier
    cases identifier
  | cons c cs =>
    rw [text, isIdentifier, Bool.and_eq_true, List.all_eq_true] at identifier
    refine ⟨List.cons_ne_nil _ _, ?_, ?_⟩
    · rw [List.forall_mem_cons]
      exact ⟨isWordChar_of_named (by simp [identifier.1]),
        fun d member => isWordChar_of_named (identifier.2 d member)⟩
    · simp [isDigit_of_isLetter identifier.1, free]

theorem wordKind_integer (some : token.value.toList ≠ [])
    (digits : token.value.toList.all isDigit = true)
    (bound : decimalValue token.value.toList ≤ maxIntegerConstant) :
    (∀ c ∈ token.value.toList, isWordChar c = true) ∧
      wordKind token.value.toList = .ok .integerConstant := by
  have each := List.all_eq_true.mp digits
  refine ⟨fun c member => isWordChar_of_named (by simp [each c member]), ?_⟩
  have first : token.value.toList.head?.any isDigit = true := by
    cases text : token.value.toList with
    | nil => exact absurd text some
    | cons c cs => exact each c (text ▸ .head _)
  simp [wordKind, first, digits, bound]

theorem wordKind_of_wellFormed (formed : token.WellFormed)
    (word : token.kind.isWord = true) :
    token.value.toList ≠ [] ∧ (∀ c ∈ token.value.toList, isWordChar c = true) ∧
      wordKind token.value.toList = .ok token.kind := by
  obtain ⟨line, kind, value⟩ := token
  cases kind with
  | keyword => exact wordKind_keyword formed
  | identifier => exact wordKind_identifier formed.1 formed.2
  | integerConstant => exact ⟨formed.1, wordKind_integer formed.1 formed.2.1 formed.2.2⟩
  | symbol | stringConstant | eof => cases word

theorem isWord_of_wordKind {word : List Char} {kind : TokenKind} (same : wordKind word = .ok kind) :
    kind.isWord = true := by
  unfold wordKind at same
  simp only at same
  split_ifs at same <;> cases same <;> rfl

theorem first_word {text : List Char} (some : text ≠ [])
    (made : ∀ c ∈ text, isWordChar c = true) (stop : ∀ c ∈ rest.head?, isWordChar c = false) :
    ∃ c cs, text = c :: cs ∧ Lexeme.first c (cs ++ rest) = ⟨.word, text, rest⟩ := by
  obtain ⟨c, cs, rfl⟩ := List.exists_cons_of_ne_nil some
  have own := isWordChar_iff.mp (made c (.head _))
  have slash : c ≠ '/' := by
    rintro rfl
    exact own.2.1 (by decide)
  have stops := takeWhile_of_head isWordChar stop
  have inner : ∀ d ∈ cs, isWordChar d = true := fun d member => made d (.tail _ member)
  refine ⟨c, cs, rfl, ?_⟩
  simp only [Lexeme.first, own.1, slash, false_and, own.2.1, own.2.2, if_false, List.contains_iff_mem,
    Bool.false_eq_true, Lexeme.ofRun, List.takeWhile_append_of_pos inner, stops.1, List.append_nil,
    List.dropWhile_append_of_pos inner, stops.2]

theorem first_symbol {c : Char} (symbol : c ∈ symbols)
    (division : c = '/' → ∀ d ∈ rest.head?, d ≠ '/' ∧ d ≠ '*') :
    Lexeme.first c rest = ⟨.symbol, [c], rest⟩ := by
  have slashes : ¬ (c = '/' ∧ rest.head? = some '/') := fun ⟨slash, next⟩ =>
    (division slash _ next).1 rfl
  have star : ¬ (c = '/' ∧ rest.head? = some '*') := fun ⟨slash, next⟩ =>
    (division slash _ next).2 rfl
  have quote : c ≠ '"' := by
    rintro rfl
    revert symbol
    decide
  simp only [Lexeme.first, isBlank_of_mem_symbols symbol, slashes, star, quote, if_false,
    Bool.false_eq_true, List.contains_iff_mem, symbol, if_true]

theorem first_string {body : List Char} (inner : ∀ c ∈ body, c ≠ '"' ∧ c ≠ '\n') :
    Lexeme.first '"' (body ++ '"' :: rest) = ⟨.string true, '"' :: (body ++ ['"']), rest⟩ := by
  have within : ∀ c ∈ body, (c != '"' && c != '\n') = true := fun c member => by
    simpa using inner c member
  have quote : isBlank '"' = false := by decide
  simp only [Lexeme.first, quote, Bool.false_eq_true, if_false, Lexeme.ofString,
    List.dropWhile_append_of_pos within, List.takeWhile_append_of_pos within]
  simp

private theorem first_of_word (stop : ∀ c ∈ rest.head?, isWordChar c = false)
    (word : token.value.toList ≠ [] ∧
      (∀ c ∈ token.value.toList, isWordChar c = true) ∧ wordKind token.value.toList = .ok token.kind) :
    ∃ c cs kind, token.value.toList = c :: cs ∧
      Lexeme.first c (cs ++ rest) = ⟨kind, token.value.toList, rest⟩ ∧
      Lexeme.item? token.line ⟨kind, token.value.toList, rest⟩ = some (.ok token) ∧
      '\n' ∉ token.value.toList := by
  obtain ⟨some, made, kind⟩ := word
  obtain ⟨c, cs, text, first⟩ := first_word some made stop
  refine ⟨c, cs, .word, text, first, ?_, fun member => ?_⟩
  · rw [Lexeme.item?]
    simp [kind]
  · exact absurd (made _ member) (by decide)

theorem first_printable (printable : token.Printable)
    (maximal : token.kind.isWord = true → ∀ c ∈ rest.head?, isWordChar c = false)
    (division : token.value = "/" → ∀ c ∈ rest.head?, c ≠ '/' ∧ c ≠ '*') :
    ∃ c cs kind, token.value.toList = c :: cs ∧
      Lexeme.first c (cs ++ rest) = ⟨kind, token.value.toList, rest⟩ ∧
      Lexeme.item? token.line ⟨kind, token.value.toList, rest⟩ = some (.ok token) ∧
      '\n' ∉ token.value.toList := by
  -- A printable token is the first lexeme of its text, unless what follows makes it longer.
  obtain ⟨formed, notEnd, quoted⟩ := printable
  obtain ⟨line, kind, value⟩ := token
  cases kind with
  | keyword => exact first_of_word (maximal rfl) (wordKind_keyword formed)
  | identifier => exact first_of_word (maximal rfl) (wordKind_identifier formed.1 formed.2)
  | integerConstant =>
    exact first_of_word (maximal rfl)
      ⟨formed.1, wordKind_integer formed.1 formed.2.1 formed.2.2⟩
  | symbol =>
    obtain ⟨c, symbol, rfl⟩ := formed
    have text : (String.singleton c).toList = [c] := by simp
    refine ⟨c, [], .symbol, text, ?_, ?_, ?_⟩
    · rw [text]
      refine first_symbol symbol fun slash => division ?_
      rw [slash]
      rfl
    · rw [Lexeme.item?]
      simp
    · rw [text]
      intro member
      rw [← List.mem_singleton.mp member] at symbol
      revert symbol
      decide
  | stringConstant =>
    obtain ⟨body, text, inner⟩ := quoted rfl
    refine ⟨'"', body ++ ['"'], .string true, text, ?_, ?_, ?_⟩
    · change value.toList = _ at text
      rw [List.append_assoc, text]
      exact first_string inner
    · rw [Lexeme.item?]
      simp
    · rw [text]
      simp only [List.mem_cons, List.mem_append, List.not_mem_nil, or_false]
      rintro (mark | member | mark)
      · cases mark
      · exact (inner _ member).2 rfl
      · cases mark
  | eof => exact absurd rfl notEnd

theorem Token.Printable.sameLine (printable : token.Printable) :
    token.value.toList.count '\n' = 0 := by
  obtain ⟨-, -, -, -, -, -, lines⟩ :=
    @first_printable token [] printable (fun _ => nofun) (fun _ => nofun)
  exact List.count_eq_zero.mpr lines

end Words

section Streams

variable {line : Nat} {done : List Item} {token : Token} {rest : List Char}

theorem itemsFrom_printable (printable : token.Printable)
    (maximal : token.kind.isWord = true → ∀ c ∈ rest.head?, isWordChar c = false)
    (division : token.value = "/" → ∀ c ∈ rest.head?, c ≠ '/' ∧ c ≠ '*') :
    itemsFrom token.line done (token.value.toList ++ rest) =
      itemsFrom token.line (.ok token :: done) rest := by
  obtain ⟨c, cs, kind, text, first, item, lines⟩ := first_printable printable maximal division
  rw [text, List.cons_append, itemsFrom_cons, first, item, Lexeme.lines,
    List.count_eq_zero.mpr lines, Nat.add_zero]

private theorem itemsFrom_blanks {c : Char} (blank : isBlank c = true) (cs : List Char) :
    itemsFrom line done (c :: cs) =
      itemsFrom (line + (c :: cs.takeWhile isBlank).count '\n') done (cs.dropWhile isBlank) := by
  have first : Lexeme.first c cs = Lexeme.ofRun .blank isBlank c cs := by
    rw [Lexeme.first, if_pos blank]
  rw [itemsFrom_cons, first]
  rfl

theorem itemsFrom_blank {c : Char} (blank : isBlank c = true) (cs : List Char) :
    itemsFrom line done (c :: cs) = itemsFrom (line + [c].count '\n') done cs := by
  -- A run of blanks can be read one by one.
  rw [itemsFrom_blanks blank]
  -- The run goes on with the blanks that come next, and these are a run by themselves.
  cases cs with
  | nil => rfl
  | cons d cs =>
    cases more : isBlank d with
    | true =>
      rw [itemsFrom_blanks more, List.takeWhile_cons_of_pos more, List.dropWhile_cons_of_pos more,
        List.count_cons, List.count_singleton]
      congr 1
      omega
    | false =>
      rw [List.takeWhile_cons_of_neg (by simp [more]), List.dropWhile_cons_of_neg (by simp [more])]

def spaced (tokens : List Token) : List Char :=
  tokens.flatMap fun token => token.value.toList ++ [' ']

theorem itemsFrom_spaced {tokens : List Token}
    (printable : ∀ t ∈ tokens, t.Printable ∧ t.line = line) :
    itemsFrom line done (spaced tokens) =
      done.reverse ++ (tokens.map .ok ++ [.ok (.endOfFile line)]) := by
  induction tokens generalizing done with
  | nil =>
    rw [spaced, List.flatMap_nil, itemsFrom_nil]
    simp
  | cons token tokens ih =>
    obtain ⟨own, rfl⟩ := printable token (.head _)
    have apart : Apart (' ' :: spaced tokens) := by
      intro c same
      cases same
      decide
    have text : spaced (token :: tokens) = token.value.toList ++ ' ' :: spaced tokens := by
      simp [spaced]
    have sameLine : [' '].count '\n' = 0 := by decide
    rw [text, itemsFrom_printable own (fun _ => apart.maximal) (fun _ => apart.division),
      itemsFrom_blank (by decide), sameLine, Nat.add_zero,
      ih fun t member => printable t (.tail _ member)]
    simp

theorem items_spaced {tokens : List Token} (printable : ∀ t ∈ tokens, t.Printable ∧ t.line = 1) :
    items (spaced tokens) = tokens.map .ok ++ [.ok (.endOfFile 1)] :=
  itemsFrom_spaced printable

theorem parse_spaced {phrase : Phrase} (printable : ∀ t ∈ phrase.tokens, t.Printable ∧ t.line = 1)
    (fits : phrase.nesting ≤ maxNesting) :
    parse phrase.entry (items (spaced phrase.tokens)) = .ok phrase := by
  rw [items_spaced printable]
  exact parse_of_phrase fits (.endOfFile 1) rfl []

end Streams

end JackCompiler
