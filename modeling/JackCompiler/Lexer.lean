import JackCompiler.Token
import JackCompiler.Error
import JackCompiler.Text.Blank

namespace JackCompiler

inductive LexemeKind
  | blank
  | lineComment
  | blockComment (closed : Bool)
  | string (closed : Bool)
  | symbol
  | word
  deriving DecidableEq

structure Lexeme where
  kind : LexemeKind
  text : List Char
  rest : List Char

def isWordChar (c : Char) : Bool := !(isBlank c || symbols.contains c || c == '"')

namespace Lexeme

def ofBlockComment (body : List Char) : List Char → Lexeme
  | '*' :: '/' :: rest => ⟨.blockComment true, ('/' :: '*' :: body).reverse, rest⟩
  | c :: rest => ofBlockComment (c :: body) rest
  | [] => ⟨.blockComment false, body.reverse, []⟩

def ofString (cs : List Char) : Lexeme :=
  let within (c : Char) : Bool := c != '"' && c != '\n'
  match cs.dropWhile within with
  | '"' :: rest => ⟨.string true, '"' :: cs.takeWhile within ++ ['"'], rest⟩
  | rest => ⟨.string false, '"' :: cs.takeWhile within, rest⟩

def ofRun (kind : LexemeKind) (test : Char → Bool) (c : Char) (cs : List Char) : Lexeme :=
  ⟨kind, c :: cs.takeWhile test, cs.dropWhile test⟩

def first (c : Char) (cs : List Char) : Lexeme :=
  if isBlank c then
    ofRun .blank isBlank c cs
  else if c = '/' ∧ cs.head? = some '/' then
    ofRun .lineComment (· != '\n') c cs
  else if c = '/' ∧ cs.head? = some '*' then
    ofBlockComment ['*', '/'] cs.tail
  else if c = '"' then
    ofString cs
  else if symbols.contains c then
    ⟨.symbol, [c], cs⟩
  else
    ofRun .word isWordChar c cs

def lines (lexeme : Lexeme) : Nat := lexeme.text.count '\n'

end Lexeme

def isDigit (c : Char) : Bool := '0' ≤ c && c ≤ '9'

def isLetter (c : Char) : Bool := ('a' ≤ c && c ≤ 'z') || ('A' ≤ c && c ≤ 'Z') || c == '_'

def decimalValue (digits : List Char) : Nat :=
  digits.foldl (fun value digit => 10 * value + (digit.toNat - '0'.toNat)) 0

def isIdentifier : List Char → Bool
  | c :: cs => isLetter c && cs.all fun d => isLetter d || isDigit d
  | [] => false

def wordKind (word : List Char) : Except LexicalFault TokenKind :=
  let text := String.ofList word
  if word.head?.any isDigit then
    if !word.all isDigit then
      .error (.notAnInteger text)
    else if decimalValue word ≤ maxIntegerConstant then
      .ok .integerConstant
    else
      .error (.integerOutOfRange text)
  else if keywords.contains text then
    .ok .keyword
  else if isIdentifier word then
    .ok .identifier
  else
    .error (.invalidIdentifier text)

/-- What a stream delivers: a token, or why there is none. -/
abbrev Item := Except CompileError Token

def Lexeme.item? (line : Nat) (lexeme : Lexeme) : Option Item :=
  let text := String.ofList lexeme.text
  match lexeme.kind with
  | .blank | .lineComment | .blockComment true => none
  | .blockComment false => some (.error (.lexical line .unterminatedComment))
  | .string true => some (.ok ⟨line, .stringConstant, text⟩)
  | .string false => some (.error (.lexical line (.malformedString text)))
  | .symbol => some (.ok ⟨line, .symbol, text⟩)
  | .word =>
    match wordKind lexeme.text with
    | .ok kind => some (.ok ⟨line, kind, text⟩)
    | .error fault => some (.error (.lexical line fault))

theorem Lexeme.ofBlockComment_rest_length (body cs : List Char) :
    (ofBlockComment body cs).rest.length ≤ cs.length := by
  fun_induction ofBlockComment body cs with
  | case1 => simp; omega
  | case2 => simp; omega
  | case3 => simp

theorem Lexeme.ofString_rest_length (cs : List Char) : (ofString cs).rest.length ≤ cs.length := by
  simp only [ofString]
  have bound := (List.dropWhile_suffix (fun c : Char => c != '"' && c != '\n') (l := cs)).length_le
  split
  · rename_i rest equal
    rw [equal] at bound
    exact Nat.le_of_succ_le bound
  · exact bound

theorem Lexeme.first_rest_length (c : Char) (cs : List Char) :
    (first c cs).rest.length ≤ cs.length := by
  unfold first
  split
  · exact (List.dropWhile_suffix _).length_le
  split
  · exact (List.dropWhile_suffix _).length_le
  split
  · exact Nat.le_trans (ofBlockComment_rest_length _ _) (by simp)
  split
  · exact ofString_rest_length cs
  split
  · exact Nat.le_refl _
  · exact (List.dropWhile_suffix _).length_le

def itemsFrom (line : Nat) (done : List Item) : List Char → List Item
  | [] => (.ok (.endOfFile line) :: done).reverse
  | c :: cs =>
    let lexeme := Lexeme.first c cs
    match lexeme.item? line with
    | none => itemsFrom (line + lexeme.lines) done lexeme.rest
    | some (.ok token) => itemsFrom (line + lexeme.lines) (.ok token :: done) lexeme.rest
    | some (.error e) => (.error e :: done).reverse
termination_by cs => cs.length
decreasing_by all_goals exact Nat.lt_succ_of_le (Lexeme.first_rest_length c cs)

/-- The stream of a source text: its tokens and the end of file, or its tokens before the first
lexeme that is none, and the reason. -/
def items (source : List Char) : List Item := itemsFrom 1 [] source

end JackCompiler
