import JackCompiler.Phrase.Basic

/-!
# The grammar

The productions of the language as data, and the words they derive. Nesting belongs to the grammar:
a word is derived within some room, which the phrases that nest use up level by level.
-/

namespace JackCompiler

/-- A reserved word that is reserved, and a symbol that is one of the symbols. Other tokens may hold
any text. -/
def Token.Proper (token : Token) : Prop :=
  (token.kind = .keyword → token.value ∈ keywords) ∧
    (token.kind = .symbol → ∃ c ∈ symbols, token.value = String.singleton c)

instance : DecidablePred Token.Proper := fun token =>
  letI : Decidable (∃ c ∈ symbols, token.value = String.singleton c) := List.decidableBEx _ _
  inferInstanceAs (Decidable (_ ∧ _))

namespace Token

variable {token : Token} {values : List String}

private theorem symbols_apart : ∀ v ∈ symbols.map String.singleton, v ∉ keywords := by decide

theorem Proper.isKeyword (proper : token.Proper) (one : token.isOneOf values = true)
    (reserved : ∀ v ∈ values, v ∈ keywords) : token.kind = .keyword ∧ token.value ∈ values := by
  simp only [isOneOf, Bool.and_eq_true, Bool.or_eq_true, beq_iff_eq, List.contains_iff_mem] at one
  obtain ⟨keyword | symbol, member⟩ := one
  · exact ⟨keyword, member⟩
  · obtain ⟨c, found, same⟩ := proper.2 symbol
    rw [same] at member
    exact absurd (reserved _ member) (symbols_apart _ (List.mem_map_of_mem found))

theorem Proper.isSymbol (proper : token.Proper) (one : token.isOneOf values = true)
    (marks : ∀ v ∈ values, v ∈ symbols.map String.singleton) :
    token.kind = .symbol ∧ token.value ∈ values := by
  simp only [isOneOf, Bool.and_eq_true, Bool.or_eq_true, beq_iff_eq, List.contains_iff_mem] at one
  obtain ⟨keyword | symbol, member⟩ := one
  · exact absurd (proper.1 keyword) (symbols_apart _ (marks _ member))
  · exact ⟨symbol, member⟩

end Token

namespace Grammar

inductive Nonterminal
  | classDeclaration
  | classVariables
  | subroutineDeclaration
  | parameters
  | subroutineBody
  | localVariables
  | type
  | statements
  | statement
  | block
  | expression
  | term
  | call
  | arguments
  deriving DecidableEq

inductive Rule
  | keyword (values : List String)
  | symbol (values : List String)
  | token (kind : TokenKind)
  | phrase (nonterminal : Nonterminal)
  | nothing
  | sequence (first second : Rule)
  | choice (first second : Rule)
  /-- Any number of repetitions, all on one level. -/
  | many (rule : Rule)
  /-- Any number of repetitions, each one level deeper than the one before it. -/
  | descend (rule : Rule)
  /-- One level deeper. -/
  | deeper (rule : Rule)

namespace Rule

def row (rules : List Rule) : Rule := rules.foldr sequence nothing

def optional (rule : Rule) : Rule := choice rule nothing

def identifier : Rule := token .identifier

def commaList (rule : Rule) : Rule := row [rule, many (row [symbol [","], rule])]

end Rule

open Rule

def production : Nonterminal → Rule
  | .classDeclaration =>
    row [keyword ["class"], identifier, symbol ["\x7b"], many (phrase .classVariables),
      many (phrase .subroutineDeclaration), symbol ["\x7d"]]
  | .classVariables =>
    row [keyword ["static", "field"], phrase .type, commaList identifier, symbol [";"]]
  | .subroutineDeclaration =>
    row [keyword ["constructor", "function", "method"],
      choice (keyword ["void"]) (phrase .type), identifier, symbol ["("], phrase .parameters,
      symbol [")"], phrase .subroutineBody]
  | .parameters => optional (commaList (row [phrase .type, identifier]))
  | .subroutineBody =>
    row [symbol ["\x7b"], many (phrase .localVariables), phrase .statements, symbol ["\x7d"]]
  | .localVariables => row [keyword ["var"], phrase .type, commaList identifier, symbol [";"]]
  | .type => choice (keyword ["int", "char", "boolean"]) identifier
  | .statements => deeper (many (phrase .statement))
  | .statement =>
    choice
      (row [keyword ["let"], identifier,
        optional (row [symbol ["["], phrase .expression, symbol ["]"]]), symbol ["="],
        phrase .expression, symbol [";"]]) <|
    choice
      (row [keyword ["if"], symbol ["("], phrase .expression, symbol [")"], phrase .block,
        optional (row [keyword ["else"], phrase .block])]) <|
    choice
      (row [keyword ["while"], symbol ["("], phrase .expression, symbol [")"], phrase .block]) <|
    choice
      (row [keyword ["do"], phrase .call, symbol [";"]])
      (row [keyword ["return"], optional (phrase .expression), symbol [";"]])
  | .block => row [symbol ["\x7b"], phrase .statements, symbol ["\x7d"]]
  | .expression =>
    row [phrase .term,
      descend (row [symbol ["+", "-", "*", "/", "&", "|", "<", ">", "="], phrase .term])]
  | .term =>
    deeper <|
      choice (token .integerConstant) <|
      choice (token .stringConstant) <|
      choice (keyword ["true", "false", "null", "this"]) <|
      choice identifier <|
      choice (row [identifier, symbol ["["], phrase .expression, symbol ["]"]]) <|
      choice (phrase .call) <|
      choice (row [symbol ["("], phrase .expression, symbol [")"]])
        (row [symbol ["-", "~"], phrase .term])
  | .call =>
    row [identifier, optional (row [symbol ["."], choice identifier (token .keyword)]),
      symbol ["("], phrase .arguments, symbol [")"]]
  | .arguments => optional (commaList (phrase .expression))

def start : EntryPoint → Rule
  | .classDeclaration => phrase .classDeclaration
  | .classVariables => many (phrase .classVariables)
  | .subroutineDeclaration => phrase .subroutineDeclaration
  | .parameters => phrase .parameters
  | .subroutineBody => phrase .subroutineBody
  | .statements => phrase .statements
  | .statement => phrase .statement
  | .expression => phrase .expression
  | .term => phrase .term
  | .arguments => phrase .arguments

/-- The words a rule derives in so much room. -/
inductive Derives : Nat → Rule → List Token → Prop
  | keyword {room values token} (kind : token.kind = .keyword) (one : token.value ∈ values) :
    Derives room (.keyword values) [token]
  | symbol {room values token} (kind : token.kind = .symbol) (one : token.value ∈ values) :
    Derives room (.symbol values) [token]
  | token {room token} : Derives room (.token token.kind) [token]
  | phrase {room nonterminal w} (body : Derives room (production nonterminal) w) :
    Derives room (.phrase nonterminal) w
  | nothing {room} : Derives room .nothing []
  | sequence {room first second u v} (left : Derives room first u)
    (right : Derives room second v) : Derives room (.sequence first second) (u ++ v)
  | first {room first second w} (here : Derives room first w) :
    Derives room (.choice first second) w
  | second {room first second w} (here : Derives room second w) :
    Derives room (.choice first second) w
  | none {room rule} : Derives room (.many rule) []
  | more {room rule u v} (one : Derives room rule u) (rest : Derives room (.many rule) v) :
    Derives room (.many rule) (u ++ v)
  | bottom {room rule} : Derives room (.descend rule) []
  | down {room rule u v} (one : Derives room rule u) (rest : Derives room (.descend rule) v) :
    Derives (room + 1) (.descend rule) (u ++ v)
  | deeper {room rule w} (body : Derives room rule w) : Derives (room + 1) (.deeper rule) w

def Holds (meaning : Nat → Nonterminal → List Token → Prop) : Nat → Rule → List Token → Prop
  | _, .keyword values, w => ∃ token, w = [token] ∧ token.kind = .keyword ∧ token.value ∈ values
  | _, .symbol values, w => ∃ token, w = [token] ∧ token.kind = .symbol ∧ token.value ∈ values
  | _, .token kind, w => ∃ token, w = [token] ∧ token.kind = kind
  | room, .phrase nonterminal, w => meaning room nonterminal w
  | _, .nothing, w => w = []
  | room, .sequence first second, w =>
    ∃ u v, w = u ++ v ∧ Holds meaning room first u ∧ Holds meaning room second v
  | room, .choice first second, w => Holds meaning room first w ∨ Holds meaning room second w
  | room, .many rule, w => ∃ parts : List (List Token),
    w = parts.flatten ∧ ∀ part ∈ parts, Holds meaning room rule part
  | room, .descend rule, w => ∃ parts : List (List Token), w = parts.flatten ∧
    parts.length ≤ room ∧
      ∀ i part, parts[i]? = some part → Holds meaning (room - (i + 1)) rule part
  | room, .deeper rule, w => ∃ inner, room = inner + 1 ∧ Holds meaning inner rule w

variable {meaning : Nat → Nonterminal → List Token → Prop}

/-- Derivations are the least reading of the nonterminals that is closed under the productions. -/
theorem Derives.holds
    (closed : ∀ room nonterminal w, Holds meaning room (production nonterminal) w →
      meaning room nonterminal w) {room : Nat} {rule : Rule} {w : List Token}
    (derives : Derives room rule w) : Holds meaning room rule w := by
  induction derives with
  | keyword kind one => exact ⟨_, rfl, kind, one⟩
  | symbol kind one => exact ⟨_, rfl, kind, one⟩
  | token => exact ⟨_, rfl, rfl⟩
  | phrase body ih => exact closed _ _ _ ih
  | nothing => rfl
  | sequence left right ihl ihr => exact ⟨_, _, rfl, ihl, ihr⟩
  | first here ih => exact .inl ih
  | second here ih => exact .inr ih
  | none => exact ⟨[], rfl, by simp⟩
  | more one rest ih₁ ih₂ =>
    obtain ⟨parts, rfl, each⟩ := ih₂
    exact ⟨_ :: parts, rfl, by simpa using ⟨ih₁, each⟩⟩
  | bottom => exact ⟨[], rfl, Nat.zero_le _, by simp⟩
  | down one rest ih₁ ih₂ =>
    obtain ⟨parts, rfl, fits, each⟩ := ih₂
    refine ⟨_ :: parts, rfl, Nat.succ_le_succ fits, fun i part found => ?_⟩
    cases i with
    | zero => cases found; exact ih₁
    | succ i => rw [Nat.add_sub_add_right]; exact each i part found
  | deeper body ih => exact ⟨_, rfl, ih⟩

namespace Derives

variable {room : Nat} {rule : Rule} {rules : List Rule} {u v : List Token}

theorem row_cons (first : Derives room rule u) (rest : Derives room (row rules) v) :
    Derives room (row (rule :: rules)) (u ++ v) :=
  .sequence first rest

theorem row_last (only : Derives room rule u) : Derives room (row [rule]) u := by
  rw [← u.append_nil]
  exact .sequence only .nothing

theorem many_flatMap {α : Type} {tokens : α → List Token} {all : List α}
    (each : ∀ x ∈ all, Derives room rule (tokens x)) :
    Derives room (many rule) (all.flatMap tokens) := by
  induction all with
  | nil => exact .none
  | cons x all ih =>
    exact .more (each x (.head _)) (ih fun y member => each y (.tail _ member))

end Derives

end Grammar

end JackCompiler
