import JackCompiler.Proofs.Printing

/-!
# Layout of source texts

A source text is its tokens with gaps before, between and after them, up to its end or up to the
first lexeme that is no token. Every character belongs to one of these, and the line of a token is
told by the text before it. Main statement: `items_layout`.
-/

namespace JackCompiler

/-! ## Gaps -/

/-- Text without tokens, before what comes `after` it: blanks, comments that go on to the end of
their line, and comments that end with the first closing mark. -/
inductive Gap (after : List Char) : List Char → Prop
  | nil : Gap after []
  | blank {c : Char} {more : List Char} : isBlank c = true → Gap after more → Gap after (c :: more)
  | lineComment {body more : List Char} : '\n' ∉ body →
    (∀ c ∈ (more ++ after).head?, c = '\n') → Gap after more →
    Gap after ('/' :: '/' :: (body ++ more))
  | blockComment {body more : List Char} : ¬ ['*', '/'] <:+: body ++ ['*'] → Gap after more →
    Gap after ('/' :: '*' :: (body ++ '*' :: '/' :: more))

theorem Gap.blanks {after run more : List Char} (blank : ∀ c ∈ run, isBlank c = true)
    (gap : Gap after more) : Gap after (run ++ more) := by
  induction run with
  | nil => exact gap
  | cons c run ih =>
    rw [List.forall_mem_cons] at blank
    exact .blank blank.1 (ih blank.2)

theorem Lexeme.Read.gap {lexeme : Lexeme} {line : Nat} {after more : List Char}
    (read : lexeme.Read) (skipped : lexeme.item? line = none) (rest : lexeme.rest = more ++ after)
    (gap : Gap after more) : Gap after (lexeme.text ++ more) := by
  cases read with
  | blank blank => exact .blanks blank gap
  | lineComment inner stop => exact .lineComment inner (rest ▸ stop) gap
  | blockComment first => simpa using Gap.blockComment first gap
  | openComment | string | openString | symbol => cases skipped
  | word =>
    simp only [item?] at skipped
    split at skipped <;> cases skipped

/-! ## Tokens -/

structure Written where
  token : Token
  gap : List Char

/-- A token stands on its line, has a text of its class, and ends where its class ends in the text
that comes `after` it. -/
structure Token.Stands (token : Token) (line : Nat) (after : List Char) : Prop where
  printable : token.Printable
  placed : token.line = line
  maximal : token.kind.isWord = true → ∀ c ∈ after.head?, isWordChar c = false
  division : token.value = "/" → ∀ c ∈ after.head?, c ≠ '/' ∧ c ≠ '*'

theorem Lexeme.Read.stands {lexeme : Lexeme} {line : Nat} {token : Token} (read : lexeme.Read)
    (item : lexeme.item? line = some (.ok token)) :
    token.value.toList = lexeme.text ∧ token.Stands line lexeme.rest := by
  have formed := item_wellFormed read item
  cases read with
  | blank | lineComment | blockComment | openComment | openString => cases item
  | string inner =>
    cases item
    refine ⟨by simp, ⟨formed, nofun, fun _ => ⟨_, by simp, inner⟩⟩, rfl, nofun, fun slash => ?_⟩
    simpa using congrArg String.toList slash
  | symbol symbol other =>
    cases item
    refine ⟨by simp, formed.printable nofun nofun, rfl, nofun, fun slash => other ?_⟩
    simpa using congrArg String.toList slash
  | @word word rest some made stop =>
    simp only [item?] at item
    split at item
    case h_2 => cases item
    case h_1 kind same =>
      cases item
      have own := isWord_of_wordKind same
      refine ⟨by simp, formed.printable ?_ ?_, rfl, fun _ => stop, fun slash => ?_⟩
      · rintro rfl
        cases own
      · rintro rfl
        cases own
      · obtain rfl : word = ['/'] := by simpa using congrArg String.toList slash
        exact absurd (made '/' (.head _)) (by decide)

/-! ## Faults -/

inductive Misspelt (word : List Char) : LexicalFault → Prop
  | notAnInteger : word.head?.any isDigit = true → word.all isDigit = false →
    Misspelt word (.notAnInteger (String.ofList word))
  | integerOutOfRange : word.all isDigit = true → maxIntegerConstant < decimalValue word →
    Misspelt word (.integerOutOfRange (String.ofList word))
  | invalidIdentifier : word.head?.any isDigit = false → String.ofList word ∉ keywords →
    isIdentifier word = false → Misspelt word (.invalidIdentifier (String.ofList word))

/-- A text that starts with a lexeme that is no token, and why: a comment that is never closed, a
string that is not closed on its line, or a word that is of no class. -/
inductive Faulty : LexicalFault → List Char → Prop
  | comment {body : List Char} : ¬ ['*', '/'] <:+: body →
    Faulty .unterminatedComment ('/' :: '*' :: body)
  | string {body after : List Char} : (∀ c ∈ body, c ≠ '"' ∧ c ≠ '\n') →
    (∀ c ∈ after.head?, c = '\n') →
    Faulty (.malformedString (String.ofList ('"' :: body))) ('"' :: (body ++ after))
  | word {word after : List Char} {fault : LexicalFault} : word ≠ [] →
    (∀ c ∈ word, isWordChar c = true) → (∀ c ∈ after.head?, isWordChar c = false) →
    (∀ token : Token, token.WellFormed → token.kind.isWord = true → token.value.toList ≠ word) →
    Misspelt word fault → Faulty fault (word ++ after)

theorem misspelt_of_wordKind {word : List Char} {fault : LexicalFault}
    (same : wordKind word = .error fault) : Misspelt word fault := by
  unfold wordKind at same
  simp only at same
  split_ifs at same with digit mixed bound reserved named
  · cases same
    exact .notAnInteger digit (by simpa using mixed)
  · cases same
    exact .integerOutOfRange (by simpa using mixed) (Nat.not_le.mp bound)
  · cases same
    exact .invalidIdentifier (by simpa using digit) (by simpa using reserved) (by simpa using named)

theorem Lexeme.Read.faulty {lexeme : Lexeme} {line : Nat} {e : CompileError} (read : lexeme.Read)
    (item : lexeme.item? line = some (.error e)) :
    ∃ fault, e = .lexical line fault ∧ Faulty fault (lexeme.text ++ lexeme.rest) := by
  cases read with
  | blank | lineComment | blockComment | string | symbol => cases item
  | openComment never =>
    cases item
    exact ⟨_, rfl, by simpa using Faulty.comment never⟩
  | openString inner stop =>
    cases item
    exact ⟨_, rfl, .string inner stop⟩
  | word some made stop =>
    simp only [item?] at item
    split at item
    case h_1 => cases item
    case h_2 fault same =>
      cases item
      refine ⟨fault, rfl, .word some made stop (fun token formed word text => ?_)
        (misspelt_of_wordKind same)⟩
      have kind := (wordKind_of_wellFormed formed word).2.2
      rw [text, same] at kind
      cases kind

/-! ## Layouts -/

def textOf (row : List Written) : List Char :=
  row.flatMap fun written => written.token.value.toList ++ written.gap

structure Layout where
  lead : List Char
  row : List Written
  rest : List Char

namespace Layout

def read (layout : Layout) : List Char := layout.lead ++ textOf layout.row

def text (layout : Layout) : List Char := layout.read ++ layout.rest

/-- The gaps of a layout are gaps, and its tokens stand where they are, when its text starts on the
given line: the line of a token is told by the line ends before it. -/
structure Sound (layout : Layout) (line : Nat) : Prop where
  lead : Gap (textOf layout.row ++ layout.rest) layout.lead
  gap : ∀ front written back, layout.row = front ++ written :: back →
    Gap (textOf back ++ layout.rest) written.gap
  stands : ∀ front written back, layout.row = front ++ written :: back →
    written.token.Stands (line + (layout.lead ++ textOf front).count '\n')
      (written.gap ++ (textOf back ++ layout.rest))

/-- How a stream closes after a layout: with the end of file where nothing is left, on the line that
the text ends on, and with the fault of the rest on the line that the rest starts on. -/
inductive Closes (layout : Layout) (line : Nat) : Item → Prop
  | endOfFile : layout.rest = [] →
    Closes layout line (.ok (.endOfFile (line + layout.read.count '\n')))
  | fault {fault : LexicalFault} : Faulty fault layout.rest →
    Closes layout line (.error (.lexical (line + layout.read.count '\n') fault))

def behind (skipped : List Char) (layout : Layout) : Layout :=
  { layout with lead := skipped ++ layout.lead }

def after (token : Token) (layout : Layout) : Layout :=
  ⟨[], ⟨token, layout.lead⟩ :: layout.row, layout.rest⟩

section Steps

variable {layout : Layout} {line : Nat} {skipped : List Char} {token : Token} {close : Item}

theorem behind_read : (layout.behind skipped).read = skipped ++ layout.read := by
  simp [behind, read]

theorem after_read : (layout.after token).read = token.value.toList ++ layout.read := by
  simp [after, read, textOf]

theorem behind_text : (layout.behind skipped).text = skipped ++ layout.text := by
  rw [text, text, behind_read, List.append_assoc]
  rfl

theorem after_text : (layout.after token).text = token.value.toList ++ layout.text := by
  rw [text, text, after_read, List.append_assoc]
  rfl

theorem Sound.behind (sound : layout.Sound (line + skipped.count '\n'))
    (gap : Gap (textOf layout.row ++ layout.rest) (skipped ++ layout.lead)) :
    (layout.behind skipped).Sound line := by
  refine ⟨gap, sound.gap, fun front written back same => ?_⟩
  have stands := sound.stands front written back same
  simpa only [Layout.behind, List.append_assoc, List.count_append, Nat.add_assoc] using stands

theorem Sound.after (sound : layout.Sound (line + token.value.toList.count '\n'))
    (stands : token.Stands line layout.text) : (layout.after token).Sound line := by
  refine ⟨.nil, fun front written back same => ?_, fun front written back same => ?_⟩
  all_goals
    rcases List.cons_eq_append_iff.mp same with ⟨rfl, first⟩ | ⟨front, rfl, later⟩
  · cases first
    exact sound.lead
  · exact sound.gap front written back later
  · cases first
    simpa [Layout.after, textOf, text, read] using stands
  · have stands := sound.stands front written back later
    simpa [Layout.after, textOf, Nat.add_assoc] using stands

theorem Closes.preceded {longer : Layout} (closes : layout.Closes (line + skipped.count '\n') close)
    (read : longer.read = skipped ++ layout.read) (rest : longer.rest = layout.rest) :
    longer.Closes line close := by
  cases closes with
  | endOfFile nothing =>
    rw [Nat.add_assoc, ← List.count_append, ← read]
    exact .endOfFile (rest.trans nothing)
  | fault faulty =>
    rw [Nat.add_assoc, ← List.count_append, ← read]
    exact .fault (rest ▸ faulty)

end Steps

theorem Sound.words_apart {layout : Layout} {line : Nat} (sound : layout.Sound line)
    {front back : List Written} {first second : Written}
    (same : layout.row = front ++ first :: second :: back)
    (word : first.token.kind.isWord = true) (next : second.token.kind.isWord = true) :
    first.gap ≠ [] := by
  intro empty
  have stop := (sound.stands front first (second :: back) same).maximal word
  have later := sound.stands (front ++ [first]) second back (by simpa using same)
  obtain ⟨some, made, _⟩ := wordKind_of_wellFormed later.printable.1 next
  obtain ⟨c, cs, text⟩ := List.exists_cons_of_ne_nil some
  have own := made c (by simp [text])
  rw [stop c (by simp [empty, textOf, text])] at own
  cases own

end Layout

/-! ## Streams -/

theorem itemsFrom_layout (line : Nat) (done : List Item) (cs : List Char) :
    ∃ layout : Layout, ∃ close, layout.text = cs ∧ layout.Sound line ∧ layout.Closes line close ∧
      itemsFrom line done cs =
        done.reverse ++ (layout.row.map (fun written => .ok written.token) ++ [close]) := by
  -- The layout of what follows a lexeme is known first: a lexeme that is skipped makes its leading
  -- gap longer, and a token takes that gap for its own.
  fun_induction itemsFrom line done cs with
  | case1 line done =>
    refine ⟨⟨[], [], []⟩, _, rfl, ⟨.nil, by simp, by simp⟩, .endOfFile rfl, ?_⟩
    simp [Layout.read, textOf]
  | case2 line done c cs lexeme skipped ih =>
    obtain ⟨read, whole⟩ := Lexeme.first_read c cs
    obtain ⟨layout, close, text, sound, closes, same⟩ := ih
    refine ⟨layout.behind lexeme.text, close, ?_, sound.behind ?_,
      closes.preceded Layout.behind_read rfl, same⟩
    · rw [Layout.behind_text, text, whole]
    · refine read.gap skipped ?_ sound.lead
      rw [← text, Layout.text, Layout.read, List.append_assoc]
  | case3 line done c cs lexeme token item ih =>
    obtain ⟨read, whole⟩ := Lexeme.first_read c cs
    obtain ⟨value, stands⟩ := read.stands item
    obtain ⟨layout, close, text, sound, closes, same⟩ := ih
    rw [Lexeme.lines, ← value] at sound closes
    refine ⟨layout.after token, close, ?_, sound.after (text ▸ stands),
      closes.preceded Layout.after_read rfl, ?_⟩
    · rw [Layout.after_text, text, value, whole]
    · rw [same]
      simp [Layout.after]
  | case4 line done c cs lexeme e item =>
    obtain ⟨read, whole⟩ := Lexeme.first_read c cs
    obtain ⟨fault, rfl, faulty⟩ := read.faulty item
    rw [whole] at faulty
    refine ⟨⟨[], [], c :: cs⟩, _, rfl, ⟨.nil, by simp, by simp⟩, .fault faulty, ?_⟩
    simp [Layout.read, textOf]

/-- Every source text has a layout: gaps and tokens that take turns, up to the end of the text or up
to a lexeme that is no token. The stream holds the tokens of the layout in their order, each with
its line, and what the layout closes with. -/
theorem items_layout (source : List Char) :
    ∃ layout : Layout, ∃ close, layout.text = source ∧ layout.Sound 1 ∧ layout.Closes 1 close ∧
      (∀ front first second back, layout.row = front ++ first :: second :: back →
        first.token.kind.isWord = true → second.token.kind.isWord = true → first.gap ≠ []) ∧
      items source = layout.row.map (fun written => .ok written.token) ++ [close] := by
  obtain ⟨layout, close, text, sound, closes, same⟩ := itemsFrom_layout 1 [] source
  exact ⟨layout, close, text, sound, closes,
    fun _ _ _ _ split word next => sound.words_apart split word next, same⟩

end JackCompiler
