import JackCompiler.Proofs.Invariance.Lines
import JackCompiler.Proofs.Meaning.Preservation

/-!
# Wider layouts

Blanks and comments that are put next to tokens, after a blank, keep the tokens apart and leave
them as they are. So the class that is read stays the same. Main statement: `layout_immaterial`.
-/

namespace JackCompiler

/-! ## Texts to be put in -/

/-- Blanks, line comments with the ends of their lines, and block comments that are closed. -/
inductive Filler : List Char → Prop
  | nil : Filler []
  | blank {c : Char} {more : List Char} : isBlank c = true → Filler more → Filler (c :: more)
  | lineComment {body more : List Char} : '\n' ∉ body → Filler more →
    Filler ('/' :: '/' :: (body ++ '\n' :: more))
  | blockComment {body more : List Char} : ¬ ['*', '/'] <:+: body ++ ['*'] → Filler more →
    Filler ('/' :: '*' :: (body ++ '*' :: '/' :: more))

theorem Filler.gap {text : List Char} (filler : Filler text) (after : List Char) :
    Gap after text := by
  induction filler with
  | nil => exact .nil
  | blank blank _ ih => exact .blank blank ih
  | lineComment inner _ ih => exact .lineComment inner (by simp) (.blank (by decide) ih)
  | blockComment closed _ ih => exact .blockComment closed ih

/-- Nothing, or a text of blanks and comments that starts with a blank. -/
def Insertable (text : List Char) : Prop :=
  text = [] ∨ Filler text ∧ ∃ c ∈ text.head?, isBlank c = true

namespace Insertable

variable {text : List Char}

theorem gap (insertable : Insertable text) (after : List Char) : Gap after text := by
  rcases insertable with rfl | ⟨filler, _⟩
  · exact .nil
  · exact filler.gap after

theorem head (insertable : Insertable text) {after : List Char} {c : Char}
    (next : c ∈ (text ++ after).head?) : isBlank c = true ∨ c ∈ after.head? := by
  rcases insertable with rfl | ⟨_, d, first, blank⟩
  · exact .inr next
  · rw [List.head?_append, Option.mem_def.mp first] at next
    cases next
    exact .inl blank

end Insertable

/-! ## Rows -/

/-- A token with what is put before and after it. -/
structure Padded where
  before : List Char
  written : Written
  after : List Char

structure Padded.Sound (padded : Padded) : Prop where
  before : Insertable padded.before
  after : Insertable padded.after

def paddedText (row : List Padded) : List Char :=
  row.flatMap fun padded => padded.before ++
    (padded.written.token.value.toList ++ (padded.after ++ padded.written.gap))

section Rows

variable {padded : Padded} {row : List Padded} {lead gap after rest : List Char} {line : Nat}

theorem paddedText_cons (padded : Padded) (row : List Padded) :
    paddedText (padded :: row) = padded.before ++ (padded.written.token.value.toList ++
      (padded.after ++ (padded.written.gap ++ paddedText row))) := by
  simp [paddedText]

theorem Gap.before_padded (skipped : Gap (textOf (row.map Padded.written)) gap)
    (printable : ∀ padded ∈ row, padded.written.token.Printable) : Gap (paddedText row) gap := by
  cases row with
  | nil => exact skipped
  | cons padded row =>
    obtain ⟨c, cs, text, inline⟩ := (printable padded (.head _)).exists_head
    rw [List.map_cons, textOf_cons, text] at skipped
    exact skipped.anywhere inline _

theorem head_paddedText (sound : ∀ padded ∈ row, padded.Sound)
    (printable : ∀ padded ∈ row, padded.written.token.Printable) {c : Char}
    (next : c ∈ (paddedText row).head?) :
    isBlank c = true ∨ c ∈ (textOf (row.map Padded.written)).head? := by
  -- What follows a token is what followed it before, or a blank.
  cases row with
  | nil => exact .inr next
  | cons padded row =>
    obtain ⟨d, ds, text, _⟩ := (printable padded (.head _)).exists_head
    rw [paddedText_cons] at next
    refine ((sound padded (.head _)).before.head next).imp_right fun next => ?_
    rw [text] at next
    rw [List.map_cons, textOf_cons, text]
    exact next

theorem head_after (insertable : Insertable after) (sound : ∀ padded ∈ row, padded.Sound)
    (printable : ∀ padded ∈ row, padded.written.token.Printable) {c : Char}
    (next : c ∈ (after ++ (gap ++ paddedText row)).head?) :
    isBlank c = true ∨ c ∈ (gap ++ textOf (row.map Padded.written)).head? := by
  rcases insertable.head next with blank | next
  · exact .inl blank
  · cases gap with
    | nil => exact head_paddedText sound printable next
    | cons d gap => exact .inr next

theorem Token.Stands.between {token : Token}
    (stands : token.Stands line (gap ++ textOf (row.map Padded.written)))
    (insertable : Insertable after) (sound : ∀ padded ∈ row, padded.Sound)
    (printable : ∀ padded ∈ row, padded.written.token.Printable) :
    token.Stands line (after ++ (gap ++ paddedText row)) where
  printable := stands.printable
  placed := stands.placed
  maximal word c next := by
    -- A token that stands in a text still stands when something is put next to it.
    rcases head_after insertable sound printable next with blank | next
    · exact isWordChar_of_isBlank blank
    · exact stands.maximal word c next
  division slash c next := by
    rcases head_after insertable sound printable next with blank | next
    · exact division_of_isBlank blank
    · exact stands.division slash c next

theorem itemsFrom_paddedText (sound : ∀ padded ∈ row, padded.Sound)
    (laid : Layout.Sound ⟨gap, row.map Padded.written, []⟩ line)
    (skipped : Gap (paddedText row) lead) (other : Nat) (done : List Item) :
    (itemsFrom other done (lead ++ paddedText row)).map Item.unlined =
      done.reverse.map Item.unlined ++
        unlinedStream (row.map fun padded => padded.written.token) := by
  induction row generalizing gap lead line other done with
  | nil =>
    have none : paddedText [] = [] := rfl
    rw [none] at skipped ⊢
    rw [itemsFrom_gap skipped, itemsFrom_nil, List.reverse_cons, List.map_append]
    rfl
  | cons padded row ih =>
    obtain ⟨own, sound⟩ := List.forall_mem_cons.mp sound
    rw [List.map_cons] at laid
    have printable : ∀ other ∈ row, other.written.token.Printable := fun other member =>
      laid.printable _ (.tail _ (List.mem_map_of_mem member))
    obtain ⟨-, stands, later⟩ := Layout.sound_cons.mp laid
    rw [List.append_nil] at stands
    have next : Gap (paddedText row) (padded.after ++ padded.written.gap) :=
      (own.after.gap _).append (Gap.before_padded (by simpa using later.lead) printable)
    rw [paddedText_cons] at skipped ⊢
    have before := skipped.append (own.before.gap _)
    rw [← List.append_assoc lead, (stands.between own.after sound printable).itemsFrom_next before,
      ← List.append_assoc, ih sound later next, List.reverse_cons, List.map_append,
      List.append_assoc]
    rfl

end Rows

theorem readsAs_paddedText {lead : List Char} {row : List Padded}
    (laid : Layout.Sound ⟨lead, row.map Padded.written, []⟩ 1)
    (sound : ∀ padded ∈ row, padded.Sound) :
    ReadsAs (String.ofList (lead ++ paddedText row))
      (row.map fun padded => padded.written.token) := by
  have printable : ∀ padded ∈ row, padded.written.token.Printable := fun padded member =>
    laid.printable _ (List.mem_map_of_mem member)
  have skipped : Gap (paddedText row) lead :=
    Gap.before_padded (by simpa using laid.lead) printable
  rw [ReadsAs, String.toList_ofList]
  exact itemsFrom_paddedText sound laid skipped 1 []

/-- A source text in which nothing is refused has a layout. When blanks and comments are put next to
its tokens, each time after a blank, it has the same code, or the same error but for its line. -/
theorem layout_immaterial {source : String} (reads : ∀ e, .error e ∉ items source.toList) :
    (∃ lead row, Layout.Sound ⟨lead, row, []⟩ 1 ∧ lead ++ textOf row = source.toList) ∧
    ∀ (lead : List Char) (row : List Padded),
      Layout.Sound ⟨lead, row.map Padded.written, []⟩ 1 →
      lead ++ textOf (row.map Padded.written) = source.toList →
      (∀ padded ∈ row, padded.Sound) → ∀ comments,
      (compile comments (String.ofList (lead ++ paddedText row))).mapError CompileError.unlined =
        (compile comments source).mapError CompileError.unlined := by
  constructor
  · obtain ⟨lead, row, laid, text, _⟩ := layout_of_noError reads
    exact ⟨lead, row, laid, text⟩
  · intro lead row laid text sound comments
    have readsAs := readsAs_of_layout laid text
    rw [List.map_map] at readsAs
    exact compile_congr comments ((readsAs_paddedText laid sound).trans readsAs.symm)

section Remarked

variable {tokens : List Token} {line : Nat}

private def remarked (tokens : List Token) : List Padded :=
  tokens.map fun token => ⟨[' ', '/', '/', '*', '\n'], ⟨token, [' ']⟩, [' ', '/', '*', '/', '*', '/']⟩

private def plainText (tokens : List Token) : String :=
  String.ofList (' ' :: textOf ((remarked tokens).map Padded.written))

private def remarkedText (tokens : List Token) : String :=
  String.ofList (' ' :: paddedText (remarked tokens))

private theorem sound_remarked : ∀ padded ∈ remarked tokens, padded.Sound := by
  intro padded member
  obtain ⟨token, -, rfl⟩ := List.mem_map.mp member
  refine ⟨.inr ⟨.blank (by decide) ?_, ' ', rfl, by decide⟩,
    .inr ⟨.blank (by decide) ?_, ' ', rfl, by decide⟩⟩
  · exact @Filler.lineComment ['*'] [] (by decide) .nil
  · exact @Filler.blockComment ['/'] [] (by decide) .nil

private theorem laid_remarked (each : ∀ token ∈ tokens, token.WellFormed ∧ token.kind ≠ .eof ∧
    token.kind ≠ .stringConstant ∧ token.line = line) :
    Layout.Sound ⟨[' '], (remarked tokens).map Padded.written, []⟩ line := by
  induction tokens with
  | nil => exact Layout.sound_nil.mpr (.blank (by decide) .nil)
  | cons token tokens ih =>
    obtain ⟨⟨formed, inside, bare, placed⟩, each⟩ := List.forall_mem_cons.mp each
    have printable := formed.printable inside bare
    refine Layout.sound_cons.mpr ⟨.blank (by decide) .nil,
      ⟨printable, placed, fun _ => by rintro c ⟨⟩; rfl, fun _ => by rintro c ⟨⟩; decide⟩, ?_⟩
    rw [printable.sameLine]
    exact ih each

end Remarked

private def loopTokens : List Token :=
  [⟨1, .keyword, "class"⟩, ⟨1, .identifier, "A"⟩, ⟨1, .symbol, "\x7b"⟩, ⟨1, .keyword, "function"⟩,
    ⟨1, .keyword, "void"⟩, ⟨1, .identifier, "f"⟩, ⟨1, .symbol, "("⟩, ⟨1, .symbol, ")"⟩,
    ⟨1, .symbol, "\x7b"⟩, ⟨1, .keyword, "while"⟩, ⟨1, .symbol, "("⟩, ⟨1, .keyword, "true"⟩,
    ⟨1, .symbol, ")"⟩, ⟨1, .symbol, "\x7b"⟩, ⟨1, .symbol, "\x7d"⟩, ⟨1, .keyword, "return"⟩,
    ⟨1, .symbol, ";"⟩, ⟨1, .symbol, "\x7d"⟩, ⟨1, .symbol, "\x7d"⟩]

private def loopListing : Code :=
  [.function "A.f" 0, .label "A.WHILE_START$15", .push .constant 1, .arithmetic .neg,
    .arithmetic .not, .ifGoto "A.WHILE_END$15", .goto "A.WHILE_START$15",
    .label "A.WHILE_END$15", .push .constant 0, .ret]

private def openTokens : List Token :=
  [⟨1, .keyword, "class"⟩, ⟨1, .identifier, "A"⟩, ⟨1, .symbol, "\x7b"⟩]

theorem layout_immaterial_remarks :
    (∀ tokens ∈ [loopTokens, openTokens],
      (∀ e, .error e ∉ items (plainText tokens).toList) ∧
      Layout.Sound ⟨[' '], (remarked tokens).map Padded.written, []⟩ 1 ∧
      [' '] ++ textOf ((remarked tokens).map Padded.written) = (plainText tokens).toList ∧
      (∀ padded ∈ remarked tokens, padded.Sound) ∧
      (compile false (remarkedText tokens)).mapError CompileError.unlined =
        (compile false (plainText tokens)).mapError CompileError.unlined) ∧
    compile false (remarkedText loopTokens) = .ok loopListing ∧
    compile false (plainText openTokens) =
      .error (.syntactic 1 (.endOfFileBefore ["\x7d"])) ∧
    compile false (remarkedText openTokens) =
      .error (.syntactic 4 (.endOfFileBefore ["\x7d"])) := by
  have loop : compile false (remarkedText loopTokens) = .ok loopListing := by
    have lowered : (faultlessUnit? (remarkedText loopTokens)).map (ClassDeclaration.code false) =
        some loopListing := by decide +kernel
    obtain ⟨declaration, unit, code⟩ := Option.map_eq_some_iff.mp lowered
    rw [(compile_of_faultlessUnit? false unit).2, code]
  refine ⟨fun tokens member => ?_, loop, by decide +kernel, by decide +kernel⟩
  have read : ∀ tokens ∈ [loopTokens, openTokens],
      ∀ item ∈ items (plainText tokens).toList, item.isOk = true := by decide +kernel
  have formed : ∀ tokens ∈ [loopTokens, openTokens], ∀ token ∈ tokens,
      token.WellFormed ∧ token.kind ≠ .eof ∧ token.kind ≠ .stringConstant ∧ token.line = 1 := by
    decide +kernel
  have reads : ∀ e, .error e ∉ items (plainText tokens).toList := fun e refused =>
    Bool.false_ne_true (read tokens member _ refused)
  have laid := laid_remarked (formed tokens member)
  have text : [' '] ++ textOf ((remarked tokens).map Padded.written) =
      (plainText tokens).toList := String.toList_ofList.symm
  exact ⟨reads, laid, text, sound_remarked,
    (layout_immaterial reads).2 _ _ laid text sound_remarked false⟩

end JackCompiler
