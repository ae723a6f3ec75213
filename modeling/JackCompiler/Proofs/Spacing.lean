import JackCompiler.Proofs.Layout

namespace JackCompiler

section Gaps

variable {line : Nat} {done : List Item} {after gap body rest : List Char}

private theorem ofBlockComment_closed (read : List Char)
    (first : ¬ ['*', '/'] <:+: body ++ ['*']) :
    Lexeme.ofBlockComment read (body ++ '*' :: '/' :: rest) =
      ⟨.blockComment true, read.reverse ++ (body ++ ['*', '/']), rest⟩ := by
  induction body generalizing read with
  | nil => simp [Lexeme.ofBlockComment]
  | cons c body ih =>
    have later : ¬ ['*', '/'] <:+: body ++ ['*'] := fun closed =>
      first (closed.trans (List.infix_cons (List.infix_refl _)))
    rw [List.cons_append, Lexeme.ofBlockComment, ih _ later]
    · simp
    · rintro more rfl same
      cases body with
      | nil => cases same
      | cons d body =>
        cases same
        exact first ⟨[], body ++ ['*'], rfl⟩

private theorem itemsFrom_blockComment (first : ¬ ['*', '/'] <:+: body ++ ['*']) :
    itemsFrom line done ('/' :: '*' :: (body ++ '*' :: '/' :: rest)) =
      itemsFrom (line + ('/' :: '*' :: (body ++ ['*', '/'])).count '\n') done rest := by
  have lexeme : Lexeme.first '/' ('*' :: (body ++ '*' :: '/' :: rest)) =
      ⟨.blockComment true, '/' :: '*' :: (body ++ ['*', '/']), rest⟩ := by
    rw [Lexeme.first, if_neg (by decide), if_neg (by simp), if_pos (by simp)]
    exact ofBlockComment_closed _ first
  rw [itemsFrom_cons, lexeme]
  rfl

private theorem itemsFrom_lineComment (inner : '\n' ∉ body) (ends : ∀ c ∈ rest.head?, c = '\n') :
    itemsFrom line done ('/' :: '/' :: (body ++ rest)) = itemsFrom line done rest := by
  have within : ∀ c ∈ '/' :: body, (c != '\n') = true := by
    intro c member
    rcases List.mem_cons.mp member with rfl | member
    · decide
    · simpa using fun same : c = '\n' => inner (same ▸ member)
  have stops := @takeWhile_of_head rest (· != '\n') fun c next => by simp [ends c next]
  have lexeme : Lexeme.first '/' ('/' :: (body ++ rest)) =
      ⟨.lineComment, '/' :: '/' :: body, rest⟩ := by
    rw [Lexeme.first, if_neg (by decide), if_pos (by simp), Lexeme.ofRun, ← List.cons_append,
      List.takeWhile_append_of_pos within, List.dropWhile_append_of_pos within, stops.1, stops.2,
      List.append_nil]
  have sameLine : ('/' :: '/' :: body).count '\n' = 0 := by
    rw [List.count_eq_zero]
    simp [inner]
  rw [itemsFrom_cons, lexeme]
  change itemsFrom (line + ('/' :: '/' :: body).count '\n') done rest = _
  rw [sameLine, Nat.add_zero]

theorem itemsFrom_gap (skipped : Gap after gap) (line : Nat) (done : List Item) :
    itemsFrom line done (gap ++ after) = itemsFrom (line + gap.count '\n') done after := by
  induction skipped generalizing line with
  | nil => rfl
  | @blank c more blank _ ih =>
    rw [List.cons_append, itemsFrom_blank blank, ih, Nat.add_assoc, ← List.count_append]
    rfl
  | @lineComment body more inner ends _ ih =>
    have sameLine : ('/' :: '/' :: (body ++ more)).count '\n' = more.count '\n' := by
      simp [List.count_append, List.count_eq_zero.mpr inner]
    rw [List.cons_append, List.cons_append, List.append_assoc, itemsFrom_lineComment inner ends, ih,
      sameLine]
  | @blockComment body more first _ ih =>
    have text : '/' :: '*' :: (body ++ '*' :: '/' :: more) ++ after =
        '/' :: '*' :: (body ++ '*' :: '/' :: (more ++ after)) := by simp
    have lines : ('/' :: '*' :: (body ++ '*' :: '/' :: more)).count '\n' =
        ('/' :: '*' :: (body ++ ['*', '/'])).count '\n' + more.count '\n' := by
      rw [← List.count_append]
      simp
    rw [text, itemsFrom_blockComment first, ih, lines, Nat.add_assoc]

theorem Gap.append {more : List Char} (first : Gap (more ++ after) gap) (second : Gap after more) :
    Gap after (gap ++ more) := by
  induction first with
  | nil => exact second
  | blank blank _ ih => exact .blank blank ih
  | lineComment inner ends _ ih =>
    rw [List.cons_append, List.cons_append, List.append_assoc]
    exact .lineComment inner (by rwa [List.append_assoc]) ih
  | blockComment closed _ ih =>
    rw [List.cons_append, List.cons_append, List.append_assoc]
    exact .blockComment closed ih

theorem Gap.of_blanks (blank : ∀ c ∈ gap, isBlank c = true) : Gap after gap := by
  rw [← List.append_nil gap]
  exact .blanks blank .nil

theorem Gap.anywhere {c : Char} {cs : List Char} (skipped : Gap (c :: cs) gap) (inline : c ≠ '\n')
    (after : List Char) : Gap after gap := by
  -- A gap before something on its line is a gap before anything.
  induction skipped with
  | nil => exact .nil
  | blank blank _ ih => exact .blank blank ih
  | @lineComment body more inner ends _ ih =>
    refine .lineComment inner ?_ ih
    cases more with
    | nil => exact absurd (ends c rfl) inline
    | cons d more => exact ends
  | blockComment closed _ ih => exact .blockComment closed ih

end Gaps

section Layouts

variable {lead rest : List Char} {row : List Written} {written : Written} {line : Nat}

theorem Token.Stands.itemsFrom {token : Token} {done : List Item} (stands : token.Stands line rest) :
    itemsFrom line done (token.value.toList ++ rest) =
      JackCompiler.itemsFrom line (.ok token :: done) rest := by
  obtain rfl := stands.placed
  exact itemsFrom_printable stands.printable stands.maximal stands.division

theorem Token.Stands.itemsFrom_next {token : Token} (stands : token.Stands line rest)
    (skipped : Gap (token.value.toList ++ rest) lead) (other : Nat) (done : List Item) :
    JackCompiler.itemsFrom other done (lead ++ (token.value.toList ++ rest)) =
      JackCompiler.itemsFrom (other + lead.count '\n')
        (.ok { token with line := other + lead.count '\n' } :: done) rest := by
  rw [itemsFrom_gap skipped]
  generalize other + lead.count '\n' = number
  have placed : Token.Stands { token with line := number } number rest :=
    ⟨stands.printable, rfl, stands.maximal, stands.division⟩
  exact placed.itemsFrom

theorem Token.Printable.exists_head {token : Token} (printable : token.Printable) :
    ∃ c cs, token.value.toList = c :: cs ∧ c ≠ '\n' := by
  obtain ⟨c, cs, -, text, -, -, inline⟩ := @first_printable token [] printable nofun nofun
  refine ⟨c, cs, text, ?_⟩
  rintro rfl
  exact inline (text ▸ .head _)

theorem textOf_cons (written : Written) (row : List Written) :
    textOf (written :: row) = written.token.value.toList ++ (written.gap ++ textOf row) := by
  simp [textOf]

namespace Layout

theorem sound_nil : Sound ⟨lead, [], rest⟩ line ↔ Gap rest lead :=
  ⟨Sound.lead, fun gap => ⟨gap, by simp, by simp⟩⟩

theorem sound_cons : Sound ⟨lead, written :: row, rest⟩ line ↔
    Gap (written.token.value.toList ++ (written.gap ++ (textOf row ++ rest))) lead ∧
      written.token.Stands (line + lead.count '\n') (written.gap ++ (textOf row ++ rest)) ∧
      Sound ⟨written.gap, row, rest⟩
        (line + lead.count '\n' + written.token.value.toList.count '\n') := by
  constructor
  · intro sound
    have gap := sound.lead
    have stands := sound.stands [] written row rfl
    have none : textOf [] = [] := rfl
    rw [none, List.append_nil] at stands
    simp only [textOf_cons, List.append_assoc] at gap
    refine ⟨gap, stands, sound.gap [] written row rfl, fun front next back same => ?_,
      fun front next back same => ?_⟩
    · exact sound.gap (written :: front) next back (congrArg _ same)
    · have later := sound.stands (written :: front) next back (congrArg _ same)
      simpa [textOf_cons, Nat.add_assoc] using later
  · rintro ⟨gap, stands, later⟩
    have text : written.gap ++ (textOf row ++ rest) = text ⟨written.gap, row, rest⟩ := by
      simp [text, read]
    rw [text] at stands gap
    have whole : Gap (textOf (after written.token ⟨written.gap, row, rest⟩).row ++ rest)
        (lead ++ []) := by
      simpa [after, textOf_cons, Layout.text, read] using gap
    simpa only [behind, after, List.append_nil] using (later.after stands).behind whole

theorem Sound.itemsFrom (sound : Sound ⟨lead, row, []⟩ line) (done : List Item) :
    itemsFrom line done (lead ++ textOf row) =
      done.reverse ++ (row.map (fun written => .ok written.token) ++
        [.ok (.endOfFile (line + (lead ++ textOf row).count '\n'))]) := by
  induction row generalizing lead line done with
  | nil =>
    rw [sound_nil] at sound
    have none : textOf [] = [] := rfl
    rw [none, itemsFrom_gap sound, itemsFrom_nil, List.append_nil]
    simp
  | cons written row ih =>
    obtain ⟨gap, stands, later⟩ := sound_cons.mp sound
    have sameLine := stands.printable.sameLine
    rw [List.append_nil] at gap stands
    rw [sameLine, Nat.add_zero] at later
    rw [textOf_cons, itemsFrom_gap gap, stands.itemsFrom, ih later]
    simp [List.count_append, sameLine, Nat.add_assoc]

end Layout

end Layouts

/-- The tokens of a row that is printed after some text, each with the line it comes to stand on. -/
def located (before : List Char) (row : List Written) : List Token :=
  row.mapIdx fun index written =>
    { written.token with line := 1 + (before ++ textOf (row.take index)).count '\n' }

/-- Tokens as the lexer makes them, printed with blanks before, between and after them: between any
two of them there is at least one. -/
structure Spaced (lead : List Char) (row : List Written) : Prop where
  printable : ∀ written ∈ row, written.token.Printable
  lead : ∀ c ∈ lead, isBlank c = true
  gaps : ∀ written ∈ row, ∀ c ∈ written.gap, isBlank c = true
  apart : ∀ written ∈ row.dropLast, written.gap ≠ []

section Printed

variable {before lead : List Char} {written : Written} {row : List Written} {done : List Item}

theorem located_cons (before : List Char) (written : Written) (row : List Written) :
    located before (written :: row) =
      { written.token with line := 1 + before.count '\n' } ::
        located (before ++ (written.token.value.toList ++ written.gap)) row := by
  rw [located, located, List.mapIdx_cons]
  simp [textOf]

theorem Spaced.tail (spaced : Spaced lead (written :: row)) : Spaced written.gap row where
  printable other member := spaced.printable other (.tail _ member)
  lead := spaced.gaps written (.head _)
  gaps other member := spaced.gaps other (.tail _ member)
  apart other member := by
    cases row with
    | nil => cases member
    | cons first row => exact spaced.apart other (.tail _ member)

theorem Spaced.next_apart (spaced : Spaced lead (written :: row)) :
    Apart (written.gap ++ textOf row) := by
  intro c next
  cases gap : written.gap with
  | cons d gap =>
    rw [gap] at next
    cases next
    exact spaced.gaps written (.head _) c (gap ▸ .head _)
  | nil =>
    cases row with
    | nil => simp [gap, textOf] at next
    | cons first row => exact absurd gap (spaced.apart written (.head _))

private theorem itemsFrom_spacedRow (spaced : Spaced lead row) (before : List Char)
    (done : List Item) :
    itemsFrom (1 + before.count '\n') done (lead ++ textOf row) =
      done.reverse ++ ((located (before ++ lead) row).map .ok ++
        [.ok (.endOfFile (1 + (before ++ (lead ++ textOf row)).count '\n'))]) := by
  induction row generalizing before lead done with
  | nil =>
    have none : textOf [] = [] := rfl
    rw [itemsFrom_gap (.of_blanks spaced.lead), none, itemsFrom_nil]
    simp [located, List.count_append, Nat.add_assoc]
  | cons written row ih =>
    let token : Token := { written.token with line := 1 + (before ++ lead).count '\n' }
    have printable : token.Printable := spaced.printable written (.head _)
    have apart := spaced.next_apart
    have line : 1 + (before ++ lead ++ written.token.value.toList).count '\n' = token.line := by
      rw [List.count_append, printable.sameLine]
      rfl
    have later := ih spaced.tail (before ++ lead ++ written.token.value.toList) (.ok token :: done)
    rw [line] at later
    have read := @itemsFrom_printable done token _ printable (fun _ => apart.maximal)
      (fun _ => apart.division)
    rw [textOf_cons, itemsFrom_gap (.of_blanks spaced.lead), Nat.add_assoc, ← List.count_append]
    refine read.trans (later.trans ?_)
    rw [located_cons]
    simp [token]

theorem items_spacedRow (spaced : Spaced lead row) :
    items (lead ++ textOf row) = (located lead row).map .ok ++
      [.ok (.endOfFile (1 + (lead ++ textOf row).count '\n'))] :=
  itemsFrom_spacedRow spaced [] []

end Printed

def spacedRow : List Token → List Written
  | [] => []
  | [token] => [⟨token, []⟩]
  | token :: next :: tokens => ⟨token, [' ']⟩ :: spacedRow (next :: tokens)

section Joined

variable {tokens : List Token}

theorem textOf_spacedRow (tokens : List Token) :
    textOf (spacedRow tokens) = [' '].intercalate (tokens.map (·.value.toList)) := by
  fun_induction spacedRow tokens with
  | case1 => rfl
  | case2 token => simp [textOf]
  | case3 token next tokens ih =>
    rw [textOf_cons, ih]
    simp [List.intercalate]

theorem mem_spacedRow {written : Written} (member : written ∈ spacedRow tokens) :
    written.token ∈ tokens ∧ (written.gap = [] ∨ written.gap = [' ']) := by
  fun_induction spacedRow tokens with
  | case1 => cases member
  | case2 token =>
    cases List.mem_singleton.mp member
    exact ⟨.head _, .inl rfl⟩
  | case3 token next tokens ih =>
    rcases List.mem_cons.mp member with rfl | member
    · exact ⟨.head _, .inr rfl⟩
    · exact (ih member).imp_left (.tail _)

theorem gap_spacedRow {written : Written} (member : written ∈ (spacedRow tokens).dropLast) :
    written.gap ≠ [] := by
  fun_induction spacedRow tokens with
  | case1 => cases member
  | case2 token => cases member
  | case3 token next tokens ih =>
    have some : spacedRow (next :: tokens) ≠ [] := by
      cases tokens <;> exact List.cons_ne_nil _ _
    rw [List.dropLast_cons_of_ne_nil some] at member
    rcases List.mem_cons.mp member with rfl | member
    · exact List.cons_ne_nil _ _
    · exact ih member

theorem spacedRow_spaced (printable : ∀ token ∈ tokens, token.Printable) :
    Spaced [] (spacedRow tokens) where
  printable written member := printable _ (mem_spacedRow member).1
  lead := nofun
  gaps written member c inside := by
    rcases (mem_spacedRow member).2 with gap | gap
    · rw [gap] at inside
      cases inside
    · rw [gap] at inside
      cases List.mem_singleton.mp inside
      decide
  apart _ member := gap_spacedRow member

private theorem count_joined (printable : ∀ token ∈ tokens, token.Printable) :
    (textOf (spacedRow tokens)).count '\n' = 0 := by
  rw [List.count_eq_zero]
  intro line
  obtain ⟨written, member, inside⟩ := List.mem_flatMap.mp line
  obtain ⟨known, gap⟩ := mem_spacedRow member
  rcases List.mem_append.mp inside with value | blank
  · exact List.count_eq_zero.mp (printable _ known).sameLine value
  · rcases gap with gap | gap
    · rw [gap] at blank
      cases blank
    · rw [gap] at blank
      exact absurd blank (by decide)

private theorem located_spacedRow {before : List Char} (here : before.count '\n' = 0)
    (printable : ∀ token ∈ tokens, token.Printable) :
    located before (spacedRow tokens) = tokens.map fun token => { token with line := 1 } := by
  fun_induction spacedRow tokens generalizing before with
  | case1 => rfl
  | case2 token =>
    rw [located_cons, here]
    rfl
  | case3 token next tokens ih =>
    have later : (before ++ (token.value.toList ++ [' '])).count '\n' = 0 := by
      rw [List.count_append, List.count_append, here, (printable token (.head _)).sameLine]
      rfl
    rw [located_cons, here, ih later fun other member => printable other (.tail _ member)]
    rfl

theorem items_joined (printable : ∀ token ∈ tokens, token.Printable) :
    items ([' '].intercalate (tokens.map (·.value.toList))) =
      tokens.map (fun token => .ok { token with line := 1 }) ++ [.ok (.endOfFile 1)] := by
  have read := items_spacedRow (spacedRow_spaced printable)
  rw [List.nil_append, count_joined printable, located_spacedRow rfl printable, List.map_map]
    at read
  rwa [← textOf_spacedRow]

end Joined

theorem layout_of_noError {source : List Char} (reads : ∀ e, .error e ∉ items source) :
    ∃ lead row, Layout.Sound ⟨lead, row, []⟩ 1 ∧ lead ++ textOf row = source ∧
      items source = row.map (fun written => .ok written.token) ++
        [.ok (.endOfFile (1 + source.count '\n'))] := by
  obtain ⟨⟨lead, row, rest⟩, close, text, sound, closes, same⟩ := itemsFrom_layout 1 [] source
  have last : close ∈ items source := by
    rw [items, same]
    simp
  cases closes with
  | fault faulty => exact absurd last (reads _)
  | endOfFile done =>
    obtain rfl : rest = [] := done
    have whole : lead ++ textOf row = source := by simpa [Layout.text, Layout.read] using text
    refine ⟨lead, row, sound, whole, same.trans ?_⟩
    rw [← whole]
    rfl

theorem Layout.Sound.printable {lead rest : List Char} {row : List Written} {line : Nat}
    (sound : Sound ⟨lead, row, rest⟩ line) : ∀ written ∈ row, written.token.Printable := by
  intro written member
  obtain ⟨front, back, split⟩ := List.append_of_mem member
  exact (sound.stands front written back split).printable

/-- Printed tokens are read back in order, each on the line it was printed on, and nothing but the
end of file after them. So the tokens of a source text are read back, all on one line, from their
texts with a space between any two. -/
theorem items_undo_printing :
    (∀ lead row, Spaced lead row → items (lead ++ textOf row) = (located lead row).map .ok ++
      [.ok (.endOfFile (1 + (lead ++ textOf row).count '\n'))]) ∧
    ∀ source, (∀ e, .error e ∉ items source) → ∃ (tokens : List Token) (line : Nat),
      items source = tokens.map .ok ++ [.ok (.endOfFile line)] ∧
      items ([' '].intercalate (tokens.map (·.value.toList))) =
        tokens.map (fun token => .ok { token with line := 1 }) ++ [.ok (.endOfFile 1)] := by
  refine ⟨fun _ _ => items_spacedRow, fun source reads => ?_⟩
  obtain ⟨lead, row, sound, _, same⟩ := layout_of_noError reads
  refine ⟨row.map Written.token, 1 + source.count '\n', ?_, items_joined ?_⟩
  · rw [same, List.map_map]
    rfl
  · simpa using sound.printable

theorem items_undo_printing_slashes :
    let row : List Written := [⟨⟨0, .symbol, "/"⟩, [' ']⟩, ⟨⟨0, .symbol, "/"⟩, ['\u2003', '\n']⟩,
      ⟨⟨0, .symbol, "*"⟩, ['\t']⟩, ⟨.quote 0 ['/', '*', ' ', 'x'], ['\n', '\n']⟩,
      ⟨⟨0, .identifier, "classy"⟩, [' ']⟩, ⟨⟨0, .integerConstant, "007"⟩, []⟩]
    let source := ['a', '/', '\n', '/', '*', '*', '/', '1']
    Spaced ['\n'] row ∧
      items ('\n' :: textOf row) = [.ok ⟨2, .symbol, "/"⟩, .ok ⟨2, .symbol, "/"⟩,
        .ok ⟨3, .symbol, "*"⟩, .ok (.quote 3 ['/', '*', ' ', 'x']), .ok ⟨5, .identifier, "classy"⟩,
        .ok ⟨5, .integerConstant, "007"⟩, .ok (.endOfFile 5)] ∧
      (∀ e, .error e ∉ items source) ∧ ∃ (tokens : List Token) (line : Nat),
        items source = tokens.map .ok ++ [.ok (.endOfFile line)] ∧
        items ([' '].intercalate (tokens.map (·.value.toList))) =
          tokens.map (fun token => .ok { token with line := 1 }) ++ [.ok (.endOfFile 1)] := by
  intro row source
  have spaced : Spaced ['\n'] row := by
    have blanks : ∀ written ∈ row, written.gap.all isBlank = true := by decide
    refine ⟨?_, List.forall_mem_singleton.mpr (by decide),
      fun written member => List.all_eq_true.mp (blanks written member), by decide⟩
    simp only [row, List.forall_mem_cons]
    refine ⟨?_, ?_, ?_, Token.quote_printable 0 (by simp), ?_, ?_, nofun⟩
    all_goals exact Token.WellFormed.printable (by decide) nofun nofun
  have reads : ∀ e, .error e ∉ items source := by
    have same : items source = [.ok ⟨1, .identifier, "a"⟩, .ok ⟨1, .symbol, "/"⟩,
        .ok ⟨2, .integerConstant, "1"⟩, .ok (.endOfFile 2)] := by decide +kernel
    simp [same]
  exact ⟨spaced, items_undo_printing.1 ['\n'] row spaced, reads, items_undo_printing.2 source reads⟩

end JackCompiler
