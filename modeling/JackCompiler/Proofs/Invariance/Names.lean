import JackCompiler.Proofs.Invariance.Lines
import JackCompiler.Proofs.Meaning.Preservation

/-!
# Names of variables

A variable may be called anything: a class in which one gets a new name, in its declaration and
wherever it is meant, has the same code. Main statement: `variable_names_immaterial`.
-/

namespace JackCompiler

open Respelling

namespace ClassDeclaration

/-- The class with another name for one of its variables. A subroutine that declares the old name
itself means its own variable. -/
def renameVariable (old new : String) (d : ClassDeclaration) : ClassDeclaration where
  keyword := d.keyword
  name := d.name
  opening := d.opening
  declarations := d.declarations.map (ClassVariables.respell (rename old new))
  subroutines := d.subroutines.map fun s =>
    if old ∈ s.names then s else s.respell (rename old new)
  closing := d.closing

/-- A class in which a variable has another name, where it is declared and where it is meant. -/
inductive Renames (old new : String) (d : ClassDeclaration) : ClassDeclaration → Prop
  | classVariable : old ∈ d.names → Renames old new d (d.renameVariable old new)
  | ownVariable {before after : List SubroutineDeclaration} {s : SubroutineDeclaration} :
    d.subroutines = before ++ s :: after → old ∈ s.names → Renames old new d { d with
      subroutines := before ++ s.respell (rename old new) :: after }

end ClassDeclaration

/-! ## New names -/

section Rename

variable {old new name other : String}

theorem rename_of_ne (differs : name ≠ old) : (rename old new).variableName name = name :=
  if_neg differs

theorem rename_apart (fresh : name ≠ new) (otherFresh : other ≠ new)
    (same : (rename old new).variableName other = (rename old new).variableName name) :
    other = name := by
  simp only [rename] at same
  split at same <;> split at same
  · simp_all
  · exact absurd same.symm fresh
  · exact absurd same otherFresh
  · exact same

end Rename

/-! ## Renamed classes -/

structure NewName (old new : String) (d : ClassDeclaration) : Prop where
  oldFree : old ∉ keywords
  newFree : new ∉ keywords
  fresh : ∀ t ∈ d.tokens, t.value ≠ new

namespace NewName

variable {d d' : ClassDeclaration} {s : SubroutineDeclaration} {old new : String}

section Subroutines

variable (newName : NewName old new d)

include newName

theorem receiver : "this" ≠ new ∧ (rename old new).variableName "this" = "this" := by
  have this : "this" ∈ keywords := by decide
  refine ⟨?_, rename_of_ne ?_⟩
  · rintro rfl
    exact newName.newFree this
  · rintro rfl
    exact newName.oldFree this

theorem names : ∀ name ∈ d.names, name ≠ new := by
  intro name member
  obtain ⟨own, inside, rfl⟩ := d.exists_of_mem_names member
  exact newName.fresh _ inside

theorem ownTokens (member : s ∈ d.subroutines) : ∀ t ∈ s.tokens, t.value ≠ new :=
  fun t inside => newName.fresh t (d.subroutine_tokens_subset member inside)

theorem ownNames (member : s ∈ d.subroutines) :
    ∀ name ∈ (s.variableList d.className).map (·.name), name ≠ new :=
  s.variableList_names_of (newName.ownTokens member) newName.receiver.1 d.className

theorem spelledIn_open (inClass : SpelledClass (rename old new) (· ≠ new) d d')
    (declared : old ∈ d.names) (member : s ∈ d.subroutines) :
    SpelledIn (rename old new) (rename old new) (· ≠ new) d d' s where
  toSpelledClass := inClass
  tokens := newName.ownTokens member
  receiver := newName.receiver
  ownApart _ fresh other there := rename_apart fresh (newName.ownNames member other there)
  agree _ _ _ := rfl
  free _ _ _ absent := rename_of_ne (ne_of_mem_of_not_mem declared absent).symm

theorem spelledIn_hidden (inClass : SpelledClass (rename old new) (· ≠ new) d d')
    (own : old ∈ s.names) (member : s ∈ d.subroutines) :
    SpelledIn (rename old new) same (· ≠ new) d d' s where
  toSpelledClass := inClass
  tokens := newName.ownTokens member
  receiver := ⟨newName.receiver.1, rfl⟩
  ownApart _ _ _ _ := id
  agree _ _ absent := rename_of_ne (ne_of_mem_of_not_mem (s.mem_variableList own) absent).symm
  free _ _ _ _ := rfl

theorem spelledIn_own (inClass : SpelledClass same (· ≠ new) d d') (own : old ∈ s.names)
    (member : s ∈ d.subroutines) : SpelledIn same (rename old new) (· ≠ new) d d' s where
  toSpelledClass := inClass
  tokens := newName.ownTokens member
  receiver := newName.receiver
  ownApart _ fresh other there := rename_apart fresh (newName.ownNames member other there)
  agree _ _ absent :=
    (rename_of_ne (ne_of_mem_of_not_mem (s.mem_variableList own) absent).symm).symm
  free _ _ absent _ := rename_of_ne (ne_of_mem_of_not_mem (s.mem_variableList own) absent).symm

theorem spelledIn_other (inClass : SpelledClass same (· ≠ new) d d')
    (member : s ∈ d.subroutines) : SpelledIn same same (· ≠ new) d d' s where
  toSpelledClass := inClass
  tokens := newName.ownTokens member
  receiver := ⟨newName.receiver.1, rfl⟩
  ownApart _ _ _ _ := id
  agree _ _ _ := rfl
  free _ _ _ _ := rfl

end Subroutines

private theorem respelled_class (newName : NewName old new d) (declared : old ∈ d.names) :
    d.Respelled (rename old new) (· ≠ new) (d.renameVariable old new) := by
  have heads : List.Forall₂ (fun s s' => s'.head = s.head) d.subroutines
      (d.renameVariable old new).subroutines := by
    refine List.forall₂_map_right_iff.mpr (List.forall₂_same.mpr fun s _ => ?_)
    split
    · rfl
    · exact s.head_respell _
  have inClass : SpelledClass (rename old new) (· ≠ new) d (d.renameVariable old new) :=
    ⟨rfl, ClassDeclaration.kindOf_congr heads, d.variableList_respell _, newName.names,
      fun _ fresh other there => rename_apart fresh (newName.names other there)⟩
  refine ⟨inClass, d.firstNumber_respell _, ?_⟩
  refine List.forall₂_map_right_iff.mpr (List.forall₂_same.mpr fun s member => ?_)
  split
  case isTrue own => exact ⟨same, s.respell_same.symm, newName.spelledIn_hidden inClass own member⟩
  case isFalse => exact ⟨_, rfl, newName.spelledIn_open inClass declared member⟩

private theorem respelled_own (newName : NewName old new d)
    {before after : List SubroutineDeclaration} (split : d.subroutines = before ++ s :: after)
    (own : old ∈ s.names) : d.Respelled same (· ≠ new) { d with
      subroutines := before ++ s.respell (rename old new) :: after } := by
  have heads : List.Forall₂ (fun s s' => s'.head = s.head) d.subroutines
      (before ++ s.respell (rename old new) :: after) := by
    have kept (list : List SubroutineDeclaration) :
        List.Forall₂ (fun s s' => s'.head = s.head) list list :=
      List.forall₂_same.mpr fun _ _ => rfl
    rw [split]
    exact List.rel_append (kept before) (.cons (s.head_respell _) (kept after))
  have inClass : SpelledClass same (· ≠ new) d { d with
      subroutines := before ++ s.respell (rename old new) :: after } :=
    ⟨rfl, ClassDeclaration.kindOf_congr heads, (List.map_id _).symm, newName.names,
      fun _ _ _ _ => id⟩
  refine ⟨inClass, rfl, ?_⟩
  have members : ∀ other ∈ before ++ s :: after, other ∈ d.subroutines := fun _ member =>
    split ▸ member
  rw [split]
  refine List.rel_append (List.forall₂_same.mpr fun other there => ?_)
    (.cons ⟨_, rfl, newName.spelledIn_own inClass own (members s (by simp))⟩
      (List.forall₂_same.mpr fun other there => ?_))
  all_goals exact ⟨same, other.respell_same.symm,
    newName.spelledIn_other inClass (members other (by simp [there]))⟩

theorem respelled (newName : NewName old new d) (renames : d.Renames old new d') :
    ∃ outer, d.Respelled outer (· ≠ new) d' := by
  cases renames with
  | classVariable declared => exact ⟨_, newName.respelled_class declared⟩
  | ownVariable split own => exact ⟨_, newName.respelled_own split own⟩

end NewName

/-! ## Tokens -/

def Token.Replaced (old new : String) (token other : Token) : Prop :=
  other = token ∨ token.isName = true ∧ token.value = old ∧ other = { token with value := new }

section Tokens

variable {old new : String}

theorem Respelling.Spells.replaced {token other : Token}
    (spells : (rename old new).Spells token other) : token.Replaced old new other := by
  cases spells with
  | token token => exact .inl rfl
  | name name =>
    by_cases named : name.val.value = old
    · refine .inr ⟨name.property, named, ?_⟩
      simp [nameToken, rename, named]
    · refine .inl ?_
      simp [nameToken, rename, named]

private theorem replaced_same (tokens : List Token) :
    List.Forall₂ (Token.Replaced old new) tokens tokens :=
  List.forall₂_same.mpr fun _ _ => .inl rfl

private theorem replaced_flatMap {α : Type} {tokens : α → List Token} {all others : List α}
    (each : List.Forall₂ (fun x y => List.Forall₂ (Token.Replaced old new) (tokens x) (tokens y))
      all others) :
    List.Forall₂ (Token.Replaced old new) (all.flatMap tokens) (others.flatMap tokens) :=
  List.rel_flatMap each fun _ _ same => same

theorem ClassDeclaration.Renames.tokens {d d' : ClassDeclaration}
    (renames : d.Renames old new d') :
    List.Forall₂ (Token.Replaced old new) d.tokens d'.tokens := by
  have respelled (s : SubroutineDeclaration) : List.Forall₂ (Token.Replaced old new) s.tokens
      (s.respell (rename old new)).tokens := s.tokens_respell.imp fun _ _ => Spells.replaced
  have framed {first first' second second' : List Token}
      (declarations : List.Forall₂ (Token.Replaced old new) first first')
      (subroutines : List.Forall₂ (Token.Replaced old new) second second') :
      List.Forall₂ (Token.Replaced old new)
        (d.keyword.val :: d.name.val :: d.opening.val :: (first ++ (second ++ [d.closing.val])))
        (d.keyword.val :: d.name.val :: d.opening.val :: (first' ++ (second' ++ [d.closing.val]))) :=
    List.rel_append (replaced_same [_, _, _])
      (List.rel_append declarations (List.rel_append subroutines (replaced_same [_])))
  cases renames with
  | classVariable =>
    refine framed (replaced_flatMap (List.forall₂_map_right_iff.mpr ?_))
      (replaced_flatMap (List.forall₂_map_right_iff.mpr ?_))
    · exact List.forall₂_same.mpr fun declaration _ =>
        declaration.tokens_respell.imp fun _ _ => Spells.replaced
    · refine List.forall₂_same.mpr fun s _ => ?_
      split
      · exact replaced_same _
      · exact respelled s
  | @ownVariable before after s split =>
    have parted : d.subroutines.flatMap SubroutineDeclaration.tokens =
        before.flatMap SubroutineDeclaration.tokens ++
          (s.tokens ++ after.flatMap SubroutineDeclaration.tokens) := by
      rw [split, List.flatMap_append, List.flatMap_cons]
    refine framed (replaced_same _) ?_
    rw [parted, List.flatMap_append, List.flatMap_cons]
    exact List.rel_append (replaced_same _) (List.rel_append (respelled s) (replaced_same _))

end Tokens

/-! ## Texts -/

def Written.Replaced (old new : String) (written other : Written) : Prop :=
  other.gap = written.gap ∧ written.token.Replaced old new other.token

section Texts

variable {old new : String} {lead gap : List Char} {row row' : List Written} {line : Nat}
  {token other : Token}

theorem Token.Printable.head_word (printable : token.Printable) (name : token.isName = true)
    (rest : List Char) : ∃ c ∈ (token.value.toList ++ rest).head?, isWordChar c = true := by
  -- A text that starts with a name starts with a character of words.
  have word : token.kind.isWord = true := by
    have kind : token.kind = .identifier := by simpa [isName] using name
    rw [kind]
    rfl
  obtain ⟨some, made, _⟩ := wordKind_of_wellFormed printable.1 word
  obtain ⟨c, cs, text⟩ := List.exists_cons_of_ne_nil some
  exact ⟨c, by simp [text], made c (by simp [text])⟩

theorem Token.Replaced.kind_eq (same : token.Replaced old new other) : other.kind = token.kind := by
  rcases same with rfl | ⟨_, _, rfl⟩ <;> rfl

theorem Token.Replaced.line_eq (same : token.Replaced old new other) : other.line = token.line := by
  rcases same with rfl | ⟨_, _, rfl⟩ <;> rfl

private theorem Gap.before_replaced (skipped : Gap (textOf row) gap)
    (replaced : List.Forall₂ (Written.Replaced old new) row row')
    (printable : ∀ written ∈ row, written.token.Printable) : Gap (textOf row') gap := by
  cases replaced with
  | nil => exact skipped
  | @cons written other row row' _ _ =>
    obtain ⟨c, cs, text, inline⟩ := (printable written (.head _)).exists_head
    rw [textOf_cons, text] at skipped
    exact skipped.anywhere inline _

variable (formed : ∀ line, Token.WellFormed ⟨line, .identifier, new⟩)

include formed

theorem Token.Replaced.printable (same : token.Replaced old new other)
    (printable : token.Printable) : other.Printable := by
  rcases same with rfl | ⟨name, _, rfl⟩
  · exact printable
  · have kind : token.kind = .identifier := by simpa [isName] using name
    have whole : Token.mk token.line token.kind new = ⟨token.line, .identifier, new⟩ := by rw [kind]
    change Token.Printable (Token.mk token.line token.kind new)
    rw [whole]
    exact (formed token.line).printable (by simp) (by simp)

private theorem head_replaced (replaced : List.Forall₂ (Written.Replaced old new) row row')
    (printable : ∀ written ∈ row, written.token.Printable) {c : Char}
    (next : c ∈ (gap ++ textOf row').head?) :
    c ∈ (gap ++ textOf row).head? ∨
      isWordChar c = true ∧ ∃ d ∈ (gap ++ textOf row).head?, isWordChar d = true := by
  cases gap with
  | cons => exact .inl next
  | nil =>
    cases replaced with
    | nil => exact .inl next
    | @cons written other row row' first _ =>
      have own := printable written (.head _)
      rw [List.nil_append, textOf_cons] at next ⊢
      rcases first.2 with same | ⟨name, _, same⟩
      · obtain ⟨d, ds, text, _⟩ := own.exists_head
        rw [same, text] at next
        rw [text]
        exact .inl next
      · have renamed : other.token.isName = true := by
          rw [same]
          exact name
        obtain ⟨d, first', made⟩ := (first.2.printable formed own).head_word renamed
          (other.gap ++ textOf row')
        cases next.symm.trans first'
        exact .inr ⟨made, own.head_word name _⟩

private theorem Token.Stands.replaced (stands : token.Stands line (gap ++ textOf row))
    (same : token.Replaced old new other)
    (replaced : List.Forall₂ (Written.Replaced old new) row row')
    (printable : ∀ written ∈ row, written.token.Printable) :
    other.Stands line (gap ++ textOf row') where
  printable := same.printable formed stands.printable
  placed := same.line_eq.trans stands.placed
  maximal word c next := by
    rw [same.kind_eq] at word
    rcases head_replaced formed replaced printable next with next | ⟨_, d, before, made⟩
    · exact stands.maximal word c next
    · rw [stands.maximal word d before] at made
      cases made
  division slash c next := by
    -- The new name is no slash, so this token is the old one.
    have stays : token.value = "/" := by
      rcases same with rfl | ⟨_, _, rfl⟩
      · exact slash
      · cases (show new = "/" from slash)
        exact absurd (formed 0).1 (by decide)
    rcases head_replaced formed replaced printable next with next | ⟨made, _⟩
    · exact stands.division stays c next
    · constructor <;> rintro rfl <;> revert made <;> decide

theorem itemsFrom_replaced (laid : Layout.Sound ⟨lead, row, []⟩ line)
    (replaced : List.Forall₂ (Written.Replaced old new) row row') (number : Nat)
    (done : List Item) :
    (itemsFrom number done (lead ++ textOf row')).map Item.unlined =
      done.reverse.map Item.unlined ++ unlinedStream (row'.map Written.token) := by
  induction replaced generalizing lead line number done with
  | nil =>
    have none : textOf [] = [] := rfl
    rw [none, itemsFrom_gap (Layout.sound_nil.mp laid), itemsFrom_nil, List.reverse_cons,
      List.map_append]
    rfl
  | @cons written other row row' first rest ih =>
    have printable : ∀ next ∈ row, next.token.Printable := fun next member =>
      laid.printable next (.tail _ member)
    have skipped := Gap.before_replaced (by simpa using laid.lead) (.cons first rest)
      laid.printable
    obtain ⟨-, stands, later⟩ := Layout.sound_cons.mp laid
    rw [List.append_nil] at stands
    have next := stands.replaced formed first.2 rest printable
    rw [textOf_cons, first.1] at skipped ⊢
    rw [next.itemsFrom_next skipped, ih later, List.reverse_cons, List.map_append,
      List.append_assoc]
    rfl

end Texts

theorem zipWith_written (row : List Written) :
    List.zipWith Written.mk (row.map Written.token) (row.map Written.gap) = row := by
  induction row with
  | nil => rfl
  | cons written row ih => exact congrArg (written :: ·) ih

theorem replaced_zipWith {old new : String} {row : List Written} {tokens : List Token}
    (replaced : List.Forall₂ (Token.Replaced old new) (row.map Written.token) tokens) :
    List.Forall₂ (Written.Replaced old new) row
        (List.zipWith Written.mk tokens (row.map Written.gap)) ∧
      (List.zipWith Written.mk tokens (row.map Written.gap)).map Written.token = tokens := by
  induction row generalizing tokens with
  | nil =>
    cases replaced
    exact ⟨.nil, rfl⟩
  | cons written row ih =>
    cases replaced with
    | cons first rest =>
      obtain ⟨each, same⟩ := ih rest
      exact ⟨.cons ⟨rfl, first⟩ each, congrArg (_ :: ·) same⟩

/-- In a class that compiles, any variable may get a name that is no reserved word and that nothing
in the class has. Where the name is replaced in the source text, the text is read as the renamed
class, and every text that is has the same code. -/
theorem variable_names_immaterial {comments : Bool} {source : String} {code : Code}
    {old new : String} {d d' : ClassDeclaration}
    (reads : parse .classDeclaration (items source.toList) = .ok (.classDeclaration d))
    (compiled : compile comments source = .ok code) (renames : d.Renames old new d')
    (identifier : isIdentifier new.toList = true) (free : new ∉ keywords)
    (fresh : ∀ t ∈ d.tokens, t.value ≠ new) :
    (∃ lead gaps, gaps.length = d.tokens.length ∧
      lead ++ textOf (List.zipWith Written.mk d.tokens gaps) = source.toList ∧
      ReadsAs (String.ofList (lead ++ textOf (List.zipWith Written.mk d'.tokens gaps))) d'.tokens) ∧
    ∀ source', ReadsAs source' d'.tokens → compile comments source' = .ok code := by
  obtain ⟨_, same, formed, whole⟩ := compile_unit comments reads
  cases same
  obtain ⟨-, -, -, -, -, fits⟩ := parse_reads reads
  have oldFree : old ∉ keywords := by
    cases renames with
    | classVariable declared =>
      obtain ⟨name, inside, rfl⟩ := d.exists_of_mem_names declared
      exact Name.value_not_mem_keywords (formed _ inside)
    | @ownVariable before after s split own =>
      have member : s ∈ d.subroutines := by simp [split]
      obtain ⟨name, inside, rfl⟩ := s.exists_of_mem_names own
      exact Name.value_not_mem_keywords (formed _ (d.subroutine_tokens_subset member inside))
  obtain ⟨outer, respelled⟩ := NewName.respelled ⟨oldFree, free, fresh⟩ renames
  constructor
  · obtain ⟨lead, row, laid, text, tokens⟩ := layout_of_parse reads
    change row.map Written.token = d.tokens at tokens
    have replaced := renames.tokens
    rw [← tokens] at replaced ⊢
    obtain ⟨each, same⟩ := replaced_zipWith replaced
    refine ⟨lead, row.map Written.gap, by simp, by rw [zipWith_written, text], ?_⟩
    have stream := itemsFrom_replaced (fun _ => ⟨identifier, free⟩) laid each 1 []
    rw [ReadsAs, String.toList_ofList, items, stream, same]
    rfl
  · intro source' readsAs
    rw [whole, Lowering.settle_eq_ok] at compiled
    exact (compile_ok_iff_of_readsAs comments readsAs).mpr ⟨respelled.nesting_eq.trans_le fits,
      respelled.faultless compiled.1, respelled.code_eq.trans compiled.2⟩

private def boxWords (name : String) : List String :=
  ["class", "Box", "\x7b", "field", "Box", name, ";", "method", "void", "set", "(", "int", "y", ")",
    "\x7b", "let", name, "=", "y", ";", "do", name, ".", "set", "(", "y", ")", ";", "do", "x", "(",
    ")", ";", "return", ";", "\x7d", "function", "int", "x", "(", "int", "x", ")", "\x7b", "return",
    "x", ";", "\x7d", "\x7d"]

private def boxTokens (name : String) : List Token :=
  (boxWords name).map fun word =>
    ⟨0, if word ∈ keywords then .keyword
      else if isIdentifier word.toList then .identifier else .symbol, word⟩

private def boxText (name : String) : String :=
  String.ofList ([' '].intercalate ((boxTokens name).map (·.value.toList)))

theorem variable_names_immaterial_box :
    ∃ d code, parse .classDeclaration (items (boxText "x").toList) = .ok (.classDeclaration d) ∧
      compile false (boxText "x") = .ok code ∧ d.Renames "x" "w" (d.renameVariable "x" "w") ∧
      isIdentifier "w".toList = true ∧ "w" ∉ keywords ∧ (∀ t ∈ d.tokens, t.value ≠ "w") ∧
      ReadsAs (boxText "w") (d.renameVariable "x" "w").tokens ∧
      compile false (boxText "w") = .ok code := by
  have found : (faultlessUnit? (boxText "x")).map (fun d => decide ("x" ∈ d.names ∧
      (∀ t ∈ d.tokens, t.value ≠ "w") ∧
      (d.renameVariable "x" "w").tokens.map unlined.token = boxTokens "w")) = some true := by
    decide +kernel
  obtain ⟨d, unit, facts⟩ := Option.map_eq_some_iff.mp found
  obtain ⟨declared, fresh, tokens⟩ := of_decide_eq_true facts
  obtain ⟨read, compiled⟩ := compile_of_faultlessUnit? false unit
  have identifier : isIdentifier "w".toList = true := by decide
  have free : "w" ∉ keywords := by decide
  have readsAs : ReadsAs (boxText "w") (d.renameVariable "x" "w").tokens := by
    have formed : ∀ t ∈ boxTokens "w",
        t.WellFormed ∧ t.kind ≠ .eof ∧ t.kind ≠ .stringConstant := by
      decide +kernel
    rw [ReadsAs, ← unlinedStream_unlined, tokens]
    exact readsAs_joined fun t member =>
      (formed t member).1.printable (formed t member).2.1 (formed t member).2.2
  have result := (variable_names_immaterial read compiled (.classVariable declared) identifier free
    fresh).2 (boxText "w") readsAs
  exact ⟨d, _, read, compiled, .classVariable declared, identifier, free, fresh, readsAs, result⟩

end JackCompiler
