import JackCompiler.Proofs.Listing.Markers

namespace JackCompiler

def segments : List Segment :=
  [.constant, .argument, .localVariable, .static, .this, .that, .pointer, .temp]

def Segment.ofName? (name : String) : Option Segment := segments.find? (·.name == name)

def commands : List Command := [.add, .sub, .neg, .eq, .gt, .lt, .and, .or, .not]

def Command.ofName? (name : String) : Option Command := commands.find? (·.name == name)

def ordinalOf? (text : String) : Option UInt16 :=
  let digits := text.toList
  if !digits.isEmpty && digits.all isDigit && decimalValue digits < UInt16.size then
    some (UInt16.ofNat (decimalValue digits))
  else
    none

/-- The instruction that the words of a line stand for. -/
def Instruction.ofWords? : List String → Option Instruction
  | ["push", segment, index] => return .push (← Segment.ofName? segment) (← ordinalOf? index)
  | ["pop", segment, index] => return .pop (← Segment.ofName? segment) (← ordinalOf? index)
  | ["label", name] => some (.label name)
  | ["goto", name] => some (.goto name)
  | ["if-goto", name] => some (.ifGoto name)
  | ["call", name, arguments] => return .call name (← ordinalOf? arguments)
  | ["function", name, locals] => return .function name (← ordinalOf? locals)
  | ["return"] => some .ret
  | "//" :: first :: more => some (.comment (String.intercalate " " (first :: more)))
  | [command] => return .arithmetic (← Command.ofName? command)
  | _ => none

def Instruction.ofLine? (line : List Char) : Option Instruction :=
  ofWords? ((line.splitOn ' ').map String.ofList)

/-- The lines of a text, if each of them is ended. -/
def endedLines? (text : List Char) : Option (List (List Char)) :=
  let parts := text.splitOn '\n'
  if parts.getLast? = some [] then some parts.dropLast else none

/-- Reads the code that a text lists. -/
def Code.ofText? (text : String) : Option Code := do
  (← endedLines? text.toList).mapM Instruction.ofLine?

theorem Segment.ofName?_name (segment : Segment) : ofName? segment.name = some segment := by
  cases segment <;> decide

theorem Command.ofName?_name (command : Command) : ofName? command.name = some command := by
  cases command <;> decide

theorem ordinalOf?_repr (n : UInt16) : ordinalOf? n.toNat.repr = some n := by
  have digits : (Nat.toDigits 10 n.toNat).all isDigit = true := by
    refine List.all_eq_true.mpr fun c member => ?_
    have digit := Nat.isDigit_of_mem_toDigits (by decide) (by decide) member
    simpa [isDigit, Char.isDigit, Char.le_def] using digit
  have value : decimalValue (Nat.toDigits 10 n.toNat) = n.toNat :=
    Nat.ofDigitChars_toDigits (by decide) (by decide)
  have small : n.toNat < UInt16.size := n.toNat_lt
  simp [ordinalOf?, Nat.toList_repr, digits, value, small, Nat.toDigits_ne_nil]

def Instruction.words : Instruction → List String
  | .push segment index => ["push", segment.name, index.toNat.repr]
  | .pop segment index => ["pop", segment.name, index.toNat.repr]
  | .arithmetic command => [command.name]
  | .label name => ["label", name]
  | .goto name => ["goto", name]
  | .ifGoto name => ["if-goto", name]
  | .call name arguments => ["call", name, arguments.toNat.repr]
  | .function name locals => ["function", name, locals.toNat.repr]
  | .ret => ["return"]
  | .comment text => ["//", text]

theorem Instruction.ofWords?_words (instruction : Instruction) :
    ofWords? instruction.words = some instruction := by
  cases instruction with
  | push segment index => simp [words, ofWords?, Segment.ofName?_name, ordinalOf?_repr]
  | pop segment index => simp [words, ofWords?, Segment.ofName?_name, ordinalOf?_repr]
  | arithmetic command => cases command <;> decide
  | call name arguments => simp [words, ofWords?, ordinalOf?_repr]
  | function name locals => simp [words, ofWords?, ordinalOf?_repr]
  | _ => rfl

theorem Instruction.text_eq_words (instruction : Instruction) :
    instruction.text.toList = [' '].intercalate (instruction.words.map String.toList) := by
  cases instruction <;> simp [text, words]

theorem Instruction.space_not_mem_words {instruction : Instruction}
    (unbroken : ∀ name ∈ instruction.name?, Unbroken name) :
    ∀ word ∈ instruction.words, ' ' ∉ word.toList := by
  have digits (n : Nat) : ' ' ∉ Nat.toDigits 10 n :=
    Nat.toList_repr ▸ (unbroken_repr n).not_mem (by decide)
  cases instruction with
  | push segment index => cases segment <;> simp [words, Segment.name, digits]
  | pop segment index => cases segment <;> simp [words, Segment.name, digits]
  | arithmetic command => cases command <;> simp [words, Command.name]
  | ret => simp [words]
  | _ =>
    have name := (unbroken _ rfl).not_mem (by decide : isBlank ' ' = true)
    simp [words, name, digits]

theorem Instruction.ofLine?_text {instruction : Instruction}
    (unbroken : ∀ name ∈ instruction.name?, Unbroken name) :
    ofLine? instruction.text.toList = some instruction := by
  have apart : ∀ word ∈ instruction.words.map String.toList, ' ' ∉ word := by
    simpa using space_not_mem_words unbroken
  have some : instruction.words.map String.toList ≠ [] := by
    cases instruction <;> simp [words]
  have same : (instruction.words.map String.toList).map String.ofList = instruction.words := by
    simp [Function.comp_def]
  rw [ofLine?, text_eq_words, List.splitOn_intercalate _ apart some, same, ofWords?_words]

theorem Code.endedLines?_text {code : Code} (worded : Worded code) :
    endedLines? code.text.toList = some (code.map (·.text.toList)) := by
  rw [endedLines?, splitOn_text worded, lines]
  simp

theorem Code.ofText?_text {code : Code} (worded : Worded code) : ofText? code.text = some code := by
  rw [ofText?, endedLines?_text worded]
  change (code.map (·.text.toList)).mapM Instruction.ofLine? = some code
  induction code with
  | nil => rfl
  | cons instruction code ih =>
    obtain ⟨own, rest⟩ := worded_cons.mp worded
    rw [List.map_cons, List.mapM_cons, Instruction.ofLine?_text own, ih rest]
    rfl

theorem worded_of_compile {comments : Bool} {source : String} {code : Code}
    (compiles : compile comments source = .ok code) : Worded code := by
  obtain ⟨declaration, read⟩ := class_of_compile compiles
  obtain ⟨formed, -, rfl⟩ := unit_compiled read compiles
  exact declaration.worded_code formed comments

/-- The text of a unit has one ended line for each instruction, and reading the lines gives back the
instructions; a sink gets that text, or nothing if the unit does not compile. -/
theorem text_determines_code (comments : Bool) (source sink : String) :
    match compile comments source with
    | .ok code => ∃ text, compileToText comments source = .ok text ∧
        endedLines? text.toList = some (code.map (·.text.toList)) ∧
        Code.ofText? text = some code ∧
        compileInto comments source sink = (sink ++ text, .ok ())
    | .error error => compileToText comments source = .error error ∧
        compileInto comments source sink = (sink, .error error) := by
  cases compiles : compile comments source with
  | error error =>
    have failed : compileToText comments source = .error error := by
      rw [compileToText, compiles]
      rfl
    exact ⟨failed, by rw [compileInto_eq, failed]⟩
  | ok code =>
    have worded := worded_of_compile compiles
    have listed : compileToText comments source = .ok code.text := by
      rw [compileToText, compiles]
      rfl
    exact ⟨code.text, listed, code.endedLines?_text worded, code.ofText?_text worded,
      by rw [compileInto_eq, listed]⟩

private def bellText : String :=
  "class Bell \x7b field int rings; " ++
    "method void ring(int times) \x7b while (~(times = 0)) \x7b let rings = rings + 1; " ++
      "let times = times - 1; do ring(times); \x7d return; \x7d \x7d"

theorem text_determines_code_bell : ∃ code text, compile true bellText = .ok code ∧
    compileToText true bellText = .ok text ∧ code.length = 34 ∧
    endedLines? text.toList = some (code.map (·.text.toList)) ∧ Code.ofText? text = some code ∧
    compileInto true bellText "" = (text, .ok ()) := by
  have found : (faultlessUnit? bellText).any (fun d => (d.code true).length == 34) = true := by
    decide +kernel
  obtain ⟨declaration, unit, count⟩ := Option.any_eq_true _ _ |>.mp found
  have compiles := (compile_of_faultlessUnit? true unit).2
  have whole := text_determines_code true bellText ""
  rw [compiles] at whole
  obtain ⟨text, same, lines, back, written⟩ := whole
  exact ⟨_, text, compiles, same, by simpa using count, lines, back, by simpa using written⟩

end JackCompiler
