import Calculator.CommandLine.Session
import Calculator.Proofs.Text.Lines

/-!
# The lines of a file and of the standard input

A file is cut into lines as a whole, and the standard input gives away one line after the other.
Both sessions deal with the same lines in the same way: what they write is what is written for each
line that is not empty, in order, and whether a line succeeds has no influence on the others. They
differ in their exit codes only.

Main statement: `respond_file_prompt`.
-/

namespace Calculator.CommandLine

/-! ### Outputs one behind the other -/

/-- Several outputs, one behind the other on each of the two streams. -/
def Output.concat (outputs : List Output) : Output :=
  ⟨String.join (outputs.map (·.out)), String.join (outputs.map (·.err))⟩

namespace Output

theorem eq_of_streams {x y : Output} (out : x.out = y.out) (err : x.err = y.err) : x = y := by
  cases x
  cases y
  cases out
  cases err
  rfl

@[simp] theorem concat_nil : concat [] = .none := rfl

@[simp] theorem concat_cons (first : Output) (others : List Output) :
    concat (first :: others) = first ++ concat others :=
  eq_of_streams String.join_cons String.join_cons

@[simp] theorem concat_append (first second : List Output) :
    concat (first ++ second) = concat first ++ concat second := by
  refine eq_of_streams ?_ ?_ <;> simp [concat]

@[simp] theorem none_append (x : Output) : none ++ x = x :=
  eq_of_streams (String.empty_append ..) (String.empty_append ..)

@[simp] theorem append_none (x : Output) : x ++ none = x :=
  eq_of_streams (String.append_empty ..) (String.append_empty ..)

theorem append_assoc (x y z : Output) : x ++ y ++ z = x ++ (y ++ z) :=
  eq_of_streams String.append_assoc String.append_assoc

end Output

/-! ### What is written for lines -/

/-- The lines that are dealt with: those that are not empty. -/
def fullLines (lines : List (List Char)) : List (List Char) :=
  lines.filter fun line => !Text.isEmptyLine line

/-- The outcomes of the lines that are dealt with. -/
def outcomes (settings : Settings) (lines : List (List Char)) : List Outcome :=
  (fullLines lines).map fun line => answerLine settings (String.ofList line)

/-- What is written for lines. -/
def written (settings : Settings) (lines : List (List Char)) : Output :=
  .concat ((outcomes settings lines).map (·.output))

theorem written_append (settings : Settings) (first second : List (List Char)) :
    written settings (first ++ second) = written settings first ++ written settings second := by
  simp [written, outcomes, fullLines]

theorem written_full (settings : Settings) {line : List Char}
    (full : Text.isEmptyLine line = false) :
    written settings [line] = (answerLine settings (String.ofList line)).output := by
  simp [written, outcomes, fullLines, full]

theorem written_empty (settings : Settings) {line : List Char}
    (empty : Text.isEmptyLine line = true) : written settings [line] = .none := by
  simp [written, outcomes, fullLines, empty]

/-! ### Files -/

/-- Outcomes that are collected one after the other. -/
theorem foldl_append_outcome {γ : Type} (items : List γ) (answer : γ → Outcome) (start : Outcome) :
    items.foldl (fun outcome item => outcome ++ answer item) start =
      ⟨start.output ++ .concat (items.map fun item => (answer item).output),
        start.succeeded && items.all fun item => (answer item).succeeded⟩ := by
  induction items generalizing start with
  | nil => simp
  | cons item items ih => simp [ih, Output.append_assoc, Bool.and_assoc]

theorem answerFile_eq (settings : Settings) (contents : String) :
    answerFile settings contents =
      ⟨written settings (Text.lines contents.toList),
        (outcomes settings (Text.lines contents.toList)).all (·.succeeded)⟩ := by
  rw [answerFile, foldl_append_outcome]
  simp [written, outcomes, fullLines, Outcome.empty, Function.comp_def]

/-! ### The standard input -/

theorem answerPrompt_of_next? (settings : Settings) {text line rest : List Char}
    (found : Text.next? text = some (line, rest)) :
    answerPrompt settings text = answerPromptLine settings line ++ answerPrompt settings rest := by
  rw [answerPrompt]
  split
  · next none => cases none.symm.trans found
  · next same =>
    cases same.symm.trans found
    rfl

theorem answerPromptLine_of_chomp (settings : Settings) {text line : List Char}
    (stripped : Text.chomp text = line) :
    answerPromptLine settings text = written settings [line] := by
  rw [answerPromptLine, stripped]
  split
  · next empty => rw [written_empty settings empty]
  · next full => rw [written_full settings (Bool.eq_false_iff.mpr full)]

/-- **The standard input is answered line by line.** The induction follows the cut, and each of the
shapes of a line is the first one that is taken off. -/
theorem answerPrompt_of_cut (settings : Settings) {text : List Char} {lines : List (List Char)}
    (cut : Text.Cut text lines) : answerPrompt settings text = written settings lines := by
  induction cut with
  | nil =>
    rw [answerPrompt]
    rfl
  | last some feedless =>
    rw [answerPrompt_of_next? settings (Text.next?_of_feedless some feedless),
      answerPromptLine_of_chomp settings (Text.chomp_of_feedless feedless), answerPrompt]
    exact Output.append_none _
  | @feed line rest lines feedless unreturned others ih =>
    rw [answerPrompt_of_next? settings (Text.next?_append_feed feedless rest),
      answerPromptLine_of_chomp settings (Text.chomp_append_feed unreturned), ih,
      ← written_append, List.singleton_append]
  | @returnFeed line rest lines feedless others ih =>
    have feedless : '\n' ∉ line ++ ['\r'] := by simp [feedless]
    have found := Text.next?_append_feed feedless rest
    simp only [List.append_assoc, List.singleton_append] at found
    rw [answerPrompt_of_next? settings found,
      answerPromptLine_of_chomp settings (Text.chomp_append_returnFeed line), ih,
      ← written_append, List.singleton_append]

/-! ### Both sessions -/

theorem exitCode_eq_zero_iff (succeeded : Bool) : exitCode succeeded = 0 ↔ succeeded = true := by
  cases succeeded <;> decide

theorem exitCode_eq_one_iff (succeeded : Bool) : exitCode succeeded = 1 ↔ succeeded = false := by
  cases succeeded <;> decide

section Requests

variable (contents? : String → Option String) (input : String) (settings : Settings)

theorem respond_file {path contents : String} (readable : contents? path = some contents) :
    (Request.run settings (.file path)).respond contents? input =
      ⟨exitCode ((outcomes settings (Text.lines contents.toList)).all (·.succeeded)),
        written settings (Text.lines contents.toList)⟩ := by
  simp only [Request.respond, readable, answerFile_eq]

theorem respond_unreadable {path : String} (unread : contents? path = none) :
    (Request.run settings (.file path)).respond contents? input = ⟨1, unreadable path⟩ := by
  simp only [Request.respond, unread]

theorem respond_prompt :
    (Request.run settings .prompt).respond contents? input =
      ⟨0, written settings (Text.lines input.toList)⟩ := by
  rw [Request.respond, answerPrompt_of_cut settings (Text.cut_iff.mpr rfl)]

end Requests

/-- **A file and the standard input with the same contents are answered alike.** For all settings,
if the arguments of one call ask for a file and those of another one for the prompt:

* both calls write, for each line of the contents that is not empty, in order, what is written for
  that line as an expression;
* what is written in front of a line and behind it does not depend on the line;
* the exit code of the file is zero if all these lines succeed, and one otherwise;
* the exit code of the prompt is zero. -/
theorem respond_file_prompt (contents? : String → Option String) (input contents path : String)
    (settings : Settings) (fileArguments promptArguments : List String)
    (asksFile : Request.ofArguments fileArguments = .ok (.run settings (.file path)))
    (asksPrompt : Request.ofArguments promptArguments = .ok (.run settings .prompt))
    (readable : contents? path = some contents) :
    let file := respond contents? input fileArguments
    let prompt := respond contents? contents promptArguments
    ∃ lines, (∀ lines', Text.Cut contents.toList lines' ↔ lines' = lines) ∧
      file.output = .concat ((fullLines lines).map fun line =>
        (answerLine settings (String.ofList line)).output) ∧
      prompt.output = file.output ∧
      (∀ front line back, lines = front ++ line :: back → Text.isEmptyLine line = false →
        file.output = written settings front ++
          (answerLine settings (String.ofList line)).output ++ written settings back) ∧
      (file.code = 0 ↔
        ∀ line ∈ fullLines lines, (answerLine settings (String.ofList line)).succeeded) ∧
      (file.code = 1 ↔
        ∃ line ∈ fullLines lines, ¬ (answerLine settings (String.ofList line)).succeeded) ∧
      prompt.code = 0 := by
  intro file prompt
  have fileEq : file =
      ⟨exitCode ((outcomes settings (Text.lines contents.toList)).all (·.succeeded)),
        written settings (Text.lines contents.toList)⟩ := by
    simp only [file, respond, asksFile, respond_file contents? input settings readable]
  have promptEq : prompt = ⟨0, written settings (Text.lines contents.toList)⟩ := by
    simp only [prompt, respond, asksPrompt, respond_prompt]
  refine ⟨Text.lines contents.toList, fun lines' => ?_, ?_, ?_, ?_, ?_, ?_, ?_⟩
  · rw [Text.cut_iff, eq_comm]
  · rw [fileEq]
    simp [written, outcomes, Function.comp_def]
  · rw [fileEq, promptEq]
  · intro front line back parts full
    rw [fileEq, parts, ← written_full settings full, ← written_append, ← written_append,
      List.append_assoc, List.singleton_append]
  · rw [fileEq, exitCode_eq_zero_iff]
    simp [outcomes]
  · rw [fileEq, exitCode_eq_one_iff]
    simp [outcomes]
  · rw [promptEq]

/-- The file has an empty line between an expression that is malformed and one that is not, and
three different ends of lines. -/
theorem respond_file_prompt_failing :
    let contents? : String → Option String := fun path =>
      if path = "sums.calc" then some ")\r\n \n1" else none
    let file := respond contents? "" ["-cf", "sums.calc"]
    let prompt := respond contents? ")\r\n \n1" ["--check"]
    prompt.output = file.output ∧ file.code = 1 ∧ prompt.code = 0 := by
  intro contents? file prompt
  obtain ⟨lines, cut, -, alike, -, -, fails, ends⟩ :=
    respond_file_prompt contents? "" ")\r\n \n1" "sums.calc" ⟨false, true⟩ ["-cf", "sums.calc"]
      ["--check"] (by decide +kernel) (by decide +kernel) (if_pos rfl)
  obtain rfl := (cut _).mp (Text.cut_iff.mpr rfl)
  have full : fullLines (Text.lines ")\r\n \n1".toList) = [[')'], ['1']] := by decide +kernel
  have failed : ¬ (answerLine ⟨false, true⟩ (String.ofList [')'])).succeeded := by decide +kernel
  rw [full] at fails
  exact ⟨alike, fails.mpr ⟨[')'], List.mem_cons_self, failed⟩, ends⟩

end Calculator.CommandLine
