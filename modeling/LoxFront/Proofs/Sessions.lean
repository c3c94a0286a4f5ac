/-
This file proves that a session at the prompt is made up of runs on files, one for each line, and
that nothing is carried over from one line to the next. The input is cut behind every newline. A
line that is a text is answered with what the program writes when it is called on a file with that
content, and what is wrong with the line is said on the error output. A line that is no text ends
the session, behind the answers to the lines in front of it. The one thing to rule out is that an
answer ends the session for another reason, and the output at the prompt never runs full.
-/

import LoxFront.Proofs.Emission
import LoxFront.Session

namespace LoxFront.Session

/-! ### Lines -/

/-- Input cut into lines: every newline ends a line, and behind the last newline there may be a
line without one. -/
inductive Cut : Bytes → List Bytes → Prop
  | nil : Cut [] []
  | last {body : Bytes} (nonempty : body ≠ []) (oneLine : newline ∉ body) : Cut body [body]
  | line {body rest : Bytes} {later : List Bytes} (oneLine : newline ∉ body)
      (cut : Cut rest later) : Cut (body ++ newline :: rest) ((body ++ [newline]) :: later)

theorem lines_of_notMem {body : Bytes} (nonempty : body ≠ []) (oneLine : newline ∉ body) :
    lines body = [body] := by
  induction body with
  | nil => exact absurd rfl nonempty
  | cons byte rest inductionHypothesis =>
    rw [lines, if_neg (List.ne_of_not_mem_cons oneLine).symm]
    by_cases ended : rest = []
    · rw [ended, lines]
    · rw [inductionHypothesis ended (List.not_mem_of_not_mem_cons oneLine)]

theorem lines_append {body : Bytes} (oneLine : newline ∉ body) (rest : Bytes) :
    lines (body ++ newline :: rest) = (body ++ [newline]) :: lines rest := by
  induction body with
  | nil =>
    rw [List.nil_append, lines, if_pos rfl]
    rfl
  | cons byte others inductionHypothesis =>
    rw [List.cons_append, lines, if_neg (List.ne_of_not_mem_cons oneLine).symm,
      inductionHypothesis (List.not_mem_of_not_mem_cons oneLine)]
    rfl

theorem cut_lines (input : Bytes) : Cut input (lines input) := by
  induction size : input.length using Nat.strongRecOn generalizing input with
  | ind size inductionHypothesis =>
    subst size
    by_cases ends : newline ∈ input
    · obtain ⟨body, rest, rfl, oneLine⟩ := List.eq_append_cons_of_mem ends
      have shorter : rest.length < (body ++ newline :: rest).length := by
        rw [List.length_append, List.length_cons]
        omega
      rw [lines_append oneLine]
      exact .line oneLine (inductionHypothesis _ shorter rest rfl)
    · by_cases empty : input = []
      · rw [empty]
        exact .nil
      · rw [lines_of_notMem empty ends]
        exact .last empty ends

/-- There is one way to cut input into lines. -/
theorem cut_iff {input : Bytes} {cut : List Bytes} : Cut input cut ↔ cut = lines input := by
  refine ⟨fun cuts => ?_, fun equal => equal ▸ cut_lines input⟩
  induction cuts with
  | nil => rfl
  | last nonempty oneLine => exact (lines_of_notMem nonempty oneLine).symm
  | line oneLine _ inductionHypothesis => rw [lines_append oneLine, inductionHypothesis]

/-! ### One line -/

/-- What the output gains by a line: the mark, and what the program writes when it is called on a
file that consists of the line. -/
def answered (listTokens : Bool) (line : Bytes) : Bytes :=
  promptMark ++ (onFile listTokens line).output

/-- What the error output gains by a line: the diagnostics of a run on it, if that ends in any. -/
def complaint (listTokens : Bool) (line : Bytes) : Bytes :=
  match Text.ofUtf8? line with
  | none => []
  | some source =>
    match (runInto {} source listTokens).1 with
    | .error (.diagnostics found) => Text.utf8 (Diagnostic.report found ++ ['\n'])
    | .error .sinkFull | .ok _ => []

/-- A line that is a text never ends the session. -/
theorem onLine_of_valid (listTokens : Bool) {line : Bytes} {source : Text}
    (valid : Text.ofUtf8? line = some source) :
    onLine listTokens line =
      { output := (onFile listTokens line).output, errors := complaint listTokens line } := by
  have run : runInto {} source listTokens = (verdict source, _) :=
    (emits_run source listTokens).unlimited
  unfold onLine onFile complaint
  rw [valid]
  dsimp only
  rw [run]
  cases outcome : verdict source with
  | ok => rfl
  | error failure =>
    cases failure with
    | diagnostics found => rfl
    | sinkFull => exact absurd outcome (verdict_ne_sinkFull source)

theorem onLine_of_invalid (listTokens : Bool) {line : Bytes} (invalid : Text.ofUtf8? line = none) :
    onLine listTokens line = .failed [] notUtf8 := by
  rw [onLine, invalid]

/-! ### All lines -/

/-- A session whose first lines are texts: they are answered one by one, and then it goes on as if
they had not been there. -/
theorem onLines_append (listTokens : Bool) {before : List Bytes}
    (valid : ∀ line ∈ before, Text.ofUtf8? line ≠ none) (rest : List Bytes) :
    onLines listTokens (before ++ rest) =
      { output := before.flatMap (answered listTokens) ++ (onLines listTokens rest).output
        errors := before.flatMap (complaint listTokens) ++ (onLines listTokens rest).errors
        code := (onLines listTokens rest).code } := by
  induction before with
  | nil => rfl
  | cons line before inductionHypothesis =>
    obtain ⟨validLine, validBefore⟩ := List.forall_mem_cons.mp valid
    obtain ⟨source, read⟩ := Option.ne_none_iff_exists'.mp validLine
    rw [List.cons_append, onLines, onLine_of_valid listTokens read, if_pos rfl,
      inductionHypothesis validBefore, Transcript.followedBy, List.flatMap_cons,
      List.flatMap_cons, answered]
    simp only [List.append_assoc]

/-- A session at the prompt is put together from runs on files, line by line. The input is cut
behind every newline. If all lines are texts, the output is a mark and the output for a file with
that content for every line, and a last mark; the errors are the diagnostics of the lines that have
any. The first line that is no text ends the session with an error behind the answers to the lines
in front of it, whatever comes after it. -/
theorem atPrompt_composes_runs (listTokens : Bool) (input : Bytes) :
    (∀ cut, Cut input cut ↔ cut = lines input) ∧
      ((∀ line ∈ lines input, Text.ofUtf8? line ≠ none) →
        atPrompt listTokens input =
          { output := (lines input).flatMap (answered listTokens) ++ promptMark
            errors := (lines input).flatMap (complaint listTokens)
            code := 0 }) ∧
      ∀ before bad after, lines input = before ++ bad :: after →
        (∀ line ∈ before, Text.ofUtf8? line ≠ none) → Text.ofUtf8? bad = none →
          atPrompt listTokens input =
            { output := before.flatMap (answered listTokens) ++ promptMark
              errors := before.flatMap (complaint listTokens) ++
                Text.utf8 "Error: stream did not contain valid UTF-8\n".toList
              code := 1 } := by
  refine ⟨fun cut => cut_iff, fun valid => ?_, fun before bad after split valid invalid => ?_⟩
  · have whole := onLines_append listTokens valid []
    rw [List.append_nil] at whole
    rw [atPrompt, whole, onLines, List.append_nil]
  · rw [atPrompt, split, onLines_append listTokens valid, onLines,
      onLine_of_invalid listTokens invalid]
    rfl

/-- Of three lines the first is an opening parenthesis, the second is no text, and the third is not
looked at. -/
theorem atPrompt_composes_runs_of_parenthesis :
    atPrompt false [40, 10, 255, 10, 50] =
      { output := [[40, 10]].flatMap (answered false) ++ promptMark
        errors := [[40, 10]].flatMap (complaint false) ++
          Text.utf8 "Error: stream did not contain valid UTF-8\n".toList
        code := 1 } :=
  (atPrompt_composes_runs false _).2.2 [[40, 10]] [255, 10] [[50]] (by decide) (by decide +kernel)
    (by decide +kernel)

end LoxFront.Session
